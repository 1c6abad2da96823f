import ReviewFlow.GoogleReviews.Models

/-!
# Connect attempts, the code exchange and the token refresh

Each function is the transaction of the source, or the part of it between two provider
calls. What a task knows between its parts is in `Task`.
-/

namespace ReviewFlow.GoogleReviews

open Savepoint Tables Program

section Attempts

def selects (attemptId : Option Uuid) (a : GoogleOAuthState) : Bool := attemptId.all (a.id == ·)

/-- ISSUED, or PENDING with its code still stored, and past `expires_at`. -/
def expires (attemptId : Option Uuid) (now : Time) (a : GoogleOAuthState) : Bool :=
  selects attemptId a && (a.status == .issued || a.status == .pending && a.codeEnc.isSome) &&
    decide (a.expiresAt ≤ now)

/-- An exchange in flight, past `expires_at` and the grace period. -/
def interrupts (attemptId : Option Uuid) (now grace : Time) (a : GoogleOAuthState) : Bool :=
  selects attemptId a && (a.status == .pending && a.codeEnc.isNone) && decide
    (a.expiresAt ≤ now - grace)

def expireAttempts (attemptId : Option Uuid) (now : Time) : GoogleM Unit := do
  let env ← ask
  let _ ← updateAttempts (expires attemptId now) (fun a => { a with
    status := .failed, failureCode := some .oauthExpired, codeEnc := none,
      completedAt := some now })
    fun _ => ⟨rfl, rfl⟩
  let _ ← updateAttempts (interrupts attemptId now env.exchangeGrace) (fun a => { a with
    status := .failed, failureCode := some .exchangeInterrupted, completedAt := some now })
    fun _ => ⟨rfl, rfl⟩

def purgeAttempts (now : Time) : GoogleM Unit := do
  let env ← ask
  modify fun db => { db with
    attempts := db.attempts.delete fun a =>
      (a.status == .completed || a.status == .failed) &&
        decide (a.expiresAt ≤ now - env.attemptRetention) }

/-- `GoogleOAuthState.objects.create`. -/
def createAttempt (userId : Uuid) (stateHash nonceHash : String)
    (expiresAt : Time) : GoogleM Unit :=
  query fun _ db =>
    match db.attempts.insert?
      ⟨db.nextId, userId, stateHash, nonceHash, .issued, none, none, none, expiresAt, none⟩ with
    | some attempts => (.ok (), { db with attempts := attempts, nextId := db.nextId + 1 })
    | none => (.error (.integrityError "google_reviews_googleoauthstate_state_hash_key"), db)

/-- `state` and `nonce` are the two random values. -/
def issueOauthState (actor : Uuid) (state nonce : String) : GoogleM Unit := do
  let env ← ask
  savepoint do
    expireAttempts none env.now
    purgeAttempts env.now
    createAttempt actor (env.hash state) (env.hash nonce) (env.now + env.stateMaxAge)

def beginGoogleOauth (actor : Uuid) (state nonce : String) : GoogleM Unit := do
  let env ← ask
  whenever (env.enabled = false) (raise .googleNotConfigured)
  issueOauthState actor state nonce

def completeGoogleOauth (actor : Uuid) (code state : String) : GoogleM Unit := do
  let env ← ask
  whenever (env.enabled = false) (raise .googleNotConfigured)
  let codeEnc ← encrypt code
  savepoint do
    let claimed ← updateAttempts (fun a => a.stateHash == env.hash state && a.userId == actor &&
      a.status == .issued && decide (env.now < a.expiresAt))
      (fun a => { a with status := .pending, codeEnc := some codeEnc }) fun _ => ⟨rfl, rfl⟩
    whenever (claimed ≠ 1) (raise .invalidOAuthState)

def getOauthAttempt (actor attemptId : Uuid) : GoogleM GoogleOAuthState := do
  let env ← ask
  let attempt ← savepoint do
    expireAttempts (some attemptId) env.now
    let db ← get
    pure (db.attempts.find? fun a => a.id == attemptId && a.userId == actor)
  match attempt with
  | some attempt => pure attempt
  | none => raise .googleNotFound

def sweepOauthAttempts : GoogleM Unit := do
  let env ← ask
  savepoint do
    expireAttempts none env.now
    purgeAttempts env.now

end Attempts

section Exchange

structure TakenCode where
  codeEnc : Ciphertext
  nonceHash : String
  userId : Uuid
  deriving DecidableEq

/-- What `_upsert_connection` reads of validated claims. -/
structure Identity where
  sub : String
  email : String

inductive Task where
  /-- The `SELECT` of `_take_code`. -/
  | takeCode (attemptId : Uuid)
  /-- Its `UPDATE`. -/
  | swapCode (attemptId : Uuid) (row : TakenCode) (now : Time)
  | exchangeCode (attemptId : Uuid) (row : TakenCode)
  | finishOk (attemptId userId : Uuid) (claims : Identity) (result : ExchangeResult)
  | fail (attemptId : Uuid) (code : FailureCode)
  | readConnection (connectionId : Uuid)
  | refresh (connectionId : Uuid) (seen : Ciphertext)
  | markNeedsReauth (connectionId : Uuid) (seen : Ciphertext) (reason : String)
  | persist (connectionId : Uuid) (seen : Ciphertext) (tokens : TokenSet)

def markFailed (attemptId : Uuid) (code : FailureCode) (now : Time) : GoogleM ℕ :=
  updateAttempts (fun a => a.id == attemptId && a.status == .pending) (fun a => { a with
    status := .failed, failureCode := some code, completedAt := some now, codeEnc := none })
    fun _ => ⟨rfl, rfl⟩

def takeCode (attemptId : Uuid) : GoogleM (Option Task) := do
  let env ← ask
  let db ← get
  let row := db.attempts.find? fun a => a.id == attemptId && a.status == .pending &&
    a.codeEnc.isSome && decide (env.now < a.expiresAt)
  pure (row.bind fun a => a.codeEnc.map fun codeEnc =>
    .swapCode attemptId ⟨codeEnc, a.nonceHash, a.userId⟩ env.now)

def swapCode (attemptId : Uuid) (row : TakenCode) (now : Time) : GoogleM (Option Task) := do
  let taken ← updateAttempts (fun a => a.id == attemptId && a.status == .pending &&
    a.codeEnc == some row.codeEnc && decide (now < a.expiresAt))
      (fun a => { a with codeEnc := none })
    fun _ => ⟨rfl, rfl⟩
  pure (if taken = 1 then some (.exchangeCode attemptId row) else none)

def businessScope : String := "https://www.googleapis.com/auth/business.manage"

/-- `not claims.sub or len(claims.sub) > 255 or not claims.email or len(claims.email) > 254`. -/
def identity (claims : IdTokenClaims) : Option Identity :=
  match claims.sub, claims.email with
  | some sub, some email =>
    if sub = "" ∨ 255 < sub.length ∨ email = "" ∨ 254 < email.length then none
    else some ⟨sub, email⟩
  | _, _ => none

def validateExchange (env : Env) (result : ExchangeResult) (nonceHash : String) :
    Except FailureCode Identity :=
  match result.idToken.filter (· != "") with
  | none => .error .identityMissing
  | some token => match env.verifyIdToken token with
    | .error .unverifiable => .error .idTokenUnverifiable
    | .error .invalid => .error .idTokenInvalid
    | .ok claims =>
      if claims.nonce.map env.hash ≠ some nonceHash then .error .idTokenInvalid
      else match identity claims with
        | none => .error .identityMissing
        | some claims =>
          if businessScope ∈ result.grantedScopes then .ok claims else .error .scopeMissing

/-- The provider calls of `exchange_attempt`. A revoked authorization is not caught. -/
def exchangeCode (attemptId : Uuid) (row : TakenCode) : GoogleM (Option Task) := do
  let env ← ask
  match env.decrypt row.codeEnc with
  | none => pure (some (.fail attemptId .exchangeFailed))
  | some code => match env.exchangeCode code with
    | .error (.authRevoked reason) => raise (.provider (.authRevoked reason))
    | .error _ => pure (some (.fail attemptId .exchangeFailed))
    | .ok result => match validateExchange env result row.nonceHash with
      | .error failure => pure (some (.fail attemptId failure))
      | .ok claims => pure (some (.finishOk attemptId row.userId claims result))

def connectionUnique : String := "google_connection_merchant_sub_uniq"

/-- `GoogleConnection.objects.create`. -/
def createConnection (claims : Identity) (accessTokenEnc refreshTokenEnc : Ciphertext)
    (expiresAt now : Time) : GoogleM GoogleConnection :=
  query fun _ db =>
    let connection : GoogleConnection :=
      ⟨db.nextId, claims.sub, claims.email, accessTokenEnc, refreshTokenEnc, expiresAt,
        .active, some now⟩
    match db.connections.insert? connection with
    | some connections =>
      (.ok connection, { db with connections := connections, nextId := db.nextId + 1 })
    | none => (.error (.integrityError connectionUnique), db)

/-- `existing.save(update_fields=...)`. -/
def saveConnection (connection : GoogleConnection) : GoogleM Unit := do
  let _ ← updateConnections (fun c => c.id == connection.id) (fun c => { c with
    accessTokenEnc := connection.accessTokenEnc
    refreshTokenEnc := connection.refreshTokenEnc
    googleAccountEmail := connection.googleAccountEmail
    expiresAt := connection.expiresAt
    status := connection.status
    connectedAt := connection.connectedAt }) fun _ => ⟨rfl, rfl⟩

def upsertConnection (claims : Identity) (result : ExchangeResult) (now : Time) :
    GoogleM (Except FailureCode (GoogleConnection × Bool)) := do
  let env ← ask
  let db ← get
  match if env.raced then none else db.connections.find? (·.googleAccountSub == claims.sub) with
  | none => match result.refreshToken with
    | none => pure (.error .refreshTokenMissing)
    | some refreshToken =>
      let accessTokenEnc ← encrypt result.accessToken
      let refreshTokenEnc ← encrypt refreshToken
      let connection ← createConnection claims accessTokenEnc refreshTokenEnc result.expiresAt now
      pure (.ok (connection, true))
  | some existing =>
    if result.refreshToken = none ∧
      existing.status ≠ .active then pure (.error .refreshTokenMissing)
    else
      let accessTokenEnc ← encrypt result.accessToken
      let refreshTokenEnc ← match result.refreshToken with
        | some refreshToken => encrypt refreshToken
        | none => pure existing.refreshTokenEnc
      let connection := { existing with
        accessTokenEnc := accessTokenEnc
        refreshTokenEnc := refreshTokenEnc
        googleAccountEmail := claims.email
        expiresAt := result.expiresAt
        status := .active
        connectedAt := some now }
      saveConnection connection
      pure (.ok (connection, false))

def record (action : String) (actor target : Uuid) : GoogleM Unit := do
  let env ← ask
  savepoint do
    whenever (env.recordsMember = false) (raise .actorNotMember)
    modify fun db => { db with audit := db.audit ++ [⟨action, actor, target⟩] }

def completeAttempt (attemptId connectionId : Uuid) (now : Time) : GoogleM ℕ :=
  updateAttempts (fun a => a.id == attemptId && a.status == .pending) (fun a => { a with
    status := .completed, googleConnectionId := some connectionId, completedAt := some now,
      codeEnc := none })
    fun _ => ⟨rfl, rfl⟩

def finishOk (attemptId userId : Uuid) (claims : Identity) (result : ExchangeResult) :
    GoogleM Unit := do
  let env ← ask
  if env.member = false then
    let _ ← markFailed attemptId .actorNotMember env.now
  else
    match ← upsertConnection claims result env.now with
    | .error failure =>
      let _ ← markFailed attemptId failure env.now
    | .ok (connection, created) =>
      record (if created then "google.connection_added" else "google.connection_reauthorized")
        userId connection.id
      let updated ← completeAttempt attemptId connection.id env.now
      whenever (updated ≠ 1) (raise .attemptNoLongerPending)

/-- What `exchange_attempt` does after a finish that rolled back. -/
def afterRollback (attemptId : Uuid) : Error → GoogleM (Option Task)
  | .attemptNoLongerPending => pure none
  | .actorNotMember => pure (some (.fail attemptId .actorNotMember))
  | .integrityError constraint =>
    if constraint =
      connectionUnique then pure (some (.fail attemptId .googleAccountAlreadyConnected))
    else raise (.integrityError constraint)
  | e => raise e

end Exchange

section Refresh

def unrenewed (connectionId : Uuid) (seen : Ciphertext) (c : GoogleConnection) : Bool :=
  c.id == connectionId && c.status == .active && c.refreshTokenEnc == seen

def readConnection (connectionId : Uuid) : GoogleM (Option Task) := do
  let env ← ask
  let db ← get
  match db.connections.byId connectionId with
  | none => pure none
  | some connection =>
    if connection.status ≠ .active ∨
      env.now + env.refreshMargin < connection.expiresAt then pure none
    else pure (some (.refresh connectionId connection.refreshTokenEnc))

def refresh (connectionId : Uuid) (seen : Ciphertext) : GoogleM (Option Task) := do
  let env ← ask
  match env.decrypt seen with
  | none => pure none
  | some refreshToken => match env.refresh refreshToken with
    | .error (.authRevoked reason) => pure (some (.markNeedsReauth connectionId seen reason))
    | .error e => raise (.provider e)
    | .ok tokens => pure (some (.persist connectionId seen tokens))

def markNeedsReauth (connectionId : Uuid) (seen : Ciphertext) : GoogleM ℕ :=
  updateConnections (unrenewed connectionId seen) (fun c => { c with status := .needsReauth })
    fun _ => ⟨rfl, rfl⟩

def persist (connectionId : Uuid) (seen : Ciphertext) (tokens : TokenSet) : GoogleM ℕ := do
  let accessTokenEnc ← encrypt tokens.accessToken
  match tokens.refreshToken.filter (· != "") with
  | some refreshToken =>
    let refreshTokenEnc ← encrypt refreshToken
    updateConnections (unrenewed connectionId seen) (fun c => { c with
      accessTokenEnc := accessTokenEnc, expiresAt := tokens.expiresAt,
        refreshTokenEnc := refreshTokenEnc })
      fun _ => ⟨rfl, rfl⟩
  | none =>
    updateConnections (unrenewed connectionId seen) (fun c => { c with
      accessTokenEnc := accessTokenEnc, expiresAt := tokens.expiresAt })
      fun _ => ⟨rfl, rfl⟩

end Refresh

def taskProgram : Task → GoogleM (Option Task)
  | .takeCode attemptId => takeCode attemptId
  | .swapCode attemptId row now => swapCode attemptId row now
  | .exchangeCode attemptId row => exchangeCode attemptId row
  | .finishOk attemptId userId claims result => handle
      (do
        savepoint (finishOk attemptId userId claims result)
        pure none) (afterRollback attemptId)
  | .fail attemptId code => do
    let env ← ask
    let _ ← markFailed attemptId code env.now
    pure none
  | .readConnection connectionId => readConnection connectionId
  | .refresh connectionId seen => refresh connectionId seen
  | .markNeedsReauth connectionId seen _ => do
    let _ ← markNeedsReauth connectionId seen
    pure none
  | .persist connectionId seen tokens => do
    let _ ← persist connectionId seen tokens
    pure none

end ReviewFlow.GoogleReviews
