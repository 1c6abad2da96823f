import ReviewFlow.Savepoint
import ReviewFlow.Table
import ReviewFlow.Values

/-!
# Google connections and connect attempts

The rows are those of one merchant. Primary keys and the random part of a Fernet token
come from counters: neither is drawn twice.
-/

namespace ReviewFlow.GoogleReviews

open Savepoint Tables Program

abbrev Uuid := ℕ

structure Ciphertext where
  nonce : ℕ
  text : String
  deriving DecidableEq

inductive ConnectionStatus where
  | active
  | needsReauth
  deriving DecidableEq

structure GoogleConnection where
  id : Uuid
  googleAccountSub : String
  googleAccountEmail : String
  accessTokenEnc : Ciphertext
  refreshTokenEnc : Ciphertext
  expiresAt : Time
  status : ConnectionStatus
  connectedAt : Option Time
  deriving DecidableEq

/-- The primary key and `google_connection_merchant_sub_uniq`. -/
def GoogleConnection.Clash (a b : GoogleConnection) : Prop :=
  a.id = b.id ∨ a.googleAccountSub = b.googleAccountSub

inductive AttemptStatus where
  | issued
  | pending
  | completed
  | failed
  deriving DecidableEq

inductive FailureCode where
  | oauthExpired
  | exchangeFailed
  | exchangeInterrupted
  | scopeMissing
  | identityMissing
  | refreshTokenMissing
  | idTokenInvalid
  | idTokenUnverifiable
  | actorNotMember
  | googleAccountAlreadyConnected
  deriving DecidableEq

structure GoogleOAuthState where
  id : Uuid
  userId : Uuid
  stateHash : String
  nonceHash : String
  status : AttemptStatus
  codeEnc : Option Ciphertext
  failureCode : Option FailureCode
  googleConnectionId : Option Uuid
  expiresAt : Time
  completedAt : Option Time
  deriving DecidableEq

/-- The primary key and the unique `state_hash`. -/
def GoogleOAuthState.Clash (a b : GoogleOAuthState) : Prop :=
  a.id = b.id ∨ a.stateHash = b.stateHash

structure GoogleOAuthState.Checks (a : GoogleOAuthState) : Prop where
  codeOnlyPending : a.codeEnc = none ∨ a.status = .pending
  failureCodeIffFailed : a.status = .failed ↔ a.failureCode ≠ none
  completedHasConnection : a.status = .completed → a.googleConnectionId ≠ none

instance : DecidableRel GoogleConnection.Clash := fun _ _ => inferInstanceAs (Decidable (_ ∨ _))
instance : DecidableRel GoogleOAuthState.Clash := fun _ _ => inferInstanceAs (Decidable (_ ∨ _))

abbrev Connections := Table GoogleConnection GoogleConnection.Clash
abbrev Attempts := Table GoogleOAuthState GoogleOAuthState.Clash

structure AuditLog where
  action : String
  actor : Uuid
  target : Uuid
  deriving DecidableEq

structure Database where
  connections : Connections
  attempts : Attempts
  audit : List AuditLog
  nextId : Uuid
  drawn : ℕ

structure TokenSet where
  accessToken : String
  refreshToken : Option String
  expiresAt : Time

structure ExchangeResult where
  accessToken : String
  refreshToken : Option String
  expiresAt : Time
  grantedScopes : List String
  idToken : Option String

structure IdTokenClaims where
  sub : Option String
  email : Option String
  nonce : Option String

inductive ProviderError where
  | transient
  | permanent
  | rateLimited
  | authRevoked (reason : String)
  deriving DecidableEq

inductive IdTokenError where
  | invalid
  | unverifiable
  deriving DecidableEq

inductive Error where
  | googleNotConfigured
  | invalidOAuthState
  | googleNotFound
  | actorNotMember
  | attemptNoLongerPending
  | integrityError (constraint : String)
  | provider (e : ProviderError)
  deriving DecidableEq

/-- What a step is given: the clock, the settings, the crypto, the answers of Google and
what it sees of other transactions. -/
structure Env where
  now : Time
  enabled : Bool
  exchangeGrace : Time
  attemptRetention : Time
  stateMaxAge : Time
  refreshMargin : Time
  hash : String → String
  /-- None is `InvalidToken`. -/
  decrypt : Ciphertext → Option String
  exchangeCode : String → Except ProviderError ExchangeResult
  verifyIdToken : String → Except IdTokenError IdTokenClaims
  refresh : String → Except ProviderError TokenSet
  /-- The re-check of the membership finds it. -/
  member : Bool
  /-- `record` still finds it. -/
  recordsMember : Bool
  /-- A connection of the same account is committed after the `SELECT` that looks for it. -/
  raced : Bool

abbrev GoogleM := Program Env Error Database Unit

section Statements

variable {c : GoogleConnection} {a b : GoogleOAuthState} {k : Uuid}

theorem GoogleConnection.Clash.symm (a b : GoogleConnection) (h : a.Clash b) : b.Clash a :=
  h.imp Eq.symm Eq.symm

theorem GoogleOAuthState.Clash.symm (a b : GoogleOAuthState) (h : a.Clash b) : b.Clash a :=
  h.imp Eq.symm Eq.symm

def Connections.byId (t : Connections) (k : Uuid) : Option GoogleConnection := t.find? (·.id == k)

/-- `UPDATE ... WHERE`, on columns that no unique constraint names. -/
def Attempts.updateWhere (t : Attempts) (p : GoogleOAuthState → Bool)
    (f : GoogleOAuthState → GoogleOAuthState)
    (h : ∀ a, (f a).id = a.id ∧ (f a).stateHash = a.stateHash) : Attempts :=
  t.update (fun a => if p a then f a else a) fun a b => by
    have hf : ∀ c, (if p c then f c else c).id = c.id ∧
        (if p c then f c else c).stateHash = c.stateHash := by
      intro c
      split
      · exact h c
      · exact ⟨rfl, rfl⟩
    simp only [GoogleOAuthState.Clash, hf, imp_self]

def Connections.updateWhere (t : Connections) (p : GoogleConnection → Bool)
    (f : GoogleConnection → GoogleConnection)
    (h : ∀ c, (f c).id = c.id ∧ (f c).googleAccountSub = c.googleAccountSub) : Connections :=
  t.update (fun c => if p c then f c else c) fun a b => by
    have hf : ∀ c, (if p c then f c else c).id = c.id ∧
        (if p c then f c else c).googleAccountSub = c.googleAccountSub := by
      intro c
      split
      · exact h c
      · exact ⟨rfl, rfl⟩
    simp only [GoogleConnection.Clash, hf, imp_self]

def updateAttempts (p : GoogleOAuthState → Bool) (f : GoogleOAuthState → GoogleOAuthState)
    (h : ∀ a, (f a).id = a.id ∧ (f a).stateHash = a.stateHash) : GoogleM ℕ :=
  query fun _ db =>
    (.ok (db.attempts.rows.countP p), { db with attempts := db.attempts.updateWhere p f h })

def updateConnections (p : GoogleConnection → Bool) (f : GoogleConnection → GoogleConnection)
    (h : ∀ c, (f c).id = c.id ∧ (f c).googleAccountSub = c.googleAccountSub) : GoogleM ℕ :=
  query fun _ db =>
    (.ok (db.connections.rows.countP p),
      { db with connections := db.connections.updateWhere p f h })

def encrypt (text : String) : GoogleM Ciphertext :=
  query fun _ db => (.ok ⟨db.drawn, text⟩, { db with drawn := db.drawn + 1 })

theorem forall_none {α : Type} {P : α → Prop} : ∀ a ∈ (none : Option α), P a := by
  simp

theorem attempts_eq {t : Attempts} (ha : a ∈ t) (hb : b ∈ t) (h : a.id = b.id) : a = b :=
  Table.eq_of_clash GoogleOAuthState.Clash.symm ha hb (.inl h)

theorem connections_eq {t : Connections} {a b : GoogleConnection} (ha : a ∈ t) (hb : b ∈ t)
    (h : a.id = b.id) : a = b :=
  Table.eq_of_clash GoogleConnection.Clash.symm ha hb (.inl h)

theorem Connections.byId_eq_some {t : Connections} : t.byId k = some c ↔ c ∈ t ∧ c.id = k := by
  constructor
  · intro h
    obtain ⟨hc, hk⟩ := Table.mem_of_find? h
    exact ⟨hc, beq_iff_eq.mp hk⟩
  · rintro ⟨hc, rfl⟩
    refine Table.find?_eq_some_of_mem GoogleConnection.Clash.symm hc (beq_self_eq_true _) ?_
    intro a b ha hb
    exact .inl ((beq_iff_eq.mp ha).trans (beq_iff_eq.mp hb).symm)

theorem Attempts.mem_updateWhere {t : Attempts} {p : GoogleOAuthState → Bool}
    {f : GoogleOAuthState → GoogleOAuthState} {h} :
    b ∈ t.updateWhere p f h ↔ ∃ a ∈ t, (if p a then f a else a) = b := Table.mem_update

theorem Connections.mem_updateWhere {t : Connections} {p : GoogleConnection → Bool}
    {f : GoogleConnection → GoogleConnection} {h} :
    c ∈ t.updateWhere p f h ↔ ∃ a ∈ t, (if p a then f a else a) = c := Table.mem_update

end Statements

end ReviewFlow.GoogleReviews
