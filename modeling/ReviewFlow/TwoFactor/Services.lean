import ReviewFlow.Interleaving
import ReviewFlow.Python.Text
import ReviewFlow.Values

/-!
# The second factors of a user

Each operation is one transaction that holds the lock on the User row until it ends, so it
is a function of the row, and where it raises the row stays. `_verify_totp` and
`_consume_recovery_code` return what they accepted, where the source says only that they did.
-/

namespace ReviewFlow.TwoFactor

open Python Interleaving

/-- The columns that the operations read. `decrypt` gives back what `encrypt` was given, so
the secret stands for its ciphertext. -/
structure User where
  isActive : Bool
  isStaff : Bool
  totpSecret : Option Str
  totpConfirmedAt : Option Time
  totpLastUsedStep : Option ℤ
  totpRecoveryCodeHashes : List Str
  deriving DecidableEq

def User.isTotpEnabled (user : User) : Bool := user.totpConfirmedAt.isSome

inductive Error where
  | invalidCredentials
  | reauthenticationFailed
  | totpAlreadyEnabled
  | totpSetupRequired
  | totpNotEnabled
  | invalidTotpCode
  | notActiveStaff
  | auditFailed
  | valueError
  | typeError
  deriving DecidableEq

structure Library where
  generateOtp : Str → ℤ → Str
  sha256 : Str → Str
  lower : Str → Str

/-- What a transaction is given: the clock, the random values, whether the audit row and the
membership are there, and whether it commits. -/
structure Env where
  now : Time
  confirmedAt : Time
  randomBase32 : Str
  tokenHex : List Str
  checkPassword : Str → Bool
  membership : Bool
  recorded : Bool
  commits : Bool

/-- What was accepted: a code of a time step, or the recovery code with a hash. -/
inductive Factor where
  | totp (step : ℤ)
  | recovery (hash : Str)
  deriving DecidableEq

def totpMaxAttempts : ℕ := 5
def totpPendingMaxAge : Time := seconds 300

/-- `pyotp.TOTP.timecode` of an aware datetime. -/
def timecode (now : Time) : ℤ := (now / 1000000).tdiv 30

def totpCodeRe (s : Str) : Bool := (beforeEnd s).length == 6 && (beforeEnd s).all isAsciiDigit

def compareDigest (a b : Str) : Except Error Bool :=
  if a.all (· < 128) && b.all (· < 128) then .ok (a == b) else .error .typeError

def totpAt (lib : Library) (secret : Str) (step : ℤ) : Except Error Str :=
  if step < 0 then .error .valueError else .ok (lib.generateOtp secret step)

def matchingStep (lib : Library) (secret code : Str) (now : Time) (lastUsed : ℤ) :
    List ℤ → Except Error (Option ℤ)
  | [] => .ok none
  | offset :: rest =>
    if timecode now + offset ≤ lastUsed then matchingStep lib secret code now lastUsed rest
    else do
      let expected ← totpAt lib secret (timecode now + offset)
      if ← compareDigest expected code then pure (some (timecode now + offset))
      else matchingStep lib secret code now lastUsed rest

def verifyTotp (lib : Library) (user : User) (code : Str) (now : Time) :
    Except Error (Option ℤ × User) :=
  match user.totpSecret with
  | none => .ok (none, user)
  | some secret => do
    match ← matchingStep lib secret code now (user.totpLastUsedStep.getD (-1)) [-1, 0, 1] with
    | some step => pure (some step, { user with totpLastUsedStep := some step })
    | none => pure (none, user)

def normalizeRecoveryCode (lib : Library) (code : Str) : Str :=
  (lib.lower (strip code)).filter fun c => c != 45

def hashRecoveryCode (lib : Library) (code : Str) : Str :=
  lib.sha256 (normalizeRecoveryCode lib code)

def consumeRecoveryCode (lib : Library) (user : User) (code : Str) : Option Str × User :=
  match user.totpRecoveryCodeHashes.find? (· == hashRecoveryCode lib code) with
  | some stored => (some stored,
      { user with totpRecoveryCodeHashes := user.totpRecoveryCodeHashes.filter fun h =>
        h != stored })
  | none => (none, user)

/-- `_TOTP_CODE_RE.match(candidate) and _verify_totp(user, candidate, now)`. -/
def verifyTotpCode (lib : Library) (user : User) (candidate : Str) (now : Time) :
    Except Error (Option ℤ × User) :=
  if totpCodeRe candidate then verifyTotp lib user candidate now else .ok (none, user)

def verifySecondFactor (lib : Library) (user : User) (code : Str) (now : Time) :
    Except Error (Option Factor × User) := do
  match ← verifyTotpCode lib user (strip code) now with
  | (some step, user) => pure (some (.totp step), user)
  | (none, user) =>
    let (hash, user) := consumeRecoveryCode lib user code
    pure (hash.map .recovery, user)

def generateRecoveryCodes (lib : Library) (env : Env) : List Str :=
  env.tokenHex.map (hashRecoveryCode lib)

def record (env : Env) : Except Error Unit := if env.recorded then .ok () else .error .auditFailed

def raiseIf (c : Prop) [Decidable c] (e : Error) : Except Error Unit :=
  if c then .error e else .ok ()

structure Pending where
  /-- `u` is the id of this user. -/
  named : Bool
  iat : Option Time
  n : ℕ
  deriving DecidableEq

def completeTotpLogin (lib : Library) (pending : Option Pending) (code : Str)
    (env : Env) (user : User) :
    Except Error (Option Factor × User) :=
  match pending with
  | none => .error .invalidCredentials
  | some pending => do
    raiseIf (totpMaxAttempts ≤ pending.n) .invalidCredentials
    raiseIf (∀ iat ∈ pending.iat, totpPendingMaxAge < env.now - iat) .invalidCredentials
    raiseIf (pending.named = false ∨ env.membership = false) .invalidCredentials
    raiseIf (user.isActive = false ∨ user.isTotpEnabled = false) .invalidCredentials
    match ← verifySecondFactor lib user code env.now with
    | (none, _) => .error .invalidCredentials
    | (some (.recovery hash), user) =>
      record env
      pure (some (.recovery hash), user)
    | (some (.totp step), user) => pure (some (.totp step), user)

def beginTotpSetup (password : Str) (env : Env) (user : User) :
    Except Error (Option Factor × User) := do
  raiseIf (env.checkPassword password = false) .reauthenticationFailed
  raiseIf (user.isTotpEnabled = true) .totpAlreadyEnabled
  pure (none, { user with totpSecret := some env.randomBase32 })

def enable (lib : Library) (env : Env) (step : ℤ) (user : User) :
    Except Error (Option Factor × User) := do
  record env
  pure (some (.totp step), { user with
    totpConfirmedAt := some env.confirmedAt
    totpRecoveryCodeHashes := generateRecoveryCodes lib env })

def confirmTotpSetup (lib : Library) (code : Str) (env : Env) (user : User) :
    Except Error (Option Factor × User) := do
  raiseIf (user.isTotpEnabled = true) .totpAlreadyEnabled
  raiseIf (user.totpSecret = none) .totpSetupRequired
  match ← verifyTotp lib user code env.now with
  | (none, _) => .error .invalidTotpCode
  | (some step, user) => enable lib env step user

def disableTotp (lib : Library) (password code : Str) (env : Env) (user : User) :
    Except Error (Option Factor × User) := do
  raiseIf (user.isTotpEnabled = false) .totpNotEnabled
  raiseIf (env.checkPassword password = false) .reauthenticationFailed
  match ← verifySecondFactor lib user code env.now with
  | (none, _) => .error .reauthenticationFailed
  | (some factor, user) =>
    record env
    pure (some factor, { user with
      totpSecret := none
      totpConfirmedAt := none
      totpLastUsedStep := none
      totpRecoveryCodeHashes := [] })

def isActiveStaff (user : User) : Bool := user.isActive && user.isStaff

def beginStaffTotpSetup (env : Env) (user : User) : Except Error (Option Factor × User) := do
  raiseIf (isActiveStaff user = false) .notActiveStaff
  raiseIf (user.isTotpEnabled = true) .totpAlreadyEnabled
  pure (none, { user with totpSecret := some env.randomBase32 })

def confirmStaffTotpSetup (lib : Library) (code : Str) (env : Env) (user : User) :
    Except Error (Option Factor × User) := do
  raiseIf (isActiveStaff user = false) .notActiveStaff
  raiseIf (user.isTotpEnabled = true) .totpAlreadyEnabled
  raiseIf (user.totpSecret = none) .totpSetupRequired
  match ← verifyTotpCode lib user (strip code) env.now with
  | (none, _) => .error .invalidTotpCode
  | (some step, user) => enable lib env step user

def verifyStaffAdminLogin (lib : Library) (code : Str) (env : Env) (user : User) :
    Except Error (Option Factor × User) :=
  if strip code = [] then .ok (none, user)
  else if isActiveStaff user = false ∨ user.isTotpEnabled = false then .ok (none, user)
  else if totpCodeRe (strip code) then do
    match ← verifyTotp lib user (strip code) env.now with
    | (step, user) => pure (step.map .totp, user)
  else match consumeRecoveryCode lib user (strip code) with
    | (none, user) => .ok (none, user)
    | (some hash, user) => do
      record env
      pure (some (.recovery hash), user)

inductive Operation where
  | beginTotpSetup (password : Str)
  | confirmTotpSetup (code : Str)
  | disableTotp (password code : Str)
  | completeTotpLogin (pending : Option Pending) (code : Str)
  | beginStaffTotpSetup
  | confirmStaffTotpSetup (code : Str)
  | verifyStaffAdminLogin (code : Str)
  deriving DecidableEq

def Operation.run (lib : Library) : Operation → Env → User → Except Error (Option Factor × User)
  | .beginTotpSetup password => TwoFactor.beginTotpSetup password
  | .confirmTotpSetup code => TwoFactor.confirmTotpSetup lib code
  | .disableTotp password code => TwoFactor.disableTotp lib password code
  | .completeTotpLogin pending code => TwoFactor.completeTotpLogin lib pending code
  | .beginStaffTotpSetup => TwoFactor.beginStaffTotpSetup
  | .confirmStaffTotpSetup code => TwoFactor.confirmStaffTotpSetup lib code
  | .verifyStaffAdminLogin code => TwoFactor.verifyStaffAdminLogin lib code

def Operation.commit (lib : Library) (op : Operation) (env : Env) (user : User) :
    Option Factor × User :=
  match op.run lib env user, env.commits with
  | .ok out, true => out
  | _, _ => (none, user)

abbrev Transition := Interleaving.Transition User (Operation × Env)

def step (lib : Library) (user : User) (label : Operation × Env) : User :=
  (label.1.commit lib label.2 user).2

def accepted (lib : Library) (t : Transition) : Option Factor :=
  (t.label.1.commit lib t.label.2 t.before).1

end ReviewFlow.TwoFactor
