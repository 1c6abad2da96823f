import ReviewFlow.Integrations.Callback
import ReviewFlow.Sessions.Store
import ReviewFlow.TwoFactor.Services

/-!
# The requests that write sessions

The two steps of a login, the login of the staff, the logout and the installation from Shopify.
A request loads its session when it arrives, commits its transaction, and settles its session
last; other requests run between these steps. The password hashes, the network, the clock, the
session backend and Django's `login` are given.
-/

namespace ReviewFlow.Sessions

open Python Interleaving SessionStore
open TwoFactor (User Operation Library Pending)
open Integrations.Callback (Query compareDigest verifyShopifyQueryHmac)

abbrev Uuid := ℕ

/-- `pending_totp`. -/
structure Marker where
  u : Uuid
  iat : Time
  n : ℕ
  deriving DecidableEq

/-- `shopify_oauth`. -/
structure Nonce where
  state : Str
  shop : Str
  issuedAt : Time
  deriving DecidableEq

/-- `shopify_pending`. -/
structure Installation where
  shop : Str
  credentials : Str
  issuedAt : Time
  deriving DecidableEq

structure Data where
  /-- `_auth_user_id`. -/
  authUser : Option Uuid := none
  merchantId : Option Uuid := none
  pendingTotp : Option Marker := none
  admin2faUserId : Option Uuid := none
  shopifyOauth : Option Nonce := none
  shopifyPending : Option Installation := none
  deriving DecidableEq

structure Database where
  users : Uuid → Option User
  /-- The user whose address and password these are. -/
  passwords : Str → Str → Option Uuid
  /-- The merchant of `resolve_login_membership`. -/
  loginMerchant : Uuid → Option Uuid
  /-- A user holds an accepted membership as OWNER or ADMIN of an ACTIVE merchant. -/
  managers : Uuid → Uuid → Bool
  /-- The merchants and the shops of the Shopify integrations. -/
  integrations : List (Uuid × Str)

def Database.authenticate (db : Database) (email password : Str) : Option Uuid :=
  (db.passwords email password).filter fun u => (db.users u).any (·.isActive)

def Database.isTotpEnabled (db : Database) (u : Uuid) : Bool := (db.users u).any (·.isTotpEnabled)

def Database.saveUser (db : Database) (u : Uuid) (user : User) : Database :=
  { db with users := Function.update db.users u (some user) }

def Database.requestUser (db : Database) (data : Data) : Option Uuid :=
  data.authUser.filter fun u => (db.users u).any (·.isActive)

inductive Request where
  | login (email password : Str)
  | loginTotp (code : Str)
  | logout
  | adminLogin (username password otpCode : Str)
  | shopifyInstall (shop : Str)
  | shopifyCallback (query : Query)
  | shopifyLink

inductive Exchange where
  | bundle (scope credentials : Str)
  /-- `ShopifyUnavailable`, with the status 502. -/
  | unavailable
  /-- An exception that becomes the status 500. -/
  | crashed

inductive LinkOutcome where
  | linked
  /-- `ShopifyInstallInvalid`, with the status 400. -/
  | refused
  /-- `ShopifyUnavailable`, or an exception that becomes the status 500. -/
  | unavailable
  deriving DecidableEq

/-- What a request is given: whether it passes its throttle, its CSRF check and its serializer;
whether its session has the hash of its user; what its transaction is given; whether the
membership of the second step changed since it was read; the random state; the network. -/
structure Env where
  allowed : Bool
  sameHash : Bool
  totp : TwoFactor.Env
  raced : Bool
  state : Str
  exchange : Exchange
  /-- The clock when the installation is stored. -/
  later : Time
  link : LinkOutcome

def Env.now (env : Env) : Time := env.totp.now

/-- What the requests use of the rest: `pyotp` and `hashlib`, the settings, the session backend, and
`django.contrib.auth.login`, which says whether the session gets a new key and what it then holds.
-/
structure Settings (σ : Type) where
  lib : Library
  hmac : Str → Str → Str
  shopify : Integrations.Callback.Settings
  sessions : SessionStore.Backend σ Data
  signIn : Bool → Data → Uuid → Bool × Data

/-- The data of an anonymous session are retained after a login, and those of another user's session
are not. -/
structure Settings.SignsIn {σ : Type} (settings : Settings σ) : Prop where
  anonymous : ∀ sameHash data u, data.authUser = none →
    (settings.signIn sameHash data u).2 = { data with authUser := some u }
  same : ∀ sameHash data u, data.authUser = some u →
    (settings.signIn sameHash data u).2 = data ∨
      (settings.signIn sameHash data u).2 = { authUser := some u }
  another : ∀ sameHash data u other, data.authUser = some other → other ≠ u →
    (settings.signIn sameHash data u).2 = { authUser := some u }

variable {σ : Type} (settings : Settings σ)

def signIn (env : Env) (data : Data) (u : Uuid) (write : Data → Data) : Change Data :=
  let (renewed, data) := settings.signIn env.sameHash data u
  if renewed then .renew (write data) else .save (write data)

/-- `LoginView`, with `flush_session_keeping_pending` for an enrolled user. It has no authentication
classes, so that its user is anonymous and the installation stays, whoever is logged in. -/
def login (email password : Str) (env : Env) (db : Database) (data : Data) : Change Data :=
  match db.authenticate email password with
  | none => .keep
  | some u => match db.loginMerchant u with
    | none => .keep
    | some merchantId =>
      if db.isTotpEnabled u then
        .renew { pendingTotp := some ⟨u, env.now, 0⟩, shopifyPending := data.shopifyPending }
      else signIn settings env data u fun data => { data with merchantId := some merchantId }

def recordFailedTotpAttempt (marker : Marker) : Option Marker :=
  if TwoFactor.totpMaxAttempts ≤ marker.n + 1 then none else some { marker with n := marker.n + 1 }

/-- The transaction of `complete_totp_login`, and whether it raised `InvalidCredentials`. -/
def completeTotpLogin (marker : Marker) (code : Str) (env : Env)
    (db : Database) : Except TwoFactor.Error (Option TwoFactor.Factor × User) :=
  match db.users marker.u with
  | none => .error .invalidCredentials
  | some user =>
    TwoFactor.completeTotpLogin settings.lib (some ⟨true, some marker.iat, marker.n⟩) code
      { env.totp with membership := (db.loginMerchant marker.u).isSome && !env.raced } user

/-- `LoginTotpView`. An exception other than `InvalidCredentials` leaves the session. -/
def loginTotp (code : Str) (env : Env) (db : Database) (data : Data) :
    Database × Change Data :=
  match data.pendingTotp with
  | none => (db, .keep)
  | some marker =>
    match completeTotpLogin settings marker code env db with
    | .error .invalidCredentials =>
      (db, .save { data with pendingTotp := recordFailedTotpAttempt marker })
    | .error _ => (db, .keep)
    | .ok (_, user) =>
      if env.totp.commits then
        (db.saveUser marker.u user, signIn settings env { data with pendingTotp := none } marker.u
          fun data => { data with merchantId := db.loginMerchant marker.u })
      else (db, .keep)

def logout (db : Database) (data : Data) : Change Data :=
  if (db.requestUser data).isSome then .delete else .keep

def adminLogin (username password otpCode : Str) (env : Env) (db : Database) (data : Data) :
    Database × Change Data :=
  match db.authenticate username password with
  | none => (db, .keep)
  | some u => match db.users u with
    | none => (db, .keep)
    | some user =>
      if user.isStaff = false then (db, .keep)
      else match TwoFactor.verifyStaffAdminLogin settings.lib otpCode env.totp user,
          env.totp.commits with
        | .ok (some _, user), true => (db.saveUser u user, signIn settings env data u
            fun data => { data with admin2faUserId := some u })
        | _, _ => (db, .keep)

def isAlphanum (c : ℕ) : Bool := isAsciiDigit c || (65 ≤ c && c ≤ 90) || (97 ≤ c && c ≤ 122)

/-- `^[a-zA-Z0-9][a-zA-Z0-9\-]*\.myshopify\.com$`. -/
def isShop (shop : Str) : Bool :=
  let domain := text ".myshopify.com"
  let host := (beforeEnd shop).take ((beforeEnd shop).length - domain.length)
  beforeEnd shop == host ++ domain && host.head?.any isAlphanum &&
    host.all fun c => isAlphanum c || c == 45

def stateMaxAge : Time := seconds 600
def pendingMaxAge : Time := seconds 900

def beginShopifyInstall (shop : Str) (env : Env) (data : Data) : Change Data :=
  if isShop shop then .save { data with shopifyOauth := some ⟨env.state, shop, env.now⟩ } else .keep

/-- `complete_shopify_oauth`. The nonce is popped, and it stays where the status is 500 or 502. -/
def completeShopifyOauth (query : Query) (env : Env) (data : Data) :
    Change Data :=
  match verifyShopifyQueryHmac settings.hmac settings.shopify query, data.shopifyOauth with
  | .ok true, some nonce =>
    let popped := { data with shopifyOauth := none }
    let shop := query.get (text "shop")
    if stateMaxAge < env.now - nonce.issuedAt then .save popped
    else match compareDigest nonce.state (query.get (text "state")) with
      | none => .keep
      | some false => .save popped
      | some true =>
        if nonce.shop ≠ shop ∨ isShop shop = false then .save popped
        else match env.exchange with
          | .unavailable => .keep
          | .crashed => .keep
          | .bundle scope credentials =>
            if (scope.splitOn 44).contains (text "read_orders") then
              .save { popped with shopifyPending := some ⟨shop, credentials, env.later⟩ }
            else .save popped
  | _, _ => .keep

/-- `ShopifyLinkView` and `link_shopify_installation`: the merchant is that of the session. -/
def shopifyLink (env : Env) (db : Database) (data : Data) : Database × Change Data :=
  match db.requestUser data, data.merchantId, data.shopifyPending with
  | some u, some merchantId, some pending =>
    if db.managers u merchantId = false then (db, .keep)
    else if pendingMaxAge < env.now - pending.issuedAt then
      (db, .save { data with shopifyPending := none })
    else match env.link with
      | .unavailable => (db, .keep)
      | .refused => (db, .save { data with shopifyPending := none })
      | .linked => ({ db with integrations := db.integrations ++ [(merchantId, pending.shop)] },
          .save { data with shopifyPending := none })
  | _, _, _ => (db, .keep)

def Request.view (env : Env) (db : Database) (data : Data) (request : Request) :
    Database × Change Data :=
  if env.allowed then match request with
    | .login email password => (db, Sessions.login settings email password env db data)
    | .loginTotp code => Sessions.loginTotp settings code env db data
    | .logout => (db, Sessions.logout db data)
    | .adminLogin username password otpCode =>
      Sessions.adminLogin settings username password otpCode env db data
    | .shopifyInstall shop => (db, beginShopifyInstall shop env data)
    | .shopifyCallback query => (db, completeShopifyOauth settings query env data)
    | .shopifyLink => Sessions.shopifyLink env db data
  else (db, .keep)

/-- Whether `SessionMerchantMiddleware` or the authentication of the view reads the user of the
session. -/
def Request.readsUser (data : Data) : Request → Bool
  | .logout | .shopifyLink => true
  | .shopifyInstall _ | .shopifyCallback _ => data.merchantId.isSome
  | _ => false

/-- `get_user` flushes a session that has not the hash of its active user. -/
def Request.flushes (env : Env) (db : Database) (data : Data) (request : Request) : Bool :=
  request.readsUser data && (db.requestUser data).isSome && !env.sameHash

def Request.handle (env : Env) (db : Database) (data : Data) (request : Request) :
    Database × Change Data :=
  if request.flushes env db data then
    let (db, change) := request.view settings env db {}
    (db, change.flushed)
  else request.view settings env db data

inductive Stage where
  | loaded (request : Request) (session : Copy Data)
  | handled (key : Option ℕ) (change : Change Data)
  | answered

structure System (σ : Type) where
  db : Database
  store : σ
  requests : List Stage

inductive Label where
  | arrive (request : Request) (cookie : Option ℕ)
  | handle (n : ℕ) (env : Env)
  | settle (n : ℕ)
  /-- What the rest of the program commits, the other operations on a second factor included. -/
  | others (users : Uuid → Option User) (passwords : Str → Str → Option Uuid)
      (loginMerchant : Uuid → Option Uuid) (managers : Uuid → Uuid → Bool)

def System.step (s : System σ) : Label → System σ
  | .arrive request cookie =>
    { s with requests := s.requests ++ [.loaded request (settings.sessions.load s.store cookie)] }
  | .handle n env => match s.requests[n]? with
    | some (.loaded request session) =>
      let (db, change) := request.handle settings env s.db session.data
      { s with db := db, requests := s.requests.set n (.handled session.key change) }
    | _ => s
  | .settle n => match s.requests[n]? with
    | some (.handled key change) =>
      { s with
        store := settings.sessions.settle s.store key change
        requests := s.requests.set n .answered }
    | _ => s
  | .others users passwords loginMerchant managers =>
    { s with db := { s.db with users, passwords, loginMerchant, managers } }

def System.start (users : Uuid → Option User) (passwords : Str → Str → Option Uuid)
    (loginMerchant : Uuid → Option Uuid) (managers : Uuid → Uuid → Bool) : System σ :=
  ⟨⟨users, passwords, loginMerchant, managers, []⟩, settings.sessions.empty, []⟩

end ReviewFlow.Sessions
