import ReviewFlow.ApiKeys.Services
import ReviewFlow.Interleaving

/-!
# The requests, from the middlewares to the views

A request commits the lookup of its key, the stamp of its last use and the work of its view in
transactions of their own, so that other requests run between them. What `resolve` makes of a
path, the sessions, the throttles and the checks of the CSRF token are given.
-/

namespace ReviewFlow.ApiKeys

open Tables Accounts Interleaving

inductive Permission where
  | allowAny
  | isAuthenticated
  | isMerchantMember
  | hasRole (roles : List Role)
  | isMerchantMemberOrApiKey
  | hasApiKeyScope (scope : String)
  /-- `ReviewsView`: the scope for a key, the membership for a session. -/
  | hasApiKeyScopeOrMember (scope : String)

def isOwnerOrAdmin : Permission := .hasRole [.owner, .admin]

inductive View where
  | apiKeyList
  | apiKeyDetail (pk : Uuid)
  | merchant
  | sales
  | reviews
  /-- A view without `ApiKeyOptInMixin`; `sessions` is false where it has no authenticators. -/
  | other (urlName : String) (sessions : Bool) (permission : Permission)

def View.urlName : View → String
  | .apiKeyList => "api-keys"
  | .apiKeyDetail _ => "api-key-detail"
  | .merchant => "merchant"
  | .sales => "sales"
  | .reviews => "reviews"
  | .other name _ _ => name

def View.apiKeyMethods : View → List String
  | .merchant | .reviews => ["GET"]
  | .sales => ["GET", "POST"]
  | _ => []

def View.sessions : View → Bool
  | .other _ sessions _ => sessions
  | _ => true

def View.permission (method : String) : View → Permission
  | .apiKeyList | .apiKeyDetail _ => isOwnerOrAdmin
  | .merchant => if method = "PATCH" then isOwnerOrAdmin else .isMerchantMemberOrApiKey
  | .sales => .hasApiKeyScope (if method = "POST" then Scope.salesWrite.value
      else Scope.transactionsRead.value)
  | .reviews => .hasApiKeyScopeOrMember Scope.reviewsRead.value
  | .other _ _ permission => permission

structure HttpRequest where
  method : String
  pathInfo : String
  /-- `resolve(path_info)`. -/
  view : Option View
  authorization : String
  /-- `session["merchant_id"]`. -/
  session : Option Uuid
  /-- None is the anonymous user. -/
  user : Option Uuid
  /-- `data["scopes"]`. -/
  scopes : Json

def preTenantPaths : List String :=
  ["/api/v1/auth/login", "/api/v1/auth/login/totp", "/api/v1/auth/accept-invite"]

def adminPrefix : String := "/admin/"

def preTenantUrlNames : List String :=
  ["webhook-generic", "webhook-shopify", "webhook-billing-razorpay"]

/-- `SessionMerchantMiddleware`: the `merchant_id` it gives the request. -/
def HttpRequest.sessionMerchant (r : HttpRequest) : Option Uuid :=
  if preTenantPaths.contains r.pathInfo ||
      adminPrefix.toList.isPrefixOf r.pathInfo.toList || r.user.isNone then none
  else if r.view.any fun v => preTenantUrlNames.contains v.urlName then none
  else r.session

def HttpRequest.isApiKeyEligible (r : HttpRequest) : Bool :=
  r.view.any fun v => v.apiKeyMethods.contains r.method

/-- The two ends of `partition(" ")`. -/
def HttpRequest.scheme (r : HttpRequest) : String :=
  String.ofList (r.authorization.toList.takeWhile (· != ' '))

def HttpRequest.token (r : HttpRequest) : String :=
  String.ofList ((r.authorization.toList.dropWhile (· != ' ')).drop 1)

def HttpRequest.apiKeyAttempt (r : HttpRequest) : Bool :=
  r.scheme.toList.map Char.toLower == "bearer".toList && r.isApiKeyEligible

structure Attributes where
  merchantId : Option Uuid := none
  apiKeyAttempt : Bool := false
  apiKeyThrottled : Bool := false
  apiKeyError : Bool := false
  apiKey : Option ApiKey := none
  deriving DecidableEq

inductive Principal where
  | key (apiKey : ApiKey)
  | member (teamMember : TeamMember)
  | user (user : Uuid)
  | anonymous
  deriving DecidableEq

inductive Stage where
  | received (r : HttpRequest)
  /-- `authenticate_api_key` returned, and `touch_last_used` is next. -/
  | touching (r : HttpRequest) (key : ApiKey)
  /-- Past `TenantMiddleware`: the tenant context is the `merchant_id`. -/
  | wrapped (r : HttpRequest) (attributes : Attributes)
  /-- Past `initial`, and the view runs. -/
  | admitted (r : HttpRequest) (attributes : Attributes) (principal : Principal)
  | answered (status : ℕ)

/-- `ApiKeyMiddleware`, up to the commit of its lookup. -/
def apiKeyMiddleware (hash : String → String) (db : Database) (throttled : Bool)
    (r : HttpRequest) : Stage :=
  if r.apiKeyAttempt then
    if throttled then .wrapped r { apiKeyAttempt := true, apiKeyThrottled := true }
    else match db.authenticateApiKey hash r.token with
      | none => .wrapped r { apiKeyAttempt := true, apiKeyError := true }
      | some key => .touching r key
  else .wrapped r { merchantId := r.sessionMerchant }

def keyAttributes (key : ApiKey) : Attributes :=
  { merchantId := some key.merchantId, apiKeyAttempt := true, apiKey := some key }

inductive Authenticated where
  | key (apiKey : ApiKey)
  | user (user : Uuid)
  | no

def authenticate (v : View) (r : HttpRequest) (a : Attributes) (csrf : Bool) :
    Except ℕ Authenticated :=
  if a.apiKeyAttempt then
    if a.apiKeyThrottled then .error 429
    else if a.apiKeyError then .error 401
    else match a.apiKey with
      | none => .ok .no
      | some key => .ok (.key key)
  else match r.user.filter fun _ => v.sessions with
    | none => .ok .no
    | some user => if csrf then .ok (.user user) else .error 403

/-- `get_active_membership`, in the tenant context of `merchantId`. -/
def Database.activeMembership (db : Database) (merchantId user : Uuid) : Option TeamMember :=
  (db.teamMembers.find? fun m => m.merchantId == merchantId && m.userId == user).filter fun m =>
    db.status m.merchantId == .active

/-- `IsMerchantMember`. No user has a key for its principal. -/
def membership (db : Database) (a : Attributes) : Authenticated → Option TeamMember
  | .user user => a.merchantId.bind (db.activeMembership · user)
  | _ => none

def keyWithScope (scope : String) : Authenticated → Option Principal
  | .key key => if key.isActive && key.scopesJson.contains scope then some (.key key) else none
  | _ => none

/-- `has_permission`, with whom the view then serves. -/
def Permission.check (db : Database) (a : Attributes) (auth : Authenticated) :
    Permission → Option Principal
  | .allowAny => match auth with
    | .key key => some (.key key)
    | .user user => some (.user user)
    | .no => some .anonymous
  | .isAuthenticated => match auth with
    | .key key => some (.key key)
    | .user user => some (.user user)
    | .no => none
  | .isMerchantMember => (membership db a auth).map .member
  | .hasRole roles => ((membership db a auth).filter (·.role ∈ roles)).map .member
  | .isMerchantMemberOrApiKey => match auth with
    | .key key => some (.key key)
    | _ => (membership db a auth).map .member
  | .hasApiKeyScope scope => keyWithScope scope auth
  | .hasApiKeyScopeOrMember scope => match auth with
    | .key _ => keyWithScope scope auth
    | _ => (membership db a auth).map .member

/-- `initial`, with the status of a refusal. -/
def initial (db : Database) (v : View) (r : HttpRequest) (a : Attributes) (csrf allowed : Bool) :
    Except ℕ Principal := do
  let auth ← authenticate v r a csrf
  match (v.permission r.method).check db a auth with
  | none => .error 403
  | some principal => if allowed then .ok principal else .error 429

def serializerScopes : Json → Option (List String)
  | .arr [] => none
  | .arr items =>
    (items.mapM fun item : Json => item.str?.filter (Scope.values.contains ·)).filter (·.Nodup)
  | _ => none

def Error.httpStatus : Error → ℕ
  | .invalidScopes _ => 422
  | .apiKeyNotFound => 404
  | .actorNotMember => 403
  | .integrityError => 500

def handle (hash : String → String) (db : Database) (v : View) (r : HttpRequest) (a : Attributes)
    (principal : Principal) (raw : String) (id : Uuid) : ℕ × Database :=
  match v, principal, a.merchantId with
  | .apiKeyList, .member m, some merchantId =>
    if r.method = "POST" then
      match serializerScopes r.scopes with
      | none => (422, db)
      | some scopes =>
        match db.createApiKey hash merchantId m.userId (.arr (scopes.map .str)) raw id with
        | .error e => (e.httpStatus, db)
        | .ok db' => (201, db')
    else (200, db)
  | .apiKeyDetail pk, .member m, some merchantId =>
    if r.method = "DELETE" then
      match db.getApiKey merchantId pk >>= fun key =>
          db.revokeApiKey merchantId m.userId key.id with
      | .error e => (e.httpStatus, db)
      | .ok db' => (204, db')
    else (405, db)
  | _, _, _ => (200, db)

structure System where
  db : Database
  requests : List Stage

inductive Label where
  | arrive (r : HttpRequest)
  | middleware (n : ℕ) (throttled : Bool)
  /-- None is a `DatabaseError`. -/
  | touch (n : ℕ) (clock : Option (Time × Time))
  | initial (n : ℕ) (csrf allowed : Bool)
  | handle (n : ℕ) (raw : String) (id : Uuid)
  /-- What the rest of the program commits to the teams and the merchants. -/
  | others (teamMembers : List TeamMember) (status : Uuid → MerchantStatus)

def System.put (s : System) (n : ℕ) (stage : Stage) : System :=
  { s with requests := s.requests.set n stage }

def System.step (hash : String → String) (s : System) : Label → System
  | .arrive r => { s with requests := s.requests ++ [.received r] }
  | .middleware n throttled => match s.requests[n]? with
    | some (.received r) => s.put n (apiKeyMiddleware hash s.db throttled r)
    | _ => s
  | .touch n clock => match s.requests[n]? with
    | some (.touching r key) =>
      let s := s.put n (.wrapped r (keyAttributes key))
      match clock with
      | none => s
      | some (now, stamp) => { s with db := s.db.touchLastUsed key now stamp }
    | _ => s
  | .initial n csrf allowed => match s.requests[n]? with
    | some (.wrapped r a) => match r.view with
      | none => s.put n (.answered 404)
      | some v => match ApiKeys.initial s.db v r a csrf allowed with
        | .error status => s.put n (.answered status)
        | .ok principal => s.put n (.admitted r a principal)
    | _ => s
  | .handle n raw id => match s.requests[n]? with
    | some (.admitted r a principal) => match r.view with
      | none => s
      | some v =>
        let (status, db) := ApiKeys.handle hash s.db v r a principal raw id
        { s.put n (.answered status) with db }
    | _ => s
  | .others teamMembers status => { s with db := { s.db with teamMembers, status } }

end ReviewFlow.ApiKeys
