import ReviewFlow.Integrations.Adapters
import ReviewFlow.Integrations.JsonTree

/-!
# The Google provider

`exchange_code`, `refresh`, `list_locations` and `list_reviews` of `GoogleBusinessProfileProvider`,
over any answers of the network. Redirects have been followed, as far as `urlopen` can follow them.
-/

namespace ReviewFlow.Integrations.Google

open Python

inductive GoogleError where
  | transient (message : String)
  | permanent (message : String)
  | rateLimited (message : String)
  | authRevoked (reason : Str)

inductive Escape where
  | unicodeEncodeError
  | valueError
  | typeError
  | invalidOperation
  | overflowError
  | recursionError
  | other (type : Str)

inductive Failure where
  | google (e : GoogleError)
  | escape (e : Escape)

abbrev Reply := Except Failure

/-- What the model takes from Python as it is besides the adapters' runtime: `timedelta(seconds=x)`
of a float in microseconds, or what it raises for one that is not finite or too large. -/
structure GoogleRuntime where
  py : Runtime
  timedelta : Float64 → Except Escape ℤ

/-- What `json.loads` makes of a body: a ValueError for a text that is no JSON, a RecursionError for
one that is nested too deeply, or a value. -/
inductive Body where
  | unreadable
  | tooDeep
  | loaded (v : Json) (h : v.Loaded)

/-- What comes of a request that is sent: an exception that `_call` catches, one that it does not,
as for a redirect to what is no URL, or a status and a body. -/
inductive Answer where
  | failed
  | raised (e : Escape)
  | answered (status : ℕ) (body : Body)

def transient {α : Type} (message : String) : Reply α := .error (.google (.transient message))
def permanent {α : Type} (message : String) : Reply α := .error (.google (.permanent message))
def raises {α : Type} (e : Escape) : Reply α := .error (.escape e)

/-- A header value that `http.client` sends: of Latin-1 characters, each line break before a
continuation. -/
def isHeaderValue : Str → Bool
  | [] => true
  | c :: rest =>
    c < 256 && (c != 10 || rest.head? == some 32 || rest.head? == some 9) &&
      (c != 13 || rest.head? == some 32 || rest.head? == some 9 || rest.head? == some 10) &&
      isHeaderValue rest

/-- A path that `http.client` sends has no control character and no space. -/
def isPath (path : Str) : Bool := path.all fun c => 32 < c && c != 127

def urlencode (value : Str) : Reply Unit :=
  if Encodable value then .ok () else raises .unicodeEncodeError

abbrev IsSuccess (status : ℕ) : Prop := 200 ≤ status ∧ status < 300

/-- `_call`. Its InvalidURL is an HTTPException, and a header that cannot be sent is a
ValueError. -/
def call (path header : Str) (answer : Answer) : Reply (ℕ × Body) :=
  if !isPath path then transient "Google is unavailable."
  else if !isHeaderValue header then raises .valueError
  else match answer with
    | .failed => transient "Google is unavailable."
    | .raised e => raises e
    | .answered status body => .ok (if IsSuccess status then 200 else status, body)

def raiseForStatus {α : Type} (status : ℕ) : Reply α :=
  if status = 429 then .error (.google (.rateLimited "Google rate limit reached."))
  else if 500 ≤ status then transient "Google is unavailable."
  else permanent "Google refused the request."

def jsonDict : Body → Reply Dict
  | .loaded (.dict body) _ => .ok body
  | .tooDeep => raises .recursionError
  | _ => transient "Google returned an unreadable response."

def textOf (value : Json) : Option Str := (Json.string? value).filter (· ≠ [])

def errorCode : Body → Reply (Option Str)
  | .loaded body _ => .ok (Json.string? (body.field "error"))
  | .tooDeep => raises .recursionError
  | .unreadable => .ok none

def isNumber : Json → Bool
  | .int _ => true
  | .float _ => true
  | _ => false

/-- `value <= 0` of a number. -/
def leZero : Json → Bool
  | .int n => n ≤ 0
  | .float x => match Decimal.ofStr? x.repr with
    | some (.finite negative coefficient _) => negative || coefficient == 0
    | some (.infinity negative) => negative
    | _ => false
  | _ => false

variable (rt : GoogleRuntime)

def timedelta : Json → Except Escape ℤ
  | .int n => if n / 86400 ≤ 999999999 then .ok (n * 1000000) else .error .overflowError
  | .float x => rt.timedelta x
  | _ => .error .typeError

def maxDatetime : ℤ := 253402300799999999

/-- `datetime.now(UTC) + timedelta(seconds=expires_in)`. -/
def expiresAt (now : ℤ) (expiresIn : Json) : Reply ℤ :=
  match timedelta rt expiresIn with
  | .ok delta => if now + delta ≤ maxDatetime then .ok (now + delta) else raises .overflowError
  | .error e => raises e

/-- The access token and `expires_in` of a token answer. -/
def usableToken (body : Dict) : Reply (Str × Json) :=
  let expiresIn := Dict.get body (text "expires_in")
  match textOf (Dict.get body (text "access_token")) with
  | none => permanent "Google returned an unusable token response."
  | some accessToken =>
    if !isNumber expiresIn || leZero expiresIn then permanent
      "Google returned an unusable token response."
    else .ok (accessToken, expiresIn)

structure TokenSet where
  accessToken : Str
  refreshToken : Option Str
  expiresAt : ℤ

structure ExchangeResult extends TokenSet where
  grantedScopes : List Str
  idToken : Option Str

/-- `str.split()`. -/
def words (s : Str) : List Str := (s.splitOnP isSpace).filter (· ≠ [])

/-- `_token_request`, by the one field of its form that is no setting. -/
def tokenRequest (form : Str) (answer : Answer) : Reply (ℕ × Body) := do
  urlencode form
  call (text "/token") (text "application/json") answer

def exchangeResult (body : Dict) (accessToken : Str) (expires : ℤ) : ExchangeResult where
  accessToken
  refreshToken := textOf (Dict.get body (text "refresh_token"))
  expiresAt := expires
  grantedScopes := ((Json.string? (Dict.get body (text "scope"))).map words).getD []
  idToken := textOf (Dict.get body (text "id_token"))

def exchangeCode (now : ℤ) (code : Str) (answer : Answer) : Reply ExchangeResult := do
  let (status, raw) ← tokenRequest code answer
  if status ≠ 200 then raiseForStatus status
  else do
    let body ← jsonDict raw
    let (accessToken, expiresIn) ← usableToken body
    let expires ← expiresAt rt now expiresIn
    return exchangeResult body accessToken expires

def revokedErrors : List String := ["invalid_grant", "admin_policy_enforced"]

/-- Only a 400 with one of the two codes is a revocation. -/
def raiseForRefresh {α : Type} (status : ℕ) (raw : Body) : Reply α :=
  if status = 400 then do
    match ← errorCode raw with
    | some error =>
      if (revokedErrors.map text).contains error then .error (.google (.authRevoked error))
      else raiseForStatus status
    | none => raiseForStatus status
  else raiseForStatus status

def tokenSet (body : Dict) (accessToken : Str) (expires : ℤ) : TokenSet where
  accessToken
  refreshToken := textOf (Dict.get body (text "refresh_token"))
  expiresAt := expires

def refresh (now : ℤ) (refreshToken : Str) (answer : Answer) : Reply TokenSet := do
  let (status, raw) ← tokenRequest refreshToken answer
  if status ≠ 200 then raiseForRefresh status raw
  else do
    let body ← jsonDict raw
    let (accessToken, expiresIn) ← usableToken body
    let expires ← expiresAt rt now expiresIn
    return tokenSet body accessToken expires

def getJson (path accessToken : Str) (answer : Answer) : Reply Dict := do
  let (status, raw) ← call path (text "Bearer " ++ accessToken) answer
  if status ≠ 200 then raiseForStatus status else jsonDict raw

def isNameChar (c : ℕ) : Bool :=
  (65 ≤ c && c ≤ 90) || (97 ≤ c && c ≤ 122) || isAsciiDigit c || c == 95 || c == 46 || c == 45

def isName (s : Str) : Bool := s != [] && s.all isNameChar

/-- `_ACCOUNT_NAME.match` and `_LOCATION_NAME.match`, by the collection. -/
def matchesName (collection : String) (name : Str) : Bool :=
  match (beforeEnd name).splitOn 47 with
  | [first, id] => first == text collection && isName id
  | _ => false

def fullLocation? (name : Str) : Option (Str × Str) :=
  match (beforeEnd name).splitOn 47 with
  | [first, account, second, location] =>
    if first = text "accounts" ∧ isName account ∧ second = text "locations" ∧ isName location then
      some (account, location)
    else none
  | _ => none

/-- A loop over pages from the call `n` on: what is read of them, and the number of the next
call. -/
def pages {α : Type} (path accessToken : Str) (tooMany : String) (read : Dict → List α)
    (net : ℕ → Answer) :
    ℕ → ℕ → Option Str → Reply (List α × ℕ)
  | 0, _, _ => permanent tooMany
  | left + 1, n, token => do
    urlencode (token.getD [])
    let body ← getJson path accessToken (net n)
    match textOf (Dict.get body (text "nextPageToken")) with
    | none => return (read body, n + 1)
    | some next =>
      let (more, last) ← pages path accessToken tooMany read net left (n + 1) (some next)
      return (read body ++ more, last)

def maxAccountPages : ℕ := 50
def maxLocationPages : ℕ := 100

def readAccounts (body : Dict) : List Str :=
  (Dict.get body (text "accounts")).items.flatMap fun item =>
    ((Json.string? (item.field "name")).filter fun name => matchesName "accounts" name).toList

def accountNames (accessToken : Str) (net : ℕ → Answer) : Reply (List Str × ℕ) :=
  pages (text "/v1/accounts") accessToken "Google returned too many account pages." readAccounts net
    maxAccountPages 0 none

structure ProviderLocation where
  googleLocationId : Str
  title : Str
  googlePlaceId : Option Str
  reviewUri : Option Str

/-- A field of `metadata` that is no dict is missing. -/
def parseLocation (accountName : Str) (item : Json) : Option ProviderLocation :=
  ((Json.string? (item.field "name")).filter fun name => matchesName "locations" name).map
      fun name =>
    { googleLocationId := accountName ++ 47 :: name
      title := (textOf (item.field "title")).getD []
      googlePlaceId := textOf ((item.field "metadata").field "placeId")
      reviewUri := textOf ((item.field "metadata").field "newReviewUri") }

def readLocations (accountName : Str) (body : Dict) : List ProviderLocation :=
  (Dict.get body (text "locations")).items.flatMap fun item =>
    (parseLocation accountName item).toList

def locationsPath (accountName : Str) : Str := text "/v1/" ++ accountName ++ text "/locations"

def locationsOf (accessToken : Str) (net : ℕ → Answer) (n : ℕ) (accountName : Str) :
    Reply (List ProviderLocation × ℕ) :=
  pages (locationsPath accountName) accessToken "Google returned too many location pages."
    (readLocations accountName) net maxLocationPages n none

def locationsFrom (accessToken : Str) (net : ℕ → Answer) :
    List Str → ℕ → Reply (List ProviderLocation)
  | [], _ => .ok []
  | accountName :: names, n => do
    let (found, next) ← locationsOf accessToken net n accountName
    let more ← locationsFrom accessToken net names next
    return found ++ more

def listLocations (accessToken : Str) (net : ℕ → Answer) : Reply (List ProviderLocation) := do
  let (names, n) ← accountNames accessToken net
  locationsFrom accessToken net names n

structure ProviderReview where
  googleReviewId : Str
  reviewerName : Option Str
  rating : Option ℕ
  text : Option Str
  reviewCreatedAt : Option DateTime

structure ReviewPage where
  reviews : List ProviderReview
  averageRating : Option Decimal
  reviewCount : Option ℤ
  nextPageToken : Option Str

def parseTime (value : Json) : Option DateTime :=
  ((Json.string? value).bind rt.py.fromisoformat).map fun t => if t.tzinfo.isSome then t
  else { t with tzinfo := some 0 }

def stars : List (String × ℕ) := [("ONE", 1), ("TWO", 2), ("THREE", 3), ("FOUR", 4), ("FIVE", 5)]

/-- `_STARS.get(value)`. A list and a dict have no hash. -/
def starRating : Json → Reply (Option ℕ)
  | .str s => .ok ((stars.find? fun p => text p.1 == s).map Prod.snd)
  | .list _ => raises .typeError
  | .dict _ => raises .typeError
  | _ => .ok none

def isTrue : Json → Bool
  | .bool b => b
  | _ => false

def reviewerName (reviewer : Json) : Option Str :=
  if isTrue (reviewer.field "isAnonymous") then none else textOf (reviewer.field "displayName")

def parseReview (item : Json) : Reply (Option ProviderReview) :=
  match textOf (item.field "reviewId") with
  | none => .ok none
  | some reviewId => do
    let rating ← starRating (item.field "starRating")
    return some {
      googleReviewId := reviewId
      reviewerName := reviewerName (item.field "reviewer")
      rating
      text := textOf (item.field "comment")
      reviewCreatedAt := parseTime rt (item.field "createTime") }

def parseReviews : List Json → Reply (List ProviderReview)
  | [] => .ok []
  | item :: items => do
    let review ← parseReview rt item
    let reviews ← parseReviews items
    return review.toList ++ reviews

def precision : ℕ := 28

def roundedQuotient (n m : ℕ) : ℕ :=
  if m < 2 * (n % m) ∨ (2 * (n % m) = m ∧ n / m % 2 = 1) then n / m + 1 else n / m

/-- `quantize(Decimal("0.1"))`. None is its InvalidOperation. -/
def quantizeTenths : Decimal → Option Decimal
  | .finite negative coefficient exponent =>
    let tenths := if -1 ≤ exponent then coefficient * 10 ^ (exponent + 1).toNat
      else roundedQuotient coefficient (10 ^ (-1 - exponent).toNat)
    if numDigits tenths ≤ precision then some (.finite negative tenths (-1)) else none
  | .infinity _ => none
  | .nan => some .nan

/-- `Decimal("0") <= rating <= Decimal("5")` of tenths. A NaN does not compare. -/
def isRating : Decimal → Reply Bool
  | .finite negative tenths _ => .ok ((!negative || tenths == 0) && decide (tenths ≤ 50))
  | .infinity _ => .ok false
  | .nan => raises .invalidOperation

def averageRating (value : Json) : Reply (Option Decimal) :=
  if !isNumber value then .ok none
  else match (Decimal.ofStr? (str rt.py value)).bind quantizeTenths with
    | none => .ok none
    | some rating => do return if ← isRating rating then some rating else none

def reviewCount : Json → Option ℤ
  | .int n => if 0 ≤ n then some n else none
  | _ => none

/-- The path of `list_reviews`: `_quote` leaves the characters of a name. -/
def reviewsPath (parent : Str × Str) : Str :=
  text "/v4/accounts/" ++ parent.1 ++ text "/locations/" ++ parent.2 ++ text "/reviews"

def listReviews (accessToken googleLocationId : Str) (pageToken : Option Str) (answer : Answer) :
    Reply ReviewPage :=
  match fullLocation? googleLocationId with
  | none => permanent "The Google location id is malformed."
  | some parent => do
    urlencode (pageToken.getD [])
    let body ← getJson (reviewsPath parent) accessToken answer
    let reviews ← parseReviews rt (Dict.get body (text "reviews")).items
    let average ← averageRating rt (Dict.get body (text "averageRating"))
    return {
      reviews
      averageRating := average
      reviewCount := reviewCount (Dict.get body (text "totalReviewCount"))
      nextPageToken := textOf (Dict.get body (text "nextPageToken")) }

end ReviewFlow.Integrations.Google
