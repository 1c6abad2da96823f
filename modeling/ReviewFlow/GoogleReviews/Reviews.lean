import ReviewFlow.Interleaving
import ReviewFlow.RowLocks
import ReviewFlow.GoogleReviews.Models

/-!
# Mapped locations and their reviews

A mapping request and a sync are cut at their transactions and provider calls. What they
read of other tables is part of what a step is given.
-/

namespace ReviewFlow.GoogleReviews.Mapping

open Savepoint Tables Program Interleaving

structure GoogleLocation where
  id : Uuid
  locationId : Uuid
  googleConnectionId : Uuid
  googleLocationId : String
  googlePlaceId : Option String
  reviewLink : String
  averageRating : Option ℚ
  reviewCount : Option ℤ
  lastSyncedAt : Option Time
  deriving DecidableEq

/-- The primary key, the `OneToOneField` and `google_location_unique_per_connection`. -/
def GoogleLocation.Clash (a b : GoogleLocation) : Prop :=
  a.id = b.id ∨ a.locationId = b.locationId ∨
    (a.googleConnectionId = b.googleConnectionId ∧ a.googleLocationId = b.googleLocationId)

structure GoogleReview where
  googleLocation : Uuid
  googleReviewId : String
  reviewerName : Option String
  rating : ℤ
  text : Option String
  reviewCreatedAt : Time
  fetchedAt : Time
  deriving DecidableEq

/-- `google_review_location_review_uniq`. -/
def GoogleReview.Clash (a b : GoogleReview) : Prop :=
  a.googleLocation = b.googleLocation ∧ a.googleReviewId = b.googleReviewId

instance : DecidableRel GoogleLocation.Clash := fun _ _ => inferInstanceAs (Decidable (_ ∨ _))
instance : DecidableRel GoogleReview.Clash := fun _ _ => inferInstanceAs (Decidable (_ ∧ _))

structure Database where
  locations : Table GoogleLocation GoogleLocation.Clash
  reviews : Table GoogleReview GoogleReview.Clash
  nextId : Uuid

structure ProviderLocation where
  googleLocationId : String
  title : String
  googlePlaceId : Option String
  reviewUri : Option String

structure ProviderReview where
  googleReviewId : String
  reviewerName : Option String
  rating : Option ℤ
  text : Option String
  reviewCreatedAt : Option Time

structure ReviewPage where
  reviews : List ProviderReview
  averageRating : Option ℚ
  reviewCount : Option ℤ
  nextPageToken : Option String

inductive Error where
  | locationNotFound
  | googleNotFound
  | googleNeedsReauth
  | googleTokenRefreshPending
  | googleLocationNotAvailable
  | googlePlaceIdMissing
  | reviewLinkMissing
  | googleLocationAlreadyMapped
  | googleRateLimited
  | googleUnavailable
  | googleRequestFailed
  | integrityError (constraint : String)
  | provider (e : ProviderError)
  deriving DecidableEq

/-- What is read of a `GoogleConnection`, with the access token decrypted. -/
structure Connection where
  status : ConnectionStatus
  expiresAt : Time
  accessToken : String
  sameMerchant : Bool

structure Env where
  now : Time
  refreshMargin : Time
  /-- `get_accessible_location` finds the location. -/
  accessible : Uuid → Bool
  connection : Uuid → Option Connection
  /-- `get_access_token`. -/
  accessToken : Option String
  listLocations : String → Except ProviderError (List ProviderLocation)
  /-- The checks of `validate_review_link` with `strip` and `urlsplit`. -/
  plainHttps : String → Bool
  listReviews : String → String → Option String → Except ProviderError ReviewPage
  /-- A mapping of the same location is committed after the `SELECT` that looks for it. -/
  raced : Bool

abbrev MappingM := Program Env Error Database Unit

/-- What `sync_location_reviews` knows between two provider calls. -/
structure Sync where
  location : Uuid
  googleLocationId : String
  token : String
  pageToken : Option String
  seen : List String
  average : Option ℚ
  count : Option ℤ

inductive Task where
  | mapRead (location connectionId : Uuid) (googleLocationId : String)
  | mapList (location connectionId : Uuid) (googleLocationId token : String)
  | mapWrite (location connectionId : Uuid) (found : ProviderLocation) (reviewLink : String)
  | syncRead (location : Uuid)
  | syncToken (location : Uuid) (googleLocationId : String)
  | syncPage (sync : Sync)
  | syncUpsert (sync : Sync) (page : ReviewPage)
  | syncFinish (sync : Sync)

section Mapping

/-- `_read_token_in_block`. None is a refresh that is now under way. -/
def readTokenInBlock (connection : Connection) : MappingM (Option String) := do
  let env ← ask
  if connection.status ≠ .active then raise .googleNeedsReauth
  else if connection.expiresAt ≤ env.now + env.refreshMargin then pure none
  else pure (some connection.accessToken)

def mapRead (location connectionId : Uuid) (googleLocationId : String) :
    MappingM (Option Task) := do
  let env ← ask
  whenever (env.accessible location = false) (raise .locationNotFound)
  match env.connection connectionId with
  | none => raise .googleNotFound
  | some connection =>
    whenever (connection.sameMerchant = false) (raise .googleLocationNotAvailable)
    match ← readTokenInBlock connection with
    | none => raise .googleTokenRefreshPending
    | some token => pure (some (.mapList location connectionId googleLocationId token))

def validateReviewLink (env : Env) (uri : Option String) : Option String :=
  uri.filter fun uri => uri != "" && decide (uri.length ≤ 2048) &&
    uri.toList.all (fun c => decide (32 < c.toNat) && c.toNat != 127) && env.plainHttps uri

def providerError : ProviderError → Error
  | .rateLimited => .googleRateLimited
  | .transient => .googleUnavailable
  | .permanent => .googleRequestFailed
  | e => .provider e

/-- The provider call of `map_location` and what is checked of its answer. -/
def mapList (location connectionId : Uuid) (googleLocationId token : String) :
    MappingM (Option Task) := do
  let env ← ask
  match env.listLocations token with
  | .error e => raise (providerError e)
  | .ok items => match items.find? (·.googleLocationId == googleLocationId) with
    | none => raise .googleLocationNotAvailable
    | some found =>
      whenever (found.googlePlaceId.filter (· != "") = none) (raise .googlePlaceIdMissing)
      match validateReviewLink env found.reviewUri with
      | none => raise .reviewLinkMissing
      | some reviewLink => pure (some (.mapWrite location connectionId found reviewLink))

def locationUnique : String := "google_location_unique_per_connection"
def locationOneToOne : String := "google_reviews_googlelocation_location_id_key"

/-- `mapping.save()`, where a broken unique constraint is an `IntegrityError`. -/
def saveMapping (mapping : GoogleLocation) : MappingM Unit :=
  query fun _ db =>
    let others := db.locations.delete (·.id == mapping.id)
    match others.insert? mapping with
    | some locations =>
      (.ok (), { db with locations := locations, nextId := max db.nextId (mapping.id + 1) })
    | none => (.error (.integrityError (if others.rows.any (·.locationId == mapping.locationId) then
        locationOneToOne else locationUnique)), db)

/-- The mapping before the assignments: new, or with nothing left of another Google location. -/
def lockMapping (location connectionId : Uuid) (found : ProviderLocation) (reviewLink : String) :
    MappingM GoogleLocation := do
  let env ← ask
  let db ← get
  match if env.raced then none else db.locations.find? (·.locationId == location) with
  | none => pure ⟨db.nextId, location, connectionId, found.googleLocationId, none,
    reviewLink, none, none, none⟩
  | some mapping =>
    if mapping.googleLocationId ≠ found.googleLocationId then
      modify fun db => { db with reviews := db.reviews.delete (·.googleLocation == mapping.id) }
      pure { mapping with averageRating := none, reviewCount := none, lastSyncedAt := none }
    else pure mapping

def writeMapping (location connectionId : Uuid) (found : ProviderLocation) (reviewLink : String) :
    MappingM Unit := do
  let env ← ask
  match env.connection connectionId with
  | none => raise .googleNeedsReauth
  | some connection =>
    whenever (connection.status ≠ .active) (raise .googleNeedsReauth)
    whenever (connection.sameMerchant = false) (raise .googleLocationNotAvailable)
    let mapping ← lockMapping location connectionId found reviewLink
    saveMapping { mapping with
      googleConnectionId := connectionId
      googleLocationId := found.googleLocationId
      googlePlaceId := found.googlePlaceId
      reviewLink := reviewLink }

def alreadyMapped : Error → MappingM Unit
  | .integrityError constraint =>
    if constraint = locationUnique ∨
    constraint = locationOneToOne then raise .googleLocationAlreadyMapped
    else raise (.integrityError constraint)
  | e => raise e

def mapWrite (location connectionId : Uuid) (found : ProviderLocation) (reviewLink : String) :
    MappingM (Option Task) := do
  handle (savepoint (writeMapping location connectionId found reviewLink)) alreadyMapped
  pure none

end Mapping

section Sync

def reviewRow (location : Uuid) (now : Time) (review : ProviderReview) : Option GoogleReview :=
  match review.rating, review.reviewCreatedAt with
  | some rating, some createdAt =>
    if 255 < review.googleReviewId.length then none
    else some ⟨location, review.googleReviewId,
      (review.reviewerName.filter (· != "")).map (takeChars 255), rating,
        review.text, createdAt, now⟩
  | _, _ => none

/-- `rows`: of two reviews with one id the later. -/
def reviewRows (location : Uuid) (now : Time) (reviews : List ProviderReview) : List GoogleReview :=
  (reviews.filterMap (reviewRow location now)).foldl
    (fun rows row => rows.filter (·.googleReviewId != row.googleReviewId) ++ [row]) []

/-- `bulk_create` with `update_conflicts`, and `google_review_rating_1_5`. -/
def bulkCreate (rows : List GoogleReview) : MappingM Unit :=
  query fun _ db =>
    if rows.all fun row => decide (1 ≤ row.rating ∧ row.rating ≤ 5) then
      (.ok (), { db with reviews := rows.foldl Table.upsert db.reviews })
    else (.error (.integrityError "google_review_rating_1_5"), db)

def upsertReviews (location : Uuid) (reviews : List ProviderReview) (expected : String) :
    MappingM Bool := do
  let env ← ask
  let rows := reviewRows location env.now reviews
  if rows = [] then pure true
  else savepoint do
    let db ← get
    if db.locations.rows.any fun m => m.id == location && m.googleLocationId == expected then
      bulkCreate rows
      pure true
    else pure false

def syncRead (location : Uuid) : MappingM (Option Task) := do
  let env ← ask
  let db ← get
  match db.locations.find? (·.id == location) with
  | none => pure none
  | some mapping =>
    if (env.connection mapping.googleConnectionId).any (·.status == .active) then
      pure (some (.syncToken location mapping.googleLocationId))
    else pure none

def syncToken (location : Uuid) (googleLocationId : String) : MappingM (Option Task) := do
  let env ← ask
  pure (env.accessToken.map fun token =>
    .syncPage ⟨location, googleLocationId, token, none, [], none, none⟩)

/-- One provider call of `sync_location_reviews`. A rate limit and a refusal end the sync. -/
def syncPage (sync : Sync) : MappingM (Option Task) := do
  let env ← ask
  match env.listReviews sync.token sync.googleLocationId sync.pageToken with
  | .ok page => pure (some (.syncUpsert sync page))
  | .error .rateLimited => pure none
  | .error .permanent => pure none
  | .error e => raise (.provider e)

def Sync.firstPage (sync : Sync) (page : ReviewPage) : Sync :=
  if sync.pageToken =
    none then { sync with average := page.averageRating, count := page.reviewCount } else sync

def syncUpsert (sync : Sync) (page : ReviewPage) : MappingM (Option Task) := do
  let same ← upsertReviews sync.location page.reviews sync.googleLocationId
  if same = false then pure none
  else
    let sync := sync.firstPage page
    match page.nextPageToken.filter (· != "") with
    | none => pure (some (.syncFinish sync))
    | some token =>
      if token ∈ sync.seen then pure none
      else
        pure (some (.syncPage { sync with pageToken := some token, seen := sync.seen ++ [token] }))

def counted (sync : Sync) (now : Time) (m : GoogleLocation) : GoogleLocation :=
  if m.id = sync.location ∧ m.googleLocationId = sync.googleLocationId then
    { m with averageRating := sync.average, reviewCount := sync.count, lastSyncedAt := some now }
  else m

theorem counted_keys (sync : Sync) (now : Time) (m : GoogleLocation) :
    (counted sync now m).id = m.id ∧ (counted sync now m).locationId = m.locationId ∧
      (counted sync now m).googleConnectionId = m.googleConnectionId ∧
      (counted sync now m).googleLocationId = m.googleLocationId := by
  unfold counted
  split <;> exact ⟨rfl, rfl, rfl, rfl⟩

theorem counted_clash (sync : Sync) (now : Time) (a b : GoogleLocation)
    (h : (counted sync now a).Clash (counted sync now b)) : a.Clash b := by
  simpa only [GoogleLocation.Clash, counted_keys] using h

def syncFinish (sync : Sync) : MappingM (Option Task) := do
  let env ← ask
  modify fun db =>
    { db with locations := db.locations.update (counted sync env.now) (counted_clash sync env.now) }
  pure none

end Sync

def taskProgram : Task → MappingM (Option Task)
  | .mapRead location connectionId googleLocationId =>
    mapRead location connectionId googleLocationId
  | .mapList location connectionId googleLocationId token =>
    mapList location connectionId googleLocationId token
  | .mapWrite location connectionId found reviewLink =>
    mapWrite location connectionId found reviewLink
  | .syncRead location => syncRead location
  | .syncToken location googleLocationId => syncToken location googleLocationId
  | .syncPage sync => syncPage sync
  | .syncUpsert sync page => syncUpsert sync page
  | .syncFinish sync => syncFinish sync

end ReviewFlow.GoogleReviews.Mapping
