import ReviewFlow.Accounts.Team
import ReviewFlow.GoogleReviews.Reviews
import ReviewFlow.Sales.RecordSale

/-!
# Locations and who reaches them

The requests of members on the locations of one merchant, its sales and its Google reviews, each
cut at its statements. The membership is read first and not again, so the role in it may be old.
A uuid of a new location comes from outside.
-/

namespace ReviewFlow.Locations

open Savepoint Tables Interleaving
open Accounts (Member Role Team TeamChoice)
open GoogleReviews (Mapping.Task Mapping.taskProgram Mapping.GoogleLocation Mapping.GoogleReview)
open Sales (recordSale)

abbrev Uuid := ℕ

structure Location where
  id : Uuid
  name : String
  address : Option String
  phone : Option String
  timezone : Option String
  isActive : Bool
  deriving DecidableEq

def Location.Clash (a b : Location) : Prop := a.id = b.id

instance : DecidableRel Location.Clash := fun _ _ => inferInstanceAs (Decidable (_ = _))

/-- The arguments of `update_location`. None is `_UNSET`. -/
structure LocationFields where
  name : Option String
  address : Option (Option String)
  phone : Option (Option String)
  timezone : Option (Option String)
  deriving DecidableEq

def LocationFields.isEmpty (fields : LocationFields) : Bool :=
  fields.name.isNone && fields.address.isNone && fields.phone.isNone && fields.timezone.isNone

def LocationFields.set (fields : LocationFields) (row : Location) : Location :=
  { row with
    name := fields.name.getD row.name
    address := fields.address.getD row.address
    phone := fields.phone.getD row.phone
    timezone := fields.timezone.getD row.timezone }

def Location.deactivated (row : Location) : Location := { row with isActive := false }

/-- What a view does with the location that `get_accessible_location` returns. -/
inductive Action where
  | read
  | update (fields : LocationFields)
  | deactivate
  | googleLocation
  deriving DecidableEq

/-- The filters of `list_transactions` and `list_sales`. -/
structure TransactionFilter where
  locationId : Option Uuid
  dateFrom : Option Time
  dateTo : Option Time
  status : Option Sales.Status

structure ReviewFilter where
  locationId : Option Uuid
  dateFrom : Option Time
  dateTo : Option Time
  ratingMin : Option ℤ

inductive Request where
  | listLocations
  | createLocation (name : String) (address phone timezone : Option String)
  | location (pk : Uuid) (action : Action)
  | listTransactions (filter : TransactionFilter)
  | getTransaction (pk : Uuid)
  | listReviews (filter : ReviewFilter)
  | mapLocation (pk connectionId : Uuid) (googleLocationId : String)

/-- `IsOwnerAdminOrManager.roles`. -/
def writes : Role → Bool
  | .owner | .admin | .manager => true
  | .viewer => false

def Action.permits : Action → Role → Bool
  | .update _, role => writes role
  | .deactivate, role => role.manages
  | .read, _ | .googleLocation, _ => true

def Request.permits : Request → Role → Bool
  | .createLocation .., role => role.manages
  | .location _ action, role => action.permits role
  | .mapLocation .., role => writes role
  | .listLocations, _ | .listTransactions _, _ | .getTransaction _, _ | .listReviews _, _ => true

inductive Stage where
  | arrived (request : Request)
  | found (row : Location) (action : Action)
  | mapping (pk : Uuid) (task : Mapping.Task)

def Stage.permits : Stage → Role → Bool
  | .arrived request, role => request.permits role
  | .found _ action, role => action.permits role
  | .mapping .., role => writes role

structure Visit where
  actor : Member
  stage : Stage

inductive Error where
  | locationNotFound
  | transactionNotFound
  | validationError (field : String) (messages : List String)
  | integrityError
  | google (e : GoogleReviews.Mapping.Error)

inductive Answer where
  | locations (rows : List Location)
  | location (row : Location)
  | transactions (rows : List Sales.Transaction)
  | transaction (row : Sales.Transaction)
  | reviews (rows : List (Uuid × Mapping.GoogleReview))
  | googleLocation (pk : Uuid) (row : Option Mapping.GoogleLocation)
  | created (row : Location)
  | updated (row : Location)
  | deactivated (pk : Uuid)
  | mapped (pk : Uuid)
  | error (e : Error)

def Answer.places : Answer → List Uuid
  | .locations rows => rows.map (·.id)
  | .location row | .updated row => [row.id]
  | .transactions rows => rows.map (·.location)
  | .transaction row => [row.location]
  | .reviews rows => rows.map (·.1)
  | .googleLocation pk _ | .deactivated pk | .mapped pk => [pk]
  | .created _ | .error _ => []

inductive Outcome where
  | goesOn (stage : Stage)
  | answered (answer : Answer)

structure Env where
  /-- `zoneinfo.available_timezones()`. -/
  timezones : String → Bool
  newId : Uuid
  google : GoogleReviews.Mapping.Env

structure Site where
  team : Team
  /-- In the order of `created_at`, as `sales` and the reviews are. -/
  locations : Table Location Location.Clash
  sales : Sales.Database
  google : GoogleReviews.Mapping.Database
  /-- All requests so far. None is one that is answered. -/
  visits : List (Option Visit)

def isMerchantMember (db : Accounts.Database) (userId : Uuid) : Option Member :=
  db.members.find? fun m => m.userId == userId && m.accepted && db.active

namespace Site

variable (s : Site) (actor : Member) (env : Env)

def accessibleLocations : List Location :=
  if actor.role = .manager then
    s.locations.rows.filter fun row => s.team.db.assigned.contains (actor.id, row.id)
  else s.locations.rows

def getAccessibleLocation (pk : Uuid) : Option Location :=
  (s.accessibleLocations actor).find? (·.id == pk)

/-- `location__in=accessible_locations(actor)`. -/
def accessible (l : Uuid) : Bool := (s.accessibleLocations actor).any (·.id == l)

end Site

def TransactionFilter.apply (filter : TransactionFilter) (row : Sales.Transaction) : Bool :=
  filter.locationId.all (· == row.location) &&
    filter.dateFrom.all (fun t => decide (t ≤ row.occurredAt)) &&
    filter.dateTo.all (fun t => decide (row.occurredAt ≤ t)) && filter.status.all (· == row.status)

def ReviewFilter.apply (filter : ReviewFilter) (l : Uuid) (row : Mapping.GoogleReview) : Bool :=
  filter.locationId.all (· == l) &&
    filter.dateFrom.all (fun t => decide (t ≤ row.reviewCreatedAt)) &&
    filter.dateTo.all (fun t => decide (row.reviewCreatedAt ≤ t)) &&
    filter.ratingMin.all (fun n => decide (n ≤ row.rating))

def invalidTimezone : Error :=
  .validationError "timezone" ["Must be a valid IANA time zone name."]

namespace Site

variable (s : Site) (actor : Member) (env : Env)

def listTransactions (filter : TransactionFilter) : List Sales.Transaction :=
  ((s.sales.transactions.rows.filter fun row => s.accessible actor row.location).filter
    filter.apply).reverse

/-- `GET /sales`, for an API key. -/
def listSales (filter : TransactionFilter) : List Sales.Transaction :=
  (s.sales.transactions.rows.filter filter.apply).reverse

def getTransaction (pk : Uuid) : Option Sales.Transaction :=
  (s.sales.transactions.rows.filter fun row => s.accessible actor row.location).find? (·.id == pk)

def placedReviews : List (Uuid × Mapping.GoogleReview) :=
  s.google.reviews.rows.filterMap fun row =>
    (s.google.locations.find? (·.id == row.googleLocation)).map fun m => (m.locationId, row)

def listReviews (teamMember : Option Member) (filter : ReviewFilter) :
    List (Uuid × Mapping.GoogleReview) :=
  (s.placedReviews.filter fun row => teamMember.all fun actor => s.accessible actor row.1).filter
    fun row => filter.apply row.1 row.2

def locationIds : List Uuid := s.locations.rows.map (·.id)

def createLocation (name : String) (address phone timezone : Option String) : Outcome × Site :=
  if timezone.all env.timezones then
    match s.locations.insert? ⟨env.newId, name, address, phone, timezone, true⟩ with
    | some locations =>
      (.answered (.created ⟨env.newId, name, address, phone, timezone, true⟩),
        { s with
          locations := locations
          team := s.team.step (.elsewhere s.team.db.active (locations.rows.map (·.id))) })
    | none => (.answered (.error .integrityError), s)
  else (.answered (.error invalidTimezone), s)

/-- `UPDATE` of the row with the key `pk`, which keeps the key. -/
def updateRow (pk : Uuid) (f : Location → Location) (h : ∀ row, (f row).id = row.id) : Site :=
  { s with
    locations := s.locations.update (fun row => if row.id = pk then f row else row)
      fun a b hab => by
      unfold Location.Clash at hab ⊢
      split at hab <;> split at hab <;> simpa only [h] using hab }

/-- The row as it was loaded is set and answered; the stored one has the fields set that were
given. -/
def updateLocation (row : Location) (fields : LocationFields) : Outcome × Site :=
  if fields.timezone.all (·.all env.timezones) then
    (.answered (.updated (fields.set row)),
      if fields.isEmpty then s else s.updateRow row.id fields.set fun _ => rfl)
  else (.answered (.error invalidTimezone), s)

def deactivateLocation (row : Location) : Outcome × Site :=
  (.answered (.deactivated row.id),
    if row.isActive then s.updateRow row.id .deactivated fun _ => rfl else s)

def mapLocation (actor : Member) (pk : Uuid) (task : Mapping.Task) : Outcome × Site :=
  let r := (Mapping.taskProgram task).run { env.google with accessible := s.accessible actor }
    ⟨s.google, ()⟩
  (match r.1 with
    | .ok (some task) => .goesOn (.mapping pk task)
    | .ok none => .answered (.mapped pk)
    | .error e => .answered (.error (.google e)), { s with google := r.2.data })

def serve (v : Visit) : Outcome × Site :=
  match v.stage with
  | .arrived .listLocations => (.answered (.locations (s.accessibleLocations v.actor)), s)
  | .arrived (.createLocation name address phone timezone) =>
    s.createLocation env name address phone timezone
  | .arrived (.location pk action) => match s.getAccessibleLocation v.actor pk with
    | some row => (.goesOn (.found row action), s)
    | none => (.answered (.error .locationNotFound), s)
  | .arrived (.listTransactions filter) =>
    (.answered (.transactions (s.listTransactions v.actor filter)), s)
  | .arrived (.getTransaction pk) => match s.getTransaction v.actor pk with
    | some row => (.answered (.transaction row), s)
    | none => (.answered (.error .transactionNotFound), s)
  | .arrived (.listReviews filter) =>
    (.answered (.reviews (s.listReviews (some v.actor) filter)), s)
  | .arrived (.mapLocation pk connectionId googleLocationId) =>
    s.mapLocation env v.actor pk (.mapRead pk connectionId googleLocationId)
  | .found row .read => (.answered (.location row), s)
  | .found row (.update fields) => s.updateLocation env row fields
  | .found row .deactivate => s.deactivateLocation row
  | .found row .googleLocation =>
    (.answered (.googleLocation row.id (s.google.locations.find? (·.locationId == row.id))), s)
  | .mapping pk task => s.mapLocation env v.actor pk task

end Site

/-- A part of a sync of reviews, with what its earlier parts gave it. -/
def isSync : Mapping.Task → Bool
  | .mapRead .. | .mapList .. | .mapWrite .. => false
  | .syncRead _ | .syncToken .. | .syncPage _ | .syncUpsert .. | .syncFinish _ => true

inductive Label where
  | team (choice : TeamChoice)
  | arrive (userId : Uuid) (request : Request)
  | serve (i : ℕ) (env : Env)
  | sale (call : Sales.Call)
  | sync (task : Mapping.Task) (env : GoogleReviews.Mapping.Env)

def Outcome.next (actor : Member) : Outcome → Option Visit
  | .goesOn stage => some ⟨actor, stage⟩
  | .answered _ => none

def Site.teamStep (s : Site) : TeamChoice → Site
  | .elsewhere active _ => { s with team := s.team.step (.elsewhere active s.locationIds) }
  | choice => { s with team := s.team.step choice }

def Site.step (s : Site) : Label → Site
  | .team choice => s.teamStep choice
  | .arrive userId request =>
    match (isMerchantMember s.team.db userId).filter fun m => request.permits m.role with
    | some actor => { s with visits := s.visits ++ [some ⟨actor, .arrived request⟩] }
    | none => s
  | .serve i env => match s.visits[i]? with
    | some (some v) =>
      { (s.serve env v).2 with visits := s.visits.set i ((s.serve env v).1.next v.actor) }
    | _ => s
  | .sale call => { s with sales := (recordSale.run call ⟨s.sales, ()⟩).2.data }
  | .sync task env =>
    if isSync task then
      { s with google := ((Mapping.taskProgram task).run env ⟨s.google, ()⟩).2.data }
    else s

def nextKey (db : GoogleReviews.Mapping.Database) : Uuid :=
  (db.locations.rows.map (·.id) ++ db.reviews.rows.map (·.googleLocation)).foldr max 0 + 1

def Site.start (s : Site) : Site :=
  { s with
    team := Team.start { s.team.db with locations := s.locationIds }
    google := { s.google with nextId := nextKey s.google }
    visits := [] }

end ReviewFlow.Locations
