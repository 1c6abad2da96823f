import ReviewFlow.Tenancy.WhatsAppAccounts

/-!
# The row policies of the tenant tables

The tables on which the migrations put policies, with the functions of `core.rls` that write
them. A predicate reads the settings of the transaction and, where it asks for a parent row, the
tables. What the application does in a transaction is any program that chooses its statements by
the rows it can see and by what comes of its statements, with savepoints for those it lets fail.
-/

namespace ReviewFlow.Tenancy.Schema

open RowSecurity

inductive Table where
  | teamMember
  | teamMemberLocation
  | apiKey
  | auditLog
  | subscription
  | usageRecord
  | paymentAttempt
  | billingEvent
  | customer
  | integrationEvent
  | googleConnection
  | googleOAuthState
  | googleLocation
  | googleReview
  | integration
  | integrationLocationMapping
  | location
  | transaction
  | whatsAppAccount
  | whatsAppLocationMapping
  | messageTemplate
  | embeddedSignupState
  deriving DecidableEq

inductive Value where
  | null
  | uuid (u : Uuid)
  | text (t : String)
  deriving DecidableEq

abbrev Row := String → Value

abbrev Tables := Table → List Row

def sqlEq (a b : Value) : Bool := a != .null && a == b

abbrev Scope := Settings × Tables

abbrev Predicate := Scope → Row → Bool

abbrev TablePolicy := Policy Scope Row

/-- `NULLIF(current_setting(..), '')::uuid`. -/
def uuidSetting (k : Lookup) (s : Settings) : Option Value :=
  match (s.lookup k).nullif with
  | some (.uuid u) => some (.uuid u)
  | _ => none

/-- `NULLIF(current_setting(..), '')`. -/
def textSetting (k : Lookup) (s : Settings) : Option Value :=
  (s.lookup k).nullif.map fun v => .text v.asText

def CURRENT_MERCHANT (s : Settings) : Option Value := s.merchant.nullif.map .uuid

def columnIs (column : String) (setting : Settings → Option Value) : Predicate :=
  fun σ r => (setting σ.1).any fun v => r column == v

def tenantPolicy (predicate : Predicate) : List TablePolicy :=
  [⟨"tenant_isolation", .select, some predicate, none⟩,
   ⟨"tenant_isolation", .insert, none, some predicate⟩,
   ⟨"tenant_isolation", .update, some predicate, some predicate⟩,
   ⟨"tenant_isolation", .delete, some predicate, none⟩]

def merchantIsCurrent : Predicate := columnIs "merchant_id" CURRENT_MERCHANT

def rlsDirect : List TablePolicy := tenantPolicy merchantIsCurrent

def selectBy (name : String) (predicate : Predicate) : TablePolicy :=
  ⟨name, .select, some predicate, none⟩

def rlsSelectByUser (userColumn : String) : TablePolicy :=
  selectBy "self_membership" (columnIs userColumn (uuidSetting .userId))

def rlsSelectByKeyHash (column : String) : TablePolicy :=
  selectBy "api_key_lookup" (columnIs column (textSetting .apiKeyHash))

def rlsSelectByIntegrationId (column : String) : TablePolicy :=
  selectBy "integration_lookup" (columnIs column (uuidSetting .integrationId))

def rlsSelectByBillingRef (columns : List String) : TablePolicy :=
  selectBy "billing_ref_lookup" fun σ r =>
    columns.any fun column => columnIs column (textSetting .billingRef) σ r

def rlsSelectByPhoneNumberId : TablePolicy :=
  selectBy "whatsapp_number_lookup" fun σ r =>
    r "sender_type" == .text "OWN_NUMBER" && r "provider" == .text "meta_cloud" &&
      columnIs "phone_number_id" (textSetting .phoneNumberId) σ r

def rlsViaParent (fkColumn : String) (parent : Table) (parentPolicies : List TablePolicy) :
    List TablePolicy :=
  tenantPolicy fun σ r => (σ.2 parent).any fun p =>
    sqlEq (p "id") (r fkColumn) && visible parentPolicies σ p

def sharedPoolRow : Predicate := fun σ r =>
  r "merchant_id" == .null && r "sender_type" == .text "SHARED_POOL" &&
    textSetting .platformWrite σ.1 == some (.text "whatsapp_shared_pool")

def ownNumberRow : Predicate := fun σ r =>
  merchantIsCurrent σ r && r "sender_type" == .text "OWN_NUMBER"

def rlsSharedPool : List TablePolicy :=
  [⟨"tenant_read", .select,
      some fun σ r => merchantIsCurrent σ r || r "merchant_id" == .null, none⟩,
   ⟨"tenant_insert", .insert, none, some ownNumberRow⟩,
   ⟨"tenant_update", .update, some merchantIsCurrent, some ownNumberRow⟩,
   ⟨"tenant_delete", .delete, some merchantIsCurrent, none⟩,
   ⟨"platform_insert", .insert, none, some sharedPoolRow⟩,
   ⟨"platform_update", .update, some sharedPoolRow, some sharedPoolRow⟩]

def rlsPlatformInsert : TablePolicy :=
  ⟨"platform_insert", .insert, none, some fun σ r =>
    r "merchant_id" == .null && (textSetting .platformWrite σ.1).isSome⟩

def policies : Table → List TablePolicy
  | .teamMember => rlsDirect ++ [rlsSelectByUser "user_id"]
  | .apiKey => rlsDirect ++ [rlsSelectByKeyHash "key_hash"]
  | .auditLog => rlsDirect ++ [rlsPlatformInsert]
  | .subscription =>
    rlsDirect ++ [rlsSelectByBillingRef ["payment_provider_ref", "replacement_provider_ref"]]
  | .integration => rlsDirect ++ [rlsSelectByIntegrationId "id"]
  | .whatsAppAccount => rlsSharedPool ++ [rlsSelectByPhoneNumberId]
  | .googleLocation => rlsViaParent "location_id" .location rlsDirect
  | .whatsAppLocationMapping => rlsViaParent "location_id" .location rlsDirect
  | .googleReview => rlsViaParent "google_location_id" .googleLocation
      (rlsViaParent "location_id" .location rlsDirect)
  | _ => rlsDirect

/-- The foreign key that `rls_via_parent` follows. -/
def parent? : Table → Option (String × Table)
  | .googleLocation => some ("location_id", .location)
  | .whatsAppLocationMapping => some ("location_id", .location)
  | .googleReview => some ("google_location_id", .googleLocation)
  | _ => none

def Anchored (tables : Tables) : Prop :=
  ∀ t fk parent, parent? t = some (fk, parent) →
    ∀ r ∈ tables t, ∃ p ∈ tables parent, sqlEq (p "id") (r fk) = true

/-- What the models declare: checks and unique constraints, which a row breaks alone or with
another one of its table and which hold after each statement, and foreign keys, which are
`DEFERRABLE INITIALLY DEFERRED`. -/
structure Constraints where
  ok : Table → List Row → Prop
  decidable : ∀ t, DecidablePred (ok t)
  sublist : ∀ t l l', l'.Sublist l → ok t l → ok t l'
  keyed : ∀ t l, ok t l → l.Pairwise fun a b => a "id" ≠ b "id"
  /-- The constraint that the error names. -/
  broken : Table → List Row → String
  deferred : Tables → Bool
  anchored : ∀ tables, deferred tables = true → Anchored tables

attribute [instance] Constraints.decidable

abbrev Database (k : Constraints) := (t : Table) → Rows (k.ok t)

def Database.tables {k : Constraints} (db : Database k) : Tables := fun t => (db t).1

abbrev View := Table → List Row

def view (s : Settings) (tables : Tables) : View :=
  fun t => (tables t).filter (visible (policies t) (s, tables))

/-- What comes of a statement that writes: done, refused by the policies or by a constraint, or not
tried in a transaction that has failed. -/
inductive Outcome where
  | done
  | denied
  | violates (constraint : String)
  | aborted
  deriving DecidableEq

/-- A transaction of the application: each statement, and what comes after it, depends on what it
has read and on what has come of its statements. An exception is caught after a rollback to the
savepoint of its block. -/
inductive Program where
  | commit
  | rollback
  | read (rest : Option View → Program)
  | write (t : Table) (st : Statement Row) (rest : Outcome → Program)
  | savepoint (rest : Program)
  | release (rest : Program)
  | rollbackTo (rest : Program)

variable {k : Constraints}

def Database.execute (db : Database k) (s : Settings) (t : Table) (st : Statement Row) :
    Option (Database k) :=
  (st.execute (policies t) (s, db.tables) (db t)).map fun rows => Function.update db t rows

def Database.outcome (db : Database k) (s : Settings) (t : Table) (st : Statement Row) : Outcome :=
  if st.admitted (policies t) (s, db.tables) (db t).1 then
    if (db.execute s t st).isSome then .done
    else .violates (k.broken t (st.result (policies t) (s, db.tables) (db t).1))
  else .denied

/-- A transaction under way, with its savepoints. None is one that has failed, and in which nothing
but a rollback to a savepoint has an effect. -/
structure Progress (k : Constraints) where
  now : Option (Database k)
  saved : List (Database k)

namespace Progress

def start (db : Database k) : Progress k := ⟨some db, []⟩

def view (x : Progress k) (s : Settings) : Option View :=
  x.now.map fun db => Schema.view s db.tables

def outcome (x : Progress k) (s : Settings) (t : Table) (st : Statement Row) : Outcome :=
  x.now.elim .aborted fun db => db.outcome s t st

def write (x : Progress k) (s : Settings) (t : Table) (st : Statement Row) : Progress k :=
  { x with now := x.now.bind fun db => db.execute s t st }

def savepoint (x : Progress k) : Progress k := { x with saved := x.now.toList ++ x.saved }

def release (x : Progress k) : Progress k :=
  if x.now.isSome then { x with saved := x.saved.tail } else x

def rollbackTo (x : Progress k) : Progress k := { x with now := x.saved.head? }

end Progress

def Program.run (s : Settings) : Program → Progress k → Option (Database k)
  | .commit, x => x.now
  | .rollback, _ => none
  | .read rest, x => (rest (x.view s)).run s x
  | .write t st rest, x => (rest (x.outcome s t st)).run s (x.write s t st)
  | .savepoint rest, x => rest.run s x.savepoint
  | .release rest, x => rest.run s x.release
  | .rollbackTo rest, x => rest.run s x.rollbackTo

inductive Opening where
  | tenant (merchantId : Uuid)
  | lookup (k : Lookup) (v : Literal)
  | plain
  deriving DecidableEq

def Opening.session (left : Settings) : Opening → Option Session
  | .tenant m =>
    ((Session.idle left).enter (.tenantContext (some m))).bind (·.enter (.tenantAtomic false))
  | .lookup k v => (Session.idle left).enter (.lookupAtomic k (some v))
  | .plain => (Session.idle left).enter (.atomic false)

/-- A transaction on a connection on which earlier ones left settings. -/
structure Work where
  left : Settings
  opening : Opening
  program : Program

def Work.perform (w : Work) (db : Database k) : Option (Database k) :=
  (w.opening.session w.left).bind fun session => w.program.run session.settings (.start db)

def Work.commit (w : Work) (db : Database k) : Option (Database k) :=
  (w.perform db).filter fun after => k.deferred after.tables

def step (db : Database k) (w : Work) : Database k := (w.commit db).getD db

end ReviewFlow.Tenancy.Schema
