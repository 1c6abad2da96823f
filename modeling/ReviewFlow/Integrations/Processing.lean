import ReviewFlow.Events.Services
import ReviewFlow.Integrations.Intake
import ReviewFlow.Integrations.Mappings
import ReviewFlow.Integrations.Receipts
import ReviewFlow.Sales.RecordSale

/-!
# From the inbox to the sales

`process_event` on the rows of the inbox, with the adapter and the mappings that the integration has
by then, up to the transactions of the merchant. What a failed attempt stores and when the next one
is due is in `Events`: here an attempt is given whether it is due. `POST /sales` processes its event
in the transaction that records it, which is one of the orders.
-/

namespace ReviewFlow.Integrations.Processing

open Python Tables Interleaving
open Events (Uuid)
open Intake (Integration Payload Label)

/-- `==` of JSON values, and what the columns hold of a sale, with none for a DataError. -/
structure Platform extends Intake.Platform where
  equality : Mappings.Equality
  columns : SaleCreated → Option Sales.Sale

structure Progress where
  status : Events.Status
  attemptCount : ℕ
  location : Option Uuid
  deriving DecidableEq

def Progress.received : Progress := ⟨.received, 0, none⟩

def Progress.cancel (p : Progress) : Progress := { p with status := .cancelled }

def Progress.recordFailure (p : Progress) : Progress :=
  { p with
    attemptCount := p.attemptCount + 1
    status := if Events.maxEventAttempts ≤ p.attemptCount + 1 then .deadLetter else .failed }

def Progress.processed (p : Progress) (location : Uuid) : Progress :=
  { p with
    status := .processed
    location := some location }

def Progress.skipped (p : Progress) (due : Bool) : Bool :=
  p.status.final || (p.status == .failed && !due)

/-- What `process_event` makes of the locked row, by the location that its savepoint returns. -/
def Progress.process (p : Progress) (due disconnected : Bool) (location : Option Uuid) :
    Progress :=
  if p.skipped due then p
  else if disconnected then p.cancel
  else match location with
    | none => p.recordFailure
    | some location => p.processed location

def progressOf (e : Events.IntegrationEvent) : Progress := ⟨e.status, e.attemptCount, e.location⟩

theorem progress_process (e : Events.IntegrationEvent) (disconnected : Bool) (x : Events.Attempt) :
    progressOf (e.process disconnected x) =
      (progressOf e).process (e.isDue x.checkedAt) disconnected (x.outcome e.payload).toOption := by
  have hskipped : (progressOf e).skipped (e.isDue x.checkedAt) = e.skipped x := rfl
  unfold Events.IntegrationEvent.process Progress.process
  rw [hskipped]
  split
  · rfl
  · split
    · rfl
    · cases x.outcome e.payload <;> rfl

def payloadDict : Payload → Dict
  | .json payload => payload
  | .row row => CsvImport.Row.payload row.fields

/-- `adapter.normalize(adapter.parse(payload))` with the adapter of the integration. -/
def sale (py : Runtime) (i : Integration) (payload : Dict) : Result SaleCreated :=
  match i.config with
  | .webhook config => Webhook.normalize py (Webhook.parse config payload)
  | .shopify _ _ => Shopify.parse py payload >>= Shopify.normalize py
  | .api => Api.normalize py (Api.parse payload)
  | .csv => CsvImport.normalize py (CsvImport.parsePayload py payload)

abbrev Mapped := Table Mappings.Mapping Mappings.Mapping.Clash

/-- The progress of the events, the mappings of the integrations and the sales of the merchants, by
their ids, beside the rows of the intake. -/
structure Store where
  intake : Intake.Store
  progress : Uuid → Progress
  mappings : Uuid → Mapped
  sales : Uuid → Sales.Database

def Store.empty : Store := ⟨.empty, fun _ => .received, fun _ => .empty, fun _ => .empty⟩

/-- One call of `process_event`: whether a FAILED event is due, the merchants of the locations, and
the ids of the rows that it may create. -/
structure Attempt where
  due : Bool
  merchantOf : Uuid → Option Uuid
  customerId : Uuid
  transactionId : Uuid

abbrev InboxEvent := Events.Receipts.Event Str Payload

variable (web : Platform)

def Store.active (s : Store) (integrationId : Uuid) : List Mappings.Mapping :=
  (s.mappings integrationId).rows.filter Mappings.Mapping.isActive

/-- The call of `record_sale` that an attempt comes to, where nothing raises before it. -/
def Store.saleCall (s : Store) (e : InboxEvent) (i : Integration) (x : Attempt) :
    Option Sales.Call :=
  match sale web.py i (payloadDict e.payload) with
  | .error _ => none
  | .ok sale =>
    match Mappings.resolveLocation web.equality (s.active i.id) sale.externalLocationId with
    | .error _ => none
    | .ok location =>
      if x.merchantOf location ≠ some e.merchantId ∨ i.merchantId ≠ e.merchantId then none
      else (web.columns sale).map fun row => ⟨i.id, location, row, x.customerId, x.transactionId⟩

def Store.sell (s : Store) (e : InboxEvent) (i : Integration) (x : Attempt) :
    Option (Uuid × Sales.Database) :=
  match s.saleCall web e i x with
  | none => none
  | some call => match Sales.recordSale.run call ⟨s.sales e.merchantId, ()⟩ with
    | (.ok _, t) => some (call.location, t.data)
    | (.error _, _) => none

/-- The transaction of `process_event` in the tenant of the event. -/
def Store.processEvent (s : Store) (eventId : Uuid) (x : Attempt) : Store :=
  match s.intake.events.find? (·.id == eventId) with
  | none => s
  | some e => match s.intake.integration? e.integrationId with
    | none => s
    | some i =>
      let p := s.progress eventId
      let disconnected := i.status == .disconnected
      let sold := if p.skipped x.due || disconnected then none else s.sell web e i x
      { s with
        progress := Function.update s.progress eventId
          (p.process x.due disconnected (sold.map Prod.fst))
        sales := match sold with
          | some (_, sales) => Function.update s.sales e.merchantId sales
          | none => s.sales }

def disconnects (before after : Intake.Store) (integrationId : Uuid) : Bool :=
  (before.integration? integrationId).any (·.status != .disconnected) &&
    (after.integration? integrationId).any (·.status == .disconnected)

def deactivate (mappings : Mapped) : Mapped :=
  mappings.update (fun m => { m with isActive := false }) fun _ _ h => h

/-- A step of the intake. A disconnect deactivates the mappings and cancels the events that are
still to be processed. -/
def Store.take (s : Store) (l : Label) : Store :=
  let after := s.intake.step web.toPlatform l
  { s with
    intake := after
    progress := fun id => match after.events.find? (·.id == id) with
      | some e =>
        if disconnects s.intake after e.integrationId && !(s.progress id).status.final then
          (s.progress id).cancel
        else s.progress id
      | none => s.progress id
    mappings := fun id =>
      if disconnects s.intake after id then deactivate (s.mappings id) else s.mappings id }

inductive MappingRequest where
  | add (locationId : Uuid) (config : Json) (isActive : Bool)
  | replace (items : List Mappings.Item)

def MappingRequest.operation : MappingRequest → Mappings.Operation
  | .add locationId config isActive => .add locationId config isActive
  | .replace items => .replace items

def mappingStatus : Events.IntegrationStatus → Mappings.Status
  | .connected => .connected
  | .error => .error
  | .disconnected => .disconnected

def Store.mapped (s : Store) (i : Integration) : Mappings.Integration :=
  ⟨i.merchantId, mappingStatus i.status, none, s.mappings i.id⟩

def Store.map (s : Store) (integrationId : Uuid) (request : MappingRequest) (env : Mappings.Env) :
    Store :=
  match s.intake.integration? integrationId with
  | none => s
  | some i =>
    { s with
      mappings := Function.update s.mappings integrationId
        (Mappings.step (s.mapped i) (request.operation, env)).mappings }

inductive Choice where
  | take (l : Label)
  | process (eventId : Uuid) (x : Attempt)
  | map (integrationId : Uuid) (request : MappingRequest) (env : Mappings.Env)

def Store.step (s : Store) : Choice → Store
  | .take l => s.take web l
  | .process eventId x => s.processEvent web eventId x
  | .map integrationId request env => s.map integrationId request env

end ReviewFlow.Integrations.Processing
