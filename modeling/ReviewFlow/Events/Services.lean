import ReviewFlow.Table
import ReviewFlow.Values

/-!
# The event inbox

The tables `Integration` and `IntegrationEvent` and the transactions on them: `record_event`,
`process_event`, `disconnect_integration` and the insert of an integration. The savepoint of an
attempt is its outcome: the location when `record_sale` returned, or what was raised.
-/

namespace ReviewFlow.Events

open Tables

abbrev Uuid := ℕ

inductive IntegrationStatus where
  | connected
  | error
  | disconnected
  deriving DecidableEq

structure Integration where
  id : Uuid
  status : IntegrationStatus
  deriving DecidableEq

def Integration.Clash (a b : Integration) : Prop := a.id = b.id

inductive Status where
  | received
  | processed
  | failed
  | deadLetter
  | cancelled
  deriving DecidableEq

structure IntegrationEvent where
  id : Uuid
  integrationId : Uuid
  externalEventId : String
  payload : Json
  location : Option Uuid
  status : Status
  receivedAt : Time
  processedAt : Option Time
  attemptCount : ℕ
  errorCode : Option String
  errorMessage : Option String
  updatedAt : Time

/-- The primary key and `uniq_integrationevent_integration_external_event`. -/
def IntegrationEvent.Clash (a b : IntegrationEvent) : Prop :=
  a.id = b.id ∨ (a.integrationId = b.integrationId ∧ a.externalEventId = b.externalEventId)

instance : DecidableRel Integration.Clash := fun a b => inferInstanceAs (Decidable (a.id = b.id))
instance : DecidableRel IntegrationEvent.Clash := fun _ _ => inferInstanceAs (Decidable (_ ∨ _))

structure Inbox where
  integrations : Table Integration Integration.Clash
  events : Table IntegrationEvent IntegrationEvent.Clash

def maxEventAttempts : ℕ := 5
def retryBase : Time := 5 * 60 * 1000000
def staleReceivedAfter : Time := 10 * 60 * 1000000

inductive Failure where
  | adapterNotFound
  | payloadValidation (code : String)
  | locationUnresolved
  | other
  deriving DecidableEq

def safeErrors : List (String × String) :=
  [("ADAPTER_NOT_FOUND", "No adapter is registered for this integration's provider."),
   ("PAYLOAD_INVALID", "The event payload failed validation."),
   ("INVALID_PHONE", "The customer phone is not a valid E.164 number."),
   ("INVALID_CURRENCY", "The currency is not a valid ISO 4217 code."),
   ("INVALID_AMOUNT", "The amount is missing or negative."),
   ("INVALID_OCCURRED_AT", "The sale time is missing or has no timezone."),
   ("INVALID_EXTERNAL_TRANSACTION_ID", "The external transaction ID is missing or too long."),
   ("LOCATION_UNRESOLVED", "The sale could not be mapped to a location."),
   ("PROCESSING_ERROR", "Event processing failed")]

def errorCode : Failure → String
  | .adapterNotFound => "ADAPTER_NOT_FOUND"
  | .payloadValidation code => if (safeErrors.lookup code).isSome then code else "PAYLOAD_INVALID"
  | .locationUnresolved => "LOCATION_UNRESOLVED"
  | .other => "PROCESSING_ERROR"

def safeError (f : Failure) : String × Option String :=
  (errorCode f, safeErrors.lookup (errorCode f))

/-- One call of `process_event`: its clock readings, and the outcome of the savepoint by payload. -/
structure Attempt where
  checkedAt : Time
  processedAt : Time
  savedAt : Time
  outcome : Json → Except Failure Uuid

def backoff (attemptCount : ℕ) : Time := retryBase * 2 ^ (attemptCount - 1)

def IntegrationEvent.isDue (e : IntegrationEvent) (now : Time) : Bool :=
  e.updatedAt ≤ now - backoff e.attemptCount

def IntegrationEvent.recordFailure (e : IntegrationEvent) (f : Failure) (now : Time) :
    IntegrationEvent :=
  { e with
    attemptCount := e.attemptCount + 1
    errorCode := some (safeError f).1
    errorMessage := (safeError f).2
    status := if maxEventAttempts ≤ e.attemptCount + 1 then .deadLetter else .failed
    updatedAt := now }

def IntegrationEvent.cancel (e : IntegrationEvent) (now : Time) : IntegrationEvent :=
  { e with status := .cancelled, updatedAt := now }

def IntegrationEvent.processed (e : IntegrationEvent) (location : Uuid) (x : Attempt) :
    IntegrationEvent :=
  { e with
    status := .processed
    location := some location
    processedAt := some x.processedAt
    errorCode := none
    errorMessage := none
    updatedAt := x.savedAt }

def Status.final : Status → Bool
  | .processed | .deadLetter | .cancelled => true
  | .received | .failed => false

def IntegrationEvent.skipped (e : IntegrationEvent) (x : Attempt) : Bool :=
  e.status.final || (e.status == .failed && !e.isDue x.checkedAt)

def Inbox.disconnected (s : Inbox) (integrationId : Uuid) : Bool :=
  s.integrations.rows.any fun i => i.id == integrationId && i.status == .disconnected

/-- What `process_event` makes of the locked row. -/
def IntegrationEvent.process (e : IntegrationEvent) (disconnected : Bool) (x : Attempt) :
    IntegrationEvent :=
  if e.skipped x then e
  else if disconnected then e.cancel x.savedAt
  else match x.outcome e.payload with
    | .error f => e.recordFailure f x.savedAt
    | .ok location => e.processed location x

theorem process_key (e : IntegrationEvent) (disconnected : Bool) (x : Attempt) :
    (e.process disconnected x).id = e.id ∧
    (e.process disconnected x).integrationId = e.integrationId ∧
      (e.process disconnected x).externalEventId = e.externalEventId ∧
      (e.process disconnected x).payload = e.payload := by
  unfold IntegrationEvent.process
  split
  · exact ⟨rfl, rfl, rfl, rfl⟩
  · split
    · exact ⟨rfl, rfl, rfl, rfl⟩
    · split <;> exact ⟨rfl, rfl, rfl, rfl⟩

/-- `UPDATE` that leaves the columns of the constraints. -/
def Inbox.updateEvents (s : Inbox) (f : IntegrationEvent → IntegrationEvent)
    (h : ∀ e, (f e).id = e.id ∧ (f e).integrationId = e.integrationId ∧
      (f e).externalEventId = e.externalEventId) :
    Inbox :=
  { s with
    events := s.events.update f fun a b hc => by
      obtain ⟨ha, hai, hax⟩ := h a
      obtain ⟨hb, hbi, hbx⟩ := h b
      rw [IntegrationEvent.Clash, ha, hai, hax, hb, hbi, hbx] at hc
      exact hc }

theorem mem_updateEvents {s : Inbox} {f : IntegrationEvent → IntegrationEvent}
    {e' : IntegrationEvent}
    {h : ∀ e, (f e).id = e.id ∧ (f e).integrationId = e.integrationId ∧
      (f e).externalEventId = e.externalEventId} :
    e' ∈ (s.updateEvents f h).events ↔ ∃ e ∈ s.events, f e = e' :=
  List.mem_map

def Inbox.processEvent (s : Inbox) (eventId : Uuid) (x : Attempt) : Inbox :=
  s.updateEvents
      (fun e => if e.id = eventId then e.process (s.disconnected e.integrationId) x else e)
          fun e => by
    split
    · obtain ⟨hid, hi, hx, -⟩ := process_key e (s.disconnected e.integrationId) x
      exact ⟨hid, hi, hx⟩
    · exact ⟨rfl, rfl, rfl⟩

/-- A delivery: the status of the integration that its receiver read before, and the new row. -/
structure Receipt where
  seen : IntegrationStatus
  id : Uuid
  integrationId : Uuid
  externalEventId : String
  payload : Json
  receivedAt : Time
  savedAt : Time

def Receipt.event (r : Receipt) : IntegrationEvent :=
  ⟨r.id, r.integrationId, r.externalEventId, r.payload, none, .received, r.receivedAt, none, 0,
    none, none, r.savedAt⟩

/-- An `IntegrityError` is a duplicate, which changes nothing. The foreign key needs the
integration. -/
def Inbox.recordEvent (s : Inbox) (r : Receipt) : Inbox :=
  if r.seen = .disconnected ∨ s.integrations.rows.all (fun i => i.id != r.integrationId) then s
  else match s.events.insert? r.event with
    | some events => { s with events }
    | none => s

def IntegrationEvent.disconnect (e : IntegrationEvent) (integrationId : Uuid) (now : Time) :
    IntegrationEvent :=
  if e.integrationId = integrationId ∧ e.status.final = false then e.cancel now else e

theorem disconnect_key (e : IntegrationEvent) (integrationId : Uuid) (now : Time) :
    (e.disconnect integrationId now).id = e.id ∧
    (e.disconnect integrationId now).integrationId = e.integrationId ∧
      (e.disconnect integrationId now).externalEventId = e.externalEventId := by
  unfold IntegrationEvent.disconnect
  split <;> exact ⟨rfl, rfl, rfl⟩

def Inbox.disconnectIntegration (s : Inbox) (integrationId : Uuid) (now : Time) : Inbox :=
  if s.disconnected integrationId then s
  else
    let s := { s with
      integrations := s.integrations.update
        (fun i => if i.id = integrationId then { i with status := .disconnected } else i)
            fun a b hc => by
          simp only [Integration.Clash] at hc ⊢
          split at hc <;> split at hc <;> exact hc }
    s.updateEvents (fun e => e.disconnect integrationId now) fun e =>
      disconnect_key e integrationId now

def Inbox.connectIntegration (s : Inbox) (integrationId : Uuid) : Inbox :=
  match s.integrations.insert? ⟨integrationId, .connected⟩ with
  | some integrations => { s with integrations }
  | none => s

def Inbox.dueEventIds (s : Inbox) (now : Time) : List Uuid :=
  (s.events.rows.filter fun e =>
    (e.status == .received && e.receivedAt < now - staleReceivedAfter) ||
      (e.status == .failed && e.isDue now)).map
    IntegrationEvent.id

/-- One committed transaction. The clock of a sweep is the time of its selection. -/
inductive Choice where
  | connect (integrationId : Uuid)
  | disconnect (integrationId : Uuid) (now : Time)
  | record (r : Receipt)
  | process (eventId : Uuid) (x : Attempt)
  | sweep (now : Time)

def Inbox.step (s : Inbox) : Choice → Inbox
  | .connect integrationId => s.connectIntegration integrationId
  | .disconnect integrationId now => s.disconnectIntegration integrationId now
  | .record r => s.recordEvent r
  | .process eventId x => s.processEvent eventId x
  | .sweep _ => s

end ReviewFlow.Events
