import ReviewFlow.Events.Services

/-!
# The row that `record_event` returns

The columns of `IntegrationEvent` that are set once, over any keys and payloads. Two deliveries to
one integration get one row if and only if their keys are equal, whatever is recorded between them.
-/

namespace ReviewFlow.Events.Receipts

open Tables

structure Connection extends Integration where
  merchantId : Uuid

structure Event (κ α : Type) where
  id : Uuid
  merchantId : Uuid
  integrationId : Uuid
  externalEventId : κ
  payload : α

variable {κ α : Type}

/-- The primary key and `uniq_integrationevent_integration_external_event`. -/
def Event.Clash (a b : Event κ α) : Prop :=
  a.id = b.id ∨ (a.integrationId = b.integrationId ∧ a.externalEventId = b.externalEventId)

instance [DecidableEq κ] : DecidableRel (Event.Clash : Event κ α → Event κ α → Prop) :=
  fun _ _ => inferInstanceAs (Decidable (_ ∨ _))

theorem Event.Clash.symm {a b : Event κ α} (h : a.Clash b) : b.Clash a :=
  h.imp Eq.symm fun h => ⟨h.1.symm, h.2.symm⟩

abbrev Inbox (κ α : Type) := Table (Event κ α) Event.Clash

inductive Failure where
  | tenantContext
  | integrationDisconnected
  | doesNotExist
  deriving DecidableEq

structure Call (κ α : Type) where
  tenant : Option Uuid
  integration : Connection
  id : Uuid
  externalEventId : κ
  payload : α

def Call.event (c : Call κ α) : Event κ α :=
  ⟨c.id, c.integration.merchantId, c.integration.id, c.externalEventId, c.payload⟩

variable [DecidableEq κ]

def existing (events : Inbox κ α) (c : Call κ α) : Option (Event κ α) :=
  events.find? fun e =>
    e.integrationId == c.integration.id && e.externalEventId == c.externalEventId

def recordEvent (events : Inbox κ α) (c : Call κ α) :
    Except Failure ((Event κ α × Bool) × Inbox κ α) :=
  if c.tenant ≠ some c.integration.merchantId then .error .tenantContext
  else if c.integration.status = .disconnected then .error .integrationDisconnected
  else match events.insert? c.event with
    | some events' => .ok ((c.event, true), events')
    | none => match existing events c with
      | some e => .ok ((e, false), events)
      | none => .error .doesNotExist

/-- The table after a call, which a call that raises leaves as it is. -/
def afterCall (events : Inbox κ α) (c : Call κ α) : Inbox κ α :=
  match recordEvent events c with
  | .ok (_, events') => events'
  | .error _ => events

section Recorded

variable {events events' : Inbox κ α} {c c' : Call κ α} {e e' : Event κ α} {new new' : Bool}

theorem existing_eq_some (h : existing events c = some e) :
    e ∈ events ∧ e.integrationId = c.integration.id ∧ e.externalEventId = c.externalEventId := by
  obtain ⟨hmem, hkey⟩ := Table.mem_of_find? h
  simp only [Bool.and_eq_true, beq_iff_eq] at hkey
  exact ⟨hmem, hkey⟩

/-- A call that returns has either inserted its row or found the row of its key. -/
theorem recordEvent_cases (h : recordEvent events c = .ok ((e, new), events')) :
    (new = true ∧ e = c.event ∧ events.insert? c.event = some events') ∨
      (new = false ∧ existing events c = some e ∧ events' = events) := by
  simp only [recordEvent] at h
  split at h
  · cases h
  · split at h
    · cases h
    · split at h
      case h_1 hinsert =>
        cases h
        exact .inl ⟨rfl, rfl, hinsert⟩
      case h_2 hinsert =>
        split at h
        case h_1 hfound =>
          cases h
          exact .inr ⟨rfl, hfound, rfl⟩
        case h_2 => cases h

theorem recordEvent_event (h : recordEvent events c = .ok ((e, new), events')) :
    e ∈ events' ∧ e.integrationId = c.integration.id ∧ e.externalEventId = c.externalEventId := by
  rcases recordEvent_cases h with ⟨-, rfl, hinsert⟩ | ⟨-, hfound, rfl⟩
  · exact ⟨(Table.mem_insert? hinsert).mpr (.inr rfl), rfl, rfl⟩
  · exact existing_eq_some hfound

theorem recordEvent_kept (h : recordEvent events c = .ok ((e, new), events')) (he : e' ∈ events) :
    e' ∈ events' := by
  rcases recordEvent_cases h with ⟨-, -, hinsert⟩ | ⟨-, -, rfl⟩
  · exact (Table.mem_insert? hinsert).mpr (.inl he)
  · exact he

theorem afterCall_kept (he : e ∈ events) : e ∈ afterCall events c := by
  unfold afterCall
  split
  case h_1 h => exact recordEvent_kept h he
  case h_2 => exact he

theorem afterCalls_kept (calls : List (Call κ α)) (he : e ∈ events) :
    e ∈ calls.foldl afterCall events := by
  induction calls generalizing events with
  | nil => exact he
  | cons c calls ih => exact ih (afterCall_kept he)

theorem recordEvent_new (h : recordEvent events c = .ok ((e, new), events'))
    (he : e ∈ events) : new = false := by
  rcases recordEvent_cases h with ⟨-, rfl, hinsert⟩ | ⟨hnew, -, -⟩
  · exact absurd (.inl rfl) ((Table.insert?_eq_some.mp hinsert).1 _ he)
  · exact hnew

/-- Two calls for one integration return one row if and only if they have one key. -/
theorem recordEvent_same {later : List (Call κ α)} {events'' : Inbox κ α}
    (h : recordEvent events c = .ok ((e, new), events'))
    (h' : recordEvent (later.foldl afterCall events') c' = .ok ((e', new'), events''))
    (hintegration : c.integration.id = c'.integration.id) :
    e' = e ↔ c'.externalEventId = c.externalEventId := by
  obtain ⟨hmem, hi, hk⟩ := recordEvent_event h
  obtain ⟨hmem', hi', hk'⟩ := recordEvent_event h'
  constructor
  · intro heq
    rw [← hk', heq, hk]
  · intro hkey
    have hstays := recordEvent_kept h' (afterCalls_kept later hmem)
    apply Table.eq_of_clash (fun _ _ => Event.Clash.symm) hmem' hstays
    exact .inr ⟨by rw [hi', hi, hintegration], by rw [hk', hk, hkey]⟩

end Recorded

end ReviewFlow.Events.Receipts
