import ReviewFlow.Integrations.IntakeTraced
import ReviewFlow.Integrations.MappingSets
import ReviewFlow.Integrations.Processing
import ReviewFlow.Sales.Counters

/-!
# Where sales come from

Each transaction is traced through the attempt that recorded it to the event of the inbox, and so to
the delivery, the request or the file that the event came with. The other way, a PROCESSED event has
its one transaction.
-/

namespace ReviewFlow.Integrations.Processing

open Python Tables Interleaving
open Events (Uuid)
open Intake (Integration Label)

variable {web : Platform} {s : Store} {ls : List Choice} {c : Choice} {e : InboxEvent}
  {i : Integration} {x : Attempt} {call : Sales.Call}

section Refinement

def Choice.intake? : Choice → Option Label
  | .take l => some l
  | .process _ _ | .map _ _ _ => none

def intakeLabels (ls : List Choice) : List Label := ls.filterMap Choice.intake?

theorem processEvent_intake (eventId : Uuid) :
    (s.processEvent web eventId x).intake = s.intake := by
  unfold Store.processEvent
  split
  · rfl
  · split <;> rfl

theorem map_intake (integrationId : Uuid) (request : MappingRequest) (env : Mappings.Env) :
    (s.map integrationId request env).intake = s.intake := by
  unfold Store.map
  split <;> rfl

theorem run_intake (s : Store) (ls : List Choice) :
    (run (Store.step web) s ls).intake =
      run (Intake.Store.step web.toPlatform) s.intake (intakeLabels ls) := by
  induction ls generalizing s with
  | nil => rfl
  | cons c ls ih =>
    have hstep := ih (s.step web c)
    cases c with
    | take l => exact hstep
    | process eventId x =>
      simp only [Store.step, processEvent_intake] at hstep
      exact hstep
    | map integrationId request env =>
      simp only [Store.step, map_intake] at hstep
      exact hstep

theorem stepped_events {web : Intake.Platform} {s s' : Intake.Store} {l : Label}
    (h : Intake.Stepped web s l s') (he : e ∈ s.events) : e ∈ s'.events := by
  cases h with
  | uninstall n r i hn =>
    obtain ⟨hevents, -⟩ := Intake.disconnect_rest (s := s) ⟨i.id, none, some "app_uninstalled"⟩
    exact hevents.symm ▸ he
  | disconnect integrationId actor hl =>
    obtain ⟨hevents, -⟩ := Intake.disconnect_rest (s := s) ⟨integrationId, some actor, none⟩
    exact hevents.symm ▸ he
  | insert call result events deliveries imports hrecord =>
    rcases Events.Receipts.recordEvent_cases hrecord with ⟨-, -, hinsert⟩ | ⟨-, -, rfl⟩
    · exact (Table.mem_insert? hinsert).mpr (.inl he)
    · exact he
  | _ => exact he

theorem take_events (l : Label) (he : e ∈ s.intake.events) :
    e ∈ (s.intake.step web.toPlatform l).events :=
  stepped_events (Intake.step_stepped s.intake l) he

theorem event_eq_of_id {events : Intake.Inbox} {e' : InboxEvent} (he : e ∈ events)
    (he' : e' ∈ events) (h : e'.id = e.id) : e' = e :=
  Table.eq_of_clash (fun _ _ => Events.Receipts.Event.Clash.symm) he' he (.inl h)

end Refinement

section Attempts

/-- An attempt on the event comes to a call of `record_sale`, with the sale that the adapter of its
integration makes of the payload, at the location of one of the integration's active mappings. -/
def Attempts (web : Platform) (e : InboxEvent) (call : Sales.Call) (s : Store) (c : Choice) :
    Prop :=
  ∃ x i created mapping, c = .process e.id x ∧ e ∈ s.intake.events ∧ i ∈ s.intake.integrations ∧
    i.id = e.integrationId ∧ i.merchantId = e.merchantId ∧ i.status ≠ .disconnected ∧
    sale web.py i (payloadDict e.payload) = .ok created ∧
    Mappings.resolveLocation web.equality (s.active i.id) created.externalLocationId =
      .ok call.location ∧
    mapping ∈ s.active i.id ∧ mapping.location = call.location ∧
    x.merchantOf call.location = some e.merchantId ∧ call.integration = i.id ∧
    web.columns created = some call.sale

theorem saleCall_eq (h : s.saleCall web e i x = some call) :
    ∃ created, sale web.py i (payloadDict e.payload) = .ok created ∧
      Mappings.resolveLocation web.equality (s.active i.id) created.externalLocationId =
        .ok call.location ∧
      x.merchantOf call.location = some e.merchantId ∧ i.merchantId = e.merchantId ∧
      call.integration = i.id ∧ web.columns created = some call.sale := by
  unfold Store.saleCall at h
  split at h
  · cases h
  case h_2 created hsale =>
    split at h
    · cases h
    case h_2 location hlocation =>
      split at h
      · cases h
      case isFalse hmerchant =>
        obtain ⟨hof, hi⟩ := not_or.mp hmerchant
        obtain ⟨row, hrow, rfl⟩ := Option.map_eq_some_iff.mp h
        exact ⟨created, hsale, hlocation, not_not.mp hof, not_not.mp hi, rfl, hrow⟩

theorem sell_eq {location : Uuid} {db : Sales.Database}
    (h : s.sell web e i x = some (location, db)) :
    ∃ call r, s.saleCall web e i x = some call ∧ call.location = location ∧
      Sales.recorded call (s.sales e.merchantId) = some (r, db) := by
  unfold Store.sell at h
  split at h
  · cases h
  case h_2 call hcall =>
    rw [Sales.recordSale_run] at h
    cases hr : Sales.recorded call (s.sales e.merchantId) with
    | none =>
      rw [hr] at h
      cases h
    | some r =>
      rw [hr] at h
      cases h
      exact ⟨call, r.1, hcall, rfl, hr⟩

inductive Attempted (web : Platform) (s : Store) (eventId : Uuid) (x : Attempt) : Store → Prop where
  | stay : Attempted web s eventId x s
  | left (e : InboxEvent) (p : Progress) (he : e ∈ s.intake.events) (hid : e.id = eventId)
      (hopen : (s.progress eventId).status.final = false) (hp : p.status ≠ .processed) :
      Attempted web s eventId x { s with progress := Function.update s.progress eventId p }
  | sold (e : InboxEvent) (i : Integration) (call : Sales.Call) (r : Sales.Transaction × Bool)
      (db : Sales.Database) (he : e ∈ s.intake.events) (hid : e.id = eventId)
      (hi : i ∈ s.intake.integrations) (hintegration : i.id = e.integrationId)
      (hstatus : i.status ≠ .disconnected) (hopen : (s.progress eventId).status.final = false)
      (hcall : s.saleCall web e i x = some call)
      (hrecorded : Sales.recorded call (s.sales e.merchantId) = some (r, db)) :
      Attempted web s eventId x { s with
        progress := Function.update s.progress eventId
          ((s.progress eventId).processed call.location)
        sales := Function.update s.sales e.merchantId db }

theorem not_final_of_not_skipped {p : Progress} {due : Bool} (h : p.skipped due = false) :
    p.status.final = false := (Bool.or_eq_false_iff.mp h).1

theorem recordFailure_status (p : Progress) : p.recordFailure.status ≠ .processed := by
  unfold Progress.recordFailure
  split <;> simp

theorem processEvent_attempted (s : Store) (eventId : Uuid) (x : Attempt) :
    Attempted web s eventId x (s.processEvent web eventId x) := by
  unfold Store.processEvent
  split
  case h_1 => exact .stay
  case h_2 e hfound =>
    obtain ⟨he, hid⟩ := Table.mem_of_find? hfound
    have hid : e.id = eventId := beq_iff_eq.mp hid
    split
    case h_1 => exact .stay
    case h_2 i hi =>
      obtain ⟨hmem, hintegration⟩ := Table.mem_of_find? hi
      simp only [Progress.process]
      cases hskipped : (s.progress eventId).skipped x.due with
      | true =>
        simp only [Bool.true_or, if_true, Option.map_none, Function.update_eq_self]
        exact .stay
      | false =>
        have hopen := not_final_of_not_skipped hskipped
        cases hstatus : i.status == .disconnected with
        | true =>
          simp only [Bool.or_true, if_true, Bool.false_eq_true, if_false]
          exact .left e _ he hid hopen (by simp [Progress.cancel])
        | false =>
          simp only [Bool.or_false, Bool.false_eq_true, if_false]
          cases hsell : s.sell web e i x with
          | none => exact .left e _ he hid hopen (recordFailure_status _)
          | some sold =>
            obtain ⟨call, r, hcall, hlocation, hrecorded⟩ := sell_eq hsell
            simp only [Option.map_some, ← hlocation]
            exact .sold e i call r sold.2 he hid hmem (beq_iff_eq.mp hintegration)
              (by simpa using hstatus) hopen hcall hrecorded

end Attempts

section Frames

theorem step_final {id : Uuid} (c : Choice) (h : (s.progress id).status.final = true) :
    (s.step web c).progress id = s.progress id := by
  cases c with
  | take l =>
    simp only [Store.step, Store.take, h, Bool.not_true, Bool.and_false, Bool.false_eq_true,
      if_false]
    split <;> rfl
  | map integrationId request env =>
    simp only [Store.step, Store.map]
    split <;> rfl
  | process eventId x =>
    have hne : (s.progress eventId).status.final = false → id ≠ eventId := by
      intro hopen heq
      rw [heq, hopen] at h
      cases h
    have hstep : Attempted web s eventId x (s.step web (.process eventId x)) :=
      processEvent_attempted s eventId x
    generalize s.step web (.process eventId x) = s' at hstep ⊢
    cases hstep with
    | stay => rfl
    | left e p he hid hopen hp => exact Function.update_of_ne (hne hopen) _ _
    | sold e i call r db he hid hi hintegration hstatus hopen hcall hrecorded =>
      exact Function.update_of_ne (hne hopen) _ _

theorem step_events (c : Choice) (he : e ∈ s.intake.events) : e ∈ (s.step web c).intake.events := by
  cases c with
  | take l => exact take_events l he
  | process eventId x => simpa only [Store.step, processEvent_intake] using he
  | map integrationId request env => simpa only [Store.step, map_intake] using he

variable {db db' : Sales.Database} {y : Sales.Transaction}

theorem recordedBy_kept (h : Sales.RecordedBy call db db') (hy : y ∈ db.transactions) :
    y ∈ db'.transactions := by
  cases h with
  | sold named inserted => exact (Table.mem_insert? inserted).mpr (.inl hy)
  | duplicate named mem key => exact hy

theorem recordedBy_new (h : Sales.RecordedBy call db db') (hy : y ∈ db'.transactions) :
    y ∈ db.transactions ∨ ∃ customer, y = call.newTransaction customer := by
  cases h with
  | @sold customer _ _ named inserted =>
    exact ((Table.mem_insert? inserted).mp hy).imp id fun hy => ⟨customer, hy⟩
  | duplicate named mem key => exact .inl hy

theorem recordedBy_key (h : Sales.RecordedBy call db db') :
    ∃ y ∈ db'.transactions, y.key = call.key := by
  cases h with
  | @sold customer _ _ named inserted =>
    exact ⟨call.newTransaction customer, (Table.mem_insert? inserted).mpr (.inr rfl), rfl⟩
  | @duplicate _ _ y named mem key => exact ⟨y, mem, key⟩

theorem attempted_transactions {eventId m : Uuid} {s' : Store} (h : Attempted web s eventId x s')
    (hy : y ∈ (s.sales m).transactions) : y ∈ (s'.sales m).transactions := by
  cases h with
  | stay => exact hy
  | left e p he hid hopen hp => exact hy
  | sold e i call r db he hid hi hintegration hstatus hopen hcall hrecorded =>
    by_cases hm : m = e.merchantId
    · subst hm
      simp only [Function.update_self]
      exact recordedBy_kept (Sales.recorded_by hrecorded) hy
    · simpa only [Function.update_of_ne hm] using hy

theorem step_transactions {m : Uuid} (c : Choice) (hy : y ∈ (s.sales m).transactions) :
    y ∈ ((s.step web c).sales m).transactions := by
  cases c with
  | take l => exact hy
  | process eventId x => exact attempted_transactions (processEvent_attempted s eventId x) hy
  | map integrationId request env =>
    simp only [Store.step, Store.map]
    split <;> exact hy

end Frames

section Sound

structure SoldBy (web : Platform) (ls : List Choice) (s : Store) (e : InboxEvent)
    (call : Sales.Call) : Prop where
  event : e ∈ s.intake.events
  status : (s.progress e.id).status = .processed
  location : (s.progress e.id).location = some call.location
  attempt : Earlier (Store.step web) .empty ls (Attempts web e call)

def Kept (mappings : Mapped) : Prop :=
  Mappings.Integration.Kept ⟨0, .connected, none, mappings⟩

structure Sound (web : Platform) (ls : List Choice) (s : Store) : Prop where
  fresh : ∀ id, (∀ e ∈ s.intake.events, e.id ≠ id) → s.progress id = .received
  mappings : ∀ id, Kept (s.mappings id)
  transactions : ∀ m, ∀ y ∈ (s.sales m).transactions, ∃ e call customer,
    SoldBy web ls s e call ∧ e.merchantId = m ∧ y = call.newTransaction customer
  processed : ∀ e ∈ s.intake.events, (s.progress e.id).status = .processed →
    ∃ call, SoldBy web ls s e call ∧ ∃ y ∈ (s.sales e.merchantId).transactions, y.key = call.key

theorem SoldBy.step (h : SoldBy web ls s e call) (c : Choice) :
    SoldBy web (ls ++ [c]) (s.step web c) e call := by
  have hfinal : (s.step web c).progress e.id = s.progress e.id := by
    apply step_final
    rw [h.status]
    rfl
  constructor
  · exact step_events c h.event
  · rw [hfinal]
    exact h.status
  · rw [hfinal]
    exact h.location
  · exact h.attempt.append [c]

theorem deactivate_kept {mappings : Mapped} (h : Kept mappings) : Kept (deactivate mappings) := by
  have hstep := Mappings.step_kept ⟨0, .connected, none, mappings⟩
    (.disconnect, ⟨0, fun _ => none, true⟩) h
  exact ⟨hstep.readable, hstep.unique⟩

theorem step_mappings (c : Choice) (h : ∀ id, Kept (s.mappings id)) (id : Uuid) :
    Kept ((s.step web c).mappings id) := by
  cases c with
  | take l =>
    simp only [Store.step, Store.take]
    split
    · exact deactivate_kept (h id)
    · exact h id
  | process eventId x =>
    have hmappings : (s.processEvent web eventId x).mappings = s.mappings := by
      unfold Store.processEvent
      split
      · rfl
      · split <;> rfl
    rw [Store.step, hmappings]
    exact h id
  | map integrationId request env =>
    simp only [Store.step, Store.map]
    split
    · exact h id
    case h_2 i hi =>
      by_cases hid : id = integrationId
      · subst hid
        have hkept : (s.mapped i).Kept := ⟨(h i.id).readable, (h i.id).unique⟩
        have hstep := Mappings.step_kept (s.mapped i) (request.operation, env) hkept
        simp only [Function.update_self]
        exact ⟨hstep.readable, hstep.unique⟩
      · simpa only [Function.update_of_ne hid] using h id

theorem attempts_of_call (h : Sound web ls s) (he : e ∈ s.intake.events)
    (hi : i ∈ s.intake.integrations) (hintegration : i.id = e.integrationId)
    (hstatus : i.status ≠ .disconnected) (hcall : s.saleCall web e i x = some call) :
    Attempts web e call s (.process e.id x) := by
  obtain ⟨created, hsale, hlocation, hof, hmerchant, hid, hcolumns⟩ := saleCall_eq hcall
  have hreadable : ∀ m ∈ s.active i.id, Mappings.externalId m.configJson = .ok m.external := by
    intro m hm
    obtain ⟨hmem, hactive⟩ := List.mem_filter.mp hm
    exact ((h.mappings i.id).readable m hmem hactive).1
  obtain ⟨mapping, hmapping, hof', -⟩ := Mappings.resolveLocation_ok hreadable hlocation
  exact ⟨x, i, created, mapping, rfl, he, hi, hintegration, hmerchant, hstatus, hsale, hlocation,
    hmapping, hof', hof, hid, hcolumns⟩

theorem Sound.step (h : Sound web ls s) (c : Choice)
    (hfresh : ∀ id, (∀ e ∈ (s.step web c).intake.events, e.id ≠ id) →
      (s.step web c).progress id = .received)
    (htransactions : ∀ m, ∀ y ∈ ((s.step web c).sales m).transactions,
      y ∈ (s.sales m).transactions ∨ ∃ e call customer,
        SoldBy web (ls ++ [c]) (s.step web c) e call ∧ e.merchantId = m ∧
          y = call.newTransaction customer)
    (hprocessed : ∀ e ∈ (s.step web c).intake.events,
      ((s.step web c).progress e.id).status = .processed →
      (e ∈ s.intake.events ∧ (s.progress e.id).status = .processed) ∨
        ∃ call, SoldBy web (ls ++ [c]) (s.step web c) e call ∧
          ∃ y ∈ ((s.step web c).sales e.merchantId).transactions, y.key = call.key) :
    Sound web (ls ++ [c]) (s.step web c) where
  fresh := hfresh
  mappings := step_mappings c h.mappings
  transactions m y hy := by
    rcases htransactions m y hy with hy | hy
    · obtain ⟨e, call, customer, hsold, hm, heq⟩ := h.transactions m y hy
      exact ⟨e, call, customer, hsold.step c, hm, heq⟩
    · exact hy
  processed e he hp := by
    rcases hprocessed e he hp with ⟨he, hp⟩ | hsold
    · obtain ⟨call, hsold, y, hy, hkey⟩ := h.processed e he hp
      exact ⟨call, hsold.step c, y, step_transactions c hy, hkey⟩
    · exact hsold

theorem take_progress {l : Label} {id : Uuid}
    (h : ((s.take web l).progress id).status = .processed) :
    (s.progress id).status = .processed := by
  simp only [Store.take] at h
  split at h
  · split at h
    · cases h
    · exact h
  · exact h

theorem take_sound (h : Sound web ls s) (l : Label) :
    Sound web (ls ++ [.take l]) (s.step web (.take l)) := by
  apply h.step
  · intro id hid
    have hnone : (s.intake.step web.toPlatform l).events.find? (·.id == id) = none := by
      apply Table.find?_eq_none.mpr
      intro e he
      exact beq_false_of_ne (hid e he)
    simp only [Store.step, Store.take, hnone]
    exact h.fresh id fun e he => hid e (take_events l he)
  · intro m y hy
    exact .inl hy
  · intro e he hp
    have hp : (s.progress e.id).status = .processed := take_progress hp
    by_cases hknown : ∃ e' ∈ s.intake.events, e'.id = e.id
    · obtain ⟨e', he', hid⟩ := hknown
      obtain rfl := event_eq_of_id he (take_events l he') hid
      exact .inl ⟨he', hp⟩
    · have hnew := h.fresh e.id fun e' he' hid => hknown ⟨e', he', hid⟩
      rw [hnew] at hp
      cases hp

theorem map_sound (h : Sound web ls s) (integrationId : Uuid) (request : MappingRequest)
    (env : Mappings.Env) :
    Sound web (ls ++ [.map integrationId request env])
      (s.step web (.map integrationId request env)) := by
  have hrest : (s.map integrationId request env).intake = s.intake ∧
      (s.map integrationId request env).progress = s.progress ∧
      (s.map integrationId request env).sales = s.sales := by
    unfold Store.map
    split <;> exact ⟨rfl, rfl, rfl⟩
  obtain ⟨hintake, hprogress, hsales⟩ := hrest
  apply h.step
  · simp only [Store.step, hintake, hprogress]
    exact h.fresh
  · intro m y hy
    simp only [Store.step, hsales] at hy
    exact .inl hy
  · intro e he hp
    simp only [Store.step, hintake] at he
    simp only [Store.step, hprogress] at hp
    exact .inl ⟨he, hp⟩

theorem update_received {eventId : Uuid} {p : Progress} (h : Sound web ls s)
    (he : e ∈ s.intake.events) (hid : e.id = eventId) (id : Uuid)
    (hnone : ∀ e ∈ s.intake.events, e.id ≠ id) :
    Function.update s.progress eventId p id = .received := by
  rw [Function.update_of_ne fun heq => hnone e he (hid.trans heq.symm)]
  exact h.fresh id hnone

theorem process_sound (h : Sound web ls s) (hs : s = run (Store.step web) .empty ls)
    (eventId : Uuid) (x : Attempt) :
    Sound web (ls ++ [.process eventId x]) (s.step web (.process eventId x)) := by
  have hattempted : Attempted web s eventId x (s.step web (.process eventId x)) :=
    processEvent_attempted s eventId x
  have hsound := h.step (.process eventId x)
  generalize hs' : s.step web (.process eventId x) = s' at hattempted hsound ⊢
  cases hattempted with
  | stay => exact hsound h.fresh (fun m y => .inl) fun e he hp => .inl ⟨he, hp⟩
  | left e p he hid hopen hp =>
    refine hsound (update_received h he hid) (fun m y => .inl) fun e' he' hp' => ?_
    by_cases heq : e'.id = eventId
    · subst heq
      simp only [Function.update_self] at hp'
      exact absurd hp' hp
    · simp only [Function.update_of_ne heq] at hp'
      exact .inl ⟨he', hp'⟩
  | sold e i call r db he hid hi hintegration hstatus hopen hcall hrecorded =>
    subst hid
    have hby := Sales.recorded_by hrecorded
    have hattempt : Earlier (Store.step web) .empty (ls ++ [.process e.id x])
        (Attempts web e call) := by
      apply Earlier.last
      rw [← hs]
      exact attempts_of_call h he hi hintegration hstatus hcall
    have hsoldBy : SoldBy web (ls ++ [.process e.id x]) { s with
        progress := Function.update s.progress e.id ((s.progress e.id).processed call.location)
        sales := Function.update s.sales e.merchantId db } e call := by
      refine ⟨he, ?_, ?_, hattempt⟩
      · simp only [Function.update_self, Progress.processed]
      · simp only [Function.update_self, Progress.processed]
    refine hsound (update_received h he rfl) (fun m y hy => ?_) fun e' he' hp' => ?_
    · by_cases hm : m = e.merchantId
      · subst hm
        simp only [Function.update_self] at hy
        rcases recordedBy_new hby hy with hy | ⟨customer, hy⟩
        · exact .inl hy
        · exact .inr ⟨e, call, customer, hsoldBy, rfl, hy⟩
      · simp only [Function.update_of_ne hm] at hy
        exact .inl hy
    · by_cases heq : e'.id = e.id
      · obtain rfl := event_eq_of_id he he' heq
        obtain ⟨y, hy, hkey⟩ := recordedBy_key hby
        refine .inr ⟨call, hsoldBy, y, ?_, hkey⟩
        simp only [Function.update_self]
        exact hy
      · simp only [Function.update_of_ne heq] at hp'
        exact .inl ⟨he', hp'⟩

theorem empty_sound (web : Platform) : Sound web [] .empty where
  fresh _ _ := rfl
  mappings _ := ⟨fun m hm => absurd hm List.not_mem_nil, fun a ha => absurd ha List.not_mem_nil⟩
  transactions m y hy := by cases hy
  processed e he := by cases he

theorem run_sound (web : Platform) (ls : List Choice) :
    Sound web ls (run (Store.step web) .empty ls) := by
  have hrun : run (Store.step web) .empty ls = run (Store.step web) .empty ls ∧
      Sound web ls (run (Store.step web) .empty ls) := by
    apply run_history (P := fun h s => s = run (Store.step web) .empty h ∧ Sound web h s)
    · exact ⟨rfl, empty_sound web⟩
    · intro h s c ⟨hs, hsound⟩
      refine ⟨by rw [run_snoc, ← hs], ?_⟩
      cases c with
      | take l => exact take_sound hsound l
      | process eventId x => exact process_sound hsound hs eventId x
      | map integrationId request env => exact map_sound hsound integrationId request env
  exact hrun.2

theorem comes_in (he : e ∈ (run (Store.step web) .empty ls).intake.events) :
    Intake.ComesIn web.toPlatform (intakeLabels ls) e := by
  rw [run_intake] at he
  exact (Intake.run_sound web.toPlatform (intakeLabels ls)).events e he

end Sound

section Traced

/-- Each transaction was recorded by one attempt on a PROCESSED event of its merchant, as the sale
that the event's payload is, and the event came in as it should. -/
theorem transactions_traced (web : Platform) (ls : List Choice) (m : Uuid) (y : Sales.Transaction)
    (hy : y ∈ ((run (Store.step web) .empty ls).sales m).transactions) :
    ∃ e call customer, y = call.newTransaction customer ∧ e.merchantId = m ∧
      SoldBy web ls (run (Store.step web) .empty ls) e call ∧
      Intake.ComesIn web.toPlatform (intakeLabels ls) e := by
  obtain ⟨e, call, customer, hsold, hm, heq⟩ := (run_sound web ls).transactions m y hy
  exact ⟨e, call, customer, heq, hm, hsold, comes_in hsold.event⟩

def apiIntegration : Integration where
  id := 1
  merchantId := 2
  status := .connected
  secret := none
  config := .api

def apiPlatform : Platform where
  toPlatform := Intake.plainPlatform
  equality := Mappings.textEquality
  columns created :=
    if created.externalTransactionId = text "t1" then
      some ⟨"t1", 500, "USD", 0, none, none, none⟩
    else none

def apiSale : InboxEvent := ⟨7, 2, 1, 0x1f :: text "t1", .json (saleOfAmount "5")⟩

def recordedSale : Sales.Transaction := ⟨12, 9, none, 1, "t1", 500, "USD", none, .completed, 0⟩

def oneSale : List Choice :=
  [.take (.connect apiIntegration), .map 1 (.add 9 .null true) ⟨2, fun _ => some 2, true⟩,
    .take (.apiSale 2 (.dict (saleOfAmount "5")) true 7),
    .process 7 ⟨true, fun _ => some 2, 11, 12⟩]

theorem transactions_traced_sale :
    ∃ e call customer, recordedSale = call.newTransaction customer ∧ e.merchantId = 2 ∧
      SoldBy apiPlatform oneSale (run (Store.step apiPlatform) .empty oneSale) e call ∧
      Intake.ComesIn apiPlatform.toPlatform (intakeLabels oneSale) e :=
  transactions_traced apiPlatform oneSale 2 recordedSale (List.mem_singleton_self _)

/-- A PROCESSED event has one transaction, with the key of the sale that its payload is. -/
theorem events_sold (web : Platform) (ls : List Choice) (e : InboxEvent)
    (he : e ∈ (run (Store.step web) .empty ls).intake.events)
    (hp : ((run (Store.step web) .empty ls).progress e.id).status = .processed) :
    ∃ call, SoldBy web ls (run (Store.step web) .empty ls) e call ∧
      ∃ y ∈ ((run (Store.step web) .empty ls).sales e.merchantId).transactions,
        ∀ z ∈ ((run (Store.step web) .empty ls).sales e.merchantId).transactions,
          z.key = call.key ↔ z = y := by
  obtain ⟨call, hsold, y, hy, hkey⟩ := (run_sound web ls).processed e he hp
  refine ⟨call, hsold, y, hy, fun z hz => ⟨fun hz' => ?_, fun heq => heq ▸ hkey⟩⟩
  exact Table.eq_of_clash Sales.Transaction.Clash.symm hz hy (.inr (hz'.trans hkey.symm))

theorem events_sold_sale :
    ∃ call, SoldBy apiPlatform oneSale (run (Store.step apiPlatform) .empty oneSale) apiSale call ∧
      ∃ y ∈ ((run (Store.step apiPlatform) .empty oneSale).sales 2).transactions,
        ∀ z ∈ ((run (Store.step apiPlatform) .empty oneSale).sales 2).transactions,
          z.key = call.key ↔ z = y :=
  events_sold apiPlatform oneSale apiSale (List.mem_singleton_self _) rfl

end Traced

end ReviewFlow.Integrations.Processing
