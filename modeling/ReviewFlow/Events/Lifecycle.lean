import ReviewFlow.Interleaving
import ReviewFlow.Events.Services

/-!
# The life of an event

A run is any order of whole transactions. The failed attempts of an event are read off the
history, and the row of the event agrees with them.
-/

namespace ReviewFlow.Events

open Interleaving Tables

abbrev EventTransition := Transition Inbox Choice

def Inbox.start : Inbox := ⟨.empty, .empty⟩

def eventRun (choices : List Choice) : List EventTransition := trace Inbox.step .start choices

/-- The step runs the savepoint of `process_event` for the row. -/
def EventTransition.Attempts (t : EventTransition) (e : IntegrationEvent) (x : Attempt) : Prop :=
  t.label = .process e.id x ∧ e ∈ t.before.events ∧ e.skipped x = false ∧
    t.before.disconnected e.integrationId = false

def Inbox.event? (s : Inbox) (k : Uuid) : Option IntegrationEvent := s.events.find? (·.id == k)

/-- When the row of the failed attempt was saved, if the step is one. -/
def failure? (k : Uuid) (t : EventTransition) : Option Time :=
  match t.label, t.before.event? k with
  | .process k' x, some e =>
    if k' = k ∧ e.skipped x = false ∧ t.before.disconnected e.integrationId = false ∧
      (x.outcome e.payload).toOption = none then some x.savedAt else none
  | _, _ => none

def failures (h : List EventTransition) (k : Uuid) : List Time := h.filterMap (failure? k)

/-- The disconnect of the integration is committed in the history. -/
def Disconnected (h : List EventTransition) (integrationId : Uuid) : Prop :=
  ∃ t ∈ h, t.after.disconnected integrationId = true

section Rows

variable {s : Inbox} {e e' : IntegrationEvent} {k : Uuid} {x : Attempt}

theorem IntegrationEvent.Clash.symm (a b : IntegrationEvent) : a.Clash b → b.Clash a :=
  Or.imp Eq.symm fun h => ⟨h.1.symm, h.2.symm⟩

theorem events_eq (he : e ∈ s.events) (he' : e' ∈ s.events) (h : e.id = e'.id) : e = e' :=
  Table.eq_of_clash IntegrationEvent.Clash.symm he he' (.inl h)

theorem event?_eq_some : s.event? k = some e ↔ e ∈ s.events ∧ e.id = k := by
  constructor
  · intro h
    obtain ⟨he, hk⟩ := Table.mem_of_find? h
    exact ⟨he, beq_iff_eq.mp hk⟩
  · rintro ⟨he, rfl⟩
    have same : ∀ a b : IntegrationEvent, (a.id == e.id) = true →
        (b.id == e.id) = true → a.Clash b :=
      fun a b ha hb => .inl ((beq_iff_eq.mp ha).trans (beq_iff_eq.mp hb).symm)
    exact Table.find?_eq_some_of_mem IntegrationEvent.Clash.symm he (beq_self_eq_true _) same

theorem process_cases (e : IntegrationEvent) (disconnected : Bool) (x : Attempt) :
    (e.skipped x = true ∧ e.process disconnected x = e) ∨
    (e.skipped x = false ∧ disconnected = true ∧ e.process disconnected x = e.cancel x.savedAt) ∨
    (e.skipped x = false ∧ disconnected = false ∧
      ((∃ f, x.outcome e.payload = .error f ∧
        e.process disconnected x = e.recordFailure f x.savedAt) ∨
        ∃ location, x.outcome e.payload = .ok location ∧
          e.process disconnected x = e.processed location x)) := by
  unfold IntegrationEvent.process
  cases hs : e.skipped x with
  | true => exact .inl ⟨rfl, rfl⟩
  | false =>
    cases disconnected with
    | true => exact .inr (.inl ⟨rfl, rfl, rfl⟩)
    | false =>
      refine .inr (.inr ⟨rfl, rfl, ?_⟩)
      cases ho : x.outcome e.payload with
      | error f => exact .inl ⟨f, rfl, rfl⟩
      | ok location => exact .inr ⟨location, rfl, rfl⟩

theorem skipped_of_final (h : e.status.final = true) : e.skipped x = true := by
  rw [IntegrationEvent.skipped, h, Bool.true_or]

def Inbox.rowAfter (s : Inbox) (c : Choice) (e : IntegrationEvent) : IntegrationEvent :=
  match c with
  | .process k x => if e.id = k then e.process (s.disconnected e.integrationId) x else e
  | .disconnect i now => if s.disconnected i then e else e.disconnect i now
  | _ => e

theorem rowAfter_key (c : Choice) (e : IntegrationEvent) :
    (s.rowAfter c e).id = e.id ∧ (s.rowAfter c e).integrationId = e.integrationId := by
  unfold Inbox.rowAfter
  split
  · split
    · exact ⟨(process_key e _ _).1, (process_key e _ _).2.1⟩
    · exact ⟨rfl, rfl⟩
  · split
    · exact ⟨rfl, rfl⟩
    · exact ⟨(disconnect_key e _ _).1, (disconnect_key e _ _).2.1⟩
  · exact ⟨rfl, rfl⟩

theorem recordEvent_cases (s : Inbox) (r : Receipt) : s.recordEvent r = s ∨
    ∃ events, s.events.insert? r.event = some events ∧ s.recordEvent r = { s with events } := by
  rw [Inbox.recordEvent]
  split
  · exact .inl rfl
  · split
    case h_1 events hi => exact .inr ⟨events, hi, rfl⟩
    case h_2 => exact .inl rfl

theorem mem_step_of_ne_record (c : Choice) (hno : ∀ r, c ≠ .record r) :
    e' ∈ (s.step c).events ↔ ∃ e ∈ s.events, s.rowAfter c e = e' := by
  have same : e' ∈ s.events ↔ ∃ e ∈ s.events, e = e' := by simp only [exists_eq_right]
  cases c with
  | sweep now => exact same
  | connect i =>
    have hevents : (s.step (.connect i)).events = s.events := by
      rw [Inbox.step, Inbox.connectIntegration]
      split <;> rfl
    rw [hevents]
    exact same
  | disconnect i now =>
    rw [Inbox.step, Inbox.disconnectIntegration]
    by_cases hd : s.disconnected i = true
    · simp only [Inbox.rowAfter, if_pos hd]
      exact same
    · simp only [Inbox.rowAfter, if_neg hd]
      exact mem_updateEvents
  | process k x =>
    rw [Inbox.step, Inbox.processEvent]
    exact mem_updateEvents
  | record r => exact absurd rfl (hno r)

theorem mem_step (c : Choice) (h : e' ∈ (s.step c).events) : (∃ e ∈ s.events, s.rowAfter c e = e') ∨
    ∃ r : Receipt, c = .record r ∧ e' = r.event ∧ ∀ e ∈ s.events, e.id ≠ r.id := by
  cases c with
  | record r =>
    rw [Inbox.step] at h
    rcases recordEvent_cases s r with hs | ⟨events, hi, hs⟩
    · rw [hs] at h
      exact .inl ⟨e', h, rfl⟩
    · rw [hs] at h
      rcases (Table.mem_insert? hi).mp h with h | h
      · exact .inl ⟨e', h, rfl⟩
      · have hfresh := (Table.insert?_eq_some.mp hi).1
        exact .inr ⟨r, rfl, h, fun e he hid => hfresh e he (.inl hid)⟩
  | _ => exact .inl ((mem_step_of_ne_record _ (by intro r hr; cases hr)).mp h)

theorem rowAfter_mem (c : Choice) (he : e ∈ s.events) : s.rowAfter c e ∈ (s.step c).events := by
  cases c with
  | record r =>
    rw [Inbox.step]
    rcases recordEvent_cases s r with hs | ⟨events, hi, hs⟩
    · rwa [hs]
    · rw [hs]
      exact (Table.mem_insert? hi).mpr (.inl he)
  | _ => exact (mem_step_of_ne_record _ (by intro r hr; cases hr)).mpr ⟨e, he, rfl⟩

theorem step_disconnected (c : Choice) {i : Uuid} (h : s.disconnected i = true) :
    (s.step c).disconnected i = true := by
  cases c with
  | sweep now => exact h
  | process k x => exact h
  | connect i' =>
    rw [Inbox.step, Inbox.connectIntegration]
    split
    case h_1 integrations hi =>
      rw [Inbox.disconnected, (Table.insert?_eq_some.mp hi).2, List.any_append]
      exact Bool.or_eq_true_iff.mpr (.inl h)
    case h_2 => exact h
  | record r =>
    rw [Inbox.step]
    rcases recordEvent_cases s r with hs | ⟨events, -, hs⟩ <;> rwa [hs]
  | disconnect i' now =>
    rw [Inbox.step, Inbox.disconnectIntegration]
    split
    · exact h
    · obtain ⟨row, hrow, hdis⟩ := List.any_eq_true.mp h
      apply List.any_eq_true.mpr
      refine ⟨_, List.mem_map.mpr ⟨row, hrow, rfl⟩, ?_⟩
      split
      · obtain ⟨hid, -⟩ := Bool.and_eq_true_iff.mp hdis
        exact Bool.and_eq_true_iff.mpr ⟨hid, rfl⟩
      · exact hdis

theorem failure?_eq_some {t : EventTransition} {time : Time} : failure? k t = some time ↔
    ∃ x e, t.label = .process k x ∧ e ∈ t.before.events ∧ e.id = k ∧ e.skipped x = false ∧
      t.before.disconnected e.integrationId = false ∧ (∃ f, x.outcome e.payload = .error f) ∧
      time = x.savedAt := by
  have toError : ∀ o : Except Failure Uuid, o.toOption = none ↔ ∃ f, o = .error f := by
    intro o
    cases o with
    | error f => exact iff_of_true rfl ⟨f, rfl⟩
    | ok location => exact iff_of_false (fun h => nomatch h) (by rintro ⟨_, h⟩; cases h)
  unfold failure?
  split
  case h_1 k' x e hlabel he =>
    obtain ⟨hmem, hid⟩ := event?_eq_some.mp he
    constructor
    · intro h
      split at h
      case isTrue hc =>
        obtain ⟨rfl, hskip, hdis, hout⟩ := hc
        exact ⟨x, e, hlabel, hmem, hid, hskip, hdis, (toError _).mp hout, (Option.some.inj h).symm⟩
      case isFalse => cases h
    · rintro ⟨x', e', hl, hmem', hid', hskip, hdis, hout, rfl⟩
      cases hlabel.symm.trans hl
      obtain rfl : e = e' := events_eq hmem hmem' (hid.trans hid'.symm)
      exact if_pos ⟨rfl, hskip, hdis, (toError _).mpr hout⟩
  case h_2 hno =>
    apply iff_of_false (fun h => nomatch h)
    rintro ⟨x, e, hl, hmem, hid, -⟩
    exact hno k x e hl (event?_eq_some.mpr ⟨hmem, hid⟩)

/-- What a step does to a row, and whether it is a failed attempt of it. -/
theorem rowAfter_cases (c : Choice) (he : e ∈ s.events) :
    (s.rowAfter c e = e ∧ failure? e.id (transition Inbox.step s c) = none) ∨
    (e.status.final = false ∧ (∃ now, s.rowAfter c e = e.cancel now) ∧
      failure? e.id (transition Inbox.step s c) = none) ∨
    (∃ x f, c = .process e.id x ∧ e.skipped x = false ∧ s.disconnected e.integrationId = false ∧
      s.rowAfter c e = e.recordFailure f x.savedAt ∧
      failure? e.id (transition Inbox.step s c) = some x.savedAt) ∨
    (∃ x location, c = .process e.id x ∧ e.skipped x = false ∧
      s.disconnected e.integrationId = false ∧
      x.outcome e.payload = .ok location ∧ s.rowAfter c e = e.processed location x ∧
      failure? e.id (transition Inbox.step s c) = none) := by
  have noFailure :
    (∀ x, c = .process e.id x → e.skipped x = true ∨ s.disconnected e.integrationId = true ∨
      ∃ location, x.outcome e.payload = .ok location) →
        failure? e.id (transition Inbox.step s c) = none := by
    intro h
    apply Option.eq_none_iff_forall_not_mem.mpr
    intro time ht
    obtain ⟨x, e', hl, hmem, hid, hskip, hdis, ⟨f, hout⟩, -⟩ := failure?_eq_some.mp ht
    obtain rfl : e' = e := events_eq hmem he hid
    rcases h x hl with h | h | ⟨location, h⟩
    · rw [h] at hskip
      cases hskip
    · rw [show (transition Inbox.step s c).before.disconnected e'.integrationId = _ from h] at hdis
      cases hdis
    · rw [h] at hout
      cases hout
  cases c with
  | sweep now => exact .inl ⟨rfl, noFailure fun _ h => nomatch h⟩
  | connect i => exact .inl ⟨rfl, noFailure fun _ h => nomatch h⟩
  | record r => exact .inl ⟨rfl, noFailure fun _ h => nomatch h⟩
  | disconnect i now =>
    have hnone := noFailure fun _ h => nomatch h
    by_cases hd : s.disconnected i = true
    · exact .inl ⟨if_pos hd, hnone⟩
    · have hrow : s.rowAfter (.disconnect i now) e = e.disconnect i now := if_neg hd
      rw [hrow]
      by_cases hc : e.integrationId = i ∧ e.status.final = false
      · exact .inr (.inl ⟨hc.2, ⟨now, if_pos hc⟩, hnone⟩)
      · exact .inl ⟨if_neg hc, hnone⟩
  | process k x =>
    by_cases hk : e.id = k
    case neg =>
      refine .inl ⟨if_neg hk, noFailure fun x' h => ?_⟩
      cases h
      exact absurd rfl hk
    subst hk
    have hrow : s.rowAfter (.process e.id x) e =
      e.process (s.disconnected e.integrationId) x := if_pos rfl
    rw [hrow]
    rcases process_cases e (s.disconnected e.integrationId) x with
      ⟨hskip, hp⟩ | ⟨hskip, hdis, hp⟩ | ⟨hskip, hdis, ⟨f, hout, hp⟩ | ⟨location, hout, hp⟩⟩
    · exact .inl ⟨hp, noFailure fun x' h => by cases h; exact .inl hskip⟩
    · refine .inr
        (.inl ⟨?_, ⟨x.savedAt, hp⟩, noFailure fun x' h => by cases h; exact .inr (.inl hdis)⟩)
      cases hf : e.status.final with
      | true => exact absurd (skipped_of_final hf) (Bool.eq_false_iff.mp hskip)
      | false => rfl
    · refine .inr (.inr (.inl ⟨x, f, rfl, hskip, hdis, hp, ?_⟩))
      exact failure?_eq_some.mpr ⟨x, e, rfl, he, rfl, hskip, hdis, ⟨f, hout⟩, rfl⟩
    · refine .inr (.inr (.inr ⟨x, location, rfl, hskip, hdis, hout, hp, ?_⟩))
      exact noFailure fun x' h => by cases h; exact .inr (.inr ⟨location, hout⟩)

theorem step_final (c : Choice) (he : e ∈ s.events) (hf : e.status.final = true) :
    e ∈ (s.step c).events := by
  have hmem := rowAfter_mem c he
  rcases rowAfter_cases c he with ⟨h, -⟩ | ⟨hn, -⟩ | ⟨x, f, -, hskip, -⟩ |
    ⟨x, location, -, hskip, -⟩
  · rwa [h] at hmem
  · rw [hf] at hn
    cases hn
  · rw [skipped_of_final hf] at hskip
    cases hskip
  · rw [skipped_of_final hf] at hskip
    cases hskip

end Rows

section History

variable {s : Inbox} {h : List EventTransition} {e : IntegrationEvent} {k : Uuid}

structure IntegrationEvent.Follows (e : IntegrationEvent) (times : List Time) : Prop where
  count : e.attemptCount = times.length
  bound : e.attemptCount ≤ maxEventAttempts
  dead : e.status = .deadLetter ↔ e.attemptCount = maxEventAttempts
  received : e.status = .received → times = []
  failed : e.status = .failed → times.getLast? = some e.updatedAt

structure Inbox.Kept (h : List EventTransition) (s : Inbox) : Prop where
  rows : ∀ e ∈ s.events, e.Follows (failures h e.id)
  fresh : ∀ k, (∀ e ∈ s.events, e.id ≠ k) → failures h k = []
  disconnected : ∀ i, Disconnected h i → s.disconnected i = true

theorem failures_append (h : List EventTransition) (t : EventTransition) (k : Uuid) :
    failures (h ++ [t]) k = failures h k ++ (failure? k t).toList := by
  rw [failures, failures, List.filterMap_append]
  cases hf : failure? k t with
  | none => rw [List.filterMap_cons_none hf]; rfl
  | some time => rw [List.filterMap_cons_some hf]; rfl

theorem pending_of_attempted {x : Attempt} (h : e.skipped x = false) : e.status.final = false := by
  cases hf : e.status.final with
  | true => exact absurd (skipped_of_final hf) (Bool.eq_false_iff.mp h)
  | false => rfl

theorem IntegrationEvent.Follows.attempts_left {times : List Time} (hf : e.Follows times)
    (hpending : e.status.final = false) : e.attemptCount < maxEventAttempts := by
  apply lt_of_le_of_ne hf.bound
  intro hmax
  rw [hf.dead.mpr hmax] at hpending
  cases hpending

theorem IntegrationEvent.Follows.ended {times : List Time} {e' : IntegrationEvent}
    (hf : e.Follows times)
    (hpending : e.status.final = false) (hcount : e'.attemptCount = e.attemptCount)
    (hended : e'.status = .processed ∨ e'.status = .cancelled) : e'.Follows times := by
  have hlt := hf.attempts_left hpending
  have hnot : ∀ status, e'.status = status → status = .processed ∨ status = .cancelled := by
    rintro _ rfl
    exact hended
  exact
    { count := hcount.trans hf.count
      bound := hcount ▸ hf.bound
      dead := by
        apply iff_of_false
        · intro hs
          rcases hnot _ hs with h | h <;> cases h
        · omega
      received := by
        intro hs
        rcases hnot _ hs with h | h <;> cases h
      failed := by
        intro hs
        rcases hnot _ hs with h | h <;> cases h }

theorem IntegrationEvent.Follows.recordFailure {times : List Time} (hf : e.Follows times)
    (hpending : e.status.final = false) (f : Failure) (now : Time) :
    (e.recordFailure f now).Follows (times ++ [now]) := by
  have hlt := hf.attempts_left hpending
  have hstatus : (e.recordFailure f now).status =
    if maxEventAttempts ≤ e.attemptCount + 1 then .deadLetter else .failed := rfl
  have hcount : (e.recordFailure f now).attemptCount = e.attemptCount + 1 := rfl
  exact
    { count := by rw [hcount, hf.count, List.length_append, List.length_singleton]
      bound := by
        rw [hcount]
        omega
      dead := by
        rw [hstatus, hcount]
        split
        · exact iff_of_true rfl (by omega)
        · exact iff_of_false (fun h => nomatch h) (by omega)
      received := by
        rw [hstatus]
        split <;> exact fun h => nomatch h
      failed := fun _ => List.getLast?_concat }

theorem step_kept (c : Choice) (hk : s.Kept h) :
    (s.step c).Kept (h ++ [transition Inbox.step s c]) := by
  constructor
  · intro e' he'
    rw [failures_append]
    rcases mem_step c he' with ⟨e, he, rfl⟩ | ⟨r, rfl, rfl, hno⟩
    · have hf := hk.rows e he
      rw [(rowAfter_key c e).1]
      rcases rowAfter_cases c he with ⟨hrow, hnone⟩ | ⟨hpending, ⟨now, hrow⟩, hnone⟩ |
        ⟨x, f, -, hskip, -, hrow, hsome⟩ | ⟨x, location, -, hskip, -, -, hrow, hnone⟩
      · rwa [hrow, hnone, Option.toList_none, List.append_nil]
      · rw [hrow, hnone, Option.toList_none, List.append_nil]
        exact hf.ended hpending rfl (.inr rfl)
      · rw [hrow, hsome]
        exact hf.recordFailure (pending_of_attempted hskip) f x.savedAt
      · rw [hrow, hnone, Option.toList_none, List.append_nil]
        exact hf.ended (pending_of_attempted hskip) rfl (.inl rfl)
    · have hnone : failure? r.event.id (transition Inbox.step s (.record r)) = none := rfl
      rw [hnone, Option.toList_none, List.append_nil]
      have hempty : failures h r.event.id = [] := hk.fresh r.id hno
      rw [hempty]
      exact
        { count := rfl
          bound := Nat.zero_le _
          dead := iff_of_false (fun h => nomatch h)
            (Nat.ne_of_lt (by decide : 0 < maxEventAttempts))
          received := fun _ => rfl
          failed := fun h => nomatch h }
  · intro k hno
    have hbefore : ∀ e ∈ s.events, e.id ≠ k := by
      intro e he hid
      exact hno _ (rowAfter_mem c he) ((rowAfter_key c e).1.trans hid)
    have hnone : failure? k (transition Inbox.step s c) = none := by
      apply Option.eq_none_iff_forall_not_mem.mpr
      intro time ht
      obtain ⟨_, e, -, he, hid, -⟩ := failure?_eq_some.mp ht
      exact hbefore e he hid
    rw [failures_append, hnone, hk.fresh k hbefore]
    rfl
  · rintro i ⟨t, ht, hd⟩
    rcases List.mem_append.mp ht with ht | ht
    · exact step_disconnected c (hk.disconnected i ⟨t, ht, hd⟩)
    · rw [List.mem_singleton.mp ht] at hd
      exact hd

theorem start_kept : Inbox.Kept [] .start :=
  ⟨fun _ h => (List.not_mem_nil h).elim, fun _ _ => rfl,
    fun _ ⟨_, h, _⟩ => (List.not_mem_nil h).elim⟩

theorem attempt_due {t : EventTransition} {x : Attempt} {last : Time} (hk : t.before.Kept h)
    (ha : t.Attempts e x)
    (hlast : (failures h e.id).getLast? = some last) :
    last + backoff (failures h e.id).length ≤ x.checkedAt := by
  obtain ⟨-, he, hskip, -⟩ := ha
  have hf := hk.rows e he
  have hpending := pending_of_attempted hskip
  rw [IntegrationEvent.skipped, hpending, Bool.false_or] at hskip
  cases hs : e.status with
  | received =>
    rw [hf.received hs] at hlast
    cases hlast
  | failed =>
    rw [hs, beq_self_eq_true, Bool.true_and, Bool.not_eq_false', IntegrationEvent.isDue,
      decide_eq_true_eq,
      hf.count] at hskip
    rw [hf.failed hs] at hlast
    cases hlast
    exact le_sub_iff_add_le.mp hskip
  | _ =>
    rw [hs] at hpending
    cases hpending

theorem step_processed (c : Choice) (he : e ∈ (s.step c).events)
    (hp : e.status = .processed) : e ∈ s.events ∨
    ∃ x location, c = .process e.id x ∧ x.outcome e.payload = .ok location ∧
    e.location = some location := by
  rcases mem_step c he with ⟨a, ha, rfl⟩ | ⟨r, -, rfl, -⟩
  · rcases rowAfter_cases c ha with ⟨hrow, -⟩ | ⟨-, ⟨now, hrow⟩, -⟩ | ⟨x, f, -, -, -, hrow, -⟩ |
      ⟨x, location, hc, -, -, hout, hrow, -⟩
    · rw [hrow]
      exact .inl ha
    · rw [hrow] at hp
      cases hp
    · have hstatus : (a.recordFailure f x.savedAt).status =
        if maxEventAttempts ≤ a.attemptCount + 1 then .deadLetter else .failed := rfl
      rw [hrow, hstatus] at hp
      split at hp <;> cases hp
    · rw [hrow]
      exact .inr ⟨x, location, hc, hout, rfl⟩
  · cases hp

theorem step_disconnected_rows {x : Attempt} (hd : s.disconnected e.integrationId = true)
    (he : e ∈ (s.step (.process k x)).events) (hs : e.status = .processed ∨ e.status = .failed) :
    e ∈ s.events := by
  rcases mem_step _ he with ⟨a, ha, rfl⟩ | ⟨r, hc, -⟩
  · rw [(rowAfter_key _ a).2] at hd
    rcases rowAfter_cases (.process k x) ha with ⟨hrow, -⟩ | ⟨-, ⟨now, hrow⟩, -⟩ |
      ⟨x, f, -, -, hdis, -⟩ |
      ⟨x, location, -, -, hdis, -⟩
    · rwa [hrow]
    · rw [hrow] at hs
      rcases hs with hs | hs <;> cases hs
    · rw [hd] at hdis
      cases hdis
    · rw [hd] at hdis
      cases hdis
  · cases hc

/-- The life of every event of an inbox, in every order of transactions. -/
theorem event_lifecycle (choices : List Choice) :
    (∀ t ∈ eventRun choices, ∀ e ∈ t.before.events, e.status.final = true → e ∈ t.after.events) ∧
    (∀ e ∈ (run Inbox.step .start choices).events, e.attemptCount =
      (failures (eventRun choices) e.id).length ∧
      e.attemptCount ≤ maxEventAttempts ∧
        (e.status = .deadLetter ↔ e.attemptCount = maxEventAttempts)) ∧
    Meets (fun h (t : EventTransition) => ∀ e x, t.Attempts e x →
      ∀ last, (failures h e.id).getLast? = some last →
      last + retryBase * 2 ^ ((failures h e.id).length - 1) ≤ x.checkedAt) (eventRun choices) ∧
    (∀ t ∈ eventRun choices, ∀ e ∈ t.after.events, e.status = .processed → e ∈ t.before.events ∨
      ∃ x location, t.label = .process e.id x ∧ x.outcome e.payload = .ok location ∧
        e.location = some location) ∧
    (∀ e ∈ (run Inbox.step .start choices).events, ∀ e' ∈ (run Inbox.step .start choices).events,
      e.integrationId = e'.integrationId → e.externalEventId = e'.externalEventId → e = e') ∧
    Meets (fun h (t : EventTransition) => ∀ k x, t.label = .process k x → ∀ e ∈ t.after.events,
      Disconnected h e.integrationId → (e.status = .processed ∨ e.status = .failed) →
        e ∈ t.before.events)
      (eventRun choices) := by
  have hany : MeetsFrom (fun _ _ => True) [] (eventRun choices) :=
    .of_forall (fun _ _ => trivial) []
  have hkept : (run Inbox.step .start choices).Kept (eventRun choices) :=
    trace_history start_kept (fun _ _ c hk _ => step_kept c hk) hany
  refine ⟨?_, ?_, ?_, ?_, ?_, ?_⟩
  · intro t ht e he hf
    rw [trace_step ht]
    exact step_final t.label he hf
  · intro e he
    have hf := hkept.rows e he
    exact ⟨hf.count, hf.bound, hf.dead⟩
  · refine MeetsFrom.of_invariant start_kept (fun h s c hk _ => ⟨step_kept c hk, ?_⟩) hany
    intro e x ha last hlast
    exact attempt_due hk ha hlast
  · intro t ht e he hp
    rw [trace_step ht] at he
    exact step_processed t.label he hp
  · intro e he e' he' hi hx
    exact Table.eq_of_clash IntegrationEvent.Clash.symm he he' (.inr ⟨hi, hx⟩)
  · refine MeetsFrom.of_invariant start_kept (fun h s c hk _ => ⟨step_kept c hk, ?_⟩) hany
    intro k x hl e he hd hs
    obtain rfl : c = .process k x := hl
    exact step_disconnected_rows (hk.disconnected _ hd) he hs

theorem due_not_skipped {now : Time} {x : Attempt} (hk : k ∈ s.dueEventIds now)
    (hx : now ≤ x.checkedAt) :
    ∃ e ∈ s.events, e.id = k ∧ e.skipped x = false := by
  obtain ⟨e, he, rfl⟩ := List.mem_map.mp hk
  obtain ⟨hmem, hdue⟩ := List.mem_filter.mp he
  refine ⟨e, hmem, rfl, ?_⟩
  rw [IntegrationEvent.skipped]
  rcases Bool.or_eq_true_iff.mp hdue with h | h
  · obtain ⟨hs, -⟩ := Bool.and_eq_true_iff.mp h
    rw [beq_iff_eq.mp hs]
    rfl
  · obtain ⟨hs, hdue⟩ := Bool.and_eq_true_iff.mp h
    rw [IntegrationEvent.isDue, decide_eq_true_eq] at hdue
    have hlater : e.isDue x.checkedAt = true :=
      decide_eq_true (hdue.trans (Int.sub_le_sub_right hx _))
    rw [beq_iff_eq.mp hs, hlater]
    rfl

end History

end ReviewFlow.Events
