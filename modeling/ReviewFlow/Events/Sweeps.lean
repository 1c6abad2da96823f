import ReviewFlow.Events.Lifecycle

/-!
# No event is stuck

A sweep that comes late enough selects every event that is not final, and a round of a sweep and an
attempt that it enqueues brings the event on, whatever else happens in between. So it ends after as
many rounds as there are attempts.
-/

namespace ReviewFlow.Events

open Interleaving Tables

variable {s : Inbox} {e e' : IntegrationEvent} {k : Uuid} {x : Attempt} {now : Time}

def IntegrationEvent.Late (e : IntegrationEvent) (now : Time) : Prop :=
  e.receivedAt + staleReceivedAfter < now ∧ e.updatedAt + backoff e.attemptCount ≤ now

theorem late_selected (he : e ∈ s.events) (hopen : e.status.final = false) (hlate : e.Late now) :
    e.id ∈ s.dueEventIds now := by
  obtain ⟨hreceived, hupdated⟩ := hlate
  have hstale : e.receivedAt < now - staleReceivedAfter := lt_sub_iff_add_lt.mpr hreceived
  have hdue : e.updatedAt ≤ now - backoff e.attemptCount := le_sub_iff_add_le.mpr hupdated
  apply List.mem_map_of_mem
  apply List.mem_filter.mpr
  refine ⟨he, ?_⟩
  cases hstatus : e.status with
  | received => simp [hstale]
  | failed => simp [IntegrationEvent.isDue, hdue]
  | processed | deadLetter | cancelled =>
    rw [hstatus] at hopen
    cases hopen

/-- A sweep selects the event, unless it is final, and an attempt follows at that time or later. -/
inductive Rounds (k : Uuid) : ℕ → Inbox → List Choice → Prop where
  | none (s : Inbox) (ls : List Choice) : Rounds k 0 s ls
  | round (n : ℕ) (s : Inbox) (ls₁ ls₂ ls₃ : List Choice) (now : Time) (x : Attempt)
      (hselected : ∀ e ∈ (run Inbox.step s ls₁).events, e.id = k → e.status.final = false →
        k ∈ (run Inbox.step s ls₁).dueEventIds now)
      (hx : now ≤ x.checkedAt)
      (hrest : Rounds k n (run Inbox.step s (ls₁ ++ .sweep now :: ls₂ ++ [.process k x])) ls₃) :
      Rounds k (n + 1) s (ls₁ ++ .sweep now :: ls₂ ++ [.process k x] ++ ls₃)

/-- The later row of an event is the same, final or has more failed attempts. -/
def IntegrationEvent.Moved (e e' : IntegrationEvent) : Prop :=
  e' = e ∨ e'.status.final = true ∨ e.attemptCount < e'.attemptCount

theorem step_moved (c : Choice) (he : e ∈ s.events) :
    ∃ e' ∈ (s.step c).events, e'.id = e.id ∧ e.Moved e' := by
  refine ⟨s.rowAfter c e, rowAfter_mem c he, (rowAfter_key c e).1, ?_⟩
  rcases rowAfter_cases c he with ⟨h, -⟩ | ⟨-, ⟨now, h⟩, -⟩ | ⟨x, f, -, -, -, h, -⟩ |
    ⟨x, location, -, -, -, -, h, -⟩
  · exact .inl h
  · exact .inr (.inl (h ▸ rfl))
  · exact .inr (.inr (h ▸ Nat.lt_succ_self e.attemptCount))
  · exact .inr (.inl (h ▸ rfl))

theorem run_final (he : e ∈ s.events) (hfinal : e.status.final = true) (ls : List Choice) :
    e ∈ (run Inbox.step s ls).events := by
  induction ls generalizing s with
  | nil => exact he
  | cons c ls ih => exact ih (step_final c he hfinal)

theorem run_moved (he : e ∈ s.events) (ls : List Choice) :
    ∃ e' ∈ (run Inbox.step s ls).events, e'.id = e.id ∧ e.Moved e' := by
  induction ls generalizing s e with
  | nil => exact ⟨e, he, rfl, .inl rfl⟩
  | cons c ls ih =>
    obtain ⟨e₁, he₁, hid₁, hmoved⟩ := step_moved c he
    cases hfinal : e₁.status.final with
    | true => exact ⟨e₁, run_final he₁ hfinal ls, hid₁, .inr (.inl hfinal)⟩
    | false =>
      obtain ⟨e₂, he₂, hid₂, hmoved₂⟩ := ih he₁
      refine ⟨e₂, he₂, hid₂.trans hid₁, ?_⟩
      rcases hmoved with rfl | h | h
      · exact hmoved₂
      · rw [hfinal] at h
        cases h
      · rcases hmoved₂ with rfl | h₂ | h₂
        · exact .inr (.inr h)
        · exact .inr (.inl h₂)
        · exact .inr (.inr (h.trans h₂))

theorem IntegrationEvent.Moved.le (h : e.Moved e') (hopen : e'.status.final = false) :
    e.attemptCount ≤ e'.attemptCount := by
  rcases h with rfl | h | h
  · exact Nat.le_refl _
  · rw [hopen] at h
    cases h
  · exact Nat.le_of_lt h

theorem attempt_moves (he : e ∈ s.events) (hskipped : e.skipped x = false) :
    ∃ e' ∈ (s.step (.process e.id x)).events, e'.id = e.id ∧
      (e'.status.final = true ∨ e.attemptCount < e'.attemptCount) := by
  have hrow : s.rowAfter (.process e.id x) e = e.process (s.disconnected e.integrationId) x :=
    if_pos rfl
  refine ⟨_, rowAfter_mem (.process e.id x) he, (rowAfter_key _ e).1, ?_⟩
  rw [hrow]
  rcases process_cases e (s.disconnected e.integrationId) x with ⟨hskip, -⟩ | ⟨-, -, h⟩ |
    ⟨-, -, ⟨f, -, h⟩ | ⟨location, -, h⟩⟩
  · rw [hskipped] at hskip
    cases hskip
  · exact .inl (h ▸ rfl)
  · exact .inr (h ▸ Nat.lt_succ_self e.attemptCount)
  · exact .inl (h ▸ rfl)

theorem round_moves (he : e ∈ s.events) (ls₁ ls₂ : List Choice)
    (hselected : ∀ e' ∈ (run Inbox.step s ls₁).events, e'.id = e.id → e'.status.final = false →
      e.id ∈ (run Inbox.step s ls₁).dueEventIds now) (hx : now ≤ x.checkedAt) :
    ∃ e' ∈ (run Inbox.step s (ls₁ ++ .sweep now :: ls₂ ++ [.process e.id x])).events,
      e'.id = e.id ∧ (e'.status.final = true ∨ e.attemptCount < e'.attemptCount) := by
  rw [run_append, run_append]
  obtain ⟨e₁, he₁, hid₁, hmoved₁⟩ := run_moved he ls₁
  cases hfinal₁ : e₁.status.final with
  | true => exact ⟨e₁, run_final (run_final he₁ hfinal₁ _) hfinal₁ _, hid₁, .inl hfinal₁⟩
  | false =>
    have hle₁ : e.attemptCount ≤ e₁.attemptCount := hmoved₁.le hfinal₁
    obtain ⟨e₂, he₂, hid₂, hmoved₂⟩ := run_moved he₁ (.sweep now :: ls₂)
    rcases hmoved₂ with rfl | h₂ | h₂
    · -- Nothing has happened to the row since the sweep.
      obtain ⟨e₃, he₃, hid₃, hskipped⟩ := due_not_skipped (hselected e₂ he₁ hid₁ hfinal₁) hx
      obtain rfl : e₃ = e₂ := events_eq he₃ he₁ (hid₃.trans hid₁.symm)
      obtain ⟨e', he', hid', hmoves⟩ := attempt_moves he₂ hskipped
      rw [hid₁] at he' hid'
      exact ⟨e', he', hid', hmoves.imp id (Nat.lt_of_le_of_lt hle₁)⟩
    · exact ⟨e₂, run_final he₂ h₂ _, hid₂.trans hid₁, .inl h₂⟩
    · obtain ⟨e₃, he₃, hid₃, hmoved₃⟩ := run_moved he₂ [.process e.id x]
      refine ⟨e₃, he₃, hid₃.trans (hid₂.trans hid₁), ?_⟩
      cases hfinal₃ : e₃.status.final with
      | true => exact .inl rfl
      | false =>
        have hle₃ : e₂.attemptCount ≤ e₃.attemptCount := hmoved₃.le hfinal₃
        exact .inr (by omega)

theorem rounds_move {n : ℕ} {ls : List Choice} (h : Rounds k n s ls) (he : e ∈ s.events)
    (hid : e.id = k) :
    ∃ e' ∈ (run Inbox.step s ls).events, e'.id = k ∧
      (e'.status.final = true ∨ e.attemptCount + n ≤ e'.attemptCount) := by
  induction h generalizing e with
  | none s ls =>
    obtain ⟨e', he', hid', hmoved⟩ := run_moved he ls
    refine ⟨e', he', hid'.trans hid, ?_⟩
    cases hfinal : e'.status.final with
    | true => exact .inl rfl
    | false => exact .inr (hmoved.le hfinal)
  | round n s ls₁ ls₂ ls₃ now x hselected hx hrest ih =>
    subst hid
    obtain ⟨e₁, he₁, hid₁, hmoves⟩ := round_moves he ls₁ ls₂ hselected hx
    rw [run_append]
    rcases hmoves with hfinal | hlt
    · exact ⟨e₁, run_final he₁ hfinal ls₃, hid₁, .inl hfinal⟩
    · obtain ⟨e₂, he₂, hid₂, hmoves₂⟩ := ih he₁ hid₁
      refine ⟨e₂, he₂, hid₂, hmoves₂.imp id fun h => ?_⟩
      omega

/-- A late enough sweep selects what is not final, and after as many rounds as there are attempts
an event is PROCESSED, DEAD_LETTER or CANCELLED. -/
theorem events_end (choices more : List Choice) (e : IntegrationEvent)
    (he : e ∈ (run Inbox.step .start choices).events)
    (h : Rounds e.id maxEventAttempts (run Inbox.step .start choices) more) :
    (∀ now, e.status.final = false → e.Late now →
      e.id ∈ (run Inbox.step .start choices).dueEventIds now) ∧
    ∃ e' ∈ (run Inbox.step .start (choices ++ more)).events, e'.id = e.id ∧
      e'.status.final = true := by
  refine ⟨fun now hopen hlate => late_selected he hopen hlate, ?_⟩
  obtain ⟨e', he', hid', hmoves⟩ := rounds_move h he rfl
  rw [← run_append] at he'
  refine ⟨e', he', hid', ?_⟩
  rcases hmoves with hfinal | hcount
  · exact hfinal
  · have hany : MeetsFrom (fun _ _ => True) [] (eventRun (choices ++ more)) :=
      .of_forall (fun _ _ => trivial) []
    have hkept : (run Inbox.step .start (choices ++ more)).Kept (eventRun (choices ++ more)) :=
      trace_history start_kept (fun _ _ c hk _ => step_kept c hk) hany
    have hfollows := hkept.rows e' he'
    have hmax : e'.attemptCount = maxEventAttempts := by
      have hbound := hfollows.bound
      omega
    rw [hfollows.dead.mpr hmax]
    rfl

def receivedSale : List Choice :=
  [.connect 1, .record ⟨.connected, 7, 1, "sale", .null, 0, 0⟩]

/-- A sweep after more than ten minutes, and an attempt that records the sale. -/
def sweepAndAttempt : List Choice :=
  [.sweep 600000001, .process 7 ⟨600000001, 600000002, 600000002, fun _ => .ok 3⟩]

def sweeps : ℕ → List Choice
  | 0 => []
  | n + 1 => sweepAndAttempt ++ sweeps n

theorem rounds_of_final (he : e ∈ s.events) (hid : e.id = 7) (hfinal : e.status.final = true)
    (n : ℕ) : Rounds 7 n s (sweeps n) := by
  induction n generalizing s with
  | zero => exact .none s []
  | succ n ih =>
    refine .round n s [] [] (sweeps n) 600000001 _ (fun e' he' hid' hopen => ?_) (le_refl _)
      (ih (run_final he hfinal _))
    rw [events_eq he' he (hid'.trans hid.symm), hfinal] at hopen
    cases hopen

theorem events_end_sale :
    (∀ now, Status.received.final = false →
      (⟨7, 1, "sale", .null, none, .received, 0, none, 0, none, none, 0⟩ : IntegrationEvent).Late
        now → 7 ∈ (run Inbox.step .start receivedSale).dueEventIds now) ∧
    ∃ e' ∈ (run Inbox.step .start (receivedSale ++ sweeps 5)).events, e'.id = 7 ∧
      e'.status.final = true :=
  events_end receivedSale (sweeps 5)
    ⟨7, 1, "sale", .null, none, .received, 0, none, 0, none, none, 0⟩ (List.mem_singleton_self _)
    (.round 4 _ [] [] (sweeps 4) 600000001 _ (fun _ _ _ _ => by decide) (le_refl _)
      (rounds_of_final (List.mem_singleton_self _) rfl rfl 4))

end ReviewFlow.Events
