import ReviewFlow.Billing.TaskSaves

/-!
# An accepted cancellation stays

A row that is to end at its period's end holds no replacement, so no switch takes
it over. The flag falls where an ended row is paid for again, and where a checkout
starts a new subscription.
-/

namespace ReviewFlow.Billing

open Savepoint Interleaving

def Subscription.CancelKept (sub : Subscription) : Prop :=
  sub.cancelAtPeriodEnd = true → sub.replacementProviderRef = none

def Database.CancelKept (db : Database) : Prop := ∀ sub ∈ db.sub?, sub.CancelKept

/-- A row that was not live is active again, with the proof that its period is paid. -/
structure PaidAgain (calls : List Call) (sub sub' : Subscription) : Prop where
  ended : sub.status = .incomplete ∨ sub.status.Ended
  paid : ∃ settings entity invoices started plan start stop, Answered calls entity ∧
    Invoiced calls invoices ∧ Accepts settings sub entity started plan "active" ∧
    usablePeriod entity = some (start, stop) ∧ (currentPeriodPaid entity invoices).isSome = true ∧
    sub' = stamped (activated sub plan start stop) "active" started

structure Resets (calls : List Call) (sub sub' : Subscription) : Prop where
  inactive : sub.status ≠ .active ∧ sub.status ≠ .pastDue
  stored : ∃ plan created, CreatedBy calls created ∧ sub' = newlyStored sub plan created

theorem Abandons.free {calls : List Call} {sub sub' : Subscription} (h : Abandons calls sub sub') :
    sub'.replacementProviderRef = none := by
  obtain ⟨_, _, -, -, -, rfl⟩ := h
  rfl

theorem Abandons.flag {calls : List Call} {sub sub' : Subscription} (h : Abandons calls sub sub') :
    sub'.cancelAtPeriodEnd = sub.cancelAtPeriodEnd := by
  obtain ⟨_, _, -, -, -, rfl⟩ := h
  rfl

theorem refreshed_flag (sub : Subscription) (plan : Plan) :
    (refreshed sub plan).cancelAtPeriodEnd = sub.cancelAtPeriodEnd := by
  unfold refreshed takePlan
  dsimp only
  split
  · rfl
  · split <;> rfl

theorem activated_flag {sub : Subscription} (plan : Plan) (start stop : Time)
    (h : sub.status = .active ∨ sub.status = .pastDue) :
    (activated sub plan start stop).cancelAtPeriodEnd = sub.cancelAtPeriodEnd := by
  unfold activated takePlan clearGrace
  dsimp only
  split
  · rfl
  · rename_i ha
    rw [if_pos (h.resolve_left ha)]

theorem ended_flag (sub : Subscription) (now : Time) :
    (ended sub now).cancelAtPeriodEnd = sub.cancelAtPeriodEnd := by
  unfold ended clearGrace
  split <;> rfl

theorem activated_reset {sub : Subscription} (plan : Plan) (start stop : Time)
    (h : ¬ (sub.status = .active ∨ sub.status = .pastDue)) :
    (activated sub plan start stop).cancelAtPeriodEnd = false := by
  rw [not_or] at h
  unfold activated
  rw [if_neg h.1, if_neg h.2]

theorem statusOutcome_flag (sub : Subscription) (entity : Dict) (invoices : Option (List Json))
    (plan : Plan) (status : String) (now : Time) :
    (statusOutcome sub entity invoices plan status now).sub.cancelAtPeriodEnd =
        sub.cancelAtPeriodEnd ∨
      ((statusOutcome sub entity invoices plan status now).advanced = true ∧
        ¬ (sub.status = .active ∨ sub.status = .pastDue)) := by
  unfold statusOutcome
  split
  · unfold activeOutcome
    split
    · exact Or.inl rfl
    · split
      · exact Or.inl (refreshed_flag sub plan)
      · split
        · exact Or.inl rfl
        · by_cases h : sub.status = .active ∨ sub.status = .pastDue
          · exact Or.inl (activated_flag plan _ _ h)
          · exact Or.inr ⟨rfl, h⟩
  split
  · unfold failedOutcome
    split <;> exact Or.inl rfl
  split
  · split
    · exact Or.inl rfl
    · unfold terminalOutcome
      split
      · exact Or.inl (ended_flag sub now)
      · exact Or.inl rfl
  · exact Or.inl rfl

theorem Status.not_live {status : Status} (h : ¬ (status = .active ∨ status = .pastDue)) :
    status = .incomplete ∨ status.Ended := by
  cases status <;> simp_all [Status.Ended]

theorem Save.lowers {calls : List Call} {sub sub' : Subscription} (h : Save calls sub sub')
    (hc : sub.cancelAtPeriodEnd = true) :
    sub'.cancelAtPeriodEnd = true ∨ PaidAgain calls sub sub' := by
  cases h with
  | @snapshot settings _ row entity invoices started now plan status accepts
    answered invoiced hrow =>
    rcases statusOutcome_flag sub entity invoices plan status now with hf | ⟨hadv, hlive⟩
    · refine Or.inl ?_
      rcases hrow with rfl | ⟨-, -, -, ha⟩
      · exact hf.trans hc
      · exact ha.flag.trans (hf.trans hc)
    · obtain ⟨rfl, start, stop, hp, -, hpaid, ho⟩ := statusOutcome_advanced hadv
      refine Or.inr ⟨Status.not_live hlive, settings, entity, invoices, started, plan, start, stop,
        answered, invoiced, accepts, hp, hpaid, ?_⟩
      rcases hrow with rfl | ⟨-, hno, -, -⟩
      · rw [ho]
      · rw [hno] at hadv
        cases hadv
  | retires row => exact Or.inl (row.flag.trans hc)
  | undone row => exact Or.inl (row.flag.trans hc)
  | cancelling free => exact Or.inl rfl
  | _ => exact Or.inl hc

theorem Save.cancelKept {calls : List Call} {sub sub' : Subscription} (h : Save calls sub sub')
    (hk : sub.CancelKept) : sub'.CancelKept := by
  intro hc
  by_cases hf : sub.cancelAtPeriodEnd = true
  · exact h.free (hk hf)
  · cases h with
    | @snapshot settings _ row entity invoices started now plan status _ _ _ hrow =>
      rcases hrow with rfl | ⟨-, -, -, ha⟩
      · rcases statusOutcome_flag sub entity invoices plan status now with he | ⟨hadv, hlive⟩
        · exact absurd (he.symm.trans hc) hf
        · obtain ⟨-, start, stop, -, -, -, ho⟩ := statusOutcome_advanced hadv
          rw [stamped, ho] at hc
          exact absurd (activated_reset plan start stop hlive) (by rw [hc]; simp)
      · exact ha.free
    | retires row => exact row.free
    | undone row => exact row.free
    | cancelling free => exact free
    | _ => exact absurd hc hf

theorem Creation.cancelKept {calls : List Call} {sub sub' : Subscription}
    (h : Creation calls sub sub') : sub'.CancelKept := by
  intro hc
  cases h with
  | stored inactive free fresh => cases hc
  | started active going paid free fresh apart => exact absurd (going.symm.trans hc) (by simp)

theorem Task.Odd.cancelKept {env : Env} {made : ℕ} {task : Task} {sub sub' : Subscription}
    (h : task.Odd env made sub sub') (hk : sub.CancelKept) : sub'.CancelKept := by
  unfold Task.Odd at h
  split at h
  · obtain ⟨plan, start, stop, -, rfl⟩ := h
    exact fun _ => rfl
  · obtain ⟨-, -, rfl⟩ := h
    exact hk
  · obtain ⟨-, rfl⟩ := h
    exact hk
  · exact h.elim

theorem SavePath.cancelKept {calls : List Call} {sub sub' : Subscription}
    (h : SavePath calls sub sub') (hk : sub.CancelKept) : sub'.CancelKept := by
  induction h with
  | refl => exact hk
  | tail _ hs ih => exact hs.cancelKept ih

theorem SavePath.lowers {calls : List Call} {sub sub' : Subscription} (h : SavePath calls sub sub')
    (hc : sub.cancelAtPeriodEnd = true) (hc' : sub'.cancelAtPeriodEnd = false) :
    ∃ a b, SavePath calls sub a ∧ a.cancelAtPeriodEnd = true ∧ PaidAgain calls a b ∧
      SavePath calls b sub' := by
  induction h with
  | refl =>
    rw [hc] at hc'
    cases hc'
  | @tail mid last hpath hs ih =>
    cases hm : mid.cancelAtPeriodEnd with
    | false =>
      obtain ⟨a, b, ha, hca, hr, hb⟩ := ih hm
      exact ⟨a, b, ha, hca, hr, hb.tail hs⟩
    | true =>
      rcases hs.lowers hm with hl | hl
      · rw [hl] at hc'
        cases hc'
      · exact ⟨mid, last, hpath, hm, hl, .refl⟩

theorem replacementLocked_free {sub : Subscription} (h : sub.replacementProviderRef = none)
    (entity : Dict) (invoices : Option (List Json)) (started : Time) (settings : Settings) :
    replacementLocked sub entity invoices started settings = pure ⟨false, false⟩ := by
  unfold replacementLocked namesReplacement
  rw [h]
  split <;> rfl

/-- On the way of a step from the one row to the other the flag falls in a paid
reactivation, or in the reset of a checkout. -/
def FlagFalls (calls : List Call) (choice : Choice) (sub sub' : Subscription) : Prop :=
  ∃ a b, SavePath calls sub a ∧ a.cancelAtPeriodEnd = true ∧ b.cancelAtPeriodEnd = false ∧
    (PaidAgain calls a b ∨ (Resets calls a b ∧ b = sub' ∧ ∃ actor planId acknowledged env,
      choice = .request (.checkout actor planId acknowledged) env true))

structure Transition.KeepsCancellation (t : Transition) : Prop where
  kept : t.after.db.CancelKept
  /-- A replacement sync returns before it looks at a switch. -/
  unswitched : ∀ sub ∈ t.before.db.sub?, sub.cancelAtPeriodEnd = true →
    ∀ entity invoices started settings,
      replacementLocked sub entity invoices started settings = pure ⟨false, false⟩
  lowered : ∀ sub ∈ t.before.db.sub?, ∀ sub' ∈ t.after.db.sub?, sub.cancelAtPeriodEnd = true →
    sub'.cancelAtPeriodEnd = false → FlagFalls t.calls t.label sub sub'

theorem PaidAgain.lowered {calls : List Call} {a b : Subscription} (h : PaidAgain calls a b) :
    b.cancelAtPeriodEnd = false := by
  obtain ⟨_, _, _, _, plan, start, stop, -, -, -, -, -, rfl⟩ := h.paid
  refine activated_reset plan start stop fun hl => ?_
  rcases h.ended with he | he | he <;> rcases hl with hl | hl <;> rw [he] at hl <;> cases hl

theorem Ends.cancelKept {calls : List Call} {db db' : Database} (h : Ends calls db db')
    (hk : db.CancelKept) : db'.CancelKept := by
  intro sub' hsub'
  cases h with
  | saves saves =>
    obtain ⟨sub, hsub, hp⟩ := saves.path hsub'
    exact hp.cancelKept (hk sub hsub)
  | creates mid saves row creation after =>
    obtain rfl := Option.some.inj (after.symm.trans hsub')
    exact creation.cancelKept
  | first absent fresh after =>
    obtain rfl := Option.some.inj (after.symm.trans hsub')
    exact fun _ => rfl

theorem StepSaves.cancelKept {sys : System} {choice : Choice} (h : StepSaves sys choice)
    (hk : sys.db.CancelKept) : (sys.step choice).db.CancelKept := by
  cases h with
  | saves saves => exact (Ends.saves saves).cancelKept hk
  | checkout label ends => exact ends.cancelKept hk
  | odd label stands saved =>
    obtain ⟨sub, sub', hsub, hsub', ho⟩ := saved
    intro x hx
    obtain rfl := Option.some.inj (hsub'.symm.trans hx)
    exact ho.cancelKept (hk sub hsub)

theorem Task.Odd.flag {env : Env} {made : ℕ} {task : Task} {sub sub' : Subscription}
    (h : task.Odd env made sub sub') (hk : sub.CancelKept) (hc : sub.cancelAtPeriodEnd = true) :
    sub'.cancelAtPeriodEnd = true := by
  unfold Task.Odd at h
  split at h
  · obtain ⟨plan, start, stop, hs, rfl⟩ := h
    have hn := hs.names
    rw [namesReplacement, hk hc] at hn
    cases hn
  · obtain ⟨-, -, rfl⟩ := h
    exact hc
  · obtain ⟨-, rfl⟩ := h
    exact hc
  · exact h.elim

theorem StepSaves.lowered {sys : System} {choice : Choice} (h : StepSaves sys choice)
    (hk : sys.db.CancelKept) {sub sub' : Subscription} (hsub : sys.db.sub? = some sub)
    (hsub' : (sys.step choice).db.sub? = some sub') (hc : sub.cancelAtPeriodEnd = true)
    (hc' : sub'.cancelAtPeriodEnd = false) : FlagFalls (sys.calls choice) choice sub sub' := by
  have ofPath : ∀ {x}, SavePath (sys.calls choice) sub x → x.cancelAtPeriodEnd = false →
      FlagFalls (sys.calls choice) choice sub sub' := by
    intro x hp hx
    obtain ⟨a, b, ha, hca, hr, -⟩ := hp.lowers hc hx
    exact ⟨a, b, ha, hca, hr.lowered, Or.inl hr⟩
  cases h with
  | saves saves => exact ofPath (saves.path_of hsub hsub') hc'
  | odd label stands saved =>
    obtain ⟨x, x', hx, hx', ho⟩ := saved
    obtain rfl := Option.some.inj (hx.symm.trans hsub)
    obtain rfl := Option.some.inj (hx'.symm.trans hsub')
    exact absurd (ho.flag (hk x hsub) hc) (by rw [hc']; simp)
  | checkout label ends =>
    cases ends with
    | saves saves => exact ofPath (saves.path_of hsub hsub') hc'
    | first absent fresh after =>
      rw [absent] at hsub
      cases hsub
    | @creates mid x' db saves row creation after =>
      obtain rfl := Option.some.inj (after.symm.trans hsub')
      have hp := saves.path_of hsub row
      cases hm : mid.cancelAtPeriodEnd with
      | false => exact ofPath hp hm
      | true =>
        -- a plan change starts on a row without the flag
        cases creation with
        | started active going => exact absurd (going.symm.trans hm) (by simp)
        | stored inactive free fresh =>
          exact ⟨mid, _, hp, hm, hc', Or.inr ⟨⟨inactive, _, _, fresh, rfl⟩, rfl, _, _, _, _, label⟩⟩

/-- In every run, from tables where a cancelled row holds no replacement, none ever does. -/
theorem cancellation_kept {db : Database} (h : db.CancelKept) (choices : List Choice) :
    ∀ t ∈ runFrom db choices, t.KeepsCancellation := by
  have hinv : ∀ t ∈ runFrom db choices, t.before.Sound ∧ t.before.db.CancelKept :=
    reachable_invariant (I := fun sys : System => sys.Sound ∧ sys.db.CancelKept)
      ⟨by simp [System.Sound], h⟩ fun sys choice hs =>
        ⟨System.step_sound hs.1 choice, (System.step_saves hs.1 choice).cancelKept hs.2⟩
  intro t ht
  obtain ⟨hsound, hk⟩ := hinv t ht
  have hsaves := System.step_saves hsound t.label
  have hafter : t.after = t.before.step t.label := by rw [trace_step ht]; rfl
  refine ⟨hafter ▸ hsaves.cancelKept hk, fun sub hsub hc entity invoices started settings => ?_, ?_⟩
  · exact replacementLocked_free (hk sub hsub hc) entity invoices started settings
  · intro sub hsub sub' hsub' hc hc'
    exact hsaves.lowered hk hsub (hafter ▸ hsub') hc hc'

def cancelledAtEnd : List Choice :=
  let live : Answers :=
    { fetch := onlyA (entityA "active" 1000 2000), cancel := .ok (entityA "active" 1000 2000) }
  subscribed ++ [.request (.cancel 7) (live.at 1600) true]

theorem cancellation_kept_cancelledAtEnd :
    (∀ t ∈ runFrom rowless cancelledAtEnd, t.KeepsCancellation) ∧
      ((runFrom rowless cancelledAtEnd).getLast?.bind (·.after.db.sub?)).map
        (·.cancelAtPeriodEnd) = some true :=
  ⟨cancellation_kept (fun _ h => by cases h) cancelledAtEnd, by decide +kernel⟩

end ReviewFlow.Billing
