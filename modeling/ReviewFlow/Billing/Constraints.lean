import ReviewFlow.Billing.Commitment
import ReviewFlow.Billing.SlotDiscipline
import ReviewFlow.Billing.DoubleSubmit

/-!
# The constraints of the subscription row

Each save of the row keeps the table's CHECKs, and no save takes a reference of another
merchant's row, except two: the return of a commit mark on a row whose cancel another
sweep has confirmed, and the switch of a row that has no subscription to retire.
-/

namespace ReviewFlow.Billing

open Savepoint Interleaving Succession

section Checks

variable {sub sub' : Subscription} {calls : List Call}

def Subscription.refColumns (sub : Subscription) :=
  (sub.slots, sub.replacementExpiresAt, sub.replacementPlan, sub.replacementCommittedAt,
    sub.replacementCancelConfirmedAt, sub.retiredKind)

theorem ungraced (h : sub.Checks) (hs : sub.status ≠ .pastDue) :
    sub.pastDueAt = none ∧ sub.dunningStage = none := by
  have hpast : ¬ sub.pastDueAt.isSome = true := fun hp => hs (h.pastDueAt.mp hp)
  have hstage : ¬ sub.dunningStage.isSome = true := fun hd => hpast (h.dunningEpisode.mp hd)
  exact ⟨by simpa using hpast, by simpa using hstage⟩

theorem Subscription.Checks.withPeriod (h : sub.Checks) (hcols : sub'.refColumns = sub.refColumns)
    (hset : sub'.status = .incomplete ∨
      (sub'.currentPeriodStart.isSome = true ∧ sub'.currentPeriodEnd.isSome = true))
    (horder : ∀ a ∈ sub'.currentPeriodStart, ∀ b ∈ sub'.currentPeriodEnd, a < b)
    (hpast : sub'.pastDueAt.isSome = true ↔ sub'.status = .pastDue)
    (hepisode : sub'.dunningStage.isSome = true ↔ sub'.pastDueAt.isSome = true)
    (hstage : ∀ n ∈ sub'.dunningStage, n = 0 ∨ n = 3 ∨ n = 6) : sub'.Checks := by
  simp only [Subscription.refColumns, Subscription.slots, Prod.mk.injEq, Slots.mk.injEq] at hcols
  obtain ⟨⟨hp, hr, ht⟩, hx, hplan, hc, hcc, hk⟩ := hcols
  refine ⟨hset, horder, hpast, hepisode, hstage, ?_, ?_, ?_, ?_, ?_, ?_⟩
  · rw [hr, hp]
    exact h.refDiffers
  · rw [hx, hr]
    exact h.expirySet
  · rw [hplan, hr]
    exact h.planSet
  · rw [hc, hr]
    exact h.committedNeedsRef
  · rw [hk, ht]
    exact h.retiredKindSet
  · rw [hcc, hc]
    exact h.confirmedNeedsCommitted

theorem Subscription.Checks.withoutGrace (h : sub.Checks)
    (hcols : sub'.refColumns = sub.refColumns)
    (hset : sub'.currentPeriodStart.isSome = true ∧ sub'.currentPeriodEnd.isSome = true)
    (horder : ∀ a ∈ sub'.currentPeriodStart, ∀ b ∈ sub'.currentPeriodEnd, a < b)
    (hstatus : sub'.status ≠ .pastDue) (hpast : sub'.pastDueAt = none)
    (hstage : sub'.dunningStage = none) : sub'.Checks := by
  refine h.withPeriod hcols (Or.inr hset) horder ?_ ?_ ?_
  · simp [hpast, hstatus]
  · simp [hpast, hstage]
  · simp [hstage]

theorem activated_checks (h : sub.Checks) (plan : Plan) {start stop : Time}
    (horder : start < stop) :
    (activated sub plan start stop).Checks := by
  obtain ⟨hstart, hstop, hstatus⟩ := activated_period sub plan start stop
  have hgrace : (activated sub plan start stop).pastDueAt = none ∧
      (activated sub plan start stop).dunningStage = none := by
    unfold activated takePlan clearGrace
    by_cases hp : sub.status = .pastDue
    · simp [hp]
    · obtain ⟨hpast, hstage⟩ := ungraced h hp
      by_cases ha : sub.status = .active <;> simp [ha, hp, hpast, hstage]
  refine h.withoutGrace ?_ ?_ ?_ (by simp [hstatus]) hgrace.1 hgrace.2
  · unfold activated
    dsimp only
    split
    · rfl
    · split <;> rfl
  · simp [hstart, hstop]
  · simp [hstart, hstop, horder]

theorem refreshed_checks (h : sub.Checks) (plan : Plan) : (refreshed sub plan).Checks := by
  have hsame : (refreshed sub plan).refColumns = sub.refColumns ∧
      (refreshed sub plan).status = sub.status ∧
      (refreshed sub plan).currentPeriodStart = sub.currentPeriodStart ∧
      (refreshed sub plan).currentPeriodEnd = sub.currentPeriodEnd ∧
      (refreshed sub plan).pastDueAt = sub.pastDueAt ∧
      (refreshed sub plan).dunningStage = sub.dunningStage := by
    unfold refreshed
    dsimp only
    split
    · exact ⟨rfl, rfl, rfl, rfl, rfl, rfl⟩
    · split <;> exact ⟨rfl, rfl, rfl, rfl, rfl, rfl⟩
  obtain ⟨hcols, hst, hstart, hstop, hpast, hstage⟩ := hsame
  refine h.withPeriod hcols ?_ ?_ ?_ ?_ ?_
  · rw [hst, hstart, hstop]
    exact h.periodSet
  · rw [hstart, hstop]
    exact h.periodOrder
  · rw [hpast, hst]
    exact h.pastDueAt
  · rw [hstage, hpast]
    exact h.dunningEpisode
  · rw [hstage]
    exact h.dunningStage

theorem Subscription.Checks.period (h : sub.Checks) (hs : sub.status ≠ .incomplete) :
    sub.currentPeriodStart.isSome = true ∧ sub.currentPeriodEnd.isSome = true :=
  h.periodSet.resolve_left hs

theorem graced_checks (h : sub.Checks) (hs : sub.status = .active) (now : Time) :
    (graced sub now).Checks :=
  h.withPeriod rfl (Or.inr (h.period (by simp [hs]))) h.periodOrder (by simp [graced])
    (by simp [graced]) (by simp [graced])

theorem clearGrace_checks (h : sub.Checks) (hs : sub.status = .pastDue) {status : Status}
    (hstatus : status ≠ .pastDue) : (clearGrace { sub with status := status }).Checks :=
  h.withoutGrace rfl (h.period (by simp [hs])) h.periodOrder hstatus rfl rfl

theorem ended_checks (h : sub.Checks) (now : Time) : (ended sub now).Checks := by
  unfold ended
  split
  · rename_i hs
    obtain ⟨hpast, hstage⟩ := ungraced h (by simp [hs])
    exact h.withoutGrace rfl (h.period (by simp [hs])) h.periodOrder (by simp) hpast hstage
  · rename_i pastDueAt hs _
    refine clearGrace_checks h hs ?_
    unfold graceEnd
    split <;> simp
  · exact h

theorem statusOutcome_checks (h : sub.Checks) (entity : Dict) (invoices : Option (List Json))
    (plan : Plan) (status : String) (now : Time) :
    (statusOutcome sub entity invoices plan status now).sub.Checks := by
  unfold statusOutcome
  split
  · unfold activeOutcome
    split
    · exact h
    · rename_i start stop hperiod
      split
      · exact refreshed_checks h plan
      · split
        · exact h
        · exact activated_checks h plan ((usablePeriod_eq_some.mp hperiod).2.2)
  · split
    · unfold failedOutcome
      split
      · exact h
      · rename_i hs
        exact graced_checks h (not_not.mp hs) now
    · split
      · split
        · exact h
        · unfold terminalOutcome
          split
          · exact ended_checks h now
          · exact h
      · exact h

theorem Abandons.checks (h : Abandons calls sub sub') (hs : sub.Checks) : sub'.Checks := by
  obtain ⟨_, target, ⟨ref, href, -⟩, -, -, rfl⟩ := h
  exact retired_checks hs target (by simp [href])

theorem Save.checks (h : Save calls sub sub') (hs : sub.Checks) : sub'.Checks := by
  cases h with
  | @snapshot _ _ row entity invoices started now plan status _ _ _ hrow =>
    have ho := statusOutcome_checks hs entity invoices plan status now
    refine stamped_checks ?_ status started
    rcases hrow with rfl | ⟨-, -, -, ha⟩
    · exact ho
    · exact ha.checks ho
  | retires row => exact row.checks hs
  | undone row =>
    -- the confirmation leaves with the commit mark
    obtain ⟨_, target, ⟨ref, href, -⟩, -, -, rfl⟩ := row
    exact retired_checks hs target (by simpa using Option.isSome_of_mem href)
  | committed candidate =>
    have hrepl : sub.replacementProviderRef.isSome = true := by
      simp only [commitCandidate, Bool.and_eq_true] at candidate
      exact candidate.1.2
    obtain ⟨a, b, c, d, e, f, g, i, -, k, -⟩ := hs
    exact ⟨a, b, c, d, e, f, g, i, Or.inr hrepl, k, Or.inr rfl⟩
  | confirmed committed =>
    obtain ⟨a, b, c, d, e, f, g, i, j, k, -⟩ := hs
    exact ⟨a, b, c, d, e, f, g, i, j, k, Or.inr committed⟩
  | providerStatus | scheduled going | cancelling free =>
    obtain ⟨a, b, c, d, e, f, g, i, j, k, l⟩ := hs
    exact ⟨a, b, c, d, e, f, g, i, j, k, l⟩
  | graceExpired pastDue | pastDueCancelled pastDue =>
    exact clearGrace_checks hs pastDue (by simp)
  | @atStage _ stage pastDue known =>
    refine hs.withPeriod rfl hs.periodSet hs.periodOrder hs.pastDueAt ?_ ?_
    · exact ⟨fun _ => hs.pastDueAt.mpr pastDue, fun _ => rfl⟩
    · rintro _ ⟨⟩
      simp only [dunningStages, List.map_cons, List.map_nil, List.mem_cons, List.not_mem_nil,
        or_false] at known
      omega

theorem Creation.checks (h : Creation calls sub sub') (hs : sub.Checks) : sub'.Checks := by
  cases h with
  | stored inactive free fresh => exact newlyStored_checks hs inactive.2 free _ _
  | started active going paid free fresh apart =>
    obtain ⟨a, b, c, d, e, -, -, -, -, k, l⟩ := hs
    exact ⟨a, b, c, d, e, Or.inr fun he => apart he.symm, by simp [withReplacement],
      by simp [withReplacement], Or.inr rfl, k, l⟩

theorem switched_checks (h : sub.Checks) {status : String} {started : Time} {departing : Option Ref}
    (hpaid : departing.isSome = true) : (switched sub departing status started).Checks where
  periodSet := h.periodSet
  periodOrder := h.periodOrder
  pastDueAt := h.pastDueAt
  dunningEpisode := h.dunningEpisode
  dunningStage := h.dunningStage
  refDiffers := Or.inl rfl
  expirySet := by simp [switched]
  planSet := by simp [switched]
  committedNeedsRef := Or.inl rfl
  retiredKindSet := by simp [switched, hpaid]
  confirmedNeedsCommitted := Or.inl rfl

end Checks

section References

variable {sub sub' : Subscription} {calls : List Call} {others : Others} {ref : Ref}

structure Others.Without (others : Others) (ref : Ref) : Prop where
  payment : ref ∉ others.paymentRefs
  replacement : ref ∉ others.replacementRefs
  retired : ref ∉ others.retiredRefs

theorem not_clash {stored : Option Subscription}
    (h : ∀ ref, sub'.slots.Holds ref → others.Without ref) : ¬ others.clash stored sub' := by
  rintro (⟨ref, href, hr, -⟩ | ⟨ref, href, hr, -⟩ | ⟨ref, href, hr, -⟩)
  · exact (h ref (Or.inl href)).payment hr
  · exact (h ref (Or.inr (Or.inl href))).replacement hr
  · exact (h ref (Or.inr (Or.inr href))).retired hr

theorem Shifts.holds (h : Shifts sub sub') (href : sub'.slots.Holds ref) : sub.slots.Holds ref := by
  have hturn : Turn (fun _ => False) sub.slots sub'.slots := h.turn
  exact (hturn.holds href).resolve_right id

theorem Creation.holds (h : Creation calls sub sub') (href : sub'.slots.Holds ref) :
    sub.slots.Holds ref ∨ ref ∈ createdRefs calls := by
  cases h with
  | stored inactive free fresh =>
    rcases href with h | h | h
    · cases h
      exact Or.inr fresh.mem
    · exact Or.inl (Or.inr (Or.inl h))
    · exact Or.inl (Or.inr (Or.inr h))
  | started active going paid free fresh apart =>
    rcases href with h | h | h
    · exact Or.inl (Or.inl h)
    · cases h
      exact Or.inr fresh.mem
    · exact Or.inl (Or.inr (Or.inr h))

end References

section Accepted

variable {env : Env} {calls : List Call} {db : Database}

/-- The other merchants hold no reference of the row, and none that was created. -/
def Database.Foreign (others : Others) (calls : List Call) (db : Database) : Prop :=
  ∀ ref, (db.slots.Holds ref ∨ ref ∈ createdRefs calls) → others.Without ref

theorem Database.Foreign.not_refuses (h : db.Foreign env.others calls) :
    ¬ Refuses env calls db := by
  rintro ⟨sub, sub', hsub, hsave, hno⟩
  have hs := Database.checks hsub
  have hslots := Database.slots_of hsub
  rcases hsave with hsave | hcreation
  · refine hno ⟨hsave.checks hs, not_clash fun ref href => h ref (Or.inl ?_)⟩
    exact hslots ▸ hsave.shifts.holds href
  · refine hno ⟨hcreation.checks hs, not_clash fun ref href => h ref ?_⟩
    exact (hcreation.holds href).imp_left fun hold => hslots ▸ hold

theorem Database.Foreign.not_refused (h : db.Foreign env.others calls) :
    ¬ Refused env calls db := by
  rintro ⟨mid, hmid, hrefuses⟩
  refine Database.Foreign.not_refuses (fun ref href => ?_) hrefuses
  rcases href with href | href
  · rcases hmid with (hsame | ⟨sub, sub', hsub, hsub', hp⟩) | ⟨-, plan, hfresh⟩
    · exact h ref (Or.inl (Database.slots_eq hsame ▸ href))
    · rw [Database.slots_of hsub'] at href
      exact h ref (Or.inl (Database.slots_of hsub ▸ hp.shifts.holds href))
    · rw [Database.slots_of hfresh] at href
      rcases href with href | href | href <;> cases href
  · exact h ref (Or.inr href)

def Task.Trips (env : Env) (made : ℕ) (sub : Subscription) : Task → Prop
  | .commitSecond refs true => stillCommitted sub refs = true ∧ ¬ Abandonable env sub made ∧
      sub.replacementCancelConfirmedAt.isSome = true
  | .replacementApply _ _ entity invoices => sub.paymentProviderRef = none ∧
      ∃ plan start stop, Switches env.settings sub entity invoices plan start stop
  | _ => False

theorem Task.Odd.checks {made : ℕ} {task : Task} {sub sub' : Subscription}
    (h : task.Odd env made sub sub') (hs : sub.Checks) (hno : ¬ task.Trips env made sub) :
    sub'.Checks := by
  unfold Task.Odd at h
  split at h
  · obtain ⟨plan, start, stop, hswitch, rfl⟩ := h
    refine switched_checks
      (activated_checks hs plan ((usablePeriod_eq_some.mp hswitch.period).2.2)) ?_
    rw [Option.isSome_iff_ne_none]
    exact fun hnone => hno ⟨hnone, plan, start, stop, hswitch⟩
  · obtain ⟨hstill, hab, rfl⟩ := h
    have hconfirmed : sub.replacementCancelConfirmedAt = none := by
      by_contra hsome
      exact hno ⟨hstill, hab, Option.isSome_iff_ne_none.mpr hsome⟩
    obtain ⟨a, b, c, d, e, f, g, i, -, k, -⟩ := hs
    exact ⟨a, b, c, d, e, f, g, i, Or.inl rfl, k, Or.inl hconfirmed⟩
  · obtain ⟨-, rfl⟩ := h
    obtain ⟨a, b, c, d, e, f, g, i, j, -, l⟩ := hs
    exact ⟨a, b, c, d, e, f, g, i, j, by simp, l⟩
  · exact h.elim

theorem Database.Foreign.not_refusesBy {made : ℕ} {task : Task}
    (h : db.Foreign env.others calls)
    (hno : ∀ sub, db.sub? = some sub → ¬ task.Trips env made sub) :
    ¬ RefusesBy env (task.Odd env made) db := by
  rintro ⟨sub, sub', hsub, hodd, hrefused⟩
  refine hrefused ⟨hodd.checks (Database.checks hsub) (hno sub hsub), not_clash fun ref href => ?_⟩
  refine h ref (Or.inl ?_)
  rw [Database.slots_of hsub]
  have hturn : Turn (fun _ => False) sub.slots sub'.slots := hodd.turn
  exact (hturn.holds href).resolve_right id

end Accepted

section Raises

def errorOf {α : Type} : Except Error α → Option Error
  | .error e => some e
  | .ok _ => none

def Thread.raises (thread : Thread) (db : Database) (env : Env) : Option Error :=
  match thread.todo with
  | [] => none
  | task :: _ => errorOf (task.step.run env ⟨db, thread.journal⟩).1

def System.raises (sys : System) : Choice → Option Error
  | .advance i env => sys.threads[i]?.bind fun thread => thread.raises sys.db env
  | .request request env _ => errorOf (request.run sys.db env).1
  | .spawn _ | .crash _ => none

def Choice.env? : Choice → Option Env
  | .advance _ env | .request _ env _ => some env
  | .spawn _ | .crash _ => none

/-- The other merchants hold no reference of the row, and none that the step's operation
created. -/
def Transition.Foreign (t : Transition) : Prop :=
  ∀ env ∈ t.label.env?, t.before.db.Foreign env.others t.calls

def Transition.Trips (t : Transition) : Prop :=
  ∃ i env task sub, t.label = .advance i env ∧ t.before.taskAt i = some task ∧
    t.before.db.sub? = some sub ∧ task.Trips env (t.before.made i) sub

theorem errorOf_eq_some {α : Type} {r : Except Error α} {e : Error} :
    errorOf r = some e ↔ r = .error e := by
  cases r <;> simp [errorOf]

theorem raises_none {α : Type} {m : Prog α} {env : Env} {s : State} {Q : α → State → Prop}
    {F : Error → State → Prop} (h : Program.wp env m Q F s)
    (hno : ∀ t, (m.run env s).2 = t → ¬ F .integrityError t) :
    errorOf (m.run env s).1 ≠ some .integrityError := by
  intro he
  rw [errorOf_eq_some] at he
  exact hno _ rfl (Program.wp_error h (Prod.ext he rfl))

theorem System.raises_none {sys : System} {choice : Choice} (hs : sys.Sound)
    (hforeign : Transition.Foreign (transition System.step sys choice))
    (htrips : ¬ Transition.Trips (transition System.step sys choice)) :
    sys.raises choice ≠ some .integrityError := by
  cases choice with
  | spawn job | crash i => simp [System.raises]
  | request request env commits =>
    have h : sys.db.Foreign env.others (request.run sys.db env).2.journal.calls := hforeign env rfl
    refine Billing.raises_none (request.closes env ⟨sys.db, Journal.empty⟩) ?_
    rintro _ rfl ⟨-, hrefused⟩
    exact h.not_refused (hrefused rfl)
  | advance i env =>
    cases hi : sys.threads[i]? with
    | none => simp [System.raises, hi]
    | some thread =>
      simp only [System.raises, hi, Option.bind_some]
      unfold Thread.raises
      cases htodo : thread.todo with
      | nil => simp
      | cons task rest =>
        dsimp only
        have hsound : task.Sound thread.journal.calls :=
          hs thread (List.mem_of_getElem? hi) task (htodo ▸ List.mem_cons_self)
        have hadv : sys.advance i env = some ((task.step.run env ⟨sys.db, thread.journal⟩).2,
            ⟨remaining (task.step.run env ⟨sys.db, thread.journal⟩).1 rest,
              (task.step.run env ⟨sys.db, thread.journal⟩).2.journal⟩) := by
          simp [System.advance, hi, Thread.advance, htodo]
        have h : sys.db.Foreign env.others
            (task.step.run env ⟨sys.db, thread.journal⟩).2.journal.calls := by
          have := hforeign env rfl
          simpa only [Transition.calls, transition, System.calls, hadv, Option.map_some,
            Option.getD_some] using this
        have hmade : sys.made i = thread.journal.calls.length := by simp [System.made, hi]
        refine Billing.raises_none (task.steps hsound) ?_
        rintro _ rfl ⟨-, hrefused⟩
        rcases hrefused rfl with hr | hr
        · exact h.not_refused hr
        · refine h.not_refusesBy (fun sub hsub ht => htrips ?_) hr
          have hat : sys.taskAt i = some task := by rw [System.taskAt_of_thread hi, htodo]; rfl
          exact ⟨i, env, task, sub, rfl, hat, hsub, hmade.symm ▸ ht⟩

end Raises

/-- In a run whose steps trip neither CHECK, and where the other merchants hold none of
the references, no step raises an integrity error: the table accepts each row that a step
saves. -/
theorem constraints_kept {db : Database} {choices : List Choice}
    (hforeign : ∀ t ∈ runFrom db choices, t.Foreign)
    (htrips : ∀ t ∈ runFrom db choices, ¬ t.Trips) :
    ∀ t ∈ runFrom db choices, t.before.raises t.label ≠ some .integrityError := by
  intro t ht
  have hstep : t = transition System.step t.before t.label := trace_step ht
  have hf := hforeign t ht
  have hn := htrips t ht
  rw [hstep] at hf hn
  exact System.raises_none (runFrom_sound ht) hf hn

def Others.Rowless (others : Others) : Prop :=
  others.paymentRefs = [] ∧ others.replacementRefs = [] ∧ others.retiredRefs = []

instance (others : Others) : Decidable others.Rowless := inferInstanceAs (Decidable (_ ∧ _ ∧ _))

theorem Transition.Foreign.of_rowless {t : Transition}
    (h : ∀ env ∈ t.label.env?, env.others.Rowless) :
    t.Foreign := by
  intro env henv ref _
  obtain ⟨hp, hr, ht⟩ := h env henv
  exact ⟨by simp [hp], by simp [hr], by simp [ht]⟩

theorem constraints_kept_beside :
    (∃ t ∈ runFrom downgradePending commitBeside,
      (t.after.db.sub?.bind (·.replacementCancelConfirmedAt)).isSome = true) ∧
    ∀ t ∈ runFrom downgradePending commitBeside,
      t.before.raises t.label ≠ some .integrityError := by
  have hrowless : ∀ t ∈ runFrom downgradePending commitBeside,
      ∀ env ∈ t.label.env?, env.others.Rowless := by decide +kernel
  have hharmless : ∀ t ∈ runFrom downgradePending commitBeside, Transition.harmless t = true := by
    decide
  have hpaid : ∀ t ∈ runFrom downgradePending commitBeside, ∀ sub ∈ t.before.db.sub?,
      sub.paymentProviderRef ≠ none := by decide +kernel
  refine ⟨by decide +kernel,
    constraints_kept (fun t ht => .of_rowless (hrowless t ht)) fun t ht => ?_⟩
  rintro ⟨i, env, task, sub, hlabel, hat, hsub, htrips⟩
  unfold Task.Trips at htrips
  split at htrips
  case h_1 refs =>
    exact Transition.harmless.not_refused (hharmless t ht) hlabel ⟨refs, rfl, hat⟩
  · exact hpaid t ht sub hsub htrips.1
  · exact htrips

def unreadable : Env := ({} : Answers).at 1500

/-- Between T1 and the refused cancel of one sweep, another re-issues the cancel and stores
that it was accepted; then the replacement cannot be read. -/
def lateRefusal : List Choice :=
  [.spawn .sync, .spawn .sync] ++ List.replicate 5 (.advance 0 refusesCancel) ++
    List.replicate 8 (.advance 1 acceptsCancel) ++
      [.advance 0 refusesCancel, .advance 0 unreadable]

theorem lateRefusal_raises : (∀ t ∈ runFrom downgradePending lateRefusal, t.Foreign) ∧
    Meets FreshIds (runFrom downgradePending lateRefusal) ∧
      ¬ ∀ t ∈ runFrom downgradePending lateRefusal,
        t.before.raises t.label ≠ some .integrityError := by
  have hrowless : ∀ t ∈ runFrom downgradePending lateRefusal,
      ∀ env ∈ t.label.env?, env.others.Rowless := by decide +kernel
  refine ⟨fun t ht => .of_rowless (hrowless t ht), by decide +kernel, fun h => ?_⟩
  exact h _ ((runFrom downgradePending lateRefusal).get_mem ⟨16, by decide⟩) (by decide +kernel)

end ReviewFlow.Billing
