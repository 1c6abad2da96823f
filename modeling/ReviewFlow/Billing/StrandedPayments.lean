import ReviewFlow.Billing.Frames
import ReviewFlow.Billing.System

/-!
# Payments of a replacement after the end of the row

Staff are to be told once of each replacement that is found paid on an ended row. The test for an
earlier row asks for any row of this action, whatever replacement it was written for, so they are
told of the first such replacement of the run and of no other.
-/

namespace ReviewFlow.Billing

open Savepoint Interleaving

/-- The replacement that a snapshot finds active and paid while the row is ended. -/
def stranded (settings : Settings) (db : Database) (entity : Dict)
    (invoices : Option (List Json)) : Option Ref :=
  db.sub?.bind fun sub =>
    if namesReplacement sub entity = true ∧ (entity.get "status").str? = some "active" ∧
        (currentPeriodPaid entity invoices).isSome = true ∧
        (settings.planFor (entity.get "plan_id")).isSome = true ∧ sub.status.Ended then
      sub.replacementProviderRef
    else none

/-- What an applied snapshot of the replacement does to the rows that tell staff. -/
def Tells (found : Option Ref) (db db' : Database) : Prop :=
  match found with
  | none => db'.paidAfterEnd = db.paidAfterEnd
  | some _ => db'.paidAfterEnd.length = max 1 db.paidAfterEnd.length

section Steps

variable {env : Env} {s : State} {sub : Subscription} {plan : Plan} {entity : Dict}
  {invoices : Option (List Json)} {started : Time}

theorem Tells.of_none {found : Option Ref} {db db' : Database} (hfound : found = none)
    (h : db'.paidAfterEnd = db.paidAfterEnd) : Tells found db db' := by
  rw [hfound]
  exact h

theorem stranded_names {ref : Ref} (h : stranded env.settings s.data entity invoices = some ref) :
    ∃ sub plan, s.data.sub? = some sub ∧ namesReplacement sub entity = true ∧
      (entity.get "status").str? = some "active" ∧
      (currentPeriodPaid entity invoices).isSome = true ∧
      env.settings.planFor (entity.get "plan_id") = some plan ∧ sub.status.Ended := by
  obtain ⟨sub, hsub, hfound⟩ := Option.bind_eq_some_iff.mp h
  split at hfound
  · rename_i hguards
    obtain ⟨hnames, hactive, hpaid, hplan, hended⟩ := hguards
    obtain ⟨plan, hplan⟩ := Option.isSome_iff_exists.mp hplan
    exact ⟨sub, plan, hsub, hnames, hactive, hpaid, hplan, hended⟩
  · cases hfound

theorem auditPaidAfterEnd_spec :
    Program.wp env (auditPaidAfterEnd sub plan)
      (fun _ t => t.data.paidAfterEnd.length = max 1 s.data.paidAfterEnd.length)
      (fun _ _ => False) s := by
  unfold auditPaidAfterEnd
  rw [Program.wp_bind, Program.wp_get, Program.wp_whenever]
  constructor
  · intro hnone
    have hempty : s.data.paidAfterEnd = [] := by
      apply List.filter_eq_nil_iff.mpr
      intro row hrow
      simpa using hnone row hrow
    rw [wp_audit]
    refine ⟨fun _ => ?_, fun h => absurd (fun _ hu => nomatch hu) h⟩
    unfold Database.paidAfterEnd at hempty ⊢
    simp [State.audited, List.filter_append, hempty]
  · intro hsome
    have hpos : 0 < s.data.paidAfterEnd.length := by
      by_contra hzero
      apply hsome
      intro row hrow
      have hempty : s.data.paidAfterEnd = [] := List.length_eq_zero_iff.mp (by omega)
      simpa using List.filter_eq_nil_iff.mp hempty row hrow
    omega

theorem applyReplacementSnapshot_quiet
    (hfound : stranded env.settings s.data entity invoices = none) :
    Program.wp env (applyReplacementSnapshot entity invoices started)
      (fun _ t => t.data.paidAfterEnd = s.data.paidAfterEnd) (fun _ _ => True) s := by
  have hview := paidAfterEnd_apart
  unfold applyReplacementSnapshot
  refine Program.returns_savepoint ?_
  rw [Program.returns, Program.wp_bind, wp_lockSubscription]
  refine ⟨fun sub hsub => ?_, fun _ => trivial⟩
  rw [Program.wp_bind, Program.wp_ask]
  have hkeeps : ∀ {m : Prog SnapshotResult}, Program.Keeps Database.paidAfterEnd m →
      Program.wp env m (fun _ t => t.data.paidAfterEnd = s.data.paidAfterEnd) (fun _ _ => True) s :=
    fun hm => Program.wp_mono (hm.wp env s) (fun _ _ h => h) fun _ _ _ => trivial
  unfold replacementLocked
  cases hstatus : (entity.get "status").str? with
  | none => exact rfl
  | some status =>
    dsimp only
    rw [Program.wp_ite]
    refine ⟨fun _ => rfl, fun hnames => ?_⟩
    rw [Program.wp_ite]
    constructor
    · intro hactive
      subst hactive
      unfold replacementActive
      rw [Program.wp_ite]
      refine ⟨fun _ => rfl, fun hpaid => ?_⟩
      cases hplan : env.settings.planFor (entity.get "plan_id") with
      | none => exact rfl
      | some plan =>
        dsimp only
        rw [Program.wp_ite]
        constructor
        · intro hended
          -- all guards hold, so the snapshot found the replacement
          have hpaid : (currentPeriodPaid entity invoices).isSome = true := by
            simpa [Option.isSome_iff_ne_none] using hpaid
          have hguards : namesReplacement sub entity = true ∧
            (entity.get "status").str? = some "active" ∧
              (currentPeriodPaid entity invoices).isSome = true ∧
              (env.settings.planFor (entity.get "plan_id")).isSome = true ∧ sub.status.Ended :=
            ⟨by simpa using hnames, hstatus, hpaid, by rw [hplan]; rfl, hended⟩
          unfold stranded at hfound
          rw [hsub, Option.bind_some, if_pos hguards] at hfound
          rw [namesReplacement, hfound] at hnames
          exact absurd rfl hnames
        · intro _
          rw [Program.wp_ite]
          exact ⟨fun _ => rfl, fun _ => hkeeps (hview.switchToReplacement _ _ _ _ _ _)⟩
    · intro _
      rw [Program.wp_ite]
      constructor
      · intro _
        rw [Program.wp_ite]
        exact ⟨fun _ => hkeeps (hview.clearFailedCommitted sub), fun _ => rfl⟩
      · intro _
        exact hkeeps (hview.replacementInactive _ _ _)

theorem applyReplacementSnapshot_tells {ref : Ref}
    (hfound : stranded env.settings s.data entity invoices = some ref) :
    Program.wp env (applyReplacementSnapshot entity invoices started)
      (fun _ t => t.data.paidAfterEnd.length = max 1 s.data.paidAfterEnd.length)
      (fun _ _ => False) s := by
  obtain ⟨sub, plan, hsub, hnames, hactive, hpaid, hplan, hended⟩ := stranded_names hfound
  unfold applyReplacementSnapshot
  rw [Program.wp_savepoint, Program.wp_bind, wp_lockSubscription]
  refine ⟨fun locked hlocked => ?_, fun hno => absurd (hno.symm.trans hsub) (by simp)⟩
  obtain rfl : sub = locked := Option.some.inj (hsub.symm.trans hlocked)
  rw [Program.wp_bind, Program.wp_ask]
  have hpaid' : ¬ (currentPeriodPaid entity invoices).isNone = true := by
    rw [Option.isNone_iff_eq_none]
    exact Option.isSome_iff_ne_none.mp hpaid
  unfold replacementLocked
  rw [hactive]
  dsimp only
  rw [if_neg (by simp [hnames]), if_pos rfl]
  unfold replacementActive
  rw [if_neg hpaid', hplan]
  dsimp only
  rw [if_pos hended, Program.wp_bind]
  exact Program.wp_mono auditPaidAfterEnd_spec (fun _ _ h => h) fun _ _ h => h

theorem replacementApply_tells {ref : Ref} :
    Program.wp env (replacementApply ref entity invoices started)
      (fun _ t => Tells (stranded env.settings s.data entity invoices) s.data t.data)
      (fun _ t => Tells (stranded env.settings s.data entity invoices) s.data t.data) s := by
  have hmark : ∀ {c : Prop} [Decidable c] (filter : BillingEvent → Bool) (t : State),
      Program.wp env (Program.whenever c (markEvents filter))
        (fun _ u => u.data.paidAfterEnd = t.data.paidAfterEnd) (fun _ _ => False) t := by
    intro c _ filter t
    rw [Program.wp_whenever]
    exact ⟨fun _ => rfl, fun _ => rfl⟩
  unfold replacementApply
  rw [Program.wp_savepoint, Program.wp_bind]
  cases hfound : stranded env.settings s.data entity invoices with
  | none =>
    refine Program.wp_mono (applyReplacementSnapshot_quiet hfound) ?_ fun _ _ _ => rfl
    intro r t ht
    exact Program.wp_mono (hmark _ t) (fun _ _ hu => hu.trans ht) fun _ _ h => h.elim
  | some ref =>
    refine Program.wp_mono (applyReplacementSnapshot_tells hfound) ?_ fun _ _ h => h.elim
    intro r t ht
    refine Program.wp_mono (hmark _ t) (fun _ u hu => ?_) fun _ _ h => h.elim
    change u.data.paidAfterEnd.length = _
    rw [hu, ht]

end Steps

def Task.stranded (settings : Settings) (db : Database) : Task → Option Ref
  | .replacementApply _ _ entity invoices => Billing.stranded settings db entity invoices
  | _ => none

/-- Every other step of a task leaves what is apart from the row and the ledger. -/
theorem Task.step_keeps {β : Type} {f : Database → β} (h : ApartFromLedger f) {task : Task}
    (hno : ∀ ref started entity invoices, task ≠ .replacementApply ref started entity invoices) :
    Program.Keeps f task.step := by
  have hreissue : Program.Keeps f Billing.reissueRead :=
    h.firstSubscription.bind fun _ => Program.keeps_pure _
  cases task with
  | replacementRead => exact h.firstSubscription.bind fun _ => Program.keeps_pure _
  | replacementFetch ref oldStatus oldStart =>
    exact h.timezoneNow.bind fun _ => (h.orNone (h.razorpay _)).bind fun _ => Program.keeps_pure _
  | replacementInvoices ref oldStatus oldStart started entity =>
    exact (h.orNone (h.fetchInvoicesIfNeeded _ _ _ _)).bind fun _ => Program.keeps_pure _
  | replacementApply ref started entity invoices =>
    exact absurd rfl (hno ref started entity invoices)
  | commitFirst => exact h.commitT1.bind fun _ => Program.keeps_pure _
  | commitCancel refs =>
    simp only [Task.step]
    split
    · exact Program.keeps_raise _
    · exact (h.cancelOutcome _).bind fun _ => Program.keeps_pure _
  | commitSecond refs refused => exact (h.commitT2 _ _).bind fun _ => Program.keeps_pure _
  | reissueRead => exact hreissue.bind fun _ => Program.keeps_pure _
  | reissueCancel refs =>
    simp only [Task.step]
    split
    · exact Program.keeps_raise _
    · exact (h.orNone (h.razorpay _)).bind fun _ => Program.keeps_pure _
  | reissueConfirm refs =>
    have hconfirm : Program.Keeps f (Billing.reissueConfirm refs) :=
      (h.lockSubscription.bind fun _ => (h.storeConfirmed _).whenever).savepoint
    exact hconfirm.bind fun _ => Program.keeps_pure _
  | mainRead => exact h.firstSubscription.bind fun _ => Program.keeps_pure _
  | mainFetch ref oldStatus oldStart =>
    exact h.timezoneNow.bind fun _ => (h.orNone (h.razorpay _)).bind fun _ => Program.keeps_pure _
  | mainInvoices ref oldStatus oldStart started entity =>
    exact (h.orNone (h.fetchInvoicesIfNeeded _ _ _ _)).bind fun _ => Program.keeps_pure _
  | mainApply ref started entity invoices =>
    have happly : Program.Keeps f (Billing.mainApply entity invoices started) :=
      ((h.applySnapshot _ _ _ _).bind fun _ => h.firstSubscription.bind fun _ =>
        (h.markEvents _).whenever).savepoint
    exact happly.bind fun _ => Program.keeps_pure _
  | retiredRead => exact h.firstSubscription.bind fun _ => Program.keeps_pure _
  | retiredFetch ref kind => exact (h.orNone (h.razorpay _)).bind fun _ => Program.keeps_pure _
  | retiredCancel ref => exact (h.orNone (h.razorpay _)).bind fun _ => Program.keeps_pure _
  | retiredClear ref => exact (h.clearRetired ref).bind fun _ => Program.keeps_pure _
  | dunning => exact h.dunningTransaction.bind fun _ => Program.keeps_pure _
  | owedRead =>
    have howed : Program.Keeps f Billing.owedRead :=
      h.firstSubscription.bind fun _ => Program.keeps_pure _
    exact howed.bind fun _ => Program.keeps_pure _
  | owedCancel ref => exact (h.orNone (h.razorpay _)).bind fun _ => Program.keeps_pure _
  | owedStore ref status => exact (h.updateProviderStatus _ _).bind fun _ => Program.keeps_pure _
  | webhookLookup ref eventId eventType =>
    exact h.firstSubscription.bind fun _ => Program.keeps_pure _
  | webhookInsert ref eventId eventType =>
    exact (h.insertEvent _ _ _).bind fun _ => Program.keeps_pure _

theorem OwnerRequest.program_keeps {β : Type} {f : Database → β} (h : ApartFromLedger f)
    (request : OwnerRequest) : Program.Keeps f request.program := by
  cases request with
  | checkout actor planId acknowledged =>
    exact (h.startCheckout actor planId acknowledged).bind fun _ => Program.keeps_pure _
  | cancel actor => exact (h.cancelSubscription actor).bind fun _ => Program.keeps_pure _
  | cancelReplacement actor => exact (h.cancelReplacement actor).bind fun _ => Program.keeps_pure _

theorem Task.step_tells (task : Task) (env : Env) (s : State) :
    Tells (task.stranded env.settings s.data) s.data (task.step.run env s).2.data := by
  by_cases happly : ∃ ref started entity invoices, task =
    .replacementApply ref started entity invoices
  · obtain ⟨ref, started, entity, invoices, rfl⟩ := happly
    apply wp_state
      (Q := fun t => Tells (Billing.stranded env.settings s.data entity invoices) s.data t.data)
    unfold Task.step
    rw [Program.wp_bind]
    exact Program.wp_mono replacementApply_tells (fun _ _ h => h) fun _ _ h => h
  · have hkept : (task.step.run env s).2.data.paidAfterEnd = s.data.paidAfterEnd := by
      apply Task.step_keeps paidAfterEnd_apart
      intro ref started entity invoices h
      exact happly ⟨ref, started, entity, invoices, h⟩
    apply Tells.of_none _ hkept
    cases task with
    | replacementApply ref started entity invoices =>
      exact absurd ⟨ref, started, entity, invoices, rfl⟩ happly
    | _ => rfl

def Transition.stranded (t : Transition) : Option Ref :=
  match t.label with
  | .advance i env =>
    (t.before.threads[i]?.bind (·.todo.head?)).bind (·.stranded env.settings t.before.db)
  | _ => none

theorem System.step_tells (sys : System) (choice : Choice) :
    Tells (Transition.stranded (transition System.step sys choice)) sys.db
    (sys.step choice).db := by
  cases choice with
  | spawn job => exact Tells.of_none rfl rfl
  | crash i => exact Tells.of_none rfl rfl
  | request request env commits =>
    apply Tells.of_none rfl
    cases commits with
    | true => exact request.program_keeps paidAfterEnd_apart env ⟨sys.db, .empty⟩
    | false => rfl
  | advance i env =>
    unfold System.step System.advance Transition.stranded transition
    dsimp only
    cases hthread : sys.threads[i]? with
    | none => exact Tells.of_none rfl rfl
    | some thread =>
      unfold Thread.advance
      cases htodo : thread.todo with
      | nil => exact Tells.of_none (by simp [htodo]) (by simp [htodo])
      | cons task rest =>
        have htells := task.step_tells env ⟨sys.db, thread.journal⟩
        simpa [htodo] using htells

section Runs

variable {sys : System} {choices : List Choice}

def Transition.told (t : Transition) : ℕ :=
  t.after.db.paidAfterEnd.length - t.before.db.paidAfterEnd.length

def toldOf (ref : Ref) (ts : List Transition) : ℕ :=
  ((ts.filter fun t => t.stranded = some ref).map Transition.told).sum

def OneStranded (ts : List Transition) : Prop :=
  ∀ t ∈ ts, ∀ u ∈ ts, ∀ ref ∈ t.stranded, ∀ ref' ∈ u.stranded, ref = ref'

theorem told_after (hpos : 0 < sys.db.paidAfterEnd.length) (ref : Ref) :
    toldOf ref (trace System.step sys choices) = 0 := by
  have hstep : ∀ (sys : System) (choice : Choice), 0 < sys.db.paidAfterEnd.length →
      (sys.step choice).db.paidAfterEnd.length = sys.db.paidAfterEnd.length := by
    intro sys choice hpos
    have htells := sys.step_tells choice
    unfold Tells at htells
    split at htells
    · rw [htells]
    · omega
  have hbefore : ∀ t ∈ trace System.step sys choices, 0 < t.before.db.paidAfterEnd.length :=
    reachable_invariant (I := fun sys : System => 0 < sys.db.paidAfterEnd.length) hpos
      fun sys choice h => by rw [hstep sys choice h]; exact h
  apply List.sum_eq_zero
  intro n hn
  obtain ⟨t, ht, rfl⟩ := List.mem_map.mp hn
  have ht := (List.mem_filter.mp ht).1
  have hsame := hstep t.before t.label (hbefore t ht)
  have hafter : t.after = t.before.step t.label :=
    congrArg Interleaving.Transition.after (trace_step ht)
  unfold Transition.told
  rw [hafter, hsame]
  omega

theorem toldOf_cons (ref : Ref) (t : Transition) (ts : List Transition) :
    toldOf ref (t :: ts) = (if t.stranded = some ref then t.told else 0) + toldOf ref ts := by
  unfold toldOf
  by_cases h : t.stranded = some ref
  · simp [h]
  · simp [h]

theorem OneStranded.cons_none {t : Transition} {ts : List Transition} (h : t.stranded = none) :
    OneStranded (t :: ts) ↔ OneStranded ts := by
  simp [OneStranded, h]

theorem OneStranded.cons_some {t : Transition} {ts : List Transition} {ref : Ref}
    (h : t.stranded = some ref) :
    OneStranded (t :: ts) ↔ ∀ u ∈ ts, ∀ ref' ∈ u.stranded, ref' = ref := by
  constructor
  · intro hone u hu ref' href'
    exact hone u (List.mem_cons_of_mem _ hu) t List.mem_cons_self ref' href' ref h
  · intro hsame
    have hall : ∀ u ∈ t :: ts, ∀ ref' ∈ u.stranded, ref' = ref := by
      intro u hu ref' href'
      rcases List.mem_cons.mp hu with rfl | hu
      · exact Option.some.inj (href'.symm.trans h)
      · exact hsame u hu ref' href'
    intro u hu v hv ref₁ h₁ ref₂ h₂
    exact (hall u hu ref₁ h₁).trans (hall v hv ref₂ h₂).symm

/-- From a state without such a row: each replacement found has its one row if and only if no two
are found. -/
theorem told_iff (hnone : sys.db.paidAfterEnd = []) :
    (∀ ref, (∃ t ∈ trace System.step sys choices, Transition.stranded t = some ref) →
        toldOf ref (trace System.step sys choices) = 1) ↔
      OneStranded (trace System.step sys choices) := by
  induction choices generalizing sys with
  | nil => simp [trace, OneStranded]
  | cons choice choices ih =>
    rw [trace]
    have htells := sys.step_tells choice
    cases hfound : Transition.stranded (transition System.step sys choice) with
    | none =>
      rw [hfound] at htells
      rw [OneStranded.cons_none hfound, ← ih (Eq.trans htells hnone)]
      simp [toldOf_cons, hfound]
    | some ref =>
      rw [hfound] at htells
      have hrow : (sys.step choice).db.paidAfterEnd.length = 1 := by
        change _ = max 1 _ at htells
        simpa [hnone] using htells
      have hfirst : Transition.told (transition System.step sys choice) = 1 := by
        change (sys.step choice).db.paidAfterEnd.length - sys.db.paidAfterEnd.length = 1
        simp [hrow, hnone]
      have hrest : ∀ ref', toldOf ref' (trace System.step (sys.step choice) choices) = 0 :=
        told_after (by omega)
      rw [OneStranded.cons_some hfound]
      constructor
      · intro h u hu ref' href'
        have hone := h ref' ⟨u, List.mem_cons_of_mem _ hu, href'⟩
        rw [toldOf_cons, hrest, hfound] at hone
        by_contra hne
        rw [if_neg fun heq => hne (Option.some.inj heq).symm] at hone
        cases hone
      · rintro h ref' ⟨u, hu, href'⟩
        have hsame : ref' = ref := by
          rcases List.mem_cons.mp hu with rfl | hu
          · exact Option.some.inj (href'.symm.trans hfound)
          · exact h u hu ref' href'
        rw [toldOf_cons, hrest, hsame, if_pos hfound, hfirst]

end Runs

/-- In every run that starts without such a row, each replacement that is found paid on an ended row
has exactly one row written for it, however often it is found, if and only if no other one is. -/
theorem told_of_each_stranded (db : Database) (choices : List Choice)
    (hnone : db.paidAfterEnd = []) :
    (∀ ref, (∃ t ∈ runFrom db choices, t.stranded = some ref) →
      toldOf ref (runFrom db choices) = 1) ↔
      OneStranded (runFrom db choices) :=
  @told_iff ⟨db, []⟩ choices hnone

def refD : Ref := ⟨"sub_d", by decide⟩

def strandedRow : Database :=
  rowless.withRow
    { plan := starter
      status := .cancelled
      currentPeriodStart := some (seconds 1000)
      currentPeriodEnd := some (seconds 2000)
      paymentProviderRef := some refA
      replacementProviderRef := some refB
      replacementPlan := some growth
      replacementExpiresAt := some (seconds 1700) } (by decide)

def foundPaid (thread : ℕ) (ref : Ref) : List Choice :=
  let paid : Answers :=
    { fetch := fun r =>
        if r = ref then .ok (entityOf ref.val "plan_g" "active" 3000 4000) else .error .unavailable
      invoices := .ok [invoiceOf ref.val "pay_2" 3000 4000] }
  .spawn .sync :: List.replicate 4 (.advance thread (paid.at 3100))

/-- The replacement is cancelled at the provider, a new checkout abandons it, and a sync finds the
new subscription paid and the old replacement ended. -/
def resubscribed : List Choice :=
  let answers : Answers :=
    { fetch := fun r =>
        if r = refC then .ok (entityOf "sub_c" "plan_s" "active" 4000 5000)
        else if r = refB then .ok (entityOf "sub_b" "plan_g" "cancelled" 3000 4000)
        else .ok (entityOf "sub_a" "plan_s" "cancelled" 1000 2000)
      create := .ok (entityOf "sub_c" "plan_s" "created" 0 0)
      invoices := .ok [invoiceOf "sub_c" "pay_3" 4000 5000] }
  [.request (.checkout 7 1 false) (answers.at 4000) true, .spawn .sync] ++
    List.replicate 8 (.advance 1 (answers.at 4100))

/-- A change of plan starts another replacement, and the subscription ends before it is paid. -/
def endedAgain : List Choice :=
  let refused : Answers :=
    { fetch := fun _ => .ok (entityOf "sub_c" "plan_s" "active" 4000 5000)
      create := .ok (entityOf "sub_d" "plan_g" "created" 0 0) }
  let ended : Answers :=
    { fetch := fun r =>
        if r = refC then .ok (entityOf "sub_c" "plan_s" "cancelled" 4000 5000)
        else .error .unavailable }
  [.request (.checkout 7 2 true) (refused.at 4200) true, .spawn .sync] ++
    List.replicate 6 (.advance 2 (ended.at 4300))

/-- In the second lifecycle of a row a replacement is found paid after the end, and staff are not
told. -/
theorem second_stranded_untold :
    (∃ t ∈ runFrom strandedRow (foundPaid 0 refB ++ resubscribed ++ endedAgain ++ foundPaid 3 refD),
        t.stranded = some refD) ∧
      toldOf refD (runFrom strandedRow
      (foundPaid 0 refB ++ resubscribed ++ endedAgain ++ foundPaid 3 refD)) = 0 := by
  constructor
  · exact ⟨_, List.get_mem _ ⟨27, by decide⟩, rfl⟩
  · decide +kernel

/-- The same replacement found paid by two syncs has its one row. -/
theorem told_of_repeated_sync :
    toldOf refB (runFrom strandedRow (foundPaid 0 refB ++ foundPaid 1 refB)) = 1 := by
  refine
    (told_of_each_stranded strandedRow (foundPaid 0 refB ++ foundPaid 1 refB) rfl).mpr ?_ refB ?_
  · have hfound : ∀ t ∈ runFrom strandedRow (foundPaid 0 refB ++ foundPaid 1 refB),
        t.stranded.all (fun ref => ref = refB) = true := by decide +kernel
    have hsame : ∀ t ∈ runFrom strandedRow (foundPaid 0 refB ++ foundPaid 1 refB),
        ∀ ref ∈ t.stranded, ref = refB := by
      intro t ht ref href
      have hall := hfound t ht
      rw [Option.mem_def.mp href] at hall
      exact of_decide_eq_true hall
    exact fun t ht u hu ref href ref' href' =>
      (hsame t ht ref href).trans (hsame u hu ref' href').symm
  · exact ⟨_, List.get_mem _ ⟨4, by decide⟩, rfl⟩

end ReviewFlow.Billing
