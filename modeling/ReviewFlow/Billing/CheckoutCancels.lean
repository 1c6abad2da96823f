import ReviewFlow.Billing.Reactivation
import ReviewFlow.Billing.System

/-!
# The immediate cancels of a checkout

`start_checkout` cancels the provider subscription of the row only on the reset
paths. All its other parts are `Uncancelling`, and the specifications here say
exactly when the cancel is made, from the row, the settings and the answers.
-/

namespace ReviewFlow.Billing

open Savepoint

def Call.IsCancel (call : Call) : Prop :=
  ∃ ref answer, call = .subscription (.cancelSubscription ref false) answer

def NoCancels (a b : Journal) : Prop := ∀ call ∈ b.calls, call.IsCancel → call ∈ a.calls

instance : IsPreorder Journal NoCancels where
  refl _ _ hc _ := hc
  trans _ _ _ h h' call hc hi := h call (h' call hc hi) hi

abbrev Uncancelling {α : Type} (m : Prog α) : Prop := Program.Records NoCancels m

/-- A relation that the clock keeps, and every call that is no immediate cancel. -/
class Uncancels (R : Journal → Journal → Prop) : Prop extends IsPreorder Journal R where
  ticked : ∀ j n, R j { j with ticks := n }
  called : ∀ j {call}, ¬ call.IsCancel → R j { j with calls := j.calls ++ [call] }

instance : Uncancels NoCancels where
  ticked _ _ _ hc _ := hc
  called _ _ h c hc hi := by
    rcases List.mem_append.mp hc with hc | hc
    · exact hc
    · obtain rfl := List.mem_singleton.mp hc
      exact absurd hi h

section Uncancelling

variable {R : Journal → Journal → Prop} [Uncancels R]

@[simp] theorem uncancelling_timezoneNow : Program.Records R timezoneNow :=
  fun _ _ => Uncancels.ticked _ _

theorem uncancelling_razorpay {request : Request}
    (h : ∀ ref, request ≠ .cancelSubscription ref false) :
    Program.Records R (razorpay request) := by
  intro env s
  have hn : ∀ answer, ¬ (Call.subscription request answer).IsCancel := by
    rintro answer ⟨ref, _, he⟩
    cases he
    exact h ref rfl
  unfold razorpay
  dsimp only
  split <;> exact Uncancels.called _ (hn _)

@[simp] theorem uncancelling_razorpay_fetch (ref : Ref) :
    Program.Records R (razorpay (.fetchSubscription ref)) := uncancelling_razorpay (by simp)

@[simp] theorem uncancelling_razorpay_create (plan : Option String) (startAt expireBy : Option ℤ) :
    Program.Records R (razorpay (.createSubscription plan startAt expireBy)) :=
  uncancelling_razorpay (by simp)

@[simp] theorem uncancelling_razorpay_update (ref : Ref) (plan : Option String) (at_ : String) :
    Program.Records R (razorpay (.updateSubscription ref plan at_)) :=
  uncancelling_razorpay (by simp)

@[simp] theorem uncancelling_razorpayInvoices (ref : Ref) :
    Program.Records R (razorpayInvoices ref) := by
  intro env s
  have hn : ∀ answer, ¬ (Call.invoices ref answer).IsCancel := by
    rintro answer ⟨_, _, he⟩
    cases he
  unfold razorpayInvoices
  dsimp only
  split <;> exact Uncancels.called _ (hn _)

@[simp] theorem uncancelling_rejectedIsUnavailable {α : Type} {m : Prog α}
    (h : Program.Records R m) :
    Program.Records R (rejectedIsUnavailable m) := by
  unfold rejectedIsUnavailable
  refine Program.records_handle h fun e => ?_
  split <;> simp

@[simp] theorem uncancelling_orNone {α : Type} {m : Prog α} (h : Program.Records R m) :
    Program.Records R (orNone m) := by
  unfold orNone
  refine Program.records_handle (by simp [h]) fun e => ?_
  split <;> simp

@[simp] theorem uncancelling_firstSubscription : Program.Records R firstSubscription := by
  simp [firstSubscription]

@[simp] theorem uncancelling_lockSubscription : Program.Records R lockSubscription := by
  simp [lockSubscription]

@[simp] theorem uncancelling_saveSubscription (sub : Subscription) :
    Program.Records R (saveSubscription sub) := by
  simp [saveSubscription]

@[simp] theorem uncancelling_audit (action : AuditAction) (actor : Option ℕ) (metadata : Dict) :
    Program.Records R (audit action actor metadata) := by
  simp [audit]

@[simp] theorem uncancelling_recordPaid (paid : Option Dict) (wasPastDue : Bool) :
    Program.Records R (recordPaid paid wasPastDue) := by
  unfold recordPaid
  split <;> simp [recordPayment]

@[simp] theorem uncancelling_resetUsagePeriod (sub : Subscription) :
    Program.Records R (resetUsagePeriod sub) := by
  simp [resetUsagePeriod]

@[simp] theorem uncancelling_refetchReplacement (sub : Subscription) :
    Program.Records R (refetchReplacement sub) := by
  unfold refetchReplacement
  split <;> simp

@[simp] theorem uncancelling_markEventsProcessed (ref : Option Ref) :
    Program.Records R (markEventsProcessed ref) := by
  simp [markEventsProcessed, markEvents]

@[simp] theorem uncancelling_retireReplacement (sub : Subscription)
    (entity : Dict) (reason : String)
    (actor : Option ℕ) : Program.Records R (retireReplacement sub entity reason actor) :=
  Program.records_bind Program.records_ask fun _ => by simp

@[simp] theorem uncancelling_abandonUnlessActive (sub : Subscription) (reason : String)
    (abandonable : Dict → Bool) (entity : Option Dict) :
    Program.Records R (abandonUnlessActive sub reason abandonable entity) := by
  unfold abandonUnlessActive
  split
  · simp
  · refine Program.records_bind ?_ fun r => ?_
    · cases entity <;> simp [entityOrRefetch]
    · split
      · simp
      · repeat' split
        all_goals simp

@[simp] theorem uncancelling_applyActive (sub : Subscription) (entity : Dict)
    (invoices : Option (List Json)) (plan : Plan) (actor : Option ℕ) (effective : Option String) :
    Program.Records R (applyActive sub entity invoices plan actor effective) := by
  have haudit : ∀ effective, Program.Records R (auditActivation sub plan actor effective) := by
    intro effective
    unfold auditActivation
    dsimp only
    split <;> simp [auditPlanChange]
  unfold applyActive
  split
  · simp
  · dsimp only
    split
    · simp [auditPlanChange]
    · split <;> simp [haudit]

@[simp] theorem uncancelling_abandonAfter (r : Applied) (reason : String) :
    Program.Records R (abandonAfter r reason) := by
  unfold abandonAfter
  split <;> simp

@[simp] theorem uncancelling_applyStatus (sub : Subscription) (entity : Dict)
    (invoices : Option (List Json)) (plan : Plan) (actor : Option ℕ)
    (status : String) (now : Time) :
    Program.Records R (applyStatus sub entity invoices plan actor status now) := by
  have hfailed : Program.Records R (applyPaymentFailed sub now) := by
    unfold applyPaymentFailed
    split <;> simp
  have hterminal : Program.Records R (applyTerminal sub now) := by
    unfold applyTerminal
    split <;> simp
  unfold applyStatus
  repeat' split
  all_goals simp [hfailed, hterminal]

@[simp] theorem uncancelling_applySnapshot (entity : Dict) (invoices : Option (List Json))
    (started : Time) (actor : Option ℕ) :
    Program.Records R (applySnapshot entity invoices started actor) := by
  have hstore : ∀ r status, Program.Records R (storeSnapshot r status started) := fun r status =>
    Program.records_bind (by simp) fun _ => Program.records_bind (by simp) (by simp)
  have hlocked : ∀ sub now settings,
      Program.Records R (snapshotLocked sub entity invoices started actor now settings) := by
    intro sub now settings
    unfold snapshotLocked
    repeat' split
    all_goals simp [hstore]
  exact Program.records_savepoint (Program.records_bind (by simp) fun _ => by simp [hlocked])

@[simp] theorem uncancelling_fetchInvoicesIfNeeded (ref : Ref) (oldStatus : Status)
    (oldStart : Option Time) (entity : Dict) :
    Program.Records R (fetchInvoicesIfNeeded ref oldStatus oldStart entity) := by
  unfold fetchInvoicesIfNeeded
  split <;> simp

@[simp] theorem uncancelling_fetchProviderEntity (ref : Ref) :
    Program.Records R (fetchProviderEntity ref) := by
  unfold fetchProviderEntity
  refine Program.records_bind (by simp) fun _ => ?_
  split <;> simp

@[simp] theorem uncancelling_reconcileRead (sub : Subscription) (ref : Ref) :
    Program.Records R (reconcileRead sub ref) :=
  Program.records_bind (by simp) fun _ => Program.records_bind (by simp) fun _ => by simp

@[simp] theorem uncancelling_reconcile (sub : Subscription) (ref : Ref) :
    Program.Records R (reconcile sub ref) :=
  Program.records_bind (by simp) fun _ => Program.records_bind (by simp) fun _ => by simp

@[simp] theorem uncancelling_usableCreated (entity : Dict) (current : Option Ref) :
    Program.Records R (usableCreated entity current) := by
  unfold usableCreated
  repeat' split
  all_goals simp

@[simp] theorem uncancelling_createProviderSubscription (plan : Plan) :
    Program.Records R (createProviderSubscription plan) := by
  simp [createProviderSubscription]

@[simp] theorem uncancelling_clearReplacementBeforeReset (sub : Subscription) :
    Program.Records R (clearReplacementBeforeReset sub) := by
  unfold clearReplacementBeforeReset
  split
  · simp
  · refine Program.records_bind (by simp) fun _ => ?_
    split <;> simp

@[simp] theorem uncancelling_storeNewProviderSubscription (sub : Subscription) (plan : Plan)
    (created : Created) (actor : ℕ) :
    Program.Records R (storeNewProviderSubscription sub plan created actor) := by
  simp [storeNewProviderSubscription]

@[simp] theorem uncancelling_createReplacementSubscription (plan : Plan) (terms : Terms)
    (current : Option Ref) :
    Program.Records R (createReplacementSubscription plan terms current) := by
  unfold createReplacementSubscription
  split <;> simp

@[simp] theorem uncancelling_createReplacement (sub : Subscription) (plan : Plan)
    (kind : ReplacementKind) (actor : ℕ) (acknowledged : Bool) (terms : Terms) :
    Program.Records R (createReplacement sub plan kind actor acknowledged terms) := by
  unfold createReplacement
  repeat' split
  · simp
  · simp
  · have hstore : ∀ ref expiresAt,
        Program.Records R (storeReplacement sub plan kind ref expiresAt actor) :=
          fun ref expiresAt =>
      Program.records_savepoint (by simp)
    exact Program.records_bind (by simp) fun _ => by simp [hstore]

@[simp] theorem uncancelling_startPlanChangeReplacement (sub : Subscription) (plan : Plan)
    (kind : ReplacementKind) (actor : ℕ) (acknowledged : Bool) (settings : Settings) :
    Program.Records R (startPlanChangeReplacement sub plan kind actor acknowledged settings) := by
  unfold startPlanChangeReplacement
  split
  · simp
  · refine Program.records_bind (by simp) fun _ => ?_
    split <;> simp

@[simp] theorem uncancelling_applyUpgrade (sub : Subscription) (ref : Ref) (entity : Dict)
    (started : Time) (actor : ℕ) :
    Program.Records R (applyUpgrade sub ref entity started actor) := by
  unfold applyUpgrade
  refine Program.records_savepoint ?_
  split
  · simp
  · exact Program.records_bind (by simp) (by simp)

@[simp] theorem uncancelling_checkoutUpdated (sub : Subscription) (plan : Plan) (ref : Ref)
    (upgrade : Bool) (actor : ℕ) (acknowledged : Bool) (started : Time)
    (answer : Except ProviderFailure Dict) (settings : Settings) :
    Program.Records R
    (checkoutUpdated sub plan ref upgrade actor acknowledged started answer settings) := by
  unfold checkoutUpdated
  dsimp only
  split
  · repeat' split
    all_goals simp
  · split
    · simp
    · exact Program.records_bind (Program.records_savepoint (by simp)) (by simp)

@[simp] theorem uncancelling_updateOrRefusal (ref : Ref) (plan : Plan) (changeAt : String) :
    Program.Records R (updateOrRefusal ref plan changeAt) := by
  unfold updateOrRefusal
  refine Program.records_handle (by simp) fun e => ?_
  split <;> simp

@[simp] theorem uncancelling_checkoutActive (sub : Subscription) (plan : Plan) (actor : ℕ)
    (acknowledged : Bool) : Program.Records R (checkoutActive sub plan actor acknowledged) := by
  unfold checkoutActive
  repeat' split
  any_goals simp
  exact Program.records_bind (by simp) fun _ => by simp

end Uncancelling

def Cancelled (calls : List Call) (ref : Ref) : Prop :=
  ∃ answer, .subscription (.cancelSubscription ref false) answer ∈ calls

theorem NoCancels.cancelled {a b : Journal} {ref : Ref} (h : NoCancels a b) (hab : a ≤ b) :
    Cancelled b.calls ref ↔ Cancelled a.calls ref :=
  ⟨fun ⟨answer, hc⟩ => ⟨answer, h _ hc ⟨ref, answer, rfl⟩⟩,
    fun ⟨answer, hc⟩ => ⟨answer, Journal.mem_of_le hab hc⟩⟩

section Resets

variable {env : Env} {s : State} {ref : Ref}

theorem Uncancelling.cancelled {α : Type} {m : Prog α} (env : Env) (s : State) (ref : Ref)
    (h : Uncancelling m) :
    Program.wp env m (fun _ t => Cancelled t.journal.calls ref ↔ Cancelled s.journal.calls ref)
      (fun _ t => Cancelled t.journal.calls ref ↔ Cancelled s.journal.calls ref) s :=
  Program.wp_mono (Program.wp_grows h.wp) (fun _ _ ht => ht.1.cancelled ht.2)
    (fun _ _ ht => ht.1.cancelled ht.2)

/-- `_clear_replacement_before_reset` succeeds after `calls` calls: no replacement is
pending, or it is given up and the retired slot takes it. -/
def Clearable (env : Env) (sub : Subscription) (calls : ℕ) : Prop :=
  sub.replacementProviderRef = none ∨ (GivenUp env sub calls ∧
    ∀ ref ∈ sub.replacementProviderRef, ref ∉ env.others.retiredRefs)

theorem SameSlots.clearable {sub sub' : Subscription} (h : SameSlots sub sub') (calls : ℕ) :
    Clearable env sub' calls ↔ Clearable env sub calls := by
  unfold Clearable GivenUp Abandonable
  rw [h.replacement, h.retired, h.committed]

theorem retired_checks {sub : Subscription} (h : sub.Checks) (target : Option Plan)
    (href : sub.replacementProviderRef.isSome = true) : (retired sub target).Checks where
  periodSet := h.periodSet
  periodOrder := h.periodOrder
  pastDueAt := h.pastDueAt
  dunningEpisode := h.dunningEpisode
  dunningStage := h.dunningStage
  refDiffers := Or.inl rfl
  expirySet := by simp [retired]
  planSet := by simp [retired]
  committedNeedsRef := Or.inl rfl
  retiredKindSet := by simp [retired, href]
  confirmedNeedsCommitted := Or.inl rfl

theorem retired_clash {sub : Subscription} {target : Option Plan} {ref : Ref}
    (href : sub.replacementProviderRef = some ref) (hfree : sub.retiredProviderRef = none) :
    env.others.clash (some sub) (retired sub target) ↔ ref ∈ env.others.retiredRefs := by
  unfold Others.clash retired
  simp only [href, hfree, Option.bind_some, Option.mem_some_iff]
  constructor
  · rintro (⟨r, hr, -, hne⟩ | ⟨_, ⟨⟩, -⟩ | ⟨r, rfl, hr, -⟩)
    · exact absurd hr hne
    · exact hr
  · exact fun h => Or.inr (Or.inr ⟨ref, rfl, h, by simp⟩)

theorem clearReplacementBeforeReset_iff {sub : Subscription} (hsub : s.data.sub? = some sub) :
    Program.wp env (clearReplacementBeforeReset sub)
      (fun _ _ => Clearable env sub s.journal.calls.length)
      (fun _ _ => ¬ Clearable env sub s.journal.calls.length) s := by
  unfold clearReplacementBeforeReset
  rw [Program.wp_ite]
  refine ⟨fun hn => Or.inl hn, fun href => ?_⟩
  obtain ⟨ref, href'⟩ := Option.ne_none_iff_exists'.mp href
  have notGiven : ¬ GivenUp env sub s.journal.calls.length →
      ¬ Clearable env sub s.journal.calls.length := fun hg hc => hc.elim href fun h => hg h.1
  refine Program.wp_bind_of (Program.wp_and (Program.wp_mono (abandonUnlessActive_spec (by simp))
    (fun _ _ h => h) (F := fun _ _ => True) (fun _ _ h => h)) abandonUnlessActive_iff) ?_
    (fun _ _ h => notGiven h.2)
  rintro a t ⟨ht, hiff⟩
  rw [Program.wp_ite]
  refine ⟨fun ha => ?_, fun ha => notGiven fun h => ha (hiff.mpr h)⟩
  obtain ⟨-, target, -, -, -, hfree, hs⟩ := ht.moved ha
  have hgiven := hiff.mp ha
  rw [Program.wp_bind, wp_saveSubscription, ht.beside.sub?, hsub, hs, retired_clash href' hfree]
  have hchecks := retired_checks (Database.checks hsub) target (by simp [href'])
  refine ⟨fun _ hfresh => Or.inr ⟨hgiven, ?_⟩, ?_⟩
  · rw [href']
    rintro _ ⟨⟩
    exact hfresh
  · rintro hstop (hn | ⟨-, hfresh⟩)
    · exact href hn
    · exact hstop ⟨hchecks, hfresh ref href'⟩

/-- A reset cancels what it is given to cancel, once the replacement is out of the way. -/
theorem replaceProviderSubscription_cancels {sub : Subscription} {plan : Plan} {actor : ℕ}
    {cancelRef : Option Ref} (hsub : s.data.sub? = some sub)
    (hs : ¬ Cancelled s.journal.calls ref) :
    Program.wp env (replaceProviderSubscription sub plan actor cancelRef)
      (fun _ t => Cancelled t.journal.calls ref ↔
        cancelRef = some ref ∧ Clearable env sub s.journal.calls.length)
      (fun _ t => Cancelled t.journal.calls ref ↔
        cancelRef = some ref ∧ Clearable env sub s.journal.calls.length) s := by
  have hclear := Program.wp_and (clearReplacementBeforeReset_iff hsub)
    (Uncancelling.cancelled env s ref (uncancelling_clearReplacementBeforeReset sub))
  have hcancel : ∀ t : State, ¬ Cancelled t.journal.calls ref →
      Program.wp env (cancelIfAsked cancelRef)
        (fun _ u => Cancelled u.journal.calls ref ↔ cancelRef = some ref)
        (fun _ u => Cancelled u.journal.calls ref ↔ cancelRef = some ref) t := by
    intro t ht
    cases cancelRef with
    | none => simpa [cancelIfAsked] using ht
    | some r =>
      refine Program.wp_bind_of (P := fun _ u => Cancelled u.journal.calls ref ↔ some r = some ref)
        (F := fun _ u => Cancelled u.journal.calls ref ↔ some r = some ref)
        (wp_rejectedIsUnavailable (wp_razorpay.mpr ?_)) (fun _ _ h => h) (fun _ _ h => h)
      have hcall : ∀ answer, Cancelled (t.journal.calls ++
          [.subscription (.cancelSubscription r false) answer]) ref ↔ some r = some ref := by
        intro answer
        constructor
        · rintro ⟨answer', hc⟩
          rcases List.mem_append.mp hc with hc | hc
          · exact absurd ⟨answer', hc⟩ ht
          · cases List.mem_singleton.mp hc
            rfl
        · rintro ⟨⟩
          exact ⟨answer, by simp⟩
      exact ⟨fun _ _ => hcall _, fun _ _ => hcall _⟩
  unfold replaceProviderSubscription
  rw [Program.wp_bind, Program.wp_ask, Program.wp_bind, Program.wp_savepoint]
  refine Program.wp_bind_of hclear ?_ ?_
  · rintro sub' t ⟨hc, ht⟩
    refine Program.wp_bind_of (hcancel t (ht.not.mpr hs)) ?_ ?_
    · intro _ u hu
      have hrest : Uncancelling (do
          let created ← createProviderSubscription plan
          storeNewProviderSubscription sub' plan created actor
          pure created) := Program.records_bind (by simp) (by simp)
      refine Program.wp_mono (hrest.cancelled env u ref) ?_ ?_
      · intro _ v hv
        simp [hv, hu, hc]
      · intro _ v hv
        simp [hv, hu, hc]
    · intro _ u hu
      simp [hu, hc]
  · rintro _ t ⟨hc, ht⟩
    simp [ht, hs, hc]

/-- The routing of a checkout on a reconciled row cancels what the reconcile fetched. -/
def ResetCancels (sub : Subscription) (entity : Dict) (plan : Plan) : Prop :=
  (sub.status = .incomplete ∧ isPlanId (entity.get "plan_id") plan.providerPlanId = false ∧
    statusIn ["created"] entity = true) ∨
  (sub.status.Ended ∧ statusIn cancellableProviderStatuses entity = true)

theorem not_terminal_of_cancellable {entity : Dict}
    (h : statusIn cancellableProviderStatuses entity = true) :
    statusIn terminalProviderStatuses entity = false := by
  unfold statusIn at *
  split at h
  · rename_i status hs
    have hmem := of_decide_eq_true h
    clear h hs
    rw [cancellableProviderStatuses] at hmem
    fin_cases hmem <;> decide
  · cases h

theorem checkoutRouted_cancels {sub : Subscription} {entity : Dict} {before : Status} {plan : Plan}
    {actor : ℕ} {acknowledged : Bool} (hsub : s.data.sub? = some sub) (hnp : sub.status ≠ .pastDue)
    (hs : ¬ Cancelled s.journal.calls ref) :
    Program.wp env (checkoutRouted sub (some (ref, entity)) before plan actor acknowledged)
      (fun _ t => Cancelled t.journal.calls ref ↔
        ResetCancels sub entity plan ∧ Clearable env sub s.journal.calls.length)
      (fun _ t => Cancelled t.journal.calls ref ↔
        ResetCancels sub entity plan ∧ Clearable env sub s.journal.calls.length) s := by
  have spares : ∀ {m : Prog CheckoutResult}, Uncancelling m → ¬ ResetCancels sub entity plan →
      Program.wp env m (fun _ t => Cancelled t.journal.calls ref ↔
          ResetCancels sub entity plan ∧ Clearable env sub s.journal.calls.length)
        (fun _ t => Cancelled t.journal.calls ref ↔
          ResetCancels sub entity plan ∧ Clearable env sub s.journal.calls.length) s := by
    intro m hm hno
    exact Program.wp_mono (hm.cancelled env s ref) (fun _ _ ht => by simp [ht, hs, hno])
      (fun _ _ ht => by simp [ht, hs, hno])
  have resets : ∀ cancelRef, (cancelRef = some ref ↔ ResetCancels sub entity plan) →
      Program.wp env (replaceProviderSubscription sub plan actor cancelRef)
        (fun _ t => Cancelled t.journal.calls ref ↔
          ResetCancels sub entity plan ∧ Clearable env sub s.journal.calls.length)
        (fun _ t => Cancelled t.journal.calls ref ↔
          ResetCancels sub entity plan ∧ Clearable env sub s.journal.calls.length) s := by
    intro cancelRef h
    rw [← h]
    exact replaceProviderSubscription_cancels hsub hs
  unfold checkoutRouted
  rw [Program.wp_ite]
  refine ⟨fun ha => ?_, fun hna => ?_⟩
  · refine spares ?_ (by simp [ResetCancels, Status.Ended, ha])
    split <;> simp
  rw [Program.wp_ite]
  refine ⟨fun hi => ?_, fun hni => ?_⟩
  · have hends : ¬ sub.status.Ended := by simp [Status.Ended, hi]
    unfold checkoutIncomplete
    simp only [Program.wp_ite]
    refine ⟨fun ht => resets none ?_,
      fun ht => ⟨fun hp => ?_, fun hp => ⟨fun hc => ?_, fun hc => ?_⟩⟩⟩
    · refine ⟨by simp, ?_⟩
      rintro (⟨-, -, hc⟩ | ⟨he, -⟩)
      · rw [not_terminal_of_cancellable (statusIn_mono (by decide) hc)] at ht
        cases ht
      · exact absurd he hends
    · exact spares (by simp) (by simp [ResetCancels, hp, hends])
    · exact resets (some ref) (by simp [ResetCancels, hi, hp, hc])
    · exact spares (by simp) (by simp [ResetCancels, hc, hends])
  · have hends : sub.status.Ended := by
      cases h : sub.status <;> simp_all [Status.Ended]
    unfold checkoutEnded
    simp only [Program.wp_ite]
    refine ⟨fun ht => resets none ?_, fun ht => ⟨fun hc => ?_, fun hc => ?_⟩⟩
    · refine ⟨by simp, ?_⟩
      rintro (⟨hi, -⟩ | ⟨-, hc⟩)
      · exact absurd hi hni
      · rw [not_terminal_of_cancellable hc] at ht
        cases ht
    · exact resets (some ref) (by simp [ResetCancels, hends, hc])
    · exact spares (by simp) (by simp [ResetCancels, hni, hc])

structure ReconcileRun (env : Env) (sub : Subscription) (ref : Ref) (f : Fetched)
    (p : Subscription × Dict) (s t u : State) : Prop where
  read : (reconcileRead sub ref).run env s = (.ok f, t)
  entity : p.2 = f.entity
  row : u.data.sub? = some p.1
  applied : ∃ r, SnapshotPost env.settings f.entity f.invoices f.started r t u
  journal : f.entity.get "status" = .str "active" → u.journal = (State.tick t).journal

theorem reconcile_run {sub : Subscription} :
    Program.returns env (reconcile sub ref)
      (fun p u => ∃ f t, ReconcileRun env sub ref f p s t u) s := by
  unfold reconcile
  refine Program.returns_bind (Program.returns_of_wp (Program.wp_run _)) fun f t hread => ?_
  refine Program.returns_bind
    (Program.returns_of_wp (Program.wp_and applySnapshot_wp applySnapshot_ticks)) ?_
  rintro r u ⟨hu, hj⟩
  rw [Program.returns, Program.wp_bind, Program.wp_savepoint, wp_lockSubscription]
  exact ⟨fun _ hrow => ⟨f, t, hread, rfl, hrow, ⟨r, hu⟩, hj⟩, fun _ => trivial⟩

theorem statusOutcome_status {sub : Subscription} {entity : Dict} {invoices : Option (List Json)}
    {plan : Plan} {status : String} {now : Time} :
    let after := (statusOutcome sub entity invoices plan status now).sub.status
    after = sub.status ∨ after = .active ∨ after = .pastDue ∨
      (after.Ended ∧ status ∈ terminalProviderStatuses) := by
  dsimp only
  unfold statusOutcome
  split
  · unfold activeOutcome
    split
    · exact Or.inl rfl
    · split
      · refine Or.inl ?_
        unfold refreshed takePlan
        dsimp only
        repeat' split
        all_goals rfl
      · split
        · exact Or.inl rfl
        · exact Or.inr (Or.inl (activated_period ..).2.2)
  split
  · unfold failedOutcome
    split
    · exact Or.inl rfl
    · exact Or.inr (Or.inr (Or.inl rfl))
  split
  · rename_i hterminal
    split
    · exact Or.inl rfl
    · unfold terminalOutcome
      split
      · unfold ended
        split
        · exact Or.inr (Or.inr (Or.inr ⟨Or.inl rfl, hterminal⟩))
        · refine Or.inr (Or.inr (Or.inr ⟨?_, hterminal⟩))
          simp only [clearGrace, graceEnd]
          split
          · exact Or.inr rfl
          · exact Or.inl rfl
        · exact Or.inl rfl
      · exact Or.inl rfl
  · exact Or.inl rfl

theorem SnapshotPost.status {entity : Dict} {invoices : Option (List Json)} {started : Time}
    {result : SnapshotResult} {t : State} {sub sub' : Subscription}
    (h : SnapshotPost env.settings entity invoices started result s t)
    (hsub : s.data.sub? = some sub) (hsub' : t.data.sub? = some sub') :
    sub'.status = sub.status ∨ sub'.status = .active ∨ sub'.status = .pastDue ∨
      (sub'.status.Ended ∧ statusIn terminalProviderStatuses entity = true) := by
  cases h with
  | dropped sub₁ _ _ data _ =>
    rw [data, hsub] at hsub'
    cases hsub'
    exact Or.inl rfl
  | applied sub₁ plan status now r done _ =>
    obtain rfl := Option.some.inj (done.before.symm.trans hsub)
    obtain rfl := Option.some.inj (done.after.symm.trans hsub')
    have hrow : (stamped r.sub status started).status =
        (statusOutcome sub₁ entity invoices plan status now).sub.status := by
      rcases done.row with hr | ⟨-, -, -, ha⟩
      · rw [← hr]
        rfl
      · exact ha.status
    have hterminal : status ∈ terminalProviderStatuses →
        statusIn terminalProviderStatuses entity = true := by
      intro ht
      unfold statusIn
      simpa [done.accepts.status, Json.str?] using ht
    rw [hrow]
    exact statusOutcome_status.imp_right (Or.imp_right (Or.imp_right (And.imp_right hterminal)))

/-- On a row that is not ACTIVE an `active` snapshot is applied whole or not at all. -/
theorem activeOutcome_inactive {sub : Subscription} {entity : Dict} {invoices : Option (List Json)}
    {plan : Plan} (hna : sub.status ≠ .active) :
    (activeOutcome sub entity invoices plan = .unsettled sub ∧
      (usablePeriod entity = none ∨ currentPeriodPaid entity invoices = none)) ∨
    ∃ start stop, activeOutcome sub entity invoices plan =
      ⟨activated sub plan start stop, true, true, true⟩ := by
  unfold activeOutcome
  cases usablePeriod entity with
  | none => exact Or.inl ⟨rfl, Or.inl rfl⟩
  | some period =>
    have hsame : ¬ samePeriod sub period.1 := fun hs => hna hs.1
    cases hpaid : currentPeriodPaid entity invoices with
    | none => exact Or.inl ⟨by simp [hsame], Or.inr rfl⟩
    | some invoice => exact Or.inr ⟨period.1, period.2, by simp [hsame]⟩

/-- A snapshot that reports `active` on a row that is not, and leaves it so, was not
applied: the status and the slots stay. -/
theorem SnapshotPost.inactive {entity : Dict} {invoices : Option (List Json)} {started : Time}
    {result : SnapshotResult} {t : State} {sub sub' : Subscription}
    (h : SnapshotPost env.settings entity invoices started result s t)
    (hsub : s.data.sub? = some sub) (hsub' : t.data.sub? = some sub') (hna : sub.status ≠ .active)
    (hna' : sub'.status ≠ .active) (hstatus : entity.get "status" = .str "active") :
    SameSlots sub sub' ∧ sub'.status = sub.status ∧ ∀ plan start stop,
      ¬ Reactivates env.settings sub entity invoices started plan start stop := by
  cases h with
  | dropped sub₁ before stopped data _ =>
    obtain rfl := Option.some.inj (before.symm.trans hsub)
    rw [data, hsub] at hsub'
    cases hsub'
    refine ⟨.refl _, rfl, fun plan start stop hre => stopped plan "active" ?_⟩
    exact ⟨hre.names, hre.newer, hre.known, hre.status⟩
  | applied sub₁ plan status now r done _ =>
    obtain rfl := Option.some.inj (done.before.symm.trans hsub)
    obtain rfl := Option.some.inj (done.after.symm.trans hsub')
    obtain rfl : status = "active" := by
      have := done.accepts.status
      rw [hstatus] at this
      exact (Json.str.inj this).symm
    have hrow := done.row
    rw [statusOutcome, if_pos rfl] at hrow
    rcases activeOutcome_inactive hna with ⟨ho, hunpaid⟩ | ⟨start, stop, ho⟩
    · rw [ho] at hrow
      have hkept : r.sub = sub₁ := by
        rcases hrow with hr | ⟨hc, -⟩
        · exact hr
        · cases hc
      rw [hkept]
      refine ⟨⟨rfl, rfl, rfl, rfl⟩, rfl, fun plan' start stop hre => ?_⟩
      rcases hunpaid with hp | hp
      · have := hre.period
        rw [hp] at this
        cases this
      · have := hre.paid
        rw [hp] at this
        cases this
    · rw [ho] at hrow
      rcases hrow with hr | ⟨-, hadv, -⟩
      · refine absurd ?_ hna'
        change r.sub.status = .active
        rw [hr]
        exact (activated_period ..).2.2
      · cases hadv

theorem SnapshotPost.reactivates {entity : Dict} {invoices : Option (List Json)} {started : Time}
    {result : SnapshotResult} {t : State} {sub sub' : Subscription}
    (h : SnapshotPost env.settings entity invoices started result s t)
    (hsub : s.data.sub? = some sub) (hsub' : t.data.sub? = some sub') (hna : sub.status ≠ .active)
    (ha : sub'.status = .active) :
    ∃ plan start stop, Reactivates env.settings sub entity invoices started plan start stop := by
  cases h with
  | dropped sub₁ _ _ data _ =>
    rw [data, hsub] at hsub'
    cases hsub'
    exact absurd ha hna
  | applied sub₁ plan status now r done _ =>
    obtain rfl := Option.some.inj (done.before.symm.trans hsub)
    obtain rfl := Option.some.inj (done.after.symm.trans hsub')
    obtain ⟨start, stop, hre, -, -⟩ := done.reactivates hna ha
    exact ⟨plan, start, stop, hre⟩

/-- A checkout on the locked row gets to a reset that cancels `ref`. -/
structure CancelsMain (env : Env) (sub : Subscription) (ref : Ref) (plan : Plan)
    (p : Subscription × Dict) (s u : State) : Prop where
  current : sub.status ≠ .pastDue
  free : sub.status = .active → sub.replacementProviderRef = none
  ran : (reconcile sub ref).run env s = (.ok p, u)
  stillCurrent : p.1.status ≠ .pastDue
  supported : providerStateError env.settings p.2 = none
  cancels : ResetCancels p.1 p.2 plan
  clears : Clearable env p.1 u.journal.calls.length

theorem checkoutLocked_cancels {sub : Subscription} {plan : Plan} {actor : ℕ} {acknowledged : Bool}
    (hsub : s.data.sub? = some sub) (hpay : sub.paymentProviderRef = some ref)
    (hs : ¬ Cancelled s.journal.calls ref) :
    Program.wp env (checkoutLocked sub plan actor acknowledged)
      (fun _ t => Cancelled t.journal.calls ref ↔ ∃ p u, CancelsMain env sub ref plan p s u)
      (fun _ t => Cancelled t.journal.calls ref ↔ ∃ p u, CancelsMain env sub ref plan p s u) s := by
  have spares : ∀ {m : Prog CheckoutResult}, Uncancelling m →
      (∀ p u, ¬ CancelsMain env sub ref plan p s u) →
      Program.wp env m
        (fun _ t => Cancelled t.journal.calls ref ↔ ∃ p u, CancelsMain env sub ref plan p s u)
        (fun _ t => Cancelled t.journal.calls ref ↔ ∃ p u, CancelsMain env sub ref plan p s u) s :=
    fun hm hno => Program.wp_mono (hm.cancelled env s ref) (fun _ _ ht => by simp [ht, hs, hno])
      (fun _ _ ht => by simp [ht, hs, hno])
  unfold checkoutLocked
  rw [Program.wp_ite]
  refine ⟨fun hpd => spares (by simp) fun _ _ h => h.current hpd, fun hnp => ?_⟩
  rw [Program.wp_ite]
  refine ⟨fun hpending => spares ?_ fun _ _ h => ?_, fun hfree => ?_⟩
  · unfold replacementPending
    repeat' split
    all_goals simp
  · have := h.free hpending.1
    rw [this] at hpending
    cases hpending.2
  simp only [hpay]
  rw [Program.wp_bind, Program.wp_ask]
  refine Program.wp_bind_of (Program.wp_and (reconcile_spec hsub) (Program.wp_and
    (Uncancelling.cancelled env s ref (uncancelling_reconcile sub ref)) (Program.wp_run _))) ?_ ?_
  · rintro p u ⟨hp, hu, hran⟩
    have hno : ¬ Cancelled u.journal.calls ref := hu.not.mpr hs
    have same : ∀ {p' u'}, CancelsMain env sub ref plan p' s u' → p' = p ∧ u' = u := by
      intro p' u' h
      have := h.ran
      rw [hran] at this
      cases this
      exact ⟨rfl, rfl⟩
    have none : (∀ h : CancelsMain env sub ref plan p s u, False) →
        (Cancelled u.journal.calls ref ↔ ∃ p u, CancelsMain env sub ref plan p s u) := by
      intro hstop
      refine ⟨fun h => absurd h hno, ?_⟩
      rintro ⟨p', u', h⟩
      obtain ⟨rfl, rfl⟩ := same h
      exact (hstop h).elim
    rw [Program.wp_ite]
    refine ⟨fun hpd => none fun h => h.stillCurrent hpd, fun hnp' => ?_⟩
    unfold checkProviderState
    cases herr : providerStateError env.settings p.2 with
    | some error => exact none fun h => by have := h.supported; rw [herr] at this; cases this
    | none =>
      have hiff : (ResetCancels p.1 p.2 plan ∧ Clearable env p.1 u.journal.calls.length) ↔
          ∃ p u, CancelsMain env sub ref plan p s u := by
        constructor
        · rintro ⟨hc, hclear⟩
          exact ⟨p, u, hnp, fun ha => by simpa [ha] using hfree, hran, hnp', herr, hc, hclear⟩
        · rintro ⟨p', u', h⟩
          obtain ⟨rfl, rfl⟩ := same h
          exact ⟨h.cancels, h.clears⟩
      rw [← hiff]
      exact checkoutRouted_cancels hp.row hnp' hno
  · rintro e u ⟨-, hu, hran⟩
    refine ⟨fun h => absurd (hu.mp h) hs, ?_⟩
    rintro ⟨p, u', h⟩
    have := h.ran
    rw [hran] at this
    cases this

theorem startCheckout_cancels {sub : Subscription} {actor planId : ℕ} {acknowledged : Bool}
    (hsub : s.data.sub? = some sub) (hpay : sub.paymentProviderRef = some ref)
    (hs : ¬ Cancelled s.journal.calls ref) :
    Program.wp env (startCheckout actor planId acknowledged)
      (fun _ t => Cancelled t.journal.calls ref ↔
        ∃ plan, env.settings.offeredPlan planId = some plan ∧
        env.settings.configured = true ∧ ∃ p u, CancelsMain env sub ref plan p s u)
      (fun _ t => Cancelled t.journal.calls ref ↔
        ∃ plan, env.settings.offeredPlan planId = some plan ∧
        env.settings.configured = true ∧ ∃ p u, CancelsMain env sub ref plan p s u) s := by
  unfold startCheckout
  rw [Program.wp_bind, Program.wp_ask]
  cases env.settings.offeredPlan planId with
  | none => simpa using hs
  | some plan =>
    dsimp only
    rw [Program.wp_ite]
    refine ⟨fun hc => by simpa [hc] using hs, fun hc => ?_⟩
    rw [Bool.not_eq_false] at hc
    rw [Program.wp_bind]
    refine lockCurrentSubscription_spec ?_
    rw [hsub]
    simpa [hc] using checkoutLocked_cancels hsub hpay hs

end Resets

section Spares

variable {env : Env} {db : Database}

def ReconcileFetches (env : Env) (db : Database) (sub : Subscription) (ref : Ref)
    (f : Fetched) : Prop :=
  ((reconcileRead sub ref).run env ⟨db, Journal.empty⟩).1 = .ok f

/-- The checkout cancels the row's subscription only when its own fetch shows it open and
without a paid period, and replaces the reference only when the old one is gone. -/
structure SparesPaid (env : Env) (db : Database) (sub : Subscription) (ref : Ref) (t : State) :
    Prop where
  cancels : Cancelled t.journal.calls ref → ∃ f, ReconcileFetches env db sub ref f ∧
    ((sub.status = .incomplete ∧ statusIn ["created"] f.entity = true) ∨
      (sub.status.Ended ∧ statusIn cancellableProviderStatuses f.entity = true)) ∧
    currentPeriodPaid f.entity f.invoices = none
  replaces : t.data.payment? ≠ some ref → Gone t.journal.calls ref

/-- The provider reports an active and paid subscription of an ended row, in an answer that
the snapshot cannot apply: an older reading of the clock, or no usable period. -/
structure UnappliedPaid (env : Env) (sub : Subscription) (ref : Ref) (planId : ℕ) : Prop where
  ended : sub.status.Ended
  offered : (env.settings.offeredPlan planId).isSome = true
  configured : env.settings.configured = true
  answered : ∃ entity invoices,
    env.oracle.subscription 0 (.fetchSubscription ref) = .ok entity ∧ readable ref entity = true ∧
    entity.get "status" = .str "active" ∧
    (env.settings.planFor (entity.get "plan_id")).isSome = true ∧
    env.oracle.invoices 1 ref = .ok invoices ∧
    (currentPeriodPaid entity (some invoices)).isSome = true ∧
    (newer sub (env.oracle.clock 0) = false ∨ usablePeriod entity = none)
  clears : Clearable env sub 2

variable {sub : Subscription} {ref : Ref} {s : State}

theorem reconcileRead_returns {entity : Dict} {invoices : List Json} {n : ℕ}
    (hn : s.journal.calls.length = n)
    (hfetch : env.oracle.subscription n (.fetchSubscription ref) = .ok entity)
    (hread : readable ref entity = true)
    (hneeded : invoicesNeeded sub.status sub.currentPeriodStart entity = true)
    (hinv : env.oracle.invoices (n + 1) ref = .ok invoices) :
    Program.wp env (reconcileRead sub ref)
      (fun f t => f = ⟨entity, some invoices, env.oracle.clock s.journal.ticks⟩ ∧ t.data = s.data ∧
        t.journal.calls.length = n + 2)
      (fun _ _ => False) s := by
  subst hn
  unfold reconcileRead fetchProviderEntity fetchInvoicesIfNeeded rejectedIsUnavailable
  simp [Program.wp_bind, Program.wp_handle, wp_razorpay, wp_razorpayInvoices,
    hfetch, hread, hneeded,
    hinv]

theorem stamped_checks (h : sub.Checks) (status : String) (started : Time) :
    (stamped sub status started).Checks := by
  obtain ⟨a, b, c, d, e, f, g, i, j, k, l⟩ := h
  exact ⟨a, b, c, d, e, f, g, i, j, k, l⟩

theorem stamped_clash (status : String) (started : Time) :
    ¬ env.others.clash (some sub) (stamped sub status started) := by
  rintro (⟨ref, href, -, hne⟩ | ⟨ref, href, -, hne⟩ | ⟨ref, href, -, hne⟩) <;> exact hne href

theorem applySnapshot_returns {entity : Dict} {invoices : Option (List Json)} {started : Time}
    (hsub : s.data.sub? = some sub) (hstatus : entity.get "status" = .str "active")
    (hunapplied : newer sub started = false ∨ usablePeriod entity = none) :
    Program.wp env (applySnapshot entity invoices started none) (fun _ _ => True)
      (fun _ _ => False) s := by
  unfold applySnapshot snapshotLocked
  simp only [Program.wp_savepoint, Program.wp_bind, wp_lockSubscription, wp_timezoneNow,
    Program.wp_ask, hsub, hstatus, Json.str?, applyStatus]
  refine ⟨?_, by simp⟩
  rintro _ ⟨⟩
  rw [Program.wp_ite]
  refine ⟨fun _ => trivial, fun _ => ?_⟩
  rw [Program.wp_ite]
  refine ⟨fun _ => trivial, fun hnewer => ?_⟩
  have hperiod := hunapplied.resolve_left hnewer
  cases env.settings.planFor (entity.get "plan_id") with
  | none => exact trivial
  | some plan =>
    simp only [applyActive, hperiod, Program.wp_bind, Program.wp_pure, storeSnapshot]
    refine wp_saveSubscription.mpr ⟨fun _ _ => ?_, fun hno => hno ⟨?_, ?_⟩⟩
    · simp [Applied.unsettled, Program.whenever]
    · exact stamped_checks (Database.checks hsub) _ _
    · rw [State.tick_data, hsub]
      exact stamped_clash _ _

theorem SnapshotPost.row {settings : Settings} {entity : Dict} {invoices : Option (List Json)}
    {started : Time} {result : SnapshotResult} {t : State}
    (h : SnapshotPost settings entity invoices started result s t) :
    ∃ sub, t.data.sub? = some sub := by
  cases h with
  | dropped sub before _ data _ => exact ⟨sub, data ▸ before⟩
  | applied sub plan status now r done _ => exact ⟨_, done.after⟩

theorem reconcile_returns {entity : Dict} {invoices : List Json}
    (hsub : s.data.sub? = some sub) (hna : sub.status ≠ .active)
    (hfetch : env.oracle.subscription s.journal.calls.length (.fetchSubscription ref) = .ok entity)
    (hread : readable ref entity = true) (hstatus : entity.get "status" = .str "active")
    (hinv : env.oracle.invoices (s.journal.calls.length + 1) ref = .ok invoices)
    (hunapplied : newer sub (env.oracle.clock s.journal.ticks) = false ∨
      usablePeriod entity = none) :
    Program.wp env (reconcile sub ref) (fun _ _ => True) (fun _ _ => False) s := by
  unfold reconcile
  refine Program.wp_bind_of (reconcileRead_returns rfl hfetch hread (invoicesNeeded_of hna hstatus)
    hinv) ?_ (fun _ _ h => h)
  rintro _ t ⟨rfl, ht, -⟩
  have hsub' : t.data.sub? = some sub := by rw [ht]; exact hsub
  refine Program.wp_bind_of (Program.wp_and (applySnapshot_returns hsub' hstatus hunapplied)
    applySnapshot_wp) ?_ (fun _ _ h => h.1)
  rintro r u ⟨-, hu⟩
  obtain ⟨x, hx⟩ := hu.row
  rw [Program.wp_bind, Program.wp_savepoint, wp_lockSubscription]
  exact ⟨fun _ _ => trivial, fun hn => by simp [hx] at hn⟩

theorem namesMain_of_readable {entity : Dict} (hpay : sub.paymentProviderRef = some ref)
    (hread : readable ref entity = true) : namesMain sub entity = true := by
  unfold namesMain
  rw [hpay]
  exact (Bool.and_eq_true_iff.mp hread).1

theorem UnappliedPaid.cancelsMain {planId : ℕ} (h : UnappliedPaid env sub ref planId)
    (hsub : db.sub? = some sub) :
    (∃ plan, env.settings.offeredPlan planId = some plan ∧ env.settings.configured = true ∧
      ∃ p u, CancelsMain env sub ref plan p ⟨db, Journal.empty⟩ u) ∧
    ∃ f, ReconcileFetches env db sub ref f ∧
    (currentPeriodPaid f.entity f.invoices).isSome = true := by
  obtain ⟨entity, invoices, hfetch, hread, hstatus, hplan, hinv, hpaid, hunapplied⟩ := h.answered
  have hna : sub.status ≠ .active := by
    rcases h.ended with hs | hs <;> simp [hs]
  obtain ⟨plan, hoffered⟩ := Option.isSome_iff_exists.mp h.offered
  obtain ⟨p, u, hran, -⟩ := Program.wp_total (reconcile_returns (s := ⟨db, Journal.empty⟩)
    hsub hna hfetch hread hstatus hinv hunapplied)
  obtain ⟨f, t, hrun⟩ := Program.wp_ok reconcile_run hran
  obtain ⟨f', t', hread', hf, ht, hcalls⟩ := Program.wp_total (reconcileRead_returns
    (s := ⟨db, Journal.empty⟩) rfl hfetch hread (invoicesNeeded_of hna hstatus) hinv)
  have hsame := hrun.read
  rw [hread'] at hsame
  cases hsame
  refine ⟨⟨plan, hoffered, h.configured, p, u, ?_⟩, f, by unfold ReconcileFetches; rw [hread'],
    by rw [hf]; exact hpaid⟩
  obtain ⟨r, happlied⟩ := hrun.applied
  have hsub' : t.data.sub? = some sub := by rw [ht]; exact hsub
  have hentity : p.2 = entity := by rw [hrun.entity, hf]
  have hna' : p.1.status ≠ .active := by
    intro ha
    obtain ⟨known, start, stop, hre⟩ := happlied.reactivates hsub' hrun.row hna ha
    rw [hf] at hre
    rcases hunapplied with hu | hu
    · cases hre.newer.symm.trans hu
    · exact absurd hre.period (by simp [hu])
  obtain ⟨hslots, hkept, -⟩ := happlied.inactive hsub' hrun.row hna hna' (by rw [hf]; exact hstatus)
  have hjournal := hrun.journal (by rw [hf]; exact hstatus)
  have hends : p.1.status.Ended := hkept ▸ h.ended
  have hactive : statusIn ["active"] entity = true := by simp [statusIn, hstatus, Json.str?]
  refine ⟨fun hp => ?_, fun ha => absurd ha hna, hran, fun hp => ?_, ?_, Or.inr ⟨hends, ?_⟩, ?_⟩
  · rcases h.ended with hs | hs <;> simp [hs] at hp
  · rcases hends with hs | hs <;> simp [hs] at hp
  · rw [hentity, providerStateError, if_neg, if_neg]
    · exact Option.isSome_iff_ne_none.mp hplan
    · simp [statusIn, hstatus, Json.str?, recognizedProviderStatuses]
  · rw [hentity]
    exact statusIn_mono (by decide) hactive
  · rw [hjournal, State.tick_calls, hcalls]
    exact (hslots.clearable 2).mpr h.clears

theorem CancelsMain.spares {plan : Plan} {p : Subscription × Dict} {u : State} {planId : ℕ}
    (h : CancelsMain env sub ref plan p ⟨db, Journal.empty⟩ u) (hsub : db.sub? = some sub)
    (hpay : sub.paymentProviderRef = some ref)
    (hoffered : env.settings.offeredPlan planId = some plan)
    (hconf : env.settings.configured = true) (hno : ¬ UnappliedPaid env sub ref planId) :
    ∃ f, ReconcileFetches env db sub ref f ∧
      ((sub.status = .incomplete ∧ statusIn ["created"] f.entity = true) ∨
        (sub.status.Ended ∧ statusIn cancellableProviderStatuses f.entity = true)) ∧
      currentPeriodPaid f.entity f.invoices = none := by
  obtain ⟨f, t, hrun⟩ := Program.wp_ok reconcile_run h.ran
  have hread := Program.wp_ok reconcileRead_calls hrun.read
  obtain ⟨r, happlied⟩ := hrun.applied
  have hsub' : t.data.sub? = some sub := by rw [hread.data]; exact hsub
  have hstatus := happlied.status hsub' hrun.row
  have hcancels := h.cancels
  rw [hrun.entity] at hcancels
  have hopen : (sub.status = .incomplete ∧ statusIn ["created"] f.entity = true) ∨
      (sub.status.Ended ∧ statusIn cancellableProviderStatuses f.entity = true) := by
    rcases hcancels with ⟨hi, -, hc⟩ | ⟨he, hc⟩
    · left
      rw [hi] at hstatus
      rcases hstatus with hs | hs | hs | ⟨hs | hs, -⟩
      · exact ⟨hs.symm, hc⟩
      all_goals cases hs
    · right
      rcases hstatus with hs | hs | hs | ⟨-, ht⟩
      · exact ⟨hs ▸ he, hc⟩
      · simp [hs, Status.Ended] at he
      · simp [hs, Status.Ended] at he
      · rw [not_terminal_of_cancellable hc] at ht
        cases ht
  refine ⟨f, by unfold ReconcileFetches; rw [hrun.read], hopen, ?_⟩
  by_contra hpaid
  rw [← ne_eq, Option.ne_none_iff_isSome] at hpaid
  -- Only an `active` entity has its invoices fetched, so the row had ended.
  obtain ⟨invoice, hinvoice⟩ := Option.isSome_iff_exists.mp hpaid
  obtain ⟨list, -, -, hlist, -⟩ := currentPeriodPaid_spec hinvoice
  have hinvoices := hread.invoices
  split at hinvoices
  · rename_i hneeded
    obtain ⟨list', hlist', hcalls, hans⟩ := hinvoices
    have hactive : f.entity.get "status" = .str "active" := by
      rw [invoicesNeeded, Bool.and_eq_true] at hneeded
      exact Json.isStr_iff.mp hneeded.1
    have hends : sub.status.Ended := by
      rcases hopen with ⟨-, hc⟩ | ⟨he, -⟩
      · simp [statusIn, hactive, Json.str?] at hc
      · exact he
    have hends' : p.1.status.Ended := by
      rcases hcancels with ⟨-, -, hc⟩ | ⟨he, -⟩
      · simp [statusIn, hactive, Json.str?] at hc
      · exact he
    have inactive : ∀ {s : Status}, s.Ended → s ≠ .active := by
      rintro s (rfl | rfl) <;> simp
    obtain ⟨hslots, -, hunapplied⟩ := happlied.inactive hsub' hrun.row (inactive hends)
      (inactive hends') hactive
    have hknown : (env.settings.planFor (f.entity.get "plan_id")).isSome = true := by
      have hs := h.supported
      rw [hrun.entity, providerStateError] at hs
      split at hs
      · cases hs
      · split at hs
        · cases hs
        · rwa [← ne_eq, Option.ne_none_iff_isSome] at *
    refine hno ⟨hends, by simp [hoffered], hconf, ⟨f.entity, list', hread.entity, hread.readable,
      hactive, hknown, hans, hlist' ▸ hpaid, ?_⟩, ?_⟩
    · by_contra hboth
      rw [not_or, Bool.not_eq_false, ← ne_eq, Option.ne_none_iff_exists'] at hboth
      obtain ⟨known, hknown⟩ := Option.isSome_iff_exists.mp hknown
      obtain ⟨hnewer, ⟨start, stop⟩, hperiod⟩ := hboth
      refine hunapplied known start stop ⟨inactive hends, namesMain_of_readable hpay hread.readable,
        ?_, hknown, hactive, hperiod, hpaid⟩
      rw [hread.started]
      exact hnewer
    · have := h.clears
      rw [hrun.journal hactive, State.tick_calls, hcalls] at this
      exact (hslots.clearable 2).mp this
  · rw [hlist] at hinvoices
    cases hinvoices.1

theorem StartPost.replaces {planId : ℕ} {acknowledged : Bool} {s t : State}
    (h : StartPost env planId acknowledged s t) (hpay : s.data.payment? = some ref)
    (hne : t.data.payment? ≠ some ref) : Gone t.journal.calls ref := by
  have quiet : ∀ {a b : Database}, QuietPath t.journal.calls a b → a.payment? = some ref →
      b.payment? = some ref ∨ Gone t.journal.calls ref := by
    intro a b hpath ha
    induction hpath with
    | refl => exact Or.inl ha
    | tail _ hm ih =>
      refine ih.elim (fun hb => ?_) Or.inr
      cases hm.1 with
      | tending done => exact Or.inl (done.payment?.trans hb)
      | stored inactive fresh gone done =>
        rw [Database.payment?_of done.before] at hb
        exact Or.inr (gone ref hb)
      | inserted plan absent after =>
        simp [Database.payment?, Database.sub?, absent] at hb
  have tail : ∀ {mid : Database}, CheckoutTail t.journal.calls mid t.data →
      mid.payment? = some ref → Gone t.journal.calls ref := by
    intro mid htail hmid
    rcases htail with heq | ⟨-, hk⟩ | ⟨-, hq⟩
    · exact absurd (heq ▸ hmid) hne
    · exact absurd (hk.payment?.trans hmid) hne
    · exact (quiet hq hmid).resolve_left hne
  cases h with
  | unchanged data => exact absurd (data ▸ hpay) hne
  | first absent path =>
    simp [Database.payment?, absent] at hpay
  | row sub plan stored offered configured post =>
    cases post with
    | settled mid first htail =>
      refine tail htail ?_
      rcases first with rfl | ⟨ref', -, hrec⟩
      · exact hpay
      · exact hrec.keeping.payment?.trans hpay
    | replaced ref' sub' entity u current free payment ran post active falls later started =>
      refine absurd ?_ hne
      obtain ⟨-, -, -, done⟩ := started
      rw [Database.payment?_of done.after]
      have hu := post.reconciled.keeping.payment?
      rw [Database.payment?_of done.before, hpay] at hu
      exact hu

/-- A checkout spares a paid subscription, unless the paid answer is one that cannot be
applied to an ended row. -/
theorem checkout_spares_paid (db : Database) (env : Env) (actor planId : ℕ) (acknowledged : Bool) :
    (∀ sub ref, db.sub? = some sub → sub.paymentProviderRef = some ref →
      SparesPaid env db sub ref ((OwnerRequest.checkout actor planId acknowledged).run db env).2) ↔
    ∀ sub ref, db.sub? = some sub → sub.paymentProviderRef = some ref →
      ¬ UnappliedPaid env sub ref planId := by
  have hiff : ∀ sub ref, db.sub? = some sub → sub.paymentProviderRef = some ref →
      (Cancelled ((OwnerRequest.checkout actor planId acknowledged).run db env).2.journal.calls
      ref ↔
        ∃ plan, env.settings.offeredPlan planId = some plan ∧ env.settings.configured = true ∧
          ∃ p u, CancelsMain env sub ref plan p ⟨db, Journal.empty⟩ u) :=
    fun sub ref hsub hpay => wp_state (discard_wp (startCheckout_cancels (s := ⟨db, Journal.empty⟩)
      hsub hpay (by simp [Cancelled, Journal.empty])))
  constructor
  · intro h sub ref hsub hpay hbad
    obtain ⟨hcancels, f, hf, hpaid⟩ := hbad.cancelsMain hsub
    obtain ⟨f', hf', -, hunpaid⟩ :=
      (h sub ref hsub hpay).cancels ((hiff sub ref hsub hpay).mpr hcancels)
    rw [ReconcileFetches, hf] at hf'
    cases hf'
    rw [hunpaid] at hpaid
    cases hpaid
  · intro h sub ref hsub hpay
    refine ⟨fun hc => ?_, fun hne => ?_⟩
    · obtain ⟨plan, hoffered, hconf, p, u, hmain⟩ := (hiff sub ref hsub hpay).mp hc
      exact hmain.spares hsub hpay hoffered hconf (h sub ref hsub hpay)
    · have hpost : StartPost env planId acknowledged ⟨db, Journal.empty⟩
          ((OwnerRequest.checkout actor planId acknowledged).run db env).2 :=
        wp_state (Q := fun t => StartPost env planId acknowledged ⟨db, Journal.empty⟩ t)
          (discard_wp startCheckout_spec)
      exact hpost.replaces ((Database.payment?_of hsub).trans hpay) hne

end Spares

def endlessCycle : Dict :=
  [("id", .str "sub_a"), ("plan_id", .str "plan_s"), ("status", .str "active"),
    ("current_start", .int 700000)]

def paidWithoutEnd : Env :=
  ({ fetch := onlyA endlessCycle
     cancel := .ok (entityA "cancelled" 700000 800000)
     create := .ok (entityOf "sub_c" "plan_s" "created" 0 0)
     invoices := .ok [invoiceOf "sub_a" "pay_2" 700000 800000] } : Answers).at 700100

theorem paid_cancelled : ¬ ∀ sub ref, owedRow.sub? = some sub → sub.paymentProviderRef = some ref →
    SparesPaid paidWithoutEnd owedRow sub ref
      ((OwnerRequest.checkout 7 1 false).run owedRow paidWithoutEnd).2 := by
  intro h
  have hcalled : Cancelled
      ((OwnerRequest.checkout 7 1 false).run owedRow paidWithoutEnd).2.journal.calls refA :=
    ⟨.ok (entityA "cancelled" 700000 800000), List.mem_iff_getElem?.mpr ⟨2, rfl⟩⟩
  obtain ⟨f, hf, -, hunpaid⟩ := (h _ refA rfl rfl).cancels hcalled
  obtain rfl : (⟨endlessCycle, some [invoiceOf "sub_a" "pay_2" 700000 800000], seconds 700100⟩ :
      Fetched) = f := Except.ok.inj hf
  exact absurd (congrArg Option.isSome hunpaid) (by decide)

end ReviewFlow.Billing