import ReviewFlow.Interleaving
import ReviewFlow.Billing.CheckoutCancels

/-!
# Checkouts submitted more than once

Requests for one plan by one merchant, in any order. A request that finds a row holds
its lock until it commits, so it is one step. One that finds none has locked nothing:
others run before its insert, and the insert waits for a concurrent one to commit.
-/

namespace ReviewFlow.Billing

open Savepoint Interleaving

def Call.createdEntity? : Call → Option Dict
  | .subscription (.createSubscription _ _ _) (.ok entity) => some entity
  | _ => none

def creations (calls : List Call) : List Dict := calls.filterMap Call.createdEntity?

@[simp] theorem creations_snoc (calls : List Call) (call : Call) :
    creations (calls ++ [call]) = creations calls ++ call.createdEntity?.toList := by
  cases h : call.createdEntity? <;> simp [creations, List.filterMap_append, h]

/-- A row on which a checkout stores a new subscription: it has none, or it ended with `old`. -/
def Subscription.Startable (old : Option Ref) (sub : Subscription) : Prop :=
  (sub.status = .incomplete ∧ sub.paymentProviderRef = none) ∨
    (sub.status.Ended ∧ ∀ ref ∈ sub.paymentProviderRef, ref ∈ old)

def Subscription.Started (ref : Ref) (sub : Subscription) : Prop :=
  sub.status = .incomplete ∧ sub.paymentProviderRef = some ref

section Unmoving

def Unmoving (sub : Subscription) (status : String) : Prop :=
  status = "created" ∨ (sub.status.Ended ∧ status ∈ terminalProviderStatuses)

def Restamped (sub sub' : Subscription) : Prop :=
  sub' = sub ∨ ∃ status started, sub' = stamped sub status started

theorem Restamped.fields {sub sub' : Subscription} (h : Restamped sub sub') :
    sub'.status = sub.status ∧ sub'.paymentProviderRef = sub.paymentProviderRef ∧
      sub'.replacementProviderRef = sub.replacementProviderRef := by
  rcases h with rfl | ⟨status, started, rfl⟩ <;> exact ⟨rfl, rfl, rfl⟩

theorem quiet_not_active {sub : Subscription} {status : String} (h : Unmoving sub status) :
    status ≠ "active" ∧ status ∉ failedProviderStatuses := by
  rcases h with rfl | ⟨-, hterm⟩
  · decide
  · rw [terminalProviderStatuses] at hterm
    fin_cases hterm <;> decide

theorem applyStatus_quiet {sub : Subscription} {entity : Dict} {invoices : Option (List Json)}
    {plan : Plan} {actor : Option ℕ} {status : String} {now : Time} (h : Unmoving sub status) :
    applyStatus sub entity invoices plan actor status now = pure (.noChange sub) := by
  obtain ⟨hactive, hfailed⟩ := quiet_not_active h
  unfold applyStatus
  rw [if_neg hactive, if_neg hfailed]
  rcases h with rfl | ⟨hended, hterm⟩
  · rw [if_neg (by decide)]
  · rw [if_pos hterm]
    split
    · rfl
    · have hterminal : applyTerminal sub now = pure (.noChange sub) := by
        unfold applyTerminal
        rcases hended with hs | hs <;> rw [hs]
      rw [hterminal]
      rfl

variable {env : Env} {s : State}

theorem applySnapshot_quiet {sub : Subscription} {entity : Dict} {invoices : Option (List Json)}
    {started : Time} {actor : Option ℕ} (hsub : s.data.sub? = some sub)
    (hquiet : ∀ status, entity.get "status" = .str status → Unmoving sub status) :
    Program.wp env (applySnapshot entity invoices started actor)
      (fun _ t => t.journal.calls = s.journal.calls ∧
        ∃ sub', t.data.sub? = some sub' ∧ Restamped sub sub') (fun _ _ => False) s := by
  have kept : ∃ sub', s.tick.data.sub? = some sub' ∧ Restamped sub sub' := ⟨sub, hsub, Or.inl rfl⟩
  unfold applySnapshot
  rw [Program.wp_savepoint, Program.wp_bind, wp_lockSubscription]
  refine ⟨fun x hx => ?_, fun hnone => (by rw [hsub] at hnone; cases hnone)⟩
  rw [hsub] at hx
  cases hx
  rw [Program.wp_bind, wp_timezoneNow, Program.wp_bind, Program.wp_ask]
  unfold snapshotLocked
  rw [Program.wp_ite]
  refine ⟨fun _ => ⟨rfl, kept⟩, fun _ => ?_⟩
  rw [Program.wp_ite]
  refine ⟨fun _ => ⟨rfl, kept⟩, fun _ => ?_⟩
  split
  · rename_i plan status hplan hstatus
    rw [applyStatus_quiet (hquiet status (Json.str?_eq_some.mp hstatus)), Program.wp_bind]
    unfold storeSnapshot
    rw [Program.wp_pure, Program.wp_bind, wp_saveSubscription]
    have hchecks : (stamped sub status started).Checks := stamped_checks (Database.checks hsub) _ _
    refine ⟨fun _ _ => ?_, fun hno => hno ⟨hchecks, ?_⟩⟩
    · rw [Program.wp_bind, Program.wp_whenever]
      exact ⟨fun h => (by cases h), fun _ => ⟨rfl, _, rfl, Or.inr ⟨status, started, rfl⟩⟩⟩
    · rw [State.tick_data, hsub]
      exact stamped_clash status started
  · exact ⟨rfl, kept⟩

def Env.Reads (env : Env) (ref : Ref) : Prop :=
  ∀ n, ∃ entity, env.oracle.subscription n (.fetchSubscription ref) = .ok entity ∧
    readable ref entity = true

theorem fetchProviderEntity_quiet {good : Prop} {ref : Ref} (hread : good → env.Reads ref) :
    Program.wp env (fetchProviderEntity ref)
      (fun entity t => t.data = s.data ∧ creations t.journal.calls = creations s.journal.calls ∧
        readable ref entity = true ∧
          ∃ n, env.oracle.subscription n (.fetchSubscription ref) = .ok entity)
      (fun _ t => t.data = s.data ∧ creations t.journal.calls = creations s.journal.calls ∧ ¬ good)
      s := by
  unfold fetchProviderEntity
  refine Program.wp_bind_of (P := fun entity t => t.data = s.data ∧
    creations t.journal.calls = creations s.journal.calls ∧
      env.oracle.subscription s.journal.calls.length (.fetchSubscription ref) = .ok entity)
    (F := fun _ t => t.data = s.data ∧
      creations t.journal.calls = creations s.journal.calls ∧ ¬ good)
    (wp_rejectedIsUnavailable (wp_razorpay.mpr ⟨fun entity he => ?_, fun failure he => ?_⟩)) ?_
    fun _ _ h => h
  · exact ⟨rfl, by simp [Call.createdEntity?], he⟩
  · refine ⟨rfl, by simp [Call.createdEntity?], fun hg => ?_⟩
    obtain ⟨entity, ha, -⟩ := hread hg s.journal.calls.length
    rw [ha] at he
    cases he
  · rintro entity t ⟨ht, hc, ha⟩
    rw [Program.wp_ite]
    refine ⟨fun hr => ⟨ht, hc, hr, _, ha⟩, fun hr => ⟨ht, hc, fun hg => hr ?_⟩⟩
    obtain ⟨entity', ha', hr'⟩ := hread hg s.journal.calls.length
    rw [ha] at ha'
    cases ha'
    exact hr'

theorem reconcile_quiet {good : Prop} {sub : Subscription} {ref : Ref}
    (hsub : s.data.sub? = some sub) (hread : good → env.Reads ref)
    (hquiet : ∀ n entity, env.oracle.subscription n (.fetchSubscription ref) = .ok entity →
      ∀ status, entity.get "status" = .str status → Unmoving sub status) :
    Program.wp env (reconcile sub ref)
      (fun p t => creations t.journal.calls = creations s.journal.calls ∧
        t.data.sub? = some p.1 ∧ Restamped sub p.1 ∧ readable ref p.2 = true ∧
          ∃ n, env.oracle.subscription n (.fetchSubscription ref) = .ok p.2)
      (fun _ t => creations t.journal.calls = creations s.journal.calls ∧ t.data.sub? = some sub ∧
        ¬ good) s := by
  unfold reconcile reconcileRead
  rw [Program.wp_bind, Program.wp_bind, wp_timezoneNow]
  refine Program.wp_bind_of (fetchProviderEntity_quiet hread) ?_
    fun _ t ⟨hd, hc, hg⟩ => ⟨hc, (congrArg Database.sub? hd).trans hsub, hg⟩
  rintro entity t ⟨ht, hc, hr, n, ha⟩
  have hinv : fetchInvoicesIfNeeded ref sub.status sub.currentPeriodStart entity = pure none := by
    unfold fetchInvoicesIfNeeded invoicesNeeded
    have hstatus : (entity.get "status").isStr "active" = false := by
      unfold readable at hr
      rw [Bool.and_eq_true] at hr
      obtain ⟨status, hs⟩ := Option.isSome_iff_exists.mp hr.2
      have hs' := Json.str?_eq_some.mp hs
      rw [hs']
      exact beq_eq_false_iff_ne.mpr (quiet_not_active (hquiet n entity ha status hs')).1
    rw [hstatus]
    rfl
  rw [hinv]
  change Program.wp env (do
    let _ ← applySnapshot entity none (env.oracle.clock s.journal.ticks) none
    let row ← Program.savepoint lockSubscription
    pure (row, entity)) _ _ t
  refine Program.wp_bind_of (applySnapshot_quiet ((congrArg Database.sub? ht).trans hsub)
    (hquiet n entity ha)) ?_ fun _ _ h => h.elim
  rintro _ u ⟨hu, sub', hsub', hre⟩
  rw [Program.wp_bind, Program.wp_savepoint, wp_lockSubscription]
  refine ⟨fun x hx => ?_, fun hnone => by rw [hsub'] at hnone; cases hnone⟩
  rw [hsub'] at hx
  cases hx
  exact ⟨by rw [hu, hc]; rfl, hsub', hre, hr, n, ha⟩

end Unmoving

section Creating

def SameCreations (a b : Journal) : Prop := creations b.calls = creations a.calls

instance : IsPreorder Journal SameCreations where
  refl _ := rfl
  trans _ _ _ h h' := h'.trans h

theorem sameCreations_fetch (ref : Ref) :
    Program.Records SameCreations (razorpay (.fetchSubscription ref)) := by
  intro env s
  unfold razorpay
  dsimp only
  split <;> simp [SameCreations, Call.createdEntity?]

theorem sameCreations_abandonUnlessActive (sub : Subscription) (reason : String)
    (abandonable : Dict → Bool) :
    Program.Records SameCreations (abandonUnlessActive sub reason abandonable none) := by
  have hfetch : Program.Records SameCreations (refetchReplacement sub) := by
    unfold refetchReplacement
    split
    · simp
    · refine Program.records_bind (Program.records_handle
        (Program.records_bind (sameCreations_fetch _) (by simp)) fun e => ?_) (by simp)
      split <;> simp
  have hretire : ∀ entity, Program.Records SameCreations
      (retireReplacement sub entity reason none) := by
    intro entity
    refine Program.records_bind (by simp) fun _ => Program.records_bind ?_ fun _ =>
      Program.records_bind (by simp [audit]) (by simp)
    exact Program.records_bind (fun _ _ => rfl) (by simp)
  unfold abandonUnlessActive
  split
  · simp
  · refine Program.records_bind hfetch fun r => ?_
    split
    · simp
    split
    · simp
    split
    · simp
    · exact Program.records_bind (hretire _) (by simp)

theorem sameCreations_clearReplacementBeforeReset (sub : Subscription) :
    Program.Records SameCreations (clearReplacementBeforeReset sub) := by
  unfold clearReplacementBeforeReset
  split
  · simp
  · refine Program.records_bind (sameCreations_abandonUnlessActive _ _ _) fun a => ?_
    split
    · exact Program.records_bind (by simp [saveSubscription]) (by simp)
    · simp

/-- The provider gives a usable id to each subscription that it creates, and the actor is
a member of the merchant's team. -/
structure Env.Stores (env : Env) (actor : ℕ) : Prop where
  usable : ∀ n plan startAt expireBy entity,
    env.oracle.subscription n (.createSubscription plan startAt expireBy) = .ok entity →
      ∃ ref, Ref.ofJson? (entity.get "id") = some ref ∧ ref ∉ env.others.paymentRefs
  member : ∀ n, env.oracle.accepted n actor = true

def Env.Creates (env : Env) : Prop :=
  ∀ n plan startAt expireBy, ∃ entity,
    env.oracle.subscription n (.createSubscription plan startAt expireBy) = .ok entity

/-- One subscription was created, the row waits for its payment, and the result names it. -/
def Submits (env : Env) (s : State) (r : CheckoutResult) (t : State) : Prop :=
  ∃ entity ref sub, creations t.journal.calls = creations s.journal.calls ++ [entity] ∧
    entity.get "id" = .str ref.val ∧ t.data.sub? = some sub ∧ sub.Started ref ∧
    r.checkout = some (checkoutPayload env.settings ref)

variable {env : Env} {s : State} {good : Prop} {plan : Plan} {actor : ℕ}

theorem newlyStored_checks {sub : Subscription} (h : sub.Checks) (hst : sub.status ≠ .pastDue)
    (hfree : sub.replacementProviderRef = none) (plan : Plan) (created : Created) :
    (newlyStored sub plan created).Checks where
  periodSet := Or.inl rfl
  periodOrder := by simp [newlyStored]
  pastDueAt := by
    have hnone : ¬ sub.pastDueAt.isSome = true := fun hp => hst (h.pastDueAt.mp hp)
    exact ⟨fun hp => absurd hp hnone, fun hp => by cases hp⟩
  dunningEpisode := h.dunningEpisode
  dunningStage := h.dunningStage
  refDiffers := Or.inl hfree
  expirySet := h.expirySet
  planSet := h.planSet
  committedNeedsRef := h.committedNeedsRef
  retiredKindSet := h.retiredKindSet
  confirmedNeedsCommitted := h.confirmedNeedsCommitted

theorem newlyStored_clash {sub : Subscription} {created : Created}
    (hfree : sub.replacementProviderRef = none) (hnew : created.ref ∉ env.others.paymentRefs) :
    ¬ env.others.clash (some sub) (newlyStored sub plan created) := by
  rintro (⟨ref, href, hr, -⟩ | ⟨ref, href, -, -⟩ | ⟨ref, href, -, hne⟩)
  · cases href
    exact hnew hr
  · rw [show (newlyStored sub plan created).replacementProviderRef = none from hfree] at href
    cases href
  · exact hne href

theorem createProvider_stores {α : Type} {sub : Subscription} (f : Created → α)
    (hsub : s.data.sub? = some sub) (hst : sub.status ≠ .pastDue)
    (hfree : sub.replacementProviderRef = none) (henv : env.Stores actor)
    (hcreate : good → env.Creates) :
    Program.wp env (do
        let created ← createProviderSubscription plan
        storeNewProviderSubscription sub plan created actor
        pure (f created))
      (fun a t => ∃ created, a = f created ∧
        creations t.journal.calls = creations s.journal.calls ++ [created.entity] ∧
        created.entity.get "id" = .str created.ref.val ∧
          t.data.sub? = some (newlyStored sub plan created))
      (fun _ t => creations t.journal.calls = creations s.journal.calls ∧ ¬ good) s := by
  refine Program.wp_bind_of (P := fun created t => t.data = s.data ∧
    creations t.journal.calls = creations s.journal.calls ++ [created.entity] ∧
      created.entity.get "id" = .str created.ref.val ∧ created.ref ∉ env.others.paymentRefs)
    (F := fun _ t => creations t.journal.calls = creations s.journal.calls ∧ ¬ good) ?_ ?_
    fun _ _ h => h
  · refine Program.wp_bind_of (P := fun entity t => t.data = s.data ∧
      creations t.journal.calls = creations s.journal.calls ++ [entity] ∧
        env.oracle.subscription s.journal.calls.length
          (.createSubscription plan.providerPlanId none none) = .ok entity)
      (F := fun _ t => creations t.journal.calls = creations s.journal.calls ∧ ¬ good)
      (wp_rejectedIsUnavailable (wp_razorpay.mpr ⟨fun entity he => ?_, fun failure he => ?_⟩)) ?_
      fun _ _ h => h
    · exact ⟨rfl, by simp [Call.createdEntity?], he⟩
    · refine ⟨by simp [Call.createdEntity?], fun hg => ?_⟩
      obtain ⟨entity, ha⟩ := hcreate hg s.journal.calls.length plan.providerPlanId none none
      rw [ha] at he
      cases he
    · rintro entity t ⟨ht, hc, ha⟩
      obtain ⟨ref, href, hnew⟩ := henv.usable _ _ _ _ entity ha
      unfold usableCreated
      rw [href]
      dsimp only
      rw [if_neg (by simp), Program.wp_pure]
      exact ⟨ht, hc, Ref.ofJson?_eq_some.mp href, hnew⟩
  · rintro created t ⟨ht, hc, hid, hnew⟩
    have hsub' : t.data.sub? = some sub := (congrArg Database.sub? ht).trans hsub
    unfold storeNewProviderSubscription
    rw [Program.wp_bind, Program.wp_bind, wp_saveSubscription]
    refine ⟨fun _ _ => ?_, fun hno => absurd ⟨newlyStored_checks (Database.checks hsub) hst hfree
      plan created, ?_⟩ hno⟩
    · rw [wp_audit]
      refine ⟨fun _ => ⟨created, rfl, hc, hid, rfl⟩, fun hno => absurd ?_ hno⟩
      rintro user ⟨⟩
      exact henv.member _
    · rw [hsub']
      exact newlyStored_clash hfree hnew

theorem replaceProviderSubscription_submits {sub : Subscription} (hsub : s.data.sub? = some sub)
    (hst : sub.status ≠ .pastDue) (henv : env.Stores actor) (hcreate : good → env.Creates)
    (hfree : good → sub.replacementProviderRef = none) :
    Program.wp env (replaceProviderSubscription sub plan actor none) (Submits env s)
      (fun _ t => creations t.journal.calls = creations s.journal.calls ∧
        t.data.sub? = some sub ∧ ¬ good) s := by
  unfold replaceProviderSubscription
  rw [Program.wp_bind, Program.wp_ask, Program.wp_bind, Program.wp_savepoint]
  have hclear : Program.wp env (clearReplacementBeforeReset sub) (fun _ _ => True)
      (fun _ _ => ¬ good) s := by
    refine Program.wp_mono (Program.wp_run _) (fun _ _ _ => trivial) fun e t hrun hg => ?_
    rw [clearReplacementBeforeReset, if_pos (hfree hg)] at hrun
    cases hrun
  refine Program.wp_bind_of (Program.wp_and (Program.wp_and hclear
    (sameCreations_clearReplacementBeforeReset sub).wp) (clearReplacementBeforeReset_spec hsub)) ?_
    fun _ t h => ⟨h.1.2, hsub, h.1.1⟩
  rintro sub' t ⟨⟨-, hc⟩, hsub', hst', -, hfree', -⟩
  change Program.wp env (do
    let created ← createProviderSubscription plan
    storeNewProviderSubscription sub' plan created actor
    pure created) _ _ t
  refine Program.wp_mono (createProvider_stores id hsub' (hst' ▸ hst) hfree' henv hcreate) ?_ ?_
  · rintro created u ⟨created', hcreated, hu, hid, hrow⟩
    obtain rfl : created = created' := hcreated
    exact ⟨created.entity, created.ref, _, by rw [hu, hc], hid, hrow, ⟨rfl, rfl⟩, rfl⟩
  · rintro e u ⟨hu, hg⟩
    exact ⟨hu.trans hc, hsub, hg⟩

/-- A first checkout: it finds a row, or it stores the new subscription, or nothing is left. -/
theorem firstCheckout_submits (henv : env.Stores actor) (hcreate : good → env.Creates) :
    Program.wp env (firstCheckout plan actor)
      (fun r t => (r = none ∧ t = s ∧ s.data.sub? ≠ none) ∨ ∃ result, r = some result ∧
        Submits env s result t)
      (fun _ t => creations t.journal.calls = creations s.journal.calls ∧
        t.data = s.data ∧ ¬ good) s := by
  unfold firstCheckout
  rw [Program.wp_bind, Program.wp_ask, Program.wp_savepoint]
  unfold insertSubscription
  rw [Program.wp_bind, Program.wp_query]
  cases hrow : s.data.subscription with
  | some row =>
    refine ⟨?_, by simp⟩
    rintro _ ⟨⟩
    refine Or.inl ⟨rfl, rfl, ?_⟩
    rw [Database.sub?, hrow]
    simp
  | none =>
    refine ⟨?_, by simp⟩
    rintro _ ⟨⟩
    rw [Program.wp_ite]
    refine ⟨by simp, fun _ => ?_⟩
    let answer (created : Created) : Option CheckoutResult :=
      some ⟨true, some (checkoutPayload env.settings created.ref)⟩
    refine Program.wp_mono (createProvider_stores answer rfl (by simp [freshRow]) rfl henv hcreate)
      ?_ fun e u h => ⟨h.1, rfl, h.2⟩
    rintro _ u ⟨created, rfl, hu, hid, hrow'⟩
    exact Or.inr ⟨_, rfl, created.entity, created.ref, _, hu, hid, hrow', ⟨rfl, rfl⟩, rfl⟩

end Creating

section Requests

/-- The provider reports one of these statuses whenever it answers a read of the reference. -/
def Env.Reports (env : Env) (ref : Ref) (statuses : List String) : Prop :=
  ∀ n entity, env.oracle.subscription n (.fetchSubscription ref) = .ok entity →
    statusIn statuses entity = true

def Env.Knows (env : Env) (ref : Ref) : Prop :=
  ∀ n entity, env.oracle.subscription n (.fetchSubscription ref) = .ok entity →
    env.settings.planFor (entity.get "plan_id") ≠ none

variable {env : Env} {s : State} {good : Prop} {plan : Plan} {actor : ℕ} {acknowledged : Bool}

theorem statusIn_mem {statuses : List String} {entity : Dict} {status : String}
    (h : statusIn statuses entity = true) (hs : entity.get "status" = .str status) :
    status ∈ statuses := by
  rw [statusIn, hs] at h
  exact of_decide_eq_true h

theorem providerStateError_none {settings : Settings} {entity : Dict}
    (h : statusIn (["created"] ++ terminalProviderStatuses) entity = true)
    (hplan : settings.planFor (entity.get "plan_id") ≠ none) :
    providerStateError settings entity = none := by
  have hpaused : statusIn ["paused"] entity = false := by
    unfold statusIn at *
    split at h
    · rename_i status hs
      have hmem := of_decide_eq_true h
      clear h hs
      rw [terminalProviderStatuses] at hmem
      fin_cases hmem <;> decide
    · cases h
  unfold providerStateError
  rw [if_neg, if_neg hplan]
  rw [hpaused, statusIn_mono (by decide) h]
  simp

/-- On a row that may start, a checkout stores a new subscription or leaves the row so. -/
theorem checkoutLocked_startable {sub : Subscription} {old : Option Ref}
    (hsub : s.data.sub? = some sub) (hstart : sub.Startable old) (henv : env.Stores actor)
    (hended : ∀ ref ∈ old, env.Reports ref terminalProviderStatuses)
    (hcreate : good → env.Creates) (hfree : good → sub.replacementProviderRef = none)
    (hread : good → ∀ ref ∈ old, env.Reads ref ∧ env.Knows ref) :
    Program.wp env (checkoutLocked sub plan actor acknowledged) (Submits env s)
      (fun _ t => creations t.journal.calls = creations s.journal.calls ∧
        (∃ sub', t.data.sub? = some sub' ∧ sub'.Startable old ∧
          sub'.replacementProviderRef = sub.replacementProviderRef) ∧ ¬ good) s := by
  have hst : sub.status ≠ .pastDue ∧ sub.status ≠ .active := by
    rcases hstart with ⟨h, -⟩ | ⟨h | h, -⟩ <;> simp [h]
  -- the reset on a row that may start, wherever the request is
  have reset : ∀ {sub' : Subscription} {t : State}, t.data.sub? = some sub' →
      sub'.Startable old → sub'.status ≠ .pastDue →
      sub'.replacementProviderRef = sub.replacementProviderRef →
      creations t.journal.calls = creations s.journal.calls →
      Program.wp env (replaceProviderSubscription sub' plan actor none) (Submits env s)
        (fun _ u => creations u.journal.calls = creations s.journal.calls ∧
          (∃ x, u.data.sub? = some x ∧ x.Startable old ∧
            x.replacementProviderRef = sub.replacementProviderRef) ∧ ¬ good) t := by
    intro sub' t hsub' hstart' hnp hr hc
    refine Program.wp_mono (replaceProviderSubscription_submits hsub' hnp henv hcreate
      fun hg => hr.trans (hfree hg)) ?_ ?_
    · rintro r u ⟨entity, ref, x, hu, hrest⟩
      exact ⟨entity, ref, x, hu.trans (by rw [hc]), hrest⟩
    · rintro e u ⟨hu, hrow, hg⟩
      exact ⟨hu.trans hc, ⟨sub', hrow, hstart', hr⟩, hg⟩
  unfold checkoutLocked
  rw [if_neg hst.1, if_neg fun h => hst.2 h.1]
  cases hpay : sub.paymentProviderRef with
  | none =>
    dsimp only
    rw [if_neg hst.2]
    unfold checkoutRouted
    rw [if_neg hst.2]
    by_cases hi : sub.status = .incomplete
    · rw [if_pos hi]
      exact reset hsub hstart hst.1 rfl rfl
    · rw [if_neg hi]
      exact reset hsub hstart hst.1 rfl rfl
  | some ref =>
    have hend : sub.status.Ended ∧ ref ∈ old := by
      rcases hstart with ⟨-, hn⟩ | ⟨he, ho⟩
      · rw [hpay] at hn
        cases hn
      · exact ⟨he, ho ref hpay⟩
    dsimp only
    rw [Program.wp_bind, Program.wp_ask]
    refine Program.wp_bind_of (reconcile_quiet hsub (fun hg => (hread hg ref hend.2).1)
      fun n entity ha status hs => Or.inr ⟨hend.1, statusIn_mem (hended ref hend.2 n entity ha) hs⟩)
      ?_ fun _ t ⟨hc, hrow, hg⟩ => ⟨hc, ⟨sub, hrow, hstart, rfl⟩, hg⟩
    rintro ⟨sub', entity⟩ t ⟨hc, hsub', hre, -, n, ha⟩
    obtain ⟨hst', hpay', hr'⟩ := hre.fields
    dsimp only at hsub' ha ⊢
    have hend' : sub'.status.Ended := hst' ▸ hend.1
    have hstart' : sub'.Startable old := by
      refine Or.inr ⟨hend', fun r hr => ?_⟩
      rw [hpay', hpay] at hr
      cases hr
      exact hend.2
    have hterm := hended ref hend.2 n entity ha
    rw [if_neg (hst' ▸ hst.1)]
    unfold checkProviderState
    cases herr : providerStateError env.settings entity with
    | some error =>
      refine ⟨hc, ⟨sub', hsub', hstart', hr'⟩, fun hg => ?_⟩
      rw [providerStateError_none (statusIn_mono (List.subset_append_right _ _) hterm)
        ((hread hg ref hend.2).2 n entity ha)] at herr
      cases herr
    | none =>
      dsimp only
      change Program.wp env (checkoutRouted sub' (some (ref, entity)) sub.status plan actor
        acknowledged) _ _ t
      unfold checkoutRouted
      have hni : sub'.status ≠ .incomplete := by rcases hend' with h | h <;> simp [h]
      rw [if_neg (hst' ▸ hst.2), if_neg hni]
      unfold checkoutEnded
      dsimp only
      rw [if_pos hterm]
      exact reset hsub' hstart' (hst' ▸ hst.1) hr' hc

/-- On a row that waits for its payment, a checkout returns the subscription that is there. -/
theorem checkoutLocked_started {sub : Subscription} {ref : Ref} (hsub : s.data.sub? = some sub)
    (hstarted : sub.Started ref) (hwaits : env.Reports ref ["created"])
    (hplan : ∀ n entity, env.oracle.subscription n (.fetchSubscription ref) = .ok entity →
      isPlanId (entity.get "plan_id") plan.providerPlanId = true)
    (hread : good → env.Reads ref ∧ env.Knows ref) :
    Program.wp env (checkoutLocked sub plan actor acknowledged)
      (fun r t => creations t.journal.calls = creations s.journal.calls ∧
        (∃ sub', t.data.sub? = some sub' ∧ sub'.Started ref) ∧
          r.checkout = some (checkoutPayload env.settings ref))
      (fun _ t => creations t.journal.calls = creations s.journal.calls ∧
        (∃ sub', t.data.sub? = some sub' ∧ sub'.Started ref) ∧ ¬ good) s := by
  obtain ⟨hi, hpay⟩ := hstarted
  unfold checkoutLocked
  rw [if_neg (by simp [hi]), if_neg (by simp [hi]), hpay]
  dsimp only
  rw [Program.wp_bind, Program.wp_ask]
  refine Program.wp_bind_of
      (reconcile_quiet hsub (fun hg => (hread hg).1) fun n entity ha status hs =>
    Or.inl (List.mem_singleton.mp (statusIn_mem (hwaits n entity ha) hs))) ?_
    fun _ t ⟨hc, hrow, hg⟩ => ⟨hc, ⟨sub, hrow, hi, hpay⟩, hg⟩
  rintro ⟨sub', entity⟩ t ⟨hc, hsub', hre, -, n, ha⟩
  obtain ⟨hst', hpay', -⟩ := hre.fields
  dsimp only at hsub' ha ⊢
  have hi' : sub'.status = .incomplete := hst'.trans hi
  have hrow : ∃ x, t.data.sub? = some x ∧ x.Started ref := ⟨sub', hsub', hi', hpay'.trans hpay⟩
  have hcreated := hwaits n entity ha
  rw [if_neg (by simp [hi'])]
  unfold checkProviderState
  cases herr : providerStateError env.settings entity with
  | some error =>
    refine ⟨hc, hrow, fun hg => ?_⟩
    rw [providerStateError_none (statusIn_mono (List.subset_append_left _ _) hcreated)
      ((hread hg).2 n entity ha)] at herr
    cases herr
  | none =>
    dsimp only
    change Program.wp env (checkoutRouted sub' (some (ref, entity)) sub.status plan actor
      acknowledged) _ _ t
    unfold checkoutRouted
    rw [if_neg (by simp [hi']), if_pos hi']
    unfold checkoutIncomplete
    dsimp only
    have hterm : ¬ statusIn terminalProviderStatuses entity = true := by
      intro hterm
      unfold statusIn at hcreated hterm
      split at hcreated
      · rename_i status hs
        have hmem := List.mem_singleton.mp (of_decide_eq_true hcreated)
        rw [hs, hmem] at hterm
        revert hterm
        decide
      · cases hcreated
    rw [if_neg hterm, if_pos (hplan n entity ha)]
    exact ⟨hc, hrow, rfl⟩

end Requests

/-- A request: it has not begun, it has read that there is no row, or it has ended. -/
inductive Submission where
  | waiting (actor : ℕ) (acknowledged : Bool)
  | rowless (plan : Plan) (actor : ℕ) (acknowledged : Bool)
  | done (result : Except Error CheckoutResult)

def Submission.actor? : Submission → Option ℕ
  | .waiting actor _ | .rowless _ actor _ => some actor
  | .done _ => none

/-- One step of a request for `planId`. -/
def Submission.advance (planId : ℕ) (db : Database) (env : Env) : Submission → Submission × State
  | .waiting actor acknowledged =>
    match db.sub?, env.settings.offeredPlan planId, env.settings.configured with
    | none, some plan, true => (.rowless plan actor acknowledged, ⟨db, Journal.empty⟩)
    | _, _, _ =>
      let out := (startCheckout actor planId acknowledged).run env ⟨db, Journal.empty⟩
      (.done out.1, out.2)
  | .rowless plan actor acknowledged =>
    let out := (checkoutUnlocked plan actor acknowledged).run env ⟨db, Journal.empty⟩
    (.done out.1, out.2)
  | .done result => (.done result, ⟨db, Journal.empty⟩)

/-- The tables, the requests, and the subscriptions that the provider has created for them. -/
structure Checkouts where
  db : Database
  submissions : List Submission
  created : List Dict

def Checkouts.step (planId : ℕ) (sys : Checkouts) (choice : ℕ × Env) : Checkouts :=
  match sys.submissions[choice.1]? with
  | none => sys
  | some submission =>
    let out := submission.advance planId sys.db choice.2
    ⟨out.2.data, sys.submissions.set choice.1 out.1, sys.created ++ creations out.2.journal.calls⟩

theorem startCheckout_unlocked {planId actor : ℕ} {acknowledged : Bool} {plan : Plan} {env : Env}
    {s : State} (hrow : s.data.sub? = none) (hplan : env.settings.offeredPlan planId = some plan)
    (hconf : env.settings.configured = true) :
    (startCheckout actor planId acknowledged).run env s =
      (checkoutUnlocked plan actor acknowledged).run env s := by
  have hlock : lockCurrentSubscription.run env s = (.ok none, s) := by
    have h : Program.wp env lockCurrentSubscription (fun row t => row = none ∧ t = s)
        (fun _ _ => False) s := lockCurrentSubscription_spec ⟨hrow, rfl⟩
    obtain ⟨row, t, hrun, rfl, rfl⟩ := Program.wp_total h
    exact hrun
  have hbind : ∀ {α β : Type} {m : Prog α} {f : α → Prog β} {a : α} {t : State},
      m.run env s = (.ok a, t) → (m >>= f).run env s = (f a).run env t := by
    intro α β m f a t h
    change (Program.bind m f).run env s = _
    simp only [Program.bind, h]
  unfold startCheckout
  rw [hbind (m := Program.ask) (a := env) (t := s) rfl, hplan]
  dsimp only
  rw [if_neg (by simp [hconf]), hbind hlock]

/-- What the provider, the settings and the team give to a step of a request. -/
structure Offers (planId : ℕ) (plan : Plan) (old : Option Ref)
    (t : Interleaving.Transition Checkouts (ℕ × Env)) : Prop where
  offered : t.label.2.settings.offeredPlan planId = some plan
  stores : ∀ x, t.before.submissions[t.label.1]? = some x → ∀ actor ∈ x.actor?,
    t.label.2.Stores actor
  ended : ∀ ref ∈ old, t.label.2.Reports ref terminalProviderStatuses
  /-- What was created stays created, for this plan. -/
  waits : ∀ entity ∈ t.before.created, ∀ ref : Ref, entity.get "id" = .str ref.val →
    t.label.2.Reports ref ["created"] ∧
      ∀ n answer, t.label.2.oracle.subscription n (.fetchSubscription ref) = .ok answer →
        isPlanId (answer.get "plan_id") plan.providerPlanId = true

structure AllAnswered (old : Option Ref)
    (t : Interleaving.Transition Checkouts (ℕ × Env)) : Prop where
  configured : t.label.2.settings.configured = true
  creates : t.label.2.Creates
  reads : ∀ ref : Ref, (ref ∈ old ∨ ∃ entity ∈ t.before.created, entity.get "id" = .str ref.val) →
    t.label.2.Reads ref ∧ t.label.2.Knows ref

section Runs

variable {planId : ℕ} {plan : Plan} {old : Option Ref} {env : Env} {s : State} {good : Prop}
  {actor : ℕ} {acknowledged : Bool}

def Database.Startable (old : Option Ref) (db : Database) : Prop :=
  ∀ sub ∈ db.sub?, sub.Startable old

def Database.Bare (db : Database) : Prop := ∀ sub ∈ db.sub?, sub.replacementProviderRef = none

def Unserved (old : Option Ref) (good : Prop) (s t : State) : Prop :=
  creations t.journal.calls = creations s.journal.calls ∧ t.data.Startable old ∧
    (s.data.Bare → t.data.Bare) ∧ ¬ good

theorem Unserved.of_data {t : State} (hs : s.data.Startable old) (hg : ¬ good)
    (hd : t.data = s.data) (hc : creations t.journal.calls = creations s.journal.calls) :
    Unserved old good s t :=
  ⟨hc, hd ▸ hs, fun hb => hd ▸ hb, hg⟩

/-- What the specifications of a request on a row that may start need of the step. -/
structure Serves (env : Env) (old : Option Ref) (actor : ℕ) (good : Prop)
    (db : Database) : Prop where
  stores : env.Stores actor
  ended : ∀ ref ∈ old, env.Reports ref terminalProviderStatuses
  creates : good → env.Creates
  bare : good → db.Bare
  reads : good → ∀ ref ∈ old, env.Reads ref ∧ env.Knows ref

theorem checkoutLocked_unserved {sub : Subscription} (hsub : s.data.sub? = some sub)
    (hs : s.data.Startable old) (h : Serves env old actor good s.data) :
    Program.wp env (checkoutLocked sub plan actor acknowledged) (Submits env s)
      (fun _ t => Unserved old good s t) s := by
  refine Program.wp_mono (checkoutLocked_startable hsub (hs sub hsub) h.stores h.ended h.creates
    (fun hg => h.bare hg sub hsub) h.reads) (fun _ _ h => h) ?_
  rintro _ t ⟨hc, ⟨sub', hsub', hstart, hr⟩, hg⟩
  have only : ∀ {x}, x ∈ t.data.sub? → x = sub' := fun hx =>
    Option.some.inj (hx.symm.trans hsub')
  refine ⟨hc, fun x hx => only hx ▸ hstart, fun hb x hx => ?_, hg⟩
  rw [only hx, hr]
  exact hb sub hsub

theorem lockCurrent_then {α : Type} {f : Option Subscription → Prog α}
    {Q : α → State → Prop} {E : Error → State → Prop}
    (h : Program.wp env (f s.data.sub?) Q E s) :
    Program.wp env (lockCurrentSubscription >>= f) Q E s := by
  rw [Program.wp_bind]
  exact lockCurrentSubscription_spec h

theorem checkoutUnlocked_startable (hs : s.data.Startable old)
    (h : Serves env old actor good s.data) :
    Program.wp env (checkoutUnlocked plan actor acknowledged) (Submits env s)
      (fun _ t => Unserved old good s t) s := by
  unfold checkoutUnlocked
  refine Program.wp_bind_of (firstCheckout_submits h.stores h.creates) ?_
    fun _ t ⟨hc, hd, hg⟩ => .of_data hs hg hd hc
  rintro r t (⟨rfl, rfl, hrow⟩ | ⟨result, rfl, hsubmits⟩)
  · refine lockCurrent_then ?_
    obtain ⟨sub, hsub⟩ := Option.ne_none_iff_exists'.mp hrow
    rw [hsub]
    exact checkoutLocked_unserved hsub hs h
  · exact hsubmits

theorem startCheckout_startable (hs : s.data.Startable old) (h : Serves env old actor good s.data)
    (hplan : env.settings.offeredPlan planId = some plan)
    (hconf : good → env.settings.configured = true) :
    Program.wp env (startCheckout actor planId acknowledged) (Submits env s)
      (fun _ t => Unserved old good s t) s := by
  unfold startCheckout
  rw [Program.wp_bind, Program.wp_ask, hplan]
  dsimp only
  rw [Program.wp_ite]
  refine ⟨fun hno => .of_data hs (fun hg => by simp [hconf hg] at hno) rfl rfl, fun _ => ?_⟩
  refine lockCurrent_then ?_
  cases hrow : s.data.sub? with
  | none => exact checkoutUnlocked_startable hs h
  | some sub => exact checkoutLocked_unserved hrow hs h

def Database.Started (ref : Ref) (db : Database) : Prop :=
  ∃ sub, db.sub? = some sub ∧ sub.Started ref

/-- What the specifications of a request on a row that waits need of the step. -/
structure Waits (env : Env) (plan : Plan) (ref : Ref) (good : Prop) : Prop where
  created : env.Reports ref ["created"]
  plan : ∀ n answer, env.oracle.subscription n (.fetchSubscription ref) = .ok answer →
    isPlanId (answer.get "plan_id") plan.providerPlanId = true
  reads : good → env.Reads ref ∧ env.Knows ref

def Reuses (env : Env) (ref : Ref) (s : State) (r : CheckoutResult) (t : State) : Prop :=
  creations t.journal.calls = creations s.journal.calls ∧ t.data.Started ref ∧
    r.checkout = some (checkoutPayload env.settings ref)

def Refusing (ref : Ref) (good : Prop) (s t : State) : Prop :=
  creations t.journal.calls = creations s.journal.calls ∧ t.data.Started ref ∧ ¬ good

theorem checkoutUnlocked_started {ref : Ref} (hs : s.data.Started ref)
    (h : Waits env plan ref good) :
    Program.wp env (checkoutUnlocked plan actor acknowledged) (Reuses env ref s)
      (fun _ t => Refusing ref good s t) s := by
  obtain ⟨sub, hsub, hstarted⟩ := hs
  have hfirst : Program.wp env (firstCheckout plan actor) (fun r t => r = none ∧ t = s)
      (fun _ _ => False) s := by
    unfold firstCheckout
    rw [Program.wp_bind, Program.wp_ask, Program.wp_savepoint]
    unfold insertSubscription
    rw [Program.wp_bind, Program.wp_query]
    cases hrow : s.data.subscription with
    | none =>
      rw [Database.sub?, hrow] at hsub
      cases hsub
    | some row =>
      refine ⟨?_, by simp⟩
      rintro _ ⟨⟩
      exact ⟨rfl, rfl⟩
  unfold checkoutUnlocked
  refine Program.wp_bind_of hfirst ?_ fun _ _ h => h.elim
  rintro _ _ ⟨rfl, rfl⟩
  refine lockCurrent_then ?_
  rw [hsub]
  exact checkoutLocked_started hsub hstarted h.created h.plan h.reads

theorem startCheckout_started {ref : Ref} (hs : s.data.Started ref) (h : Waits env plan ref good)
    (hplan : env.settings.offeredPlan planId = some plan)
    (hconf : good → env.settings.configured = true) :
    Program.wp env (startCheckout actor planId acknowledged) (Reuses env ref s)
      (fun _ t => Refusing ref good s t) s := by
  have hrow := hs
  obtain ⟨sub, hsub, hstarted⟩ := hs
  unfold startCheckout
  rw [Program.wp_bind, Program.wp_ask, hplan]
  dsimp only
  rw [Program.wp_ite]
  refine ⟨fun hno => ⟨rfl, hrow, fun hg => by simp [hconf hg] at hno⟩, fun _ => ?_⟩
  refine lockCurrent_then ?_
  rw [hsub]
  exact checkoutLocked_started hsub hstarted h.created h.plan h.reads

end Runs

section System

variable {planId : ℕ} {plan : Plan} {old : Option Ref} {sys : Checkouts} {choice : ℕ × Env}
  {good : Prop}

/-- No subscription was created and no request succeeded, or one was, and each request that
succeeded returned its id. -/
structure Checkouts.Safe (plan : Plan) (old : Option Ref) (sys : Checkouts) : Prop where
  rowless : ∀ p actor acknowledged, .rowless p actor acknowledged ∈ sys.submissions → p = plan
  phase : (sys.created = [] ∧ sys.db.Startable old ∧ ∀ r, .done (.ok r) ∉ sys.submissions) ∨
    ∃ entity ref, sys.created = [entity] ∧ entity.get "id" = .str ref.val ∧ sys.db.Started ref ∧
      ∀ r, .done (.ok r) ∈ sys.submissions →
        ∃ settings, r.checkout = some (checkoutPayload settings ref)

structure Checkouts.Served (sys : Checkouts) : Prop where
  bare : sys.created = [] → sys.db.Bare
  succeeds : ∀ r, .done r ∈ sys.submissions → ∃ result, r = .ok result

/-- What a request that ends does on a row that may start, and on one that waits. -/
structure Ending (env : Env) (plan : Plan) (old : Option Ref) (actor : ℕ) (db : Database)
    (r : Except Error CheckoutResult) (t : State) : Prop where
  startable : ∀ good : Prop, db.Startable old → Serves env old actor good db →
    (good → env.settings.configured = true) →
      (∃ result, r = .ok result ∧ Submits env ⟨db, Journal.empty⟩ result t) ∨
        ((∃ e, r = .error e) ∧ Unserved old good ⟨db, Journal.empty⟩ t)
  started : ∀ (good : Prop) (ref : Ref), db.Started ref → Waits env plan ref good →
    (good → env.settings.configured = true) →
      (∃ result, r = .ok result ∧ Reuses env ref ⟨db, Journal.empty⟩ result t) ∨
        ((∃ e, r = .error e) ∧ Refusing ref good ⟨db, Journal.empty⟩ t)

theorem wp_outcome {α : Type} {m : Prog α} {env : Env} {s : State} {Q : α → State → Prop}
    {F : State → Prop} (h : Program.wp env m Q (fun _ t => F t) s) :
    (∃ a, (m.run env s).1 = .ok a ∧ Q a (m.run env s).2) ∨
      ((∃ e, (m.run env s).1 = .error e) ∧ F (m.run env s).2) := by
  rcases hrun : m.run env s with ⟨e | a, t⟩
  · exact Or.inr ⟨⟨e, rfl⟩, Program.wp_error h hrun⟩
  · exact Or.inl ⟨a, rfl, Program.wp_ok h hrun⟩

/-- A step of a request that has not ended: it has read that there is no row, or it ends. -/
theorem Submission.advance_cases (old : Option Ref) (db : Database) {env : Env} {x : Submission}
    {actor : ℕ} (hx : x.actor? = some actor) (hplan : env.settings.offeredPlan planId = some plan)
    (hp : ∀ p a k, x = .rowless p a k → p = plan) :
    (∃ acknowledged, x.advance planId db env =
        (.rowless plan actor acknowledged, ⟨db, Journal.empty⟩)) ∨
      ∃ r t, x.advance planId db env = (.done r, t) ∧ Ending env plan old actor db r t := by
  have start : ∀ k, Ending env plan old actor db
      ((startCheckout actor planId k).run env ⟨db, Journal.empty⟩).1
      ((startCheckout actor planId k).run env ⟨db, Journal.empty⟩).2 := fun k =>
    ⟨fun _ hs h hc => wp_outcome (startCheckout_startable hs h hplan hc),
      fun _ _ hs h hc => wp_outcome (startCheckout_started hs h hplan hc)⟩
  cases x with
  | waiting a k =>
    cases hx
    unfold Submission.advance
    dsimp only
    split
    · rename_i p hp' _
      rw [hplan] at hp'
      cases hp'
      exact Or.inl ⟨k, rfl⟩
    · exact Or.inr ⟨_, _, rfl, start k⟩
  | rowless p a k =>
    cases hx
    obtain rfl := hp p actor k rfl
    exact Or.inr ⟨_, _, rfl, fun _ hs h _ => wp_outcome (checkoutUnlocked_startable hs h),
      fun _ _ hs h _ => wp_outcome (checkoutUnlocked_started hs h)⟩
  | done r => cases hx

theorem Offers.serves (ho : Offers planId plan old (transition (Checkouts.step planId) sys choice))
    (ha : good → AllAnswered old (transition (Checkouts.step planId) sys choice))
    (hb : good → sys.db.Bare) {x : Submission}
    (hx : sys.submissions[choice.1]? = some x) {actor : ℕ}
    (hactor : x.actor? = some actor) : Serves choice.2 old actor good sys.db :=
  ⟨ho.stores x hx actor hactor, ho.ended, fun hg => (ha hg).creates, hb,
    fun hg ref href => (ha hg).reads ref (Or.inl href)⟩

theorem Checkouts.Safe.step (good : Prop) (hs : sys.Safe plan old)
    (ho : Offers planId plan old (transition (Checkouts.step planId) sys choice))
    (ha : good → AllAnswered old (transition (Checkouts.step planId) sys choice))
    (hserved : good → sys.Served) :
    (sys.step planId choice).Safe plan old ∧ (good → (sys.step planId choice).Served) := by
  unfold Checkouts.step
  cases hx : sys.submissions[choice.1]? with
  | none => exact ⟨hs, hserved⟩
  | some x =>
    dsimp only
    have hmem := List.mem_of_getElem? hx
    have kept : ∀ {y z : Submission}, y ∈ sys.submissions.set choice.1 z →
        y ∈ sys.submissions ∨ y = z :=
      fun hy => List.mem_or_eq_of_mem_set hy
    cases hactor : x.actor? with
    | none =>
      -- a request that has ended takes no step
      cases x with
      | waiting | rowless => cases hactor
      | done r =>
        have hset : sys.submissions.set choice.1 (.done r) = sys.submissions := by
          obtain ⟨hlt, hget⟩ := List.getElem?_eq_some_iff.mp hx
          rw [← hget, List.set_getElem_self]
        have hsame : (⟨sys.db, sys.submissions.set choice.1 (.done r),
            sys.created ++ creations Journal.empty.calls⟩ : Checkouts) = sys := by
          rw [hset, show creations Journal.empty.calls = [] from rfl, List.append_nil]
        exact hsame.symm ▸ ⟨hs, hserved⟩
    | some actor =>
      have hplan : choice.2.settings.offeredPlan planId = some plan := ho.offered
      rcases Submission.advance_cases old sys.db hactor hplan
        (fun p a k he => hs.rowless p a k (he ▸ hmem)) with ⟨k, hadv⟩ | ⟨r, t, hadv, hend⟩
      · rw [hadv, show creations Journal.empty.calls = [] from rfl, List.append_nil]
        have notDone : ∀ {q}, .done q ∈ sys.submissions.set choice.1 (.rowless plan actor k) →
            .done q ∈ sys.submissions := fun hq => (kept hq).resolve_right (by simp)
        refine ⟨⟨fun p a k' hm => ?_, ?_⟩, fun hg => ⟨(hserved hg).bare, fun q hq =>
          (hserved hg).succeeds q (notDone hq)⟩⟩
        · rcases kept hm with hm | he
          · exact hs.rowless p a k' hm
          · cases he
            rfl
        · rcases hs.phase with ⟨hc, hd, hno⟩ | ⟨entity, ref, hc, hid, hd, hret⟩
          · exact Or.inl ⟨hc, hd, fun q hq => hno q (notDone hq)⟩
          · exact Or.inr ⟨entity, ref, hc, hid, hd, fun q hq => hret q (notDone hq)⟩
      · rw [hadv]
        dsimp only
        have hrowless : ∀ p a k,
            .rowless p a k ∈ sys.submissions.set choice.1 (.done r) → p = plan :=
          fun p a k hm => hs.rowless p a k ((kept hm).resolve_right (by simp))
        have done : ∀ {q}, .done q ∈ sys.submissions.set choice.1 (.done r) →
            .done q ∈ sys.submissions ∨ q = r := fun hq =>
          (kept hq).imp_right fun he => Submission.done.inj he
        rcases hs.phase with ⟨hc, hd, hno⟩ | ⟨entity, ref, hc, hid, hd, hret⟩
        · have hserves := ho.serves ha (fun hg => (hserved hg).bare hc) hx hactor
          rcases hend.startable good hd hserves fun hg => (ha hg).configured with
            ⟨result, rfl, entity, ref, sub, hcreated, hid, hsub, hst, hres⟩ |
            ⟨⟨e, rfl⟩, hcreated, hd', -, hg'⟩
          · have hone : sys.created ++ creations t.journal.calls = [entity] := by
              rw [hc, hcreated]
              rfl
            refine ⟨⟨hrowless, Or.inr ⟨entity, ref, hone, hid, ⟨sub, hsub, hst⟩, fun q hq => ?_⟩⟩,
              fun hg => ⟨fun hn => (by rw [hone] at hn; cases hn), fun q hq => ?_⟩⟩
            · rcases done hq with hq | he
              · exact absurd hq (hno q)
              · cases he
                exact ⟨_, hres⟩
            · exact (done hq).elim (fun hq => (hserved hg).succeeds q hq) fun he => ⟨result, he⟩
          · have hzero : sys.created ++ creations t.journal.calls = [] := by
              rw [hc, hcreated]
              rfl
            refine ⟨⟨hrowless, Or.inl ⟨hzero, hd', fun q hq => ?_⟩⟩, fun hg => absurd hg hg'⟩
            exact (done hq).elim (fun hq => hno q hq) fun he => by cases he
        · have hwaits : Waits choice.2 plan ref good :=
            ⟨(ho.waits entity (hc ▸ List.mem_singleton_self entity) ref hid).1,
              (ho.waits entity (hc ▸ List.mem_singleton_self entity) ref hid).2,
              fun hg => (ha hg).reads ref
                (Or.inr ⟨entity, hc ▸ List.mem_singleton_self entity, hid⟩)⟩
          have hsame : creations t.journal.calls = [] → sys.created ++ creations t.journal.calls =
              [entity] := fun h => by rw [hc, h]; rfl
          rcases hend.started good ref hd hwaits fun hg => (ha hg).configured with
            ⟨result, rfl, hcreated, hd', hres⟩ | ⟨⟨e, rfl⟩, hcreated, hd', hg'⟩
          · refine ⟨⟨hrowless, Or.inr ⟨entity, ref, hsame hcreated, hid, hd', fun q hq => ?_⟩⟩,
              fun hg => ⟨fun hn => (by rw [hsame hcreated] at hn; cases hn), fun q hq => ?_⟩⟩
            · rcases done hq with hq | he
              · exact hret q hq
              · cases he
                exact ⟨_, hres⟩
            · exact (done hq).elim (fun hq => (hserved hg).succeeds q hq) fun he => ⟨result, he⟩
          · refine ⟨⟨hrowless, Or.inr ⟨entity, ref, hsame hcreated, hid, hd', fun q hq => ?_⟩⟩,
              fun hg => absurd hg hg'⟩
            exact (done hq).elim (fun hq => hret q hq) fun he => by cases he

end System

end ReviewFlow.Billing
