import ReviewFlow.Rollback
import ReviewFlow.Billing.CheckoutCancels
import ReviewFlow.Billing.References

/-!
# Failed requests

A domain error becomes a response, and the transaction of the request commits what its
released savepoints left. Each phase of a request restores the tables when it raises one;
what stays is the reconcile before it, and a replacement that a cancel gave up first.
-/

namespace ReviewFlow.Billing

open Savepoint Program

def Domain (e : Error) : Prop := e.isDomain = true

instance (e : Error) : Decidable (Domain e) := inferInstanceAs (Decidable (_ = _))

section Phases

theorem preserves_timezoneNow : Preserves timezoneNow := fun _ _ => rfl

theorem preserves_razorpay (request : Request) : Preserves (razorpay request) :=
  fun _ _ => wp_razorpay.mpr ⟨fun _ _ => rfl, fun _ _ => rfl⟩

theorem preserves_rejectedIsUnavailable {α : Type} {m : Prog α} (h : Preserves m) :
    Preserves (rejectedIsUnavailable m) := by
  apply h.handle
  intro e
  split <;> exact preserves_raise _

theorem preserves_usableCreated (entity : Dict) (current : Option Ref) :
    Preserves (usableCreated entity current) := by
  unfold usableCreated
  split
  · split
    · exact preserves_raise _
    · exact preserves_pure _
  · exact preserves_raise _

theorem preserves_createReplacementSubscription (plan : Plan) (terms : Terms)
    (current : Option Ref) :
    Preserves (createReplacementSubscription plan terms current) := by
  unfold createReplacementSubscription
  split
  · exact preserves_raise _
  · exact (preserves_rejectedIsUnavailable (preserves_razorpay _)).bind fun _ =>
      preserves_usableCreated _ _

theorem preserves_updateOrRefusal (ref : Ref) (plan : Plan) (scheduleChangeAt : String) :
    Preserves (updateOrRefusal ref plan scheduleChangeAt) := by
  apply ((preserves_razorpay _).bind fun _ => preserves_pure _).handle
  intro e
  split
  · exact preserves_pure _
  · exact preserves_raise _

theorem restores_replaceProviderSubscription (sub : Subscription) (plan : Plan) (actor : ℕ)
    (cancelRef : Option Ref) :
    Restores Domain (replaceProviderSubscription sub plan actor cancelRef) :=
  preserves_ask.restores_bind fun _ => (restores_savepoint _).bind fun _ => avoids_pure _

theorem restores_createReplacement (sub : Subscription) (plan : Plan)
    (kind : ReplacementKind) (actor : ℕ)
    (acknowledged : Bool) (terms : Terms) :
    Restores Domain (createReplacement sub plan kind actor acknowledged terms) := by
  unfold createReplacement
  split
  · exact restores_raise _
  · split
    · exact restores_raise _
    · apply preserves_ask.restores_bind
      intro env
      apply (preserves_createReplacementSubscription _ _ _).restores_bind
      intro created
      exact (restores_savepoint _).bind fun _ => avoids_pure _

theorem restores_startPlanChangeReplacement (sub : Subscription) (plan : Plan)
    (kind : ReplacementKind)
    (actor : ℕ) (acknowledged : Bool) (settings : Settings) :
    Restores Domain (startPlanChangeReplacement sub plan kind actor acknowledged settings) := by
  unfold startPlanChangeReplacement
  split
  · exact restores_raise _
  · apply preserves_timezoneNow.restores_bind
    intro now
    split
    · exact restores_raise _
    · exact restores_createReplacement _ _ _ _ _ _

theorem restores_checkoutUpdated (sub : Subscription) (plan : Plan) (ref : Ref)
    (upgrade : Bool) (actor : ℕ)
    (acknowledged : Bool) (started : Time) (answer : Except ProviderFailure Dict)
    (settings : Settings) :
    Restores Domain
    (checkoutUpdated sub plan ref upgrade actor acknowledged started answer settings) := by
  unfold checkoutUpdated
  generalize (if upgrade = true then ReplacementKind.upgrade else ReplacementKind.downgrade) = kind
  cases answer with
  | error refusal =>
    dsimp only
    split
    · exact restores_startPlanChangeReplacement _ _ _ _ _ _
    · exact restores_raise _
  | ok entity =>
    dsimp only
    split
    · exact (restores_savepoint _).bind fun _ => avoids_pure _
    · exact (restores_savepoint _).bind fun _ => avoids_pure _

theorem restores_checkoutActive (sub : Subscription) (plan : Plan) (actor : ℕ)
    (acknowledged : Bool) :
    Restores Domain (checkoutActive sub plan actor acknowledged) := by
  unfold checkoutActive
  split
  · exact restores_raise _
  split
  · exact restores_raise _
  split
  · exact restores_pure _
  split
  · exact restores_raise _
  · apply preserves_ask.restores_bind
    intro env
    apply preserves_timezoneNow.restores_bind
    intro started
    apply (preserves_updateOrRefusal _ _ _).restores_bind
    intro answer
    exact restores_checkoutUpdated _ _ _ _ _ _ _ _ _

theorem restores_checkoutIncomplete (sub : Subscription)
    (fetched : Option (Ref × Dict)) (plan : Plan)
    (actor : ℕ) : Restores Domain (checkoutIncomplete sub fetched plan actor) := by
  unfold checkoutIncomplete
  split
  · exact restores_replaceProviderSubscription _ _ _ _
  split
  · exact restores_replaceProviderSubscription _ _ _ _
  split
  · exact preserves_ask.restores_bind fun _ => restores_pure _
  split
  · exact restores_replaceProviderSubscription _ _ _ _
  · exact restores_raise _

theorem restores_checkoutEnded (sub : Subscription) (fetched : Option (Ref × Dict)) (plan : Plan)
    (actor : ℕ) : Restores Domain (checkoutEnded sub fetched plan actor) := by
  unfold checkoutEnded
  split
  · exact restores_replaceProviderSubscription _ _ _ _
  split
  · exact restores_replaceProviderSubscription _ _ _ _
  split
  · exact restores_replaceProviderSubscription _ _ _ _
  · exact restores_raise _

theorem restores_checkoutRouted (sub : Subscription)
    (fetched : Option (Ref × Dict)) (before : Status)
    (plan : Plan) (actor : ℕ) (acknowledged : Bool) :
    Restores Domain (checkoutRouted sub fetched before plan actor acknowledged) := by
  unfold checkoutRouted
  split
  · split
    · exact restores_pure _
    · exact restores_checkoutActive _ _ _ _
  · split
    · exact restores_checkoutIncomplete _ _ _ _
    · exact restores_checkoutEnded _ _ _ _

theorem preserves_replacementPending (sub : Subscription) (plan : Plan) :
    Preserves (replacementPending sub plan) := by
  unfold replacementPending
  split
  · split
    · exact preserves_ask.bind fun _ => preserves_pure _
    · exact preserves_raise _
  · exact preserves_raise _

theorem restores_cancelAtPeriodEnd (sub : Subscription) (ref : Ref) (actor : ℕ) :
    Restores Domain (cancelAtPeriodEnd sub ref actor) := by
  apply (preserves_rejectedIsUnavailable (preserves_razorpay _)).restores_bind
  intro _
  exact (restores_savepoint _).bind fun _ => avoids_pure _

theorem avoids_lockSubscription : Avoids Domain lockSubscription := by
  intro env s
  rw [wp_lockSubscription]
  exact ⟨fun _ _ => trivial, fun _ => by decide⟩

theorem avoids_saveSubscription (sub : Subscription) : Avoids Domain (saveSubscription sub) := by
  intro env s
  rw [wp_saveSubscription]
  exact ⟨fun _ _ => trivial, fun _ => by decide⟩

theorem not_domain_of_uncaught {failure : ProviderFailure}
    (h : (Error.provider failure).isCaught = false) :
    ¬ Domain (.provider failure) := by
  cases failure with
  | notImplemented => decide
  | _ => cases h

theorem avoids_updateProviderStatus (ref : Ref) (status : String) :
    Avoids Domain (updateProviderStatus ref status) := by
  intro env s
  unfold updateProviderStatus
  rw [wp_savepoint, wp_bind, wp_firstSubscription]
  split
  · trivial
  · exact avoids_whenever (avoids_saveSubscription _) env s

theorem avoids_cancelPastDueProvider (ref : Option Ref) (providerStatus : Option String) :
    Avoids Domain (cancelPastDueProvider ref providerStatus) := by
  unfold cancelPastDueProvider
  split
  · apply avoids_whenever
    apply Avoids.bind
    · intro env s
      rw [wp_orNone, wp_razorpay]
      exact ⟨fun _ _ => trivial, fun _ _ => ⟨fun _ => trivial, not_domain_of_uncaught⟩⟩
    · intro answer
      unfold recordCancelAnswer
      split
      · exact avoids_pure _
      · split
        · exact avoids_updateProviderStatus _ _
        · exact avoids_pure _
  · exact avoids_pure _

theorem restores_cancelPastDue (sub : Subscription) (actor : ℕ) :
    Restores Domain (cancelPastDue sub actor) := by
  apply (restores_savepoint _).bind
  intro _
  exact (avoids_cancelPastDueProvider _ _).bind fun _ => avoids_lockSubscription

theorem restores_cancelReconciled (sub : Subscription) (ref : Ref) (entity : Dict) (actor : ℕ) :
    Restores Domain (cancelReconciled sub ref entity actor) := by
  unfold cancelReconciled
  split
  · split
    · exact restores_raise _
    · exact restores_cancelAtPeriodEnd _ _ _
  · split
    · exact restores_raise _
    · exact restores_cancelPastDue _ _

end Phases

/-- The tables of `t` are those of `s` with the fetched main subscription applied. -/
def Reconciles (env : Env) (s t : State) : Prop :=
  ∃ sub ref fetched u result v, s.data.sub? = some sub ∧ sub.paymentProviderRef = some ref ∧
    (reconcileRead sub ref).run env s = (.ok fetched, u) ∧
    (applySnapshot fetched.entity fetched.invoices fetched.started none).run env u =
    (.ok result, v) ∧
    t.data = v.data

/-- What a failed request may leave: the reconcile, with a pending replacement still in place. -/
structure OnlyReconciled (env : Env) (s t : State) : Prop where
  changes : t.data = s.data ∨ Reconciles env s t
  replacement : ∀ ref, s.data.replacement? = some ref → t.data.replacement? = some ref

section Requests

variable {env : Env} {s t u : State} {sub : Subscription} {ref : Ref} {actor : ℕ}

theorem OnlyReconciled.of_eq (h : t.data = s.data) : OnlyReconciled env s t := by
  refine ⟨.inl h, ?_⟩
  intro ref href
  rwa [h]

theorem OnlyReconciled.of_data (h : OnlyReconciled env s t) (hu : u.data = t.data) :
    OnlyReconciled env s u := by
  constructor
  · rw [hu]
    apply h.changes.imp_right
    rintro ⟨sub, ref, fetched, read, result, v, hsub, href, hread, hrun, hv⟩
    exact ⟨sub, ref, fetched, read, result, v, hsub, href, hread, hrun, hu.trans hv⟩
  · rw [hu]
    exact h.replacement

theorem SnapshotPost.replacement {entity : Dict} {invoices : Option (List Json)} {started : Time}
    {result : SnapshotResult} (h : SnapshotPost env.settings entity invoices started result s t)
    (hsub : s.data.sub? = some sub) (hna : sub.status ≠ .active) (hnp : sub.status ≠ .pastDue) :
    t.data.replacement? = s.data.replacement? := by
  cases h with
  | dropped sub₁ _ _ data _ => rw [data]
  | applied sub₁ plan status now r done _ =>
    obtain rfl := Option.some.inj (done.before.symm.trans hsub)
    rw [Database.replacement?_of done.after, Database.replacement?_of done.before]
    have hslots := statusOutcome_slots sub₁ entity invoices plan status now
    rcases done.row with hr | ⟨hchanged, hadvanced, -⟩
    · change r.sub.replacementProviderRef = _
      rw [hr]
      exact hslots.replacement
    · exfalso
      rw [statusOutcome] at hchanged hadvanced
      split at hchanged
      · rw [if_pos ‹_›] at hadvanced
        have hactive : (activeOutcome sub₁ entity invoices plan = .unsettled sub₁ ∧ _) ∨ _ :=
          activeOutcome_inactive hna
        rcases hactive with ⟨ho, -⟩ | ⟨start, stop, ho⟩
        · rw [ho] at hchanged
          cases hchanged
        · rw [ho] at hadvanced
          cases hadvanced
      · split at hchanged
        · rw [failedOutcome, if_pos hna] at hchanged
          cases hchanged
        · split at hchanged
          · split at hchanged
            · cases hchanged
            · rw [terminalOutcome, if_neg (not_or.mpr ⟨hna, hnp⟩)] at hchanged
              cases hchanged
          · cases hchanged

def Subscription.Settled (sub : Subscription) : Prop :=
  sub.replacementProviderRef = none ∨ (sub.status ≠ .active ∧ sub.status ≠ .pastDue)

theorem reconcile_changes (hsub : s.data.sub? = some sub) (href : sub.paymentProviderRef = some ref)
    (hsettled : sub.Settled) : wp env (reconcile sub ref)
      (fun _ t => OnlyReconciled env s t) (fun _ t => t.data = s.data) s := by
  have hreturns : returns env (reconcile sub ref) (fun _ t => OnlyReconciled env s t) s := ?returns
  · exact wp_mono (wp_and (reconcile_spec hsub) hreturns) (fun _ _ h => h.2) (fun _ _ h => h.1)
  case returns =>
  apply returns_bind (returns_of_wp (wp_and reconcileRead_spec (wp_run _)))
  rintro fetched u ⟨⟨hu, -⟩, hread⟩
  apply returns_bind (returns_of_wp (wp_and applySnapshot_wp (wp_run _)))
  rintro result v ⟨hpost, hrun⟩
  have honly : OnlyReconciled env s v := by
    refine ⟨.inr ⟨sub, ref, fetched, u, result, v, hsub, href, hread, hrun, rfl⟩, ?_⟩
    intro rref hrref
    rcases hsettled with hnone | ⟨hna, hnp⟩
    · rw [Database.replacement?_of hsub, hnone] at hrref
      cases hrref
    · rw [hpost.replacement (hu ▸ hsub) hna hnp, hu]
      exact hrref
  rw [returns, wp_bind, wp_savepoint, wp_lockSubscription]
  exact ⟨fun _ _ => honly, fun _ => trivial⟩

theorem OnlyReconciled.restores {α : Type} {m : Prog α} (h : OnlyReconciled env s t)
    (hm : Restores Domain m) :
    wp env m (fun _ _ => True) (fun e u => Domain e → OnlyReconciled env s u) t :=
  wp_mono (hm env t) (fun _ _ h => h) (fun _ _ hu he => h.of_data (hu he))

theorem restores_only {α : Type} {m : Prog α} (hm : Restores Domain m) :
    wp env m (fun _ _ => True) (fun e u => Domain e → OnlyReconciled env s u) s :=
  (OnlyReconciled.of_eq rfl).restores hm

theorem checkoutLocked_fails {plan : Plan} {acknowledged : Bool} (hsub : s.data.sub? = some sub) :
    wp env (checkoutLocked sub plan actor acknowledged) (fun _ _ => True)
      (fun e t => Domain e → OnlyReconciled env s t) s := by
  unfold checkoutLocked
  split
  · exact restores_only (restores_raise _)
  split
  · exact restores_only (preserves_replacementPending _ _).restores
  case isFalse hnp hpending =>
    have hsettled : sub.Settled := by
      by_cases hr : sub.replacementProviderRef = none
      · exact .inl hr
      · exact .inr ⟨fun ha => hpending ⟨ha, Option.isSome_iff_ne_none.mpr hr⟩, hnp⟩
    split
    case h_1 ref href =>
      rw [wp_bind, wp_ask]
      apply wp_bind_of (reconcile_changes hsub href hsettled)
      · intro p t ht
        split
        · exact ht.restores (restores_raise _)
        · apply ht.restores
          apply Preserves.restores_bind
          · unfold checkProviderState
            split
            · exact preserves_raise _
            · exact preserves_pure _
          · exact fun _ => restores_checkoutRouted _ _ _ _ _ _
      · exact fun _ _ h _ => .of_eq h
    case h_2 =>
      split
      · exact restores_only (restores_raise _)
      · exact restores_only (restores_checkoutRouted _ _ _ _ _ _)

theorem firstCheckout_returns {plan : Plan} (hsub : s.data.sub? = none) :
    wp env (firstCheckout plan actor) (fun result _ => result ≠ none)
    (fun _ t => t.data = s.data) s := by
  unfold firstCheckout
  rw [wp_bind, wp_ask]
  apply wp_of_savepoint
  have hnone : s.data.subscription = none := Option.map_eq_none_iff.mp hsub
  unfold insertSubscription
  rw [returns, wp_bind, wp_query, hnone]
  constructor
  · rintro _ ⟨⟩
    rw [if_neg (by decide)]
    apply returns_bind (returns_of_wp createProviderSubscription_spec)
    intro created t _
    apply returns_bind (returns_of_wp (wp_run _))
    intro _ _ _
    exact Option.some_ne_none _
  · rintro _ ⟨⟩

theorem startCheckout_fails {planId : ℕ} {acknowledged : Bool} :
    wp env (startCheckout actor planId acknowledged) (fun _ _ => True)
      (fun e t => Domain e → OnlyReconciled env s t) s := by
  unfold startCheckout
  rw [wp_bind, wp_ask]
  split
  · exact restores_only (restores_raise _)
  split
  · exact restores_only (restores_raise _)
  rw [wp_bind]
  apply lockCurrentSubscription_spec
  cases hsub : s.data.sub? with
  | some sub => exact checkoutLocked_fails hsub
  | none =>
    apply wp_bind_of (firstCheckout_returns hsub)
    · intro result t hresult
      cases result with
      | some result => trivial
      | none => exact absurd rfl hresult
    · exact fun _ _ h _ => .of_eq h

theorem cancelReplacement_fails : wp env (cancelReplacement actor) (fun _ _ => True)
    (fun e t => Domain e → OnlyReconciled env s t) s := by
  unfold cancelReplacement
  rw [wp_bind]
  apply lockCurrentSubscription_spec
  cases s.data.sub? with
  | none => trivial
  | some sub =>
    dsimp only
    split
    · exact restores_only ((restores_savepoint _).bind fun _ => avoids_pure _)
    · exact restores_only (restores_pure _)

theorem cancelMain_fails (hsub : s.data.sub? = some sub)
    (hnone : sub.replacementProviderRef = none) :
    wp env (cancelMain sub actor) (fun _ _ => True)
    (fun e t => Domain e → OnlyReconciled env s t) s := by
  unfold cancelMain
  split
  · split
    · exact restores_only (restores_pure _)
    · split
      · exact restores_only (restores_raise _)
      · apply wp_bind_of (reconcile_changes hsub ‹_› (.inl hnone))
        · exact fun _ _ ht => ht.restores (restores_cancelReconciled _ _ _ _)
        · exact fun _ _ h _ => .of_eq h
  · exact restores_only (restores_cancelPastDue _ _)

/-- For a member, and with no replacement left, the cancel of a PAST_DUE row raises no domain
error. -/
theorem avoids_cancelPastDue (hnone : sub.replacementProviderRef = none)
    (hmember : env.oracle.accepted s.data.audits.length actor = true) :
    wp env (cancelPastDue sub actor) (fun _ _ => True) (fun e _ => ¬ Domain e) s := by
  have hstore : wp env (storePastDueCancel sub actor) (fun _ _ => True)
      (fun e _ => ¬ Domain e) s := by
    unfold storePastDueCancel
    rw [wp_savepoint]
    rw [wp_bind, wp_saveSubscription]
    constructor
    · intro hchecks _
      rw [wp_bind, wp_audit]
      constructor
      · intro _
        have habandon : abandonUnlessActive (pastDueCancelled sub) "row_ended" notActive none =
            pure ⟨pastDueCancelled sub, false, none⟩ := if_pos (.inl hnone)
        rw [habandon, wp_bind, wp_pure]
        exact avoids_whenever (avoids_saveSubscription _) env _
      · intro hno
        refine absurd ?_ hno
        rintro _ ⟨⟩
        exact hmember
    · exact fun _ => by decide
  apply wp_bind_of hstore
  · intro _ t _
    exact ((avoids_cancelPastDueProvider _ _).bind fun _ => avoids_lockSubscription) env t
  · exact fun _ _ h => h

theorem preserves_cancelUncharged (sub : Subscription) (entity : Dict) :
    Preserves (cancelUncharged sub entity) := by
  unfold cancelUncharged whenever
  split
  · split
    · exact (preserves_rejectedIsUnavailable (preserves_razorpay _)).bind fun _ => preserves_pure _
    · exact preserves_pure _
  · exact preserves_pure _

theorem retire_wp {entity : Dict} {E : Error → State → Prop} {Q : Subscription → State → Prop}
    (hsub : s.data.sub? = some sub) (href : sub.replacementProviderRef = some ref)
    (hfree : sub.retiredProviderRef = none)
    (hmoved : ∀ target t, env.oracle.accepted s.data.audits.length actor = true →
      ref ∉ env.others.retiredRefs → t.data.sub? = some (retired sub target) →
      t.data.audits.length = s.data.audits.length + 1 → Q (retired sub target) t)
    (hactor : env.oracle.accepted s.data.audits.length actor ≠ true → ∀ t, E .actorNotMember t)
    (htaken : ref ∈ env.others.retiredRefs → ∀ t, E .integrityError t) :
    wp env (do
      let sub ← retireReplacement sub entity "merchant_cancelled" (some actor)
      saveSubscription sub
      pure sub) Q E s := by
  unfold retireReplacement markEventsProcessed markEvents
  simp only [wp_bind, wp_ask, wp_timezoneNow, wp_modify, wp_pure, wp_audit]
  constructor
  · intro hmember
    generalize (sub.replacementPlan <|> env.settings.planFor (entity.get "plan_id")) = target
    rw [wp_saveSubscription]
    have hrow : (State.audited ⟨{ s.tick.data with
        events := s.tick.data.events.map fun e =>
          if e.processedAt.isNone && decide (sub.replacementProviderRef = some e.providerRef) then
            { e with processedAt := some (env.oracle.clock s.journal.ticks) } else e },
              s.tick.journal⟩
        ⟨.replacementAbandoned, some actor, [("reason", .str "merchant_cancelled"),
          ("plan_name", (target.map fun p => Json.str p.name).getD .null)]⟩).data.sub? = some sub :=
            hsub
    rw [hrow, retired_clash href hfree]
    constructor
    · intro hchecks hfresh
      exact hmoved target _ (hmember actor rfl) hfresh rfl List.length_append
    · intro hstop
      refine htaken ?_ _
      by_contra hfresh
      exact hstop ⟨retired_checks (Database.checks hsub) target (by rw [href]; rfl), hfresh⟩
  · intro hno
    apply hactor
    intro hyes
    refine hno ?_
    rintro _ ⟨⟩
    exact hyes

/-- A cancel gives the replacement up only where the retired slot and its index are free. -/
theorem cancelAndRetire_needs (hsub : s.data.sub? = some sub)
    (href : sub.replacementProviderRef = some ref) :
    returns env (cancelAndRetireReplacement sub actor false)
    (fun sub' t => sub.retiredProviderRef = none ∧
      ref ∉ env.others.retiredRefs ∧ env.oracle.accepted s.data.audits.length actor = true ∧
      t.data.audits.length = s.data.audits.length + 1 ∧ ∃ target, sub' = retired sub target) s := by
  unfold cancelAndRetireReplacement
  apply returns_savepoint
  rw [if_neg (by simp)]
  apply returns_bind refetchReplacement_spec
  rintro entity t ⟨ht, -⟩
  unfold retireReread
  cases entity with
  | none => trivial
  | some entity =>
    dsimp only
    cases herr : cancelAndRetireError sub entity with
    | some error => trivial
    | none =>
      have hfree : sub.retiredProviderRef = none := by
        unfold cancelAndRetireError at herr
        split at herr
        · cases herr
        · split at herr
          · cases herr
          case isFalse h => exact not_not.mp (not_or.mp h).2
      apply returns_bind (returns_of_wp (preserves_cancelUncharged sub entity env t))
      intro _ u hu
      have hdata : u.data = s.data := hu.trans ht
      apply retire_wp (hdata ▸ hsub) href hfree
      · intro target v hmember hfresh _ hlength
        rw [hdata] at hmember hlength
        exact ⟨hfree, hfresh, hmember, hlength, target, rfl⟩
      · exact fun _ _ => trivial
      · exact fun _ _ => trivial

/-- `cancel_subscription` gives a pending replacement up, nothing stopping the local move, before a
phase that can fail: the cancel of an ACTIVE row, or the audit of a PAST_DUE one by an actor who is
a member at the first audit and not at the second. -/
def Subscription.GivesUpFirst (sub : Subscription) (others : Others) (first second : Bool) : Prop :=
  ((sub.status = .active ∧ sub.cancelAtPeriodEnd = false) ∨
    (sub.status = .pastDue ∧ second = false)) ∧
    sub.retiredProviderRef = none ∧ first = true ∧
    ∃ ref, sub.replacementProviderRef = some ref ∧ ref ∉ others.retiredRefs

theorem cancelSubscription_fails (hno : ∀ sub, s.data.sub? = some sub →
      ¬ sub.GivesUpFirst env.others (env.oracle.accepted s.data.audits.length actor)
        (env.oracle.accepted (s.data.audits.length + 1) actor)) :
    wp env (cancelSubscription actor) (fun _ _ => True)
    (fun e t => Domain e → OnlyReconciled env s t) s := by
  unfold cancelSubscription
  rw [wp_bind]
  apply lockCurrentSubscription_spec
  cases hsub : s.data.sub? with
  | none => exact restores_only (restores_raise _)
  | some sub =>
    dsimp only
    split
    · exact restores_only (restores_raise _)
    case isFalse hopen =>
    unfold cancelPendingReplacement
    cases href : sub.replacementProviderRef with
    | none =>
      rw [if_neg (by simp), wp_bind, wp_pure]
      exact cancelMain_fails hsub href
    | some ref =>
      rw [if_pos (by rfl)]
      apply wp_bind_of (wp_and (cancelAndRetire_needs hsub href) (restores_savepoint _ env s))
      · rintro _ t ⟨⟨hfree, hfresh, hfirst, hlength, target, rfl⟩, -⟩
        unfold cancelMain
        split
        case isTrue hactive =>
          split
          · trivial
          case isFalse hcancelling =>
            have hnot : sub.cancelAtPeriodEnd = false := Bool.eq_false_iff.mpr hcancelling
            exact absurd ⟨.inl ⟨hactive, hnot⟩, hfree, hfirst, ref, href, hfresh⟩ (hno sub hsub)
        case isFalse hna =>
          have hpastDue : sub.status = .pastDue := by
            cases hs : sub.status with
            | pastDue => rfl
            | active => exact absurd hs hna
            | _ => exact absurd (by rw [hs]; decide) hopen
          have hsecond : env.oracle.accepted t.data.audits.length actor = true := by
            rw [hlength]
            by_contra hlost
            have hlost' := Bool.eq_false_iff.mpr hlost
            exact hno sub hsub ⟨.inr ⟨hpastDue, hlost'⟩, hfree, hfirst, ref, href, hfresh⟩
          apply wp_mono (avoids_cancelPastDue rfl hsecond) (fun _ _ h => h)
          exact fun _ _ h he => absurd he h
      · exact fun _ _ h he => .of_eq (h.2 he)

def cancelledEntity (ref : Ref) : Dict := [("id", .str ref.val), ("status", .str "cancelled")]

theorem statusIn_cancelledEntity (statuses : List String) (ref : Ref) :
    statusIn statuses (cancelledEntity ref) = decide ("cancelled" ∈ statuses) := rfl

theorem readable_cancelledEntity (ref : Ref) : readable ref (cancelledEntity ref) = true :=
  Bool.and_eq_true_iff.mpr ⟨beq_self_eq_true ref.val, rfl⟩

def reportsCancelled (ref : Ref) (accepted : ℕ → ℕ → Bool) : Oracle where
  subscription _ request :=
    if request = .fetchSubscription ref then .ok (cancelledEntity ref)
    else .error .unavailable
  invoices _ _ := .error .unavailable
  clock _ := 0
  accepted := accepted

theorem reportsCancelled_self (ref : Ref) (accepted : ℕ → ℕ → Bool) (n : ℕ) :
    (reportsCancelled ref accepted).subscription n (.fetchSubscription ref) =
      .ok (cancelledEntity ref) :=
  if_pos rfl

theorem reportsCancelled_other {ref rref : Ref} (h : rref ≠ ref) (accepted : ℕ → ℕ → Bool) (n : ℕ) :
    (reportsCancelled rref accepted).subscription n
    (.fetchSubscription ref) = .error .unavailable := by
  apply if_neg
  rintro ⟨⟩
  exact h rfl

variable {settings : Settings} {others : Others} {accepted : ℕ → ℕ → Bool}

theorem cancelAndRetire_gone (hsub : s.data.sub? = some sub)
    (href : sub.replacementProviderRef = some ref)
    (hfree : sub.retiredProviderRef = none) (hactor : accepted s.data.audits.length actor = true)
    (hfresh : ref ∉ others.retiredRefs) :
    wp ⟨settings, others, reportsCancelled ref accepted⟩
    (cancelAndRetireReplacement sub actor false)
      (fun sub' t => (∃ target, sub' = retired sub target) ∧ t.data.sub? = some sub' ∧
        t.data.audits.length = s.data.audits.length + 1) (fun _ _ => False) s := by
  unfold cancelAndRetireReplacement
  rw [wp_savepoint, if_neg (by simp), wp_bind]
  unfold refetchReplacement
  rw [href]
  dsimp only
  rw [wp_bind, wp_orNone, wp_razorpay]
  constructor
  · intro entity hentity
    rw [reportsCancelled_self] at hentity
    obtain rfl := (Except.ok.inj hentity).symm
    rw [wp_pure, Option.filter_some, if_pos (readable_cancelledEntity ref)]
    have hok : cancelAndRetireError sub (cancelledEntity ref) = none := by
      unfold cancelAndRetireError notActive
      rw [statusIn_cancelledEntity, statusIn_cancelledEntity, hfree]
      rfl
    have hnothing : cancelUncharged sub (cancelledEntity ref) = pure () := by
      unfold cancelUncharged whenever
      rw [href, statusIn_cancelledEntity]
      rfl
    unfold retireReread
    dsimp only
    rw [hok]
    dsimp only
    rw [hnothing, wp_bind, wp_pure]
    have hsub' :
        (s.called (.subscription (.fetchSubscription ref) (.ok (cancelledEntity ref)))).data.sub? =
          some sub := hsub
    apply retire_wp hsub' href hfree
    · exact fun target _ _ _ hrow hlength => ⟨⟨target, rfl⟩, hrow, hlength⟩
    · exact fun h => absurd hactor h
    · exact fun h => absurd h hfresh
  · intro failure hfailure
    rw [reportsCancelled_self] at hfailure
    cases hfailure

theorem reconcile_unavailable {rref : Ref} (hne : rref ≠ ref) :
    wp ⟨settings, others, reportsCancelled rref accepted⟩ (reconcile sub ref) (fun _ _ => False)
      (fun e t => Domain e ∧ t.data = s.data) s := by
  unfold reconcile reconcileRead fetchProviderEntity rejectedIsUnavailable
  rw [wp_bind, wp_bind, wp_timezoneNow, wp_bind, wp_bind, wp_handle, wp_razorpay]
  constructor
  · intro entity hentity
    rw [reportsCancelled_other hne] at hentity
    cases hentity
  · intro failure hfailure
    rw [reportsCancelled_other hne] at hfailure
    cases hfailure
    exact ⟨by decide, rfl⟩

theorem cancelPastDue_refused (hsub : s.data.sub? = some sub) (hpastDue : sub.status = .pastDue)
    (hlost : env.oracle.accepted s.data.audits.length actor = false) :
    wp env (cancelPastDue sub actor) (fun _ _ => False)
    (fun e t => Domain e ∧ t.data = s.data) s := by
  have hchecks := Database.checks hsub
  have hcancelled : (pastDueCancelled sub).Checks :=
    { hchecks with
      periodSet := .inr (hchecks.periodSet.resolve_left (by rw [hpastDue]; decide))
      pastDueAt := by simp [pastDueCancelled, clearGrace]
      dunningEpisode := by simp [pastDueCancelled, clearGrace]
      dunningStage := by simp [pastDueCancelled, clearGrace] }
  have hclash : ¬ env.others.clash (some sub) (pastDueCancelled sub) := by
    rintro (⟨r, hr, -, hne⟩ | ⟨r, hr, -, hne⟩ | ⟨r, hr, -, hne⟩)
    · exact hne hr
    · exact hne hr
    · exact hne hr
  unfold cancelPastDue storePastDueCancel
  rw [wp_bind, wp_savepoint, wp_bind, wp_saveSubscription, hsub]
  constructor
  · intro _ _
    rw [wp_bind, wp_audit]
    constructor
    · intro hall
      exact absurd (hall actor rfl) (Bool.eq_false_iff.mp hlost)
    · exact fun _ => ⟨by decide, rfl⟩
  · exact fun hstop => absurd ⟨hcancelled, hclash⟩ hstop

theorem cancelSubscription_gives_up (hsub : s.data.sub? = some sub)
    (href : sub.replacementProviderRef = some ref)
    (h : sub.GivesUpFirst others (accepted s.data.audits.length actor)
      (accepted (s.data.audits.length + 1) actor)) :
    wp ⟨settings, others, reportsCancelled ref accepted⟩ (cancelSubscription actor)
    (fun _ _ => False)
      (fun e t => Domain e ∧ t.data.replacement? = none) s := by
  obtain ⟨hstatus, hfree, hactor, ref', href', hfresh⟩ := h
  obtain rfl := Option.some.inj (href.symm.trans href')
  have hopen : ¬ (sub.status = .incomplete ∨ sub.status.Ended) := by
    rcases hstatus with ⟨hs, -⟩ | ⟨hs, -⟩
    · rw [hs]
      decide
    · rw [hs]
      decide
  unfold cancelSubscription
  rw [wp_bind]
  apply lockCurrentSubscription_spec
  rw [hsub]
  dsimp only
  rw [if_neg hopen, wp_bind]
  unfold cancelPendingReplacement
  rw [if_pos (by rw [href]; rfl)]
  apply wp_mono (cancelAndRetire_gone hsub href hfree hactor hfresh)
  · rintro _ t ⟨⟨target, rfl⟩, hrow, hlength⟩
    have hnone : t.data.replacement? = none := Database.replacement?_of hrow
    have stays : ∀ (e : Error) (u : State), Domain e ∧ u.data = t.data →
        Domain e ∧ u.data.replacement? = none := by
      rintro e u ⟨he, hu⟩
      exact ⟨he, hu ▸ hnone⟩
    unfold cancelMain
    rcases hstatus with ⟨hactive, hnot⟩ | ⟨hpastDue, hlost⟩
    · have hactive' : (retired sub target).status = .active := hactive
      have hnot' : ¬ (retired sub target).cancelAtPeriodEnd = true := Bool.eq_false_iff.mp hnot
      rw [if_pos hactive', if_neg hnot']
      split
      · exact ⟨by decide, hnone⟩
      case h_2 main hmain =>
        have hmain' : sub.paymentProviderRef = some main := hmain
        have hne : ref ≠ main := by
          rintro rfl
          exact Database.replacement_ne_payment hsub href hmain'
        rw [wp_bind]
        exact wp_mono (reconcile_unavailable hne) (fun _ _ h => h.elim) stays
    · have hpastDue' : (retired sub target).status = .pastDue := hpastDue
      rw [if_neg (by rw [hpastDue']; decide)]
      exact wp_mono (cancelPastDue_refused hrow hpastDue' (hlength ▸ hlost)) (fun _ _ h => h) stays
  · exact fun _ _ h => h.elim

end Requests

/-- The request is a cancel that gives a pending replacement up first. `accepted n user` is whether
`user` is a member when the audit table holds `n` rows. -/
def OwnerRequest.GivesUpFirst (request : OwnerRequest) (db : Database) (others : Others)
    (accepted : ℕ → ℕ → Bool) : Prop :=
  ∃ actor sub, request = .cancel actor ∧ db.sub? = some sub ∧
    sub.GivesUpFirst others (accepted db.audits.length actor)
    (accepted (db.audits.length + 1) actor)

/-- Whatever the provider answers and the clock reads, a domain error leaves the reconcile only. -/
def OwnerRequest.FailsCleanly (request : OwnerRequest) (db : Database)
    (settings : Settings) (others : Others)
    (accepted : ℕ → ℕ → Bool) : Prop :=
  ∀ oracle : Oracle, oracle.accepted = accepted →
    ∀ e t, request.run db ⟨settings, others, oracle⟩ = (.error e, t) → Domain e →
      OnlyReconciled ⟨settings, others, oracle⟩ ⟨db, .empty⟩ t

theorem discard_fails {α : Type} {m : Prog α} {env : Env} {s : State} {E : Error → State → Prop}
    (h : wp env m (fun _ _ => True) E s) : wp env (discard m) (fun _ _ => True) E s :=
  wp_bind_of h (fun _ _ _ => trivial) (fun _ _ h => h)

theorem OwnerRequest.program_fails {request : OwnerRequest} {env : Env} {s : State}
    (hno : ¬ request.GivesUpFirst s.data env.others env.oracle.accepted) :
    wp env request.program (fun _ _ => True) (fun e t => Domain e → OnlyReconciled env s t) s := by
  cases request with
  | checkout actor planId acknowledged => exact discard_fails startCheckout_fails
  | cancelReplacement actor => exact discard_fails cancelReplacement_fails
  | cancel actor =>
    apply discard_fails
    apply cancelSubscription_fails
    exact fun sub hsub h => hno ⟨actor, sub, rfl, hsub, h⟩

theorem OwnerRequest.GivesUpFirst.fails {request : OwnerRequest} {db : Database}
    {settings : Settings}
    {others : Others} {accepted : ℕ → ℕ → Bool} (h : request.GivesUpFirst db others accepted) :
    ¬ request.FailsCleanly db settings others accepted := by
  obtain ⟨actor, sub, rfl, hsub, hgives⟩ := h
  intro hclean
  obtain ⟨-, -, -, ref, href, -⟩ := id hgives
  have hraises : wp ⟨settings, others, reportsCancelled ref accepted⟩
    (OwnerRequest.cancel actor).program
      (fun _ _ => False) (fun e t => Domain e ∧ t.data.replacement? = none) ⟨db, .empty⟩ :=
    wp_bind_of (cancelSubscription_gives_up hsub href hgives) (fun _ _ h => h.elim) (fun _ _ h => h)
  obtain ⟨e, t, ht, he, hnone⟩ := wp_raises hraises
  have hkept := (hclean _ rfl e t ht he).replacement ref
  rw [hnone] at hkept
  cases hkept ((Database.replacement?_of hsub).trans href)

/-- A failed request changes nothing but the reconcile, unless it is a cancel that gives a
pending replacement up first. -/
theorem failed_requests_clean (request : OwnerRequest) (db : Database)
    (settings : Settings) (others : Others)
    (accepted : ℕ → ℕ → Bool) :
    request.FailsCleanly db settings others accepted ↔
      ¬ request.GivesUpFirst db others accepted := by
  constructor
  · exact fun hclean h => h.fails hclean
  · intro hno oracle haccepted e t hrun
    subst haccepted
    exact wp_error (OwnerRequest.program_fails hno) hrun

def upgradePending : Database :=
  rowless.withRow
    { plan := starter
      status := .active
      currentPeriodStart := some (seconds 1000)
      currentPeriodEnd := some (seconds 2000)
      paymentProviderRef := some refA
      replacementProviderRef := some refB
      replacementPlan := some growth
      replacementExpiresAt := some (seconds 1600) } (by decide)

/-- The merchant's cancel fails with the upgrade given up. -/
theorem upgrade_given_up :
    ¬ (OwnerRequest.cancel 7).FailsCleanly upgradePending someSettings ⟨[], [], [], [], []⟩
    fun _ _ => true :=
  OwnerRequest.GivesUpFirst.fails ⟨7, _, rfl, rfl, .inl ⟨rfl, rfl⟩, rfl, rfl, refB, rfl, by decide⟩

end ReviewFlow.Billing
