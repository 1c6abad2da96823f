import ReviewFlow.Billing.Deadlines
import ReviewFlow.Billing.PaymentLedger

/-!
# What an abandoned replacement leaves

The start of a downgrade writes its target over the pending plan of the row, and an abandon clears
a pending plan that is the target's. So the abandon undoes the start if and only if there was no
pending plan to write over, and for an upgrade if the pending plan is not the target itself.
-/

namespace ReviewFlow.Billing

open Savepoint

def Subscription.pendingBeside (sub : Subscription) : Option Plan :=
  if sub.replacementPlan.isSome ∧
    sub.pendingPlan.map (·.pk) = sub.replacementPlan.map (·.pk) then none
  else sub.pendingPlan

structure Standing where
  plan : Plan
  pendingPlan : Option Plan
  periodStart : Option Time
  periodEnd : Option Time

def Subscription.standing (sub : Subscription) : Standing :=
  ⟨sub.plan, sub.pendingBeside, sub.currentPeriodStart, sub.currentPeriodEnd⟩

def Subscription.Abandons (sub sub' : Subscription) : Prop :=
  ∃ ref, sub.replacementProviderRef = some ref ∧ sub'.replacementProviderRef = none ∧
    sub'.retiredProviderRef = some ref ∧ sub'.retiredKind = some .abandonedReplacement

def Restores (s t : State) : Prop :=
  ∀ sub sub', s.data.sub? = some sub → t.data.sub? = some sub' → sub.Abandons sub' →
    sub'.standing = sub.standing ∧ t.data.usage = s.data.usage

section Rows

variable {s t : State} {sub sub' : Subscription}

theorem Restores.of_ref (hsub : s.data.sub? = some sub) (hsub' : t.data.sub? = some sub')
    (h : sub'.replacementProviderRef = sub.replacementProviderRef) : Restores s t := by
  intro a b ha hb habandons
  obtain ⟨ref, href, hnone, -⟩ := habandons
  obtain rfl := Option.some.inj (hsub.symm.trans ha)
  obtain rfl := Option.some.inj (hsub'.symm.trans hb)
  rw [h, href] at hnone
  cases hnone

theorem Restores.of_row (h : t.data.sub? = s.data.sub?) : Restores s t := by
  intro a b ha hb
  exact Restores.of_ref ha (h.trans ha) rfl a b ha hb

theorem Restores.of_kind (hsub' : t.data.sub? = some sub')
    (h : sub'.retiredKind ≠ some .abandonedReplacement) :
    Restores s t := by
  intro a b _ hb habandons
  obtain ⟨-, -, -, -, hkind⟩ := habandons
  obtain rfl := Option.some.inj (hsub'.symm.trans hb)
  exact absurd hkind h

theorem Restores.of_standing (hsub : s.data.sub? = some sub) (hsub' : t.data.sub? = some sub')
    (h : sub'.standing = sub.standing) (husage : t.data.usage = s.data.usage) : Restores s t := by
  intro a b ha hb _
  obtain rfl := Option.some.inj (hsub.symm.trans ha)
  obtain rfl := Option.some.inj (hsub'.symm.trans hb)
  exact ⟨h, husage⟩

theorem retired_standing (sub : Subscription) {target : Plan}
    (h : sub.replacementPlan = some target) :
    (retired sub (some target)).standing = sub.standing := by
  simp [Subscription.standing, Subscription.pendingBeside, retired, h]

def Subscription.Targeted (sub : Subscription) : Prop :=
  sub.replacementProviderRef.isSome = true → sub.replacementPlan.isSome = true

theorem targeted (hsub : s.data.sub? = some sub) : sub.Targeted :=
  (Database.checks hsub).planSet.mpr

end Rows

section Abandoning

variable {env : Env} {s t : State} {sub : Subscription}

structure InHand (s : State) (standing : Standing) (sub' : Subscription) (t : State) : Prop where
  standing : sub'.standing = standing
  row : t.data.sub? = s.data.sub?
  usage : t.data.usage = s.data.usage

theorem InHand.of_data (h : t.data = s.data) : InHand s sub.standing sub t :=
  ⟨rfl, by rw [h], by rw [h]⟩

theorem InHand.before {u : State} {standing : Standing} {sub' : Subscription}
    (h : InHand t standing sub' u)
    (hdata : t.data = s.data) : InHand s standing sub' u :=
  ⟨h.standing, by rw [h.row, hdata], by rw [h.usage, hdata]⟩

theorem retireReplacement_standing {entity : Dict} {reason : String} {actor : Option ℕ}
    (h : sub.replacementPlan.isSome = true) :
    Program.returns env (retireReplacement sub entity reason actor) (InHand s sub.standing) s := by
  obtain ⟨target, htarget⟩ := Option.isSome_iff_exists.mp h
  unfold retireReplacement
  refine Program.returns_bind (P := fun x t => x = env ∧ t = s) ⟨rfl, rfl⟩ ?_
  intro _ t ht
  obtain ⟨-, rfl⟩ := ht
  refine Program.returns_bind markEventsProcessed_spec fun _ t ht => ?_
  refine Program.returns_bind (Program.returns_of_wp audit_spec) fun _ u hu => ?_
  have hbeside := ht.trans hu.beside
  rw [htarget]
  exact ⟨retired_standing sub htarget, hbeside.sub?, hbeside.usage⟩

theorem abandonUnlessActive_standing {reason : String} {abandonable : Dict → Bool}
    {entity : Option Dict}
    (h : sub.Targeted) :
    Program.returns env (abandonUnlessActive sub reason abandonable entity)
      (fun r t => InHand s sub.standing r.sub t) s := by
  unfold abandonUnlessActive
  rw [Program.returns, Program.wp_ite]
  refine ⟨fun _ => .of_data rfl, fun hguard => ?_⟩
  have href : sub.replacementProviderRef.isSome = true := by
    rw [not_or] at hguard
    exact Option.isSome_iff_ne_none.mpr hguard.1
  refine Program.returns_bind (P := fun _ t => t.data = s.data) ?_ ?_
  · cases entity with
    | some e => exact rfl
    | none => exact Program.returns_mono refetchReplacement_spec fun _ _ hr => hr.1
  intro read t ht
  cases read with
  | none => exact .of_data ht
  | some e =>
    simp only [Program.returns, Program.wp_ite]
    refine ⟨fun _ => .of_data ht, fun _ => ⟨fun _ => .of_data ht, fun _ => ?_⟩⟩
    refine Program.returns_bind (retireReplacement_standing (h href)) ?_
    exact fun _ u hu => hu.before ht

theorem save_restores {sub' : Subscription} (hsub : s.data.sub? = some sub)
    (h : InHand s sub.standing sub' t) :
    Program.returns env (saveSubscription sub') (fun _ u => Restores s u) t := by
  refine Program.returns_mono saveSubscription_spec fun _ u hu => ?_
  obtain ⟨-, hrow, hdata⟩ := hu
  exact .of_standing hsub hrow h.standing (by rw [hdata]; exact h.usage)

theorem saveIfAbandoned_restores {r : Abandonment} (hsub : s.data.sub? = some sub)
    (h : InHand s sub.standing r.sub t) :
    Program.returns env (Program.whenever (r.abandoned = true) (saveSubscription r.sub))
      (fun _ u => Restores s u) t := by
  rw [Program.returns, Program.wp_whenever]
  exact ⟨fun _ => save_restores hsub h, fun _ => .of_row h.row⟩

end Abandoning

section Paths

variable {env : Env} {s : State} {sub : Subscription}

theorem clearFailedCommitted_restores (hsub : s.data.sub? = some sub)
    (href : sub.replacementProviderRef.isSome = true) :
    Program.returns env (clearFailedCommitted sub) (fun _ t => Restores s t) s := by
  unfold clearFailedCommitted
  refine Program.returns_bind refetchReplacement_spec fun read t ht => ?_
  have hkept : Restores s t := .of_row (by rw [ht.1])
  cases read with
  | none => exact hkept
  | some e =>
    simp only [Program.returns, Program.wp_ite]
    refine ⟨fun _ => hkept, fun _ => ⟨fun _ => hkept, fun _ => ?_⟩⟩
    refine Program.returns_bind (retireReplacement_standing (targeted hsub href))
      fun sub' u hu => ?_
    exact Program.returns_bind (save_restores hsub (hu.before ht.1)) fun _ v hv => hv

theorem abandonIfWanted_restores {reason : String} {abandonable : Dict → Bool} {wanted : Bool}
    (hsub : s.data.sub? = some sub) :
    Program.returns env (abandonIfWanted sub reason abandonable wanted)
    (fun _ t => Restores s t) s := by
  unfold abandonIfWanted
  rw [Program.returns, Program.wp_ite]
  refine ⟨fun _ => .of_row rfl, fun _ => ?_⟩
  refine Program.returns_bind (abandonUnlessActive_standing (targeted hsub)) fun r t ht => ?_
  rw [Program.returns, Program.wp_ite]
  refine ⟨fun _ => .of_row ht.row, fun _ => ?_⟩
  exact Program.returns_bind (save_restores hsub ht) fun _ u hu => hu

theorem replacementInactive_restores {entity : Dict} {status : String}
    (hsub : s.data.sub? = some sub) :
    Program.returns env (replacementInactive sub entity status) (fun _ t => Restores s t) s := by
  unfold replacementInactive
  rw [Program.returns, Program.wp_ite]
  refine ⟨fun _ => abandonIfWanted_restores hsub, fun _ => ?_⟩
  rw [Program.wp_bind, wp_timezoneNow]
  exact Program.returns_mono (abandonIfWanted_restores (s := s.tick) hsub) fun _ _ ht => ht

def KeptOrSwitched (s t : State) : Prop :=
  t.data.sub? = s.data.sub? ∨ ∃ sub', t.data.sub? = some sub' ∧ sub'.retiredKind = some .switchedOld

theorem KeptOrSwitched.restores {t : State} (h : KeptOrSwitched s t) : Restores s t := by
  rcases h with h | ⟨sub', hsub', hkind⟩
  · exact .of_row h
  · exact .of_kind hsub' (by simp [hkind])

theorem switchToReplacement_row {entity : Dict} {invoices : Option (List Json)}
    {plan : Plan} {status : String}
    {started : Time} :
    Program.returns env (switchToReplacement sub entity invoices plan status started)
      (fun _ t => KeptOrSwitched s t) s := by
  unfold switchToReplacement
  cases fromUnix (entity.get "current_start") with
  | none => exact .inl rfl
  | some start =>
    simp only [Program.returns, Program.wp_ite]
    refine ⟨fun _ => .inl rfl, fun _ => ⟨fun _ => .inl rfl, fun _ => ?_⟩⟩
    refine Program.returns_bind (Program.returns_of_wp applyActive_spec) fun r t ht => ?_
    rw [Program.returns, Program.wp_ite]
    refine ⟨fun _ => .inl ht.2.sub?, fun _ => ?_⟩
    unfold storeSwitch
    refine Program.returns_bind saveSubscription_spec fun _ u hu => ?_
    have hrest : Program.Keeps Database.subscription (do
        let _ ← resetUsagePeriod (switched r.sub sub.paymentProviderRef status started)
        Program.whenever (sub.paymentProviderRef.isSome = true)
          (markEventsProcessed sub.paymentProviderRef)
        pure (⟨true, true⟩ : SnapshotResult)) :=
      (resetUsagePeriod_row _).bind fun _ => (markEventsProcessed_row _).whenever.bind fun _ =>
        Program.keeps_pure _
    refine Program.returns_mono (Program.returns_of_wp (hrest.wp env u)) fun _ v hv => ?_
    refine .inr ⟨switched r.sub sub.paymentProviderRef status started, ?_, rfl⟩
    rw [Database.sub?, hv]
    exact hu.2.1

theorem replacementActive_row {entity : Dict} {invoices : Option (List Json)} {status : String}
    {started : Time} :
    Program.returns env (replacementActive sub entity invoices status started env.settings)
      (fun _ t => KeptOrSwitched s t) s := by
  unfold replacementActive
  rw [Program.returns, Program.wp_ite]
  refine ⟨fun _ => .inl rfl, fun _ => ?_⟩
  cases env.settings.planFor (entity.get "plan_id") with
  | none => exact .inl rfl
  | some plan =>
    simp only [Program.wp_ite]
    refine ⟨fun _ => ?_, fun _ => ⟨fun _ => .inl rfl, fun _ => switchToReplacement_row⟩⟩
    unfold auditPaidAfterEnd
    rw [Program.wp_bind, Program.wp_bind, Program.wp_get, Program.wp_whenever]
    refine ⟨fun _ => ?_, fun _ => .inl rfl⟩
    exact Program.returns_mono (Program.returns_of_wp audit_spec) fun _ _ h => .inl h.sub?

theorem applyReplacementSnapshot_restores {entity : Dict} {invoices : Option (List Json)}
    {started : Time} :
    Program.returns env (applyReplacementSnapshot entity invoices started)
    (fun _ t => Restores s t) s := by
  unfold applyReplacementSnapshot
  refine Program.returns_savepoint ?_
  rw [Program.returns, Program.wp_bind, wp_lockSubscription]
  refine ⟨fun sub hsub => ?_, fun _ => trivial⟩
  rw [Program.wp_bind, Program.wp_ask]
  have hkept : Restores s s := .of_row rfl
  unfold replacementLocked
  cases (entity.get "status").str? with
  | none => exact hkept
  | some status =>
    simp only [Program.wp_ite]
    refine ⟨fun _ => hkept,
      fun hnames => ⟨fun _ => ?_, fun _ => ⟨fun _ => ⟨fun _ => ?_, fun _ => hkept⟩,
      fun _ => ?_⟩⟩⟩
    · exact Program.returns_mono replacementActive_row fun _ _ h => h.restores
    · apply clearFailedCommitted_restores hsub
      rw [Bool.not_eq_false, namesReplacement.eq_def] at hnames
      split at hnames
      case h_1 ref href => rw [href]; rfl
      case h_2 => cases hnames
    · exact replacementInactive_restores hsub

theorem commitT1_restores : Program.returns env commitT1 (fun _ t => Restores s t) s := by
  unfold commitT1
  refine Program.returns_savepoint ?_
  have hkept : Restores s s := .of_row rfl
  rw [Program.returns, Program.wp_bind, wp_firstSubscription, Program.wp_ite]
  refine ⟨fun _ => hkept, fun _ => ?_⟩
  rw [Program.wp_bind, wp_lockSubscription]
  refine ⟨fun sub hsub => ?_, fun _ => trivial⟩
  unfold commitLocked
  rw [Program.wp_ite]
  refine ⟨fun _ => hkept, fun _ => ?_⟩
  refine Program.returns_bind refetchReplacement_spec fun read t ht => ?_
  have hread : Restores s t := .of_row (by rw [ht.1])
  unfold verifyCommit
  cases read with
  | none => exact hread
  | some entity =>
    simp only [Program.returns, Program.wp_ite]
    refine ⟨fun _ => hread, fun _ => ?_⟩
    rw [Program.wp_bind, wp_timezoneNow, Program.wp_bind, Program.wp_ask]
    unfold storeCommit
    rw [Program.wp_ite]
    refine ⟨fun _ => ?_, fun _ => ?_⟩
    · refine Program.returns_bind
        (abandonUnlessActive_standing (s := State.tick t) (targeted hsub)) fun r u hu => ?_
      have hhand : InHand s sub.standing r.sub u := hu.before ht.1
      exact Program.returns_bind (saveIfAbandoned_restores hsub hhand) fun _ v hv => hv
    · refine Program.returns_bind saveSubscription_spec fun _ u hu => ?_
      refine Program.returns_bind (Program.returns_of_wp audit_spec) fun _ v hv => ?_
      exact .of_ref hsub (hv.sub?.trans hu.2.1) rfl

theorem commitT2_restores {refs : CommitRefs} {refused : Bool} :
    Program.returns env (commitT2 refs refused) (fun _ t => Restores s t) s := by
  unfold commitT2
  refine Program.returns_savepoint ?_
  rw [Program.returns, Program.wp_bind, wp_lockSubscription]
  refine ⟨fun sub hsub => ?_, fun _ => trivial⟩
  rw [Program.wp_ite]
  refine ⟨fun _ => .of_row rfl, fun _ => ?_⟩
  rw [Program.wp_ite]
  refine ⟨fun _ => ?_, fun _ => ?_⟩
  · refine Program.returns_bind (storeConfirmed_spec hsub) fun _ t ht => ?_
    obtain ⟨now, hstored⟩ := ht
    exact .of_ref hsub hstored.after rfl
  · have htarget : sub.Targeted := targeted hsub
    have htarget' : Subscription.Targeted { sub with replacementCommittedAt := none } := htarget
    refine Program.returns_bind (abandonUnlessActive_standing htarget') fun r t ht => ?_
    exact Program.returns_bind (save_restores hsub ht) fun _ u hu => hu

theorem cancelAndRetireReplacement_restores {actor : ℕ} {refuseCommitted : Bool}
    (hsub : s.data.sub? = some sub)
    (href : sub.replacementProviderRef.isSome = true) :
    Program.returns env (cancelAndRetireReplacement sub actor refuseCommitted)
    (fun _ t => Restores s t) s := by
  unfold cancelAndRetireReplacement
  refine Program.returns_savepoint ?_
  rw [Program.returns, Program.wp_ite]
  refine ⟨fun _ => trivial, fun _ => ?_⟩
  refine Program.returns_bind refetchReplacement_spec fun read t ht => ?_
  unfold retireReread
  cases read with
  | none => trivial
  | some entity =>
    dsimp only
    cases cancelAndRetireError sub entity with
    | some error => trivial
    | none =>
      refine Program.returns_bind (P := fun _ u => u.data = t.data) ?_ fun _ u hu => ?_
      · unfold cancelUncharged
        split
        · rw [Program.returns, Program.wp_whenever]
          exact ⟨fun _ => Program.returns_mono cancelOldProviderSubscription_spec fun _ _ h =>
            h.1, fun _ => rfl⟩
        · exact rfl
      · refine Program.returns_bind (retireReplacement_standing (targeted hsub href))
          fun sub' v hv => ?_
        exact Program.returns_bind (save_restores hsub (hv.before (hu.trans ht.1))) fun _ w hw => hw

theorem storePastDueCancel_restores {actor : ℕ} (hsub : s.data.sub? = some sub) :
    Program.returns env (storePastDueCancel sub actor) (fun _ t => Restores s t) s := by
  unfold storePastDueCancel
  refine Program.returns_savepoint ?_
  refine Program.returns_bind saveSubscription_spec fun _ t ht => ?_
  refine Program.returns_bind (Program.returns_of_wp audit_spec) fun _ u hu => ?_
  have hrow : u.data.sub? = some (pastDueCancelled sub) := hu.sub?.trans ht.2.1
  have husage : u.data.usage = s.data.usage := by rw [hu.usage, ht.2.2]
  refine Program.returns_bind (abandonUnlessActive_standing (targeted hrow)) fun r v hv => ?_
  rw [Program.returns, Program.wp_whenever]
  refine ⟨fun _ => ?_, fun _ => ?_⟩
  · refine Program.returns_mono saveSubscription_spec fun _ w hw => ?_
    refine .of_standing hsub hw.2.1 hv.standing ?_
    rw [hw.2.2]
    exact hv.usage.trans husage
  · exact .of_ref hsub (hv.row.trans hrow) rfl

end Paths

section Snapshots

variable {env : Env} {s : State} {sub : Subscription} {entity : Dict}
    {invoices : Option (List Json)} {plan : Plan}
  {status : String} {now : Time}

/-- A branch that is not `active` changes neither the standing nor the replacement. -/
structure Applied.Stays (sub : Subscription) (r : Applied) : Prop where
  standing : r.sub.standing = sub.standing
  replacement : r.sub.replacementProviderRef = sub.replacementProviderRef
  target : r.sub.replacementPlan = sub.replacementPlan
  advanced : r.advanced = false

theorem failedOutcome_stays : (failedOutcome sub now).Stays sub := by
  unfold failedOutcome
  split <;> exact ⟨rfl, rfl, rfl, rfl⟩

theorem terminalOutcome_stays : (terminalOutcome sub now).Stays sub := by
  unfold terminalOutcome ended
  split
  · split <;> exact ⟨rfl, rfl, rfl, rfl⟩
  · exact ⟨rfl, rfl, rfl, rfl⟩

theorem abandonAfter_standing {r : Applied} {reason : String} (h : r.Stays sub)
    (htarget : sub.Targeted) :
    Program.returns env (abandonAfter r reason)
      (fun r' t => InHand s sub.standing r'.sub t ∧ r'.advanced = false) s := by
  have hr : r.sub.Targeted := by
    unfold Subscription.Targeted
    rw [h.replacement, h.target]
    exact htarget
  unfold abandonAfter
  rw [Program.returns, Program.wp_ite]
  refine ⟨fun _ => ?_, fun _ => ⟨⟨h.standing, rfl, rfl⟩, h.advanced⟩⟩
  refine Program.returns_bind (abandonUnlessActive_standing hr) fun a t ht => ?_
  exact ⟨⟨ht.standing.trans h.standing, ht.row, ht.usage⟩, h.advanced⟩

/-- After a branch that is not `active` the row in hand has the standing of the locked one. -/
theorem applyStatus_standing {actor : Option ℕ} (htarget : sub.Targeted) (h : status ≠ "active") :
    Program.returns env (applyStatus sub entity invoices plan actor status now)
      (fun r t => InHand s sub.standing r.sub t ∧ r.advanced = false) s := by
  have hkept : InHand s sub.standing sub s ∧ (Applied.noChange sub).advanced = false :=
    ⟨.of_data rfl, rfl⟩
  unfold applyStatus
  rw [if_neg h, Program.returns, Program.wp_ite]
  refine ⟨fun _ => ?_, fun _ => ?_⟩
  · refine Program.returns_bind (Program.returns_of_wp applyPaymentFailed_spec) fun r t ht => ?_
    refine Program.returns_mono
      (abandonAfter_standing (ht.1 ▸ failedOutcome_stays) htarget) fun r' u hu => ?_
    exact ⟨⟨hu.1.standing, hu.1.row.trans ht.2.sub?, hu.1.usage.trans ht.2.usage⟩, hu.2⟩
  · rw [Program.wp_ite]
    refine ⟨fun _ => ?_, fun _ => hkept⟩
    rw [Program.wp_ite]
    refine ⟨fun _ => hkept, fun _ => ?_⟩
    refine Program.returns_bind (Program.returns_of_wp applyTerminal_spec) fun r t ht => ?_
    refine Program.returns_mono
      (abandonAfter_standing (ht.1 ▸ terminalOutcome_stays) htarget) fun r' u hu => ?_
    exact ⟨⟨hu.1.standing, hu.1.row.trans ht.2.sub?, hu.1.usage.trans ht.2.usage⟩, hu.2⟩

theorem storeSnapshot_row {r : Applied} {started : Time} :
    Program.returns env (storeSnapshot r status started)
      (fun _ t => t.data.sub? = some (stamped r.sub status started) ∧
        (r.advanced = false → t.data.usage = s.data.usage)) s := by
  unfold storeSnapshot
  refine Program.returns_bind saveSubscription_spec fun _ t ht => ?_
  rw [Program.returns, Program.wp_bind, Program.wp_whenever]
  refine ⟨fun hadvanced => ?_, fun _ => ⟨ht.2.1, fun _ => by rw [ht.2.2]⟩⟩
  refine Program.returns_bind
    (Program.returns_of_wp ((resetUsagePeriod_row _).wp env t)) fun _ u hu => ?_
  refine ⟨?_, fun hno => absurd hno (by simp [hadvanced])⟩
  rw [Database.sub?, hu]
  exact ht.2.1

theorem applySnapshot_restores {started : Time} {actor : Option ℕ} :
    Program.returns env (applySnapshot entity invoices started actor)
    (fun _ t => Restores s t) s := by
  unfold applySnapshot
  refine Program.returns_savepoint ?_
  have hkept : Restores s s.tick := .of_row rfl
  rw [Program.returns, Program.wp_bind, wp_lockSubscription]
  refine ⟨fun sub hsub => ?_, fun _ => trivial⟩
  rw [Program.wp_bind, wp_timezoneNow, Program.wp_bind, Program.wp_ask]
  unfold snapshotLocked
  rw [Program.wp_ite]
  refine ⟨fun _ => hkept, fun _ => ?_⟩
  rw [Program.wp_ite]
  refine ⟨fun _ => hkept, fun _ => ?_⟩
  split
  case h_2 => exact hkept
  case h_1 plan status _ _ =>
    by_cases hactive : status = "active"
    · refine Program.returns_bind
        (P := fun r _ => r.sub.replacementProviderRef = sub.replacementProviderRef) ?_ ?_
      · unfold applyStatus
        rw [if_pos hactive]
        refine Program.returns_mono (Program.returns_of_wp applyActive_spec) fun r t ht => ?_
        rw [ht.1]
        exact (activeOutcome_slots ..).replacement
      · intro r t hr
        refine Program.returns_mono storeSnapshot_row fun _ u hu => ?_
        exact .of_ref hsub hu.1 hr
    · refine Program.returns_bind
        (applyStatus_standing (s := State.tick s) (targeted hsub) hactive) fun r t ht => ?_
      refine Program.returns_mono storeSnapshot_row fun _ u hu => ?_
      exact .of_standing hsub hu.1 ht.1.standing ((hu.2 ht.2).trans ht.1.usage)

end Snapshots

inductive AbandonPath where
  | replacementSnapshot (entity : Dict) (invoices : Option (List Json)) (started : Time)
  | mainSnapshot (entity : Dict) (invoices : Option (List Json)) (started : Time) (actor : Option ℕ)
  | verification
  | cancelAnswer (refs : CommitRefs) (refused : Bool)
  | cancelReplacement (actor : ℕ)
  | cancelSubscription (actor : ℕ)
  | cancelPastDue (actor : ℕ)

/-- `cancel_subscription` as far as the replacement that is pending. -/
def cancelPending (actor : ℕ) : Prog Unit := do
  let row ← lockCurrentSubscription
  match row with
  | none => Program.raise .subscriptionNotCancellable
  | some sub =>
    if sub.status = .incomplete ∨ sub.status.Ended then Program.raise .subscriptionNotCancellable
    else do
      let _ ← cancelPendingReplacement sub actor
      pure ()

/-- The local part of `_cancel_past_due`, on the row as it is. -/
def cancelLocked (actor : ℕ) : Prog Unit := do
  let sub ← lockSubscription
  Program.whenever (sub.status = .pastDue) (storePastDueCancel sub actor)

def AbandonPath.program : AbandonPath → Prog Unit
  | .replacementSnapshot entity invoices started => do
    let _ ← applyReplacementSnapshot entity invoices started
    pure ()
  | .mainSnapshot entity invoices started actor => do
    let _ ← applySnapshot entity invoices started actor
    pure ()
  | .verification => do
    let _ ← commitT1
    pure ()
  | .cancelAnswer refs refused => do
    let _ ← commitT2 refs refused
    pure ()
  | .cancelReplacement actor => do
    let _ ← Billing.cancelReplacement actor
    pure ()
  | .cancelSubscription actor => cancelPending actor
  | .cancelPastDue actor => cancelLocked actor

section Restored

variable {env : Env} {s : State}

theorem cancelReplacement_restores {actor : ℕ} :
    Program.returns env (cancelReplacement actor) (fun _ t => Restores s t) s := by
  unfold cancelReplacement
  rw [Program.returns, Program.wp_bind]
  refine lockCurrentSubscription_spec ?_
  cases hsub : s.data.sub? with
  | none => exact .of_row rfl
  | some sub =>
    dsimp only
    rw [Program.wp_ite]
    refine ⟨fun href => ?_, fun _ => .of_row rfl⟩
    exact Program.returns_bind (cancelAndRetireReplacement_restores hsub href) fun _ t ht => ht

theorem cancelPending_restores {actor : ℕ} :
    Program.returns env (cancelPending actor) (fun _ t => Restores s t) s := by
  unfold cancelPending
  rw [Program.returns, Program.wp_bind]
  refine lockCurrentSubscription_spec ?_
  cases hsub : s.data.sub? with
  | none => exact trivial
  | some sub =>
    dsimp only
    rw [Program.wp_ite]
    refine ⟨fun _ => trivial, fun _ => ?_⟩
    unfold cancelPendingReplacement
    by_cases href : sub.replacementProviderRef.isSome = true
    · rw [if_pos href]
      exact Program.returns_bind (cancelAndRetireReplacement_restores hsub href) fun _ t ht => ht
    · rw [if_neg href]
      exact Restores.of_row rfl

theorem cancelLocked_restores {actor : ℕ} :
    Program.returns env (cancelLocked actor) (fun _ t => Restores s t) s := by
  unfold cancelLocked
  rw [Program.returns, Program.wp_bind, wp_lockSubscription]
  refine ⟨fun sub hsub => ?_, fun _ => trivial⟩
  rw [Program.wp_whenever]
  exact ⟨fun _ => storePastDueCancel_restores hsub, fun _ => .of_row rfl⟩

theorem AbandonPath.restores (path : AbandonPath) :
    Program.returns env path.program (fun _ t => Restores s t) s := by
  cases path with
  | replacementSnapshot =>
    exact Program.returns_bind applyReplacementSnapshot_restores fun _ _ h => h
  | mainSnapshot => exact Program.returns_bind applySnapshot_restores fun _ _ h => h
  | verification => exact Program.returns_bind commitT1_restores fun _ _ h => h
  | cancelAnswer => exact Program.returns_bind commitT2_restores fun _ _ h => h
  | cancelReplacement => exact Program.returns_bind cancelReplacement_restores fun _ _ h => h
  | cancelSubscription => exact cancelPending_restores
  | cancelPastDue => exact cancelLocked_restores

def SamePeriodAndUsage (s t : State) : Prop :=
  t.data.sub?.map (fun sub => (sub.currentPeriodStart, sub.currentPeriodEnd)) =
    s.data.sub?.map (fun sub => (sub.currentPeriodStart, sub.currentPeriodEnd)) ∧
    t.data.usage = s.data.usage

/-- No plan was changed, and the replacement is still the one that was started. -/
structure SamePlans (sub sub' : Subscription) : Prop where
  plan : sub'.plan = sub.plan
  pendingPlan : sub'.pendingPlan = sub.pendingPlan
  replacementRef : sub'.replacementProviderRef = sub.replacementProviderRef
  replacementPlan : sub'.replacementPlan = sub.replacementPlan

/-- A replacement that `sub` was given in the run from `s` to `t`, and that was abandoned in the one
from `u` to `v`. -/
structure StartedAndAbandoned (env env' : Env) (sub : Subscription) (plan : Plan)
    (kind : ReplacementKind)
    (path : AbandonPath) (after : Subscription) (s t u v : State) : Prop where
  row : s.data.sub? = some sub
  active : sub.status = .active
  start : ∃ actor acknowledged result,
    (startPlanChangeReplacement sub plan kind actor acknowledged env.settings).run env s =
      (.ok result, t)
  between : ∃ started before, t.data.sub? = some started ∧ u.data.sub? = some before ∧
    SamePlans started before ∧ before.Abandons after
  abandon : path.program.run env' u = (.ok (), v)
  stored : v.data.sub? = some after

/-- The plans are those before the start, and neither run touched the period or the usage. -/
structure Restored (sub after : Subscription) (s t u v : State) : Prop where
  plan : after.plan = sub.plan
  pendingPlan : after.pendingPlan = sub.pendingPlan
  started : SamePeriodAndUsage s t
  abandoned : SamePeriodAndUsage u v

/-- The start wrote over no pending plan, and the pending plan is not its target. -/
def NothingPending (sub : Subscription) (plan : Plan) : ReplacementKind → Prop
  | .downgrade => sub.pendingPlan = none
  | .upgrade => sub.pendingPlan.map (·.pk) ≠ some plan.pk

theorem pendingBeside_of_no_replacement {sub : Subscription} (h : sub.replacementPlan = none) :
    sub.pendingBeside = sub.pendingPlan := by
  simp [Subscription.pendingBeside, h]

theorem pendingBeside_withReplacement {sub : Subscription} {plan : Plan}
    {kind : ReplacementKind} {ref : Ref}
    {expiresAt : Time} :
    (withReplacement sub plan kind ref expiresAt).pendingBeside = sub.pendingPlan ↔
      NothingPending sub plan kind := by
  cases kind with
  | downgrade => simp [Subscription.pendingBeside, withReplacement, NothingPending, eq_comm]
  | upgrade =>
    simp only [Subscription.pendingBeside, withReplacement, NothingPending,
      Option.isSome_some, true_and,
      Option.map_some, reduceCtorEq, ↓reduceIte]
    cases hpending : sub.pendingPlan with
    | none => simp
    | some pending => simp

theorem SamePlans.pendingBeside {sub sub' : Subscription} (h : SamePlans sub sub') :
    sub'.pendingBeside = sub.pendingBeside := by
  simp only [Subscription.pendingBeside, h.replacementPlan, h.pendingPlan]

variable {env' : Env} {t u v : State} {sub after : Subscription} {plan : Plan}
    {kind : ReplacementKind}
  {path : AbandonPath}

/-- An abandon undoes its start if and only if there was nothing pending that it takes for its
own. -/
theorem restored_iff (h : StartedAndAbandoned env env' sub plan kind path after s t u v) :
    Restored sub after s t u v ↔ NothingPending sub plan kind := by
  obtain ⟨hsub, hactive, ⟨actor, acknowledged, result, hstart⟩,
    ⟨row, before, hrow, hbefore, hsame, habandons⟩, habandon, hafter⟩ := h
  obtain ⟨-, terms, ref, -, -, -, -, hstored⟩ :=
    Program.wp_ok startPlanChangeReplacement_stores hstart
  obtain rfl := Option.some.inj (hrow.symm.trans hstored)
  obtain ⟨-, hstarting⟩ := Program.wp_ok (startPlanChangeReplacement_spec hsub hactive) hstart
  have hrestores := Program.wp_ok path.restores habandon
  obtain ⟨hstanding, husage⟩ := hrestores before after hbefore hafter habandons
  obtain ⟨-, -, hnone, -, -⟩ := habandons
  have hplanless : after.replacementPlan = none := by
    have hset := (Database.checks hafter).planSet
    rw [hnone] at hset
    exact Option.not_isSome_iff_eq_none.mp fun h => absurd (hset.mp h) (by simp)
  have hplan : after.plan = sub.plan := (congrArg Standing.plan hstanding).trans hsame.plan
  have hpending : after.pendingPlan =
      (withReplacement sub plan kind ref terms.expiresAt).pendingBeside := by
    rw [← pendingBeside_of_no_replacement hplanless, ← hsame.pendingBeside]
    exact congrArg Standing.pendingPlan hstanding
  have hstarted : SamePeriodAndUsage s t := by
    refine ⟨by rw [hstored, hsub]; rfl, ?_⟩
    cases hstarting with
    | intro _ _ _ done => exact done.usage
  have habandoned : SamePeriodAndUsage u v := by
    refine ⟨?_, husage⟩
    rw [hafter, hbefore, Option.map_some, Option.map_some]
    exact congrArg some (Prod.ext (congrArg Standing.periodStart hstanding)
      (congrArg Standing.periodEnd hstanding))
  constructor
  · intro hrestored
    exact pendingBeside_withReplacement.mp (hpending.symm.trans hrestored.pendingPlan)
  · intro hnothing
    exact ⟨hplan, hpending.trans (pendingBeside_withReplacement.mpr hnothing), hstarted, habandoned⟩

end Restored

def scale : Plan := ⟨3, "Scale", 900000, 2000, some "plan_x", true⟩

def onScale (pendingPlan : Option Plan) : Subscription where
  plan := scale
  status := .active
  currentPeriodStart := some (seconds 1000)
  currentPeriodEnd := some (seconds 2000)
  paymentProviderRef := some refA
  pendingPlan := pendingPlan

theorem onScale_checks (pendingPlan : Option Plan) : (onScale pendingPlan).Checks := by
  constructor <;> simp [onScale, seconds]

def onScaleState (pendingPlan : Option Plan) : State :=
  ⟨rowless.withRow (onScale pendingPlan) (onScale_checks pendingPlan), .empty⟩

def growthStarted (pendingPlan : Option Plan) : State :=
  ((startPlanChangeReplacement (onScale pendingPlan) growth .downgrade 7 true someSettings).run
    (createsB 1500)
    (onScaleState pendingPlan)).2

def expiredB : Env :=
  ({ fetch := fun _ => .ok (entityOf "sub_b" "plan_g" "expired" 0 0) } : Answers).at 1600

def failedB : AbandonPath :=
  .replacementSnapshot (entityOf "sub_b" "plan_g" "expired" 0 0) none (seconds 1600)

def growthFailed (pendingPlan : Option Plan) : State :=
  (failedB.program.run expiredB (growthStarted pendingPlan)).2

def afterFailure : Subscription := { onScale none with
  retiredProviderRef := some refB
  retiredKind := some .abandonedReplacement }

theorem growth_startedAndAbandoned {pendingPlan : Option Plan}
    (h : pendingPlan = none ∨ pendingPlan = some starter) :
    StartedAndAbandoned (createsB 1500) expiredB (onScale pendingPlan) growth .downgrade
    failedB afterFailure
      (onScaleState pendingPlan) (growthStarted pendingPlan) (growthStarted pendingPlan)
      (growthFailed pendingPlan) := by
  rcases h with rfl | rfl
  · exact ⟨rfl, rfl, ⟨7, true, ⟨true, some (checkoutPayload someSettings refB)⟩, rfl⟩,
      ⟨_, _, rfl, rfl, ⟨rfl, rfl, rfl, rfl⟩, refB, rfl, rfl, rfl, rfl⟩, rfl, rfl⟩
  · exact ⟨rfl, rfl, ⟨7, true, ⟨true, some (checkoutPayload someSettings refB)⟩, rfl⟩,
      ⟨_, _, rfl, rfl, ⟨rfl, rfl, rfl, rfl⟩, refB, rfl, rfl, rfl, rfl⟩, rfl, rfl⟩

theorem restored_of_nothing :
    Restored (onScale none) afterFailure (onScaleState none) (growthStarted none)
    (growthStarted none) (growthFailed none) :=
  (restored_iff (growth_startedAndAbandoned (.inl rfl))).mpr rfl

/-- The downgrade to `starter` that the provider has scheduled is no longer pending. -/
theorem scheduled_downgrade_lost :
    ∃ env env' sub plan kind path after s t u v,
    StartedAndAbandoned env env' sub plan kind path after s t u v ∧
      sub.pendingPlan = some starter ∧ after.pendingPlan = none ∧ ¬ Restored sub after s t u v := by
  refine ⟨_, _, _, _, _, _, _, _, _, _, _, growth_startedAndAbandoned (.inr rfl),
    rfl, rfl, fun h => ?_⟩
  cases h.pendingPlan

end ReviewFlow.Billing
