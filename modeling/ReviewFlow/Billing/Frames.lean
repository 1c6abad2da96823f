import ReviewFlow.Rollback
import ReviewFlow.Billing.Tasks

/-!
# What the writes beside the row leave

A view of the tables that reads neither the row, its usage, its events nor the audit rows of most
actions stays through every program that writes only these. The ledger is such a view, and so are
the audit rows of payments after the end.
-/

namespace ReviewFlow.Billing

open Savepoint

/-- The view does not read the row, its usage, its events, nor an audit row of another action than
`replacement_paid_after_end`. -/
structure Apart {β : Type} (f : Database → β) : Prop where
  row : ∀ db subscription, f { db with subscription := subscription } = f db
  usage : ∀ db usage, f { db with usage := usage } = f db
  events : ∀ db events, f { db with events := events } = f db
  audits : ∀ db (audit : AuditRow), audit.action ≠ .replacementPaidAfterEnd →
    f { db with audits := db.audits ++ [audit] } = f db

theorem apart_payments : Apart Database.payments :=
  ⟨fun _ _ => rfl, fun _ _ => rfl, fun _ _ => rfl, fun _ _ _ => rfl⟩

def Database.paidAfterEnd (db : Database) : List AuditRow :=
  db.audits.filter fun row => row.action = .replacementPaidAfterEnd

theorem apart_paidAfterEnd : Apart Database.paidAfterEnd := by
  refine ⟨fun _ _ => rfl, fun _ _ => rfl, fun _ _ => rfl, fun db audit h => ?_⟩
  simp [Database.paidAfterEnd, h]

namespace Apart

variable {β : Type} {f : Database → β}

theorem saveSubscription (h : Apart f) (sub : Subscription) :
    Program.Keeps f (saveSubscription sub) := by
  refine Program.keeps_query fun env db => ?_
  split
  · split
    · rfl
    · exact h.row db _
  · rfl

theorem resetUsagePeriod (h : Apart f) (sub : Subscription) :
    Program.Keeps f (resetUsagePeriod sub) := by
  refine Program.keeps_query fun env db => ?_
  split
  · split
    · rfl
    · split
      · exact h.usage db _
      · rfl
  · rfl

theorem audit (h : Apart f) {action : AuditAction} (haction : action ≠ .replacementPaidAfterEnd)
    (actor : Option ℕ) (metadata : Dict) : Program.Keeps f (audit action actor metadata) := by
  refine Program.keeps_query fun env db => ?_
  split
  · exact h.audits db _ haction
  · rfl

theorem timezoneNow (_ : Apart f) : Program.Keeps f timezoneNow := fun _ _ => rfl

theorem markEvents (h : Apart f) (filter : BillingEvent → Bool) :
    Program.Keeps f (markEvents filter) :=
  h.timezoneNow.bind fun _ => Program.keeps_modify fun db => h.events db _

theorem razorpay (_ : Apart f) (request : Request) : Program.Keeps f (razorpay request) := by
  intro env s
  unfold Billing.razorpay
  dsimp only
  split <;> rfl

theorem orNone (_ : Apart f) {α : Type} {m : Prog α} (hm : Program.Keeps f m) :
    Program.Keeps f (orNone m) := by
  unfold Billing.orNone
  refine (hm.bind fun a => Program.keeps_pure _).handle fun e => ?_
  split
  · exact Program.keeps_pure _
  · exact Program.keeps_raise _

theorem refetchReplacement (h : Apart f) (sub : Subscription) :
    Program.Keeps f (refetchReplacement sub) := by
  unfold Billing.refetchReplacement
  split
  · exact Program.keeps_raise _
  · exact (h.orNone (h.razorpay _)).bind fun _ => Program.keeps_pure _

theorem retireReplacement (h : Apart f) (sub : Subscription) (entity : Dict) (reason : String)
    (actor : Option ℕ) : Program.Keeps f (retireReplacement sub entity reason actor) :=
  Program.keeps_ask.bind fun _ => (h.markEvents _).bind fun _ =>
    (h.audit (by decide) _ _).bind fun _ => Program.keeps_pure _

theorem abandonUnlessActive (h : Apart f) (sub : Subscription) (reason : String)
    (abandonable : Dict → Bool)
    (entity : Option Dict) :
    Program.Keeps f (abandonUnlessActive sub reason abandonable entity) := by
  unfold Billing.abandonUnlessActive
  split
  · exact Program.keeps_pure _
  · refine Program.Keeps.bind ?_ fun found => ?_
    · unfold entityOrRefetch
      split
      · exact Program.keeps_pure _
      · exact h.refetchReplacement sub
    · split
      · exact Program.keeps_pure _
      · split
        · exact Program.keeps_pure _
        · split
          · exact Program.keeps_pure _
          · exact (h.retireReplacement _ _ _ _).bind fun _ => Program.keeps_pure _

theorem abandonAfter (h : Apart f) (r : Applied) (reason : String) :
    Program.Keeps f (abandonAfter r reason) := by
  unfold Billing.abandonAfter
  split
  · exact (h.abandonUnlessActive _ _ _ _).bind fun _ => Program.keeps_pure _
  · exact Program.keeps_pure _

theorem applyStatus (h : Apart f) {sub : Subscription} {entity : Dict}
    {invoices : Option (List Json)}
    {plan : Plan} {actor : Option ℕ} {status : String} {now : Time} (hstatus : status ≠ "active") :
    Program.Keeps f (applyStatus sub entity invoices plan actor status now) := by
  unfold Billing.applyStatus
  rw [if_neg hstatus]
  split
  · refine Program.Keeps.bind ?_ fun r => h.abandonAfter r _
    unfold applyPaymentFailed
    split
    · exact Program.keeps_pure _
    · exact (h.audit (by decide) _ _).bind fun _ => Program.keeps_pure _
  · split
    · split
      · exact Program.keeps_pure _
      · refine Program.Keeps.bind ?_ fun r => h.abandonAfter r _
        unfold applyTerminal
        split
        · exact (h.audit (by decide) _ _).bind fun _ => Program.keeps_pure _
        · exact (h.audit (by split <;> decide) _ _).bind fun _ => Program.keeps_pure _
        · exact Program.keeps_raise _
        · exact Program.keeps_pure _
    · exact Program.keeps_pure _

theorem clearFailedCommitted (h : Apart f) (sub : Subscription) :
    Program.Keeps f (clearFailedCommitted sub) := by
  refine (h.refetchReplacement sub).bind fun entity => ?_
  split
  · exact Program.keeps_pure _
  · split
    · exact Program.keeps_pure _
    · split
      · exact Program.keeps_pure _
      · exact (h.retireReplacement _ _ _ _).bind fun _ =>
          (h.saveSubscription _).bind fun _ => Program.keeps_pure _

theorem abandonIfWanted (h : Apart f) (sub : Subscription) (reason : String)
    (abandonable : Dict → Bool)
    (wanted : Bool) : Program.Keeps f (abandonIfWanted sub reason abandonable wanted) := by
  unfold Billing.abandonIfWanted
  split
  · exact Program.keeps_pure _
  · refine (h.abandonUnlessActive _ _ _ _).bind fun a => ?_
    split
    · exact Program.keeps_pure _
    · exact (h.saveSubscription _).bind fun _ => Program.keeps_pure _

theorem replacementInactive (h : Apart f) (sub : Subscription) (entity : Dict) (status : String) :
    Program.Keeps f (replacementInactive sub entity status) := by
  unfold Billing.replacementInactive
  split
  · exact h.abandonIfWanted _ _ _ _
  · exact h.timezoneNow.bind fun _ => h.abandonIfWanted _ _ _ _

theorem storeSwitch (h : Apart f) (sub : Subscription) (departing : Option Ref) :
    Program.Keeps f (storeSwitch sub departing) :=
  (h.saveSubscription _).bind fun _ => (h.resetUsagePeriod _).bind fun _ =>
    (h.markEvents _).whenever.bind fun _ => Program.keeps_pure _

theorem storeSnapshot (h : Apart f) (r : Applied) (status : String) (started : Time) :
    Program.Keeps f (storeSnapshot r status started) := by
  refine (h.saveSubscription _).bind fun _ => Program.Keeps.bind ?_ fun _ => Program.keeps_pure _
  exact ((h.resetUsagePeriod _).bind fun _ => Program.keeps_pure _).whenever

theorem razorpayInvoices (_ : Apart f) (ref : Ref) : Program.Keeps f (razorpayInvoices ref) := by
  intro env s
  unfold Billing.razorpayInvoices
  dsimp only
  split <;> rfl

theorem rejectedIsUnavailable (_ : Apart f) {α : Type} {m : Prog α} (hm : Program.Keeps f m) :
    Program.Keeps f (rejectedIsUnavailable m) := by
  refine hm.handle fun e => ?_
  split <;> exact Program.keeps_raise _

theorem firstSubscription (_ : Apart f) : Program.Keeps f firstSubscription := fun _ _ => rfl

theorem lockSubscription (_ : Apart f) : Program.Keeps f lockSubscription := by
  refine Program.keeps_query fun env db => ?_
  split <;> rfl

theorem lockCurrentSubscription (h : Apart f) : Program.Keeps f lockCurrentSubscription := by
  refine (h.firstSubscription.bind fun row => ?_).savepoint
  split
  · exact Program.keeps_pure _
  · exact h.lockSubscription.bind fun _ => Program.keeps_pure _

theorem fetchInvoicesIfNeeded (h : Apart f) (ref : Ref) (oldStatus : Status)
    (oldStart : Option Time)
    (entity : Dict) : Program.Keeps f (fetchInvoicesIfNeeded ref oldStatus oldStart entity) := by
  unfold Billing.fetchInvoicesIfNeeded
  split
  · exact (h.razorpayInvoices ref).bind fun _ => Program.keeps_pure _
  · exact Program.keeps_pure _

/-! The commit of a downgrade, the retired subscription, dunning and the webhook. -/

theorem commitT1 (h : Apart f) : Program.Keeps f commitT1 := by
  have hstore : ∀ sub entity now verified,
      Program.Keeps f (storeCommit sub entity now verified) := by
    intro sub entity now verified
    unfold storeCommit
    split
    · exact (h.abandonUnlessActive _ _ _ _).bind fun _ =>
        (h.saveSubscription _).whenever.bind fun _ => Program.keeps_pure _
    · exact (h.saveSubscription _).bind fun _ => (h.audit (by decide) _ _).bind fun _ =>
        Program.keeps_pure _
  have hverify : ∀ sub entity, Program.Keeps f (verifyCommit sub entity) := by
    intro sub entity
    unfold verifyCommit
    split
    · exact Program.keeps_pure _
    · split
      · exact Program.keeps_pure _
      · exact h.timezoneNow.bind fun _ => Program.keeps_ask.bind fun _ => hstore _ _ _ _
  refine (h.firstSubscription.bind fun row => ?_).savepoint
  split
  · exact Program.keeps_pure _
  · refine h.lockSubscription.bind fun sub => ?_
    unfold commitLocked
    split
    · exact Program.keeps_pure _
    · exact (h.refetchReplacement sub).bind fun _ => hverify _ _

theorem storeConfirmed (h : Apart f) (sub : Subscription) : Program.Keeps f (storeConfirmed sub) :=
  h.timezoneNow.bind fun _ => h.saveSubscription _

theorem commitT2 (h : Apart f) (refs : CommitRefs) (refused : Bool) :
    Program.Keeps f (commitT2 refs refused) := by
  refine (h.lockSubscription.bind fun sub => ?_).savepoint
  split
  · exact Program.keeps_pure _
  · split
    · exact (h.storeConfirmed _).bind fun _ => Program.keeps_pure _
    · exact (h.abandonUnlessActive _ _ _ _).bind fun _ =>
        (h.saveSubscription _).bind fun _ => Program.keeps_pure _

theorem cancelOutcome (h : Apart f) (ref : Ref) : Program.Keeps f (cancelOutcome ref) := by
  refine ((h.razorpay _).bind fun _ => Program.keeps_pure _).handle fun e => ?_
  split
  · exact Program.keeps_pure _
  · split
    · exact Program.keeps_pure _
    · exact Program.keeps_raise _

theorem clearRetired (h : Apart f) (ref : Ref) : Program.Keeps f (clearRetired ref) :=
  (h.lockSubscription.bind fun _ =>
    ((h.saveSubscription _).bind fun _ => h.markEvents _).whenever).savepoint

theorem dunningTransaction (h : Apart f) : Program.Keeps f dunningTransaction := by
  have hstage : ∀ sub pastDueAt now, Program.Keeps f (advanceStage sub pastDueAt now) := by
    intro sub pastDueAt now
    unfold advanceStage
    split
    · exact Program.keeps_pure _
    · exact ((h.saveSubscription _).bind fun _ => h.audit (by decide) _ _).whenever
  have hadvance : ∀ sub now, Program.Keeps f (advancePastDue sub now) := by
    intro sub now
    unfold advancePastDue
    split
    · exact Program.keeps_raise _
    · split
      · exact (h.saveSubscription _).bind fun _ => h.audit (by decide) _ _
      · exact hstage _ _ _
  exact h.timezoneNow.bind fun _ => (h.firstSubscription.bind fun _ =>
    (h.lockSubscription.bind fun _ => (hadvance _ _).whenever).whenever).savepoint

theorem updateProviderStatus (h : Apart f) (ref : Ref) (status : String) :
    Program.Keeps f (updateProviderStatus ref status) := by
  refine (h.firstSubscription.bind fun row => ?_).savepoint
  split
  · exact Program.keeps_pure _
  · exact (h.saveSubscription _).whenever

theorem insertEvent (h : Apart f) (ref : Ref) (eventId eventType : String) :
    Program.Keeps f (insertEvent ref eventId eventType) := by
  refine h.timezoneNow.bind fun now => Program.keeps_query fun env db => ?_
  split
  · rfl
  · exact h.events db _

/-! The owner's cancel. -/

theorem cancelOldProviderSubscription (h : Apart f) (ref : Ref) :
    Program.Keeps f (cancelOldProviderSubscription ref) :=
  (h.rejectedIsUnavailable (h.razorpay _)).bind fun _ => Program.keeps_pure _

theorem cancelAndRetireReplacement (h : Apart f) (sub : Subscription) (actor : ℕ)
    (refuseCommitted : Bool) :
    Program.Keeps f (cancelAndRetireReplacement sub actor refuseCommitted) := by
  have huncharged : ∀ sub entity, Program.Keeps f (cancelUncharged sub entity) := by
    intro sub entity
    unfold cancelUncharged
    split
    · exact (h.cancelOldProviderSubscription _).whenever
    · exact Program.keeps_pure _
  unfold Billing.cancelAndRetireReplacement
  apply Program.Keeps.savepoint
  split
  · exact Program.keeps_raise _
  · refine (h.refetchReplacement sub).bind fun entity => ?_
    unfold retireReread
    split
    · exact Program.keeps_raise _
    · split
      · exact Program.keeps_raise _
      · exact (huncharged _ _).bind fun _ => (h.retireReplacement _ _ _ _).bind fun _ =>
          (h.saveSubscription _).bind fun _ => Program.keeps_pure _

theorem cancelReplacement (h : Apart f) (actor : ℕ) :
    Program.Keeps f (cancelReplacement actor) := by
  refine h.lockCurrentSubscription.bind fun row => ?_
  split
  · exact Program.keeps_pure _
  · split
    · exact (h.cancelAndRetireReplacement _ _ _).bind fun _ => Program.keeps_pure _
    · exact Program.keeps_pure _

theorem cancelPastDue (h : Apart f) (sub : Subscription) (actor : ℕ) :
    Program.Keeps f (cancelPastDue sub actor) := by
  have hprovider : ∀ ref status, Program.Keeps f (cancelPastDueProvider ref status) := by
    intro ref status
    unfold cancelPastDueProvider
    split
    · refine ((h.orNone (h.razorpay _)).bind fun answer => ?_).whenever
      unfold recordCancelAnswer
      split
      · exact Program.keeps_pure _
      · split
        · exact h.updateProviderStatus _ _
        · exact Program.keeps_pure _
    · exact Program.keeps_pure _
  have hstore : Program.Keeps f (storePastDueCancel sub actor) :=
    ((h.saveSubscription _).bind fun _ => (h.audit (by decide) _ _).bind fun _ =>
      (h.abandonUnlessActive _ _ _ _).bind fun _ => (h.saveSubscription _).whenever).savepoint
  exact hstore.bind fun _ => (hprovider _ _).bind fun _ => h.lockSubscription

theorem cancelAtPeriodEnd (h : Apart f) (sub : Subscription) (ref : Ref) (actor : ℕ) :
    Program.Keeps f (cancelAtPeriodEnd sub ref actor) :=
  (h.rejectedIsUnavailable (h.razorpay _)).bind fun _ =>
    ((h.saveSubscription _).bind fun _ => h.audit (by decide) _ _).savepoint.bind fun _ =>
      Program.keeps_pure _

/-! The checkout. -/

theorem createProviderSubscription (h : Apart f) (plan : Plan) :
    Program.Keeps f (createProviderSubscription plan) := by
  refine (h.rejectedIsUnavailable (h.razorpay _)).bind fun entity => ?_
  unfold usableCreated
  split
  · split
    · exact Program.keeps_raise _
    · exact Program.keeps_pure _
  · exact Program.keeps_raise _

theorem storeNewProviderSubscription (h : Apart f) (sub : Subscription) (plan : Plan)
    (created : Created)
    (actor : ℕ) : Program.Keeps f (storeNewProviderSubscription sub plan created actor) :=
  (h.saveSubscription _).bind fun _ => h.audit (by decide) _ _

theorem replaceProviderSubscription (h : Apart f) (sub : Subscription) (plan : Plan) (actor : ℕ)
    (cancelRef : Option Ref) :
    Program.Keeps f (replaceProviderSubscription sub plan actor cancelRef) := by
  have hclear : Program.Keeps f (clearReplacementBeforeReset sub) := by
    unfold clearReplacementBeforeReset
    split
    · exact Program.keeps_pure _
    · refine (h.abandonUnlessActive _ _ _ _).bind fun a => ?_
      split
      · exact (h.saveSubscription _).bind fun _ => Program.keeps_pure _
      · exact Program.keeps_raise _
  have hcancel : Program.Keeps f (cancelIfAsked cancelRef) := by
    unfold cancelIfAsked
    split
    · exact h.cancelOldProviderSubscription _
    · exact Program.keeps_pure _
  exact Program.keeps_ask.bind fun _ => (hclear.bind fun _ => hcancel.bind fun _ =>
    (h.createProviderSubscription _).bind fun _ =>
        (h.storeNewProviderSubscription _ _ _ _).bind fun _ =>
      Program.keeps_pure _).savepoint.bind fun _ => Program.keeps_pure _

theorem firstCheckout (h : Apart f) (plan : Plan) (actor : ℕ) :
    Program.Keeps f (firstCheckout plan actor) := by
  have hinsert : Program.Keeps f (insertSubscription plan) := by
    refine Program.keeps_query fun env db => ?_
    split
    · rfl
    · exact h.row db _
  refine Program.keeps_ask.bind fun _ => (hinsert.bind fun inserted => ?_).savepoint
  split
  · exact Program.keeps_pure _
  · exact (h.createProviderSubscription _).bind fun _ =>
      (h.storeNewProviderSubscription _ _ _ _).bind fun _ => Program.keeps_pure _

theorem startPlanChangeReplacement (h : Apart f) (sub : Subscription) (plan : Plan)
    (kind : ReplacementKind)
    (actor : ℕ) (acknowledged : Bool) (settings : Settings) :
    Program.Keeps f (startPlanChangeReplacement sub plan kind actor acknowledged settings) := by
  have hcreated : ∀ terms current,
      Program.Keeps f (createReplacementSubscription plan terms current) := by
    intro terms current
    unfold createReplacementSubscription
    split
    · exact Program.keeps_raise _
    · refine (h.rejectedIsUnavailable (h.razorpay _)).bind fun entity => ?_
      unfold usableCreated
      split
      · split
        · exact Program.keeps_raise _
        · exact Program.keeps_pure _
      · exact Program.keeps_raise _
  have hstore : ∀ ref expiresAt,
      Program.Keeps f (storeReplacement sub plan kind ref expiresAt actor) :=
    fun ref expiresAt => ((h.saveSubscription _).bind fun _ => h.audit (by decide) _ _).savepoint
  unfold Billing.startPlanChangeReplacement
  split
  · exact Program.keeps_raise _
  · refine h.timezoneNow.bind fun now => ?_
    split
    · exact Program.keeps_raise _
    · unfold createReplacement
      split
      · exact Program.keeps_raise _
      · split
        · exact Program.keeps_raise _
        · exact Program.keeps_ask.bind fun _ => (hcreated _ _).bind fun _ =>
              (hstore _ _).bind fun _ =>
            Program.keeps_pure _

theorem updateOrRefusal (h : Apart f) (ref : Ref) (plan : Plan) (scheduleChangeAt : String) :
    Program.Keeps f (updateOrRefusal ref plan scheduleChangeAt) := by
  refine ((h.razorpay _).bind fun _ => Program.keeps_pure _).handle fun e => ?_
  split
  · exact Program.keeps_pure _
  · exact Program.keeps_raise _

end Apart

structure ApartFromLedger {β : Type} (f : Database → β) : Prop extends Apart f where
  payments : ∀ db payments, f { db with payments := payments } = f db

theorem paidAfterEnd_apart : ApartFromLedger Database.paidAfterEnd :=
  ⟨apart_paidAfterEnd, fun _ _ => rfl⟩

namespace ApartFromLedger

variable {β : Type} {f : Database → β}

theorem recordPaid (h : ApartFromLedger f) (paid : Option Dict) (wasPastDue : Bool) :
    Program.Keeps f (recordPaid paid wasPastDue) := by
  unfold Billing.recordPaid
  split
  · refine Program.keeps_query fun env db => ?_
    split
    · rfl
    · split
      · rfl
      · split
        · rfl
        · split
          · rfl
          · exact h.payments db _
  · exact Program.keeps_pure _

theorem auditPlanChange (h : ApartFromLedger f) (actor : Option ℕ) (oldPlan plan : Plan)
    (oldPending : Option ℕ) (effective : Option String) :
    Program.Keeps f (auditPlanChange actor oldPlan plan oldPending effective) :=
  h.audit (by decide) _ _

theorem applyActive (h : ApartFromLedger f) (sub : Subscription) (entity : Dict)
    (invoices : Option (List Json)) (plan : Plan) (actor : Option ℕ) (effective : Option String) :
    Program.Keeps f (applyActive sub entity invoices plan actor effective) := by
  have hactivation : Program.Keeps f (auditActivation sub plan actor effective) := by
    unfold auditActivation
    dsimp only
    split
    · exact (h.audit (by split <;> decide) _ _).bind fun _ => (h.auditPlanChange _ _ _ _ _).whenever
    · exact (h.auditPlanChange _ _ _ _ _).whenever
  unfold Billing.applyActive
  split
  · exact Program.keeps_pure _
  · dsimp only
    split
    · exact (h.auditPlanChange _ _ _ _ _).whenever.bind fun _ => (h.recordPaid _ _).bind fun _ =>
        Program.keeps_pure _
    · split
      · exact Program.keeps_pure _
      · exact hactivation.bind fun _ => (h.recordPaid _ _).bind fun _ => Program.keeps_pure _

theorem applySnapshot (h : ApartFromLedger f) (entity : Dict)
    (invoices : Option (List Json)) (started : Time)
    (actor : Option ℕ) : Program.Keeps f (applySnapshot entity invoices started actor) := by
  refine (h.lockSubscription.bind fun sub => h.timezoneNow.bind fun now =>
    Program.keeps_ask.bind fun env => ?_).savepoint
  unfold snapshotLocked
  split
  · exact Program.keeps_pure _
  · split
    · exact Program.keeps_pure _
    · split
      · refine Program.Keeps.bind ?_ fun r => h.storeSnapshot r _ _
        rename_i status _ _
        by_cases hstatus : status = "active"
        · unfold Billing.applyStatus
          rw [if_pos hstatus]
          exact h.applyActive _ _ _ _ _ _
        · exact h.applyStatus hstatus
      · exact Program.keeps_pure _

theorem switchToReplacement (h : ApartFromLedger f) (sub : Subscription) (entity : Dict)
    (invoices : Option (List Json)) (plan : Plan) (status : String) (started : Time) :
    Program.Keeps f (switchToReplacement sub entity invoices plan status started) := by
  unfold Billing.switchToReplacement
  split
  · exact Program.keeps_pure _
  · split
    · exact Program.keeps_pure _
    · split
      · exact Program.keeps_pure _
      · refine (h.applyActive _ _ _ _ _ _).bind fun r => ?_
        split
        · exact Program.keeps_pure _
        · exact h.storeSwitch _ _

theorem reconcile (h : ApartFromLedger f) (sub : Subscription) (ref : Ref) :
    Program.Keeps f (reconcile sub ref) := by
  have hfetch : Program.Keeps f (fetchProviderEntity ref) := by
    refine (h.rejectedIsUnavailable (h.razorpay _)).bind fun entity => ?_
    split
    · exact Program.keeps_pure _
    · exact Program.keeps_raise _
  have hread : Program.Keeps f (reconcileRead sub ref) :=
    h.timezoneNow.bind fun _ => hfetch.bind fun _ =>
      (h.rejectedIsUnavailable (h.fetchInvoicesIfNeeded _ _ _ _)).bind fun _ => Program.keeps_pure _
  exact hread.bind fun _ => (h.applySnapshot _ _ _ _).bind fun _ =>
      h.lockSubscription.savepoint.bind fun _ =>
    Program.keeps_pure _

theorem cancelSubscription (h : ApartFromLedger f) (actor : ℕ) :
    Program.Keeps f (cancelSubscription actor) := by
  have hreconciled : ∀ sub ref entity, Program.Keeps f (cancelReconciled sub ref entity actor) := by
    intro sub ref entity
    unfold cancelReconciled
    split
    · split
      · exact Program.keeps_raise _
      · exact h.cancelAtPeriodEnd _ _ _
    · split
      · exact Program.keeps_raise _
      · exact h.cancelPastDue _ _
  have hmain : ∀ sub, Program.Keeps f (cancelMain sub actor) := by
    intro sub
    unfold cancelMain
    split
    · split
      · exact Program.keeps_pure _
      · split
        · exact Program.keeps_raise _
        · exact (h.reconcile _ _).bind fun _ => hreconciled _ _ _
    · exact h.cancelPastDue _ _
  have hpending : ∀ sub, Program.Keeps f (cancelPendingReplacement sub actor) := by
    intro sub
    unfold cancelPendingReplacement
    split
    · exact h.cancelAndRetireReplacement _ _ _
    · exact Program.keeps_pure _
  refine h.lockCurrentSubscription.bind fun row => ?_
  split
  · exact Program.keeps_raise _
  · split
    · exact Program.keeps_raise _
    · exact (hpending _).bind fun _ => hmain _

theorem checkoutUpdated (h : ApartFromLedger f) (sub : Subscription) (plan : Plan)
    (ref : Ref) (upgrade : Bool)
    (actor : ℕ) (acknowledged : Bool) (started : Time) (answer : Except ProviderFailure Dict)
    (settings : Settings) :
    Program.Keeps f
    (checkoutUpdated sub plan ref upgrade actor acknowledged started answer settings) := by
  have hupgrade : ∀ entity, Program.Keeps f (applyUpgrade sub ref entity started actor) := by
    intro entity
    unfold applyUpgrade
    apply Program.Keeps.savepoint
    split
    · exact Program.keeps_raise _
    · exact (h.rejectedIsUnavailable (h.fetchInvoicesIfNeeded _ _ _ _)).bind fun _ =>
        (h.applySnapshot _ _ _ _).bind fun _ => Program.keeps_pure _
  have hdowngrade : Program.Keeps f (scheduleDowngrade sub plan actor) :=
    ((h.saveSubscription _).bind fun _ => h.audit (by decide) _ _).savepoint
  unfold Billing.checkoutUpdated
  cases answer with
  | error refusal =>
    by_cases hreplaces : isUpdateUnsupportedRefusal settings refusal = true ∧
        replacementEnabled settings (if upgrade then .upgrade else .downgrade) = true
    · simp only [hreplaces, and_self, ↓reduceIte]
      exact h.startPlanChangeReplacement _ _ _ _ _ _
    · simp only [hreplaces, ↓reduceIte]
      exact Program.keeps_raise _
  | ok entity =>
    dsimp only
    split
    · exact (hupgrade entity).bind fun _ => Program.keeps_pure _
    · exact hdowngrade.bind fun _ => Program.keeps_pure _

theorem checkoutRouted (h : ApartFromLedger f) (sub : Subscription) (fetched : Option (Ref × Dict))
    (before : Status) (plan : Plan) (actor : ℕ) (acknowledged : Bool) :
    Program.Keeps f (checkoutRouted sub fetched before plan actor acknowledged) := by
  have hactive : Program.Keeps f (checkoutActive sub plan actor acknowledged) := by
    unfold checkoutActive
    split
    · exact Program.keeps_raise _
    · split
      · exact Program.keeps_raise _
      · split
        · exact Program.keeps_pure _
        · split
          · exact Program.keeps_raise _
          · exact Program.keeps_ask.bind fun _ => h.timezoneNow.bind fun _ =>
              (h.updateOrRefusal _ _ _).bind fun _ => h.checkoutUpdated _ _ _ _ _ _ _ _ _
  have hreplace : ∀ cancelRef,
      Program.Keeps f (replaceProviderSubscription sub plan actor cancelRef) :=
    h.replaceProviderSubscription sub plan actor
  unfold Billing.checkoutRouted
  split
  · split
    · exact Program.keeps_pure _
    · exact hactive
  · split
    · unfold checkoutIncomplete
      split
      · exact hreplace _
      · split
        · exact hreplace _
        · split
          · exact Program.keeps_ask.bind fun _ => Program.keeps_pure _
          · split
            · exact hreplace _
            · exact Program.keeps_raise _
    · unfold checkoutEnded
      split
      · exact hreplace _
      · split
        · exact hreplace _
        · split
          · exact hreplace _
          · exact Program.keeps_raise _

theorem checkoutLocked (h : ApartFromLedger f) (sub : Subscription) (plan : Plan) (actor : ℕ)
    (acknowledged : Bool) : Program.Keeps f (checkoutLocked sub plan actor acknowledged) := by
  have hpending : Program.Keeps f (replacementPending sub plan) := by
    unfold replacementPending
    split
    · split
      · exact Program.keeps_ask.bind fun _ => Program.keeps_pure _
      · exact Program.keeps_raise _
    · exact Program.keeps_raise _
  have hstate : ∀ settings entity, Program.Keeps f (checkProviderState settings entity) := by
    intro settings entity
    unfold checkProviderState
    split
    · exact Program.keeps_raise _
    · exact Program.keeps_pure _
  unfold Billing.checkoutLocked
  split
  · exact Program.keeps_raise _
  · split
    · exact hpending
    · split
      · refine Program.keeps_ask.bind fun env => (h.reconcile _ _).bind fun reconciled => ?_
        split
        · exact Program.keeps_raise _
        · exact (hstate _ _).bind fun _ => h.checkoutRouted _ _ _ _ _ _
      · split
        · exact Program.keeps_raise _
        · exact h.checkoutRouted _ _ _ _ _ _

theorem startCheckout (h : ApartFromLedger f) (actor planId : ℕ) (acknowledged : Bool) :
    Program.Keeps f (startCheckout actor planId acknowledged) := by
  have hunlocked : ∀ plan, Program.Keeps f (checkoutUnlocked plan actor acknowledged) := by
    intro plan
    refine (h.firstCheckout plan actor).bind fun result => ?_
    split
    · exact Program.keeps_pure _
    · refine h.lockCurrentSubscription.bind fun row => ?_
      split
      · exact h.checkoutLocked _ _ _ _
      · exact Program.keeps_raise _
  refine Program.keeps_ask.bind fun env => ?_
  split
  · exact Program.keeps_raise _
  · split
    · exact Program.keeps_raise _
    · refine h.lockCurrentSubscription.bind fun row => ?_
      split
      · exact h.checkoutLocked _ _ _ _
      · exact hunlocked _

end ApartFromLedger

end ReviewFlow.Billing
