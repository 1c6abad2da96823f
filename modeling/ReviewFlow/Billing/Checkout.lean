import ReviewFlow.Billing.Dunning

/-!
# Checkout

`startCheckout` runs in one transaction under the row lock. Each phase is a
savepoint of its own, so a domain error undoes only the phase that raised it,
and the reconcile before it stays.
-/

namespace ReviewFlow.Billing

open Savepoint

def recognizedProviderStatuses : List String :=
  ["created", "authenticated", "active", "pending", "halted", "cancelled", "completed", "expired",
    "paused"]

/-- `checkout` is what the browser needs to open the provider's checkout. -/
structure CheckoutResult where
  created : Bool
  checkout : Option Dict

def checkoutPayload (settings : Settings) (ref : Ref) : Dict :=
  [("provider", .str "razorpay"), ("key_id", .str settings.razorpayKeyId),
    ("subscription_id", .str ref.val)]

def Settings.offeredPlan (settings : Settings) (planId : ℕ) : Option Plan :=
  (settings.plans.find? fun p => decide (p.pk = planId) && p.isActive).filter fun p =>
    p.providerPlanId.any fun id => !id.isEmpty

def Settings.configured (settings : Settings) : Bool :=
  !settings.razorpayKeyId.isEmpty && !settings.razorpayKeySecret.isEmpty

def lockCurrentSubscription : Prog (Option Subscription) :=
  Program.savepoint do
    let row ← firstSubscription
    match row with
    | none => pure none
    | some _ => do
      let sub ← lockSubscription
      pure (some sub)

def fetchProviderEntity (ref : Ref) : Prog Dict := do
  let entity ← rejectedIsUnavailable (razorpay (.fetchSubscription ref))
  if readable ref entity = true then pure entity else Program.raise (.provider .unavailable)

def invoicesNeeded (oldStatus : Status) (oldStart : Option Time) (entity : Dict) : Bool :=
  (entity.get "status").isStr "active" &&
    !(decide (oldStatus = .active) && oldStart.isSome &&
      decide (fromUnix (entity.get "current_start") = oldStart))

def fetchInvoicesIfNeeded (ref : Ref) (oldStatus : Status)
    (oldStart : Option Time) (entity : Dict) :
    Prog (Option (List Json)) :=
  if invoicesNeeded oldStatus oldStart entity = true then do
    let invoices ← razorpayInvoices ref
    pure (some invoices)
  else pure none

structure Fetched where
  entity : Dict
  invoices : Option (List Json)
  started : Time

def reconcileRead (sub : Subscription) (ref : Ref) : Prog Fetched := do
  let started ← timezoneNow
  let entity ← fetchProviderEntity ref
  let invoices ← rejectedIsUnavailable
    (fetchInvoicesIfNeeded ref sub.status sub.currentPeriodStart entity)
  pure ⟨entity, invoices, started⟩

def reconcile (sub : Subscription) (ref : Ref) : Prog (Subscription × Dict) := do
  let fetched ← reconcileRead sub ref
  let _ ← applySnapshot fetched.entity fetched.invoices fetched.started none
  let sub ← Program.savepoint lockSubscription
  pure (sub, fetched.entity)

def providerStateError (settings : Settings) (entity : Dict) : Option Error :=
  if statusIn ["paused"] entity = true ∨ statusIn recognizedProviderStatuses entity = false then
    some .providerStateUnsupported
  else if settings.planFor (entity.get "plan_id") = none then some .subscriptionPlanUnsupported
  else none

def checkProviderState (settings : Settings) (entity : Dict) : Prog Unit :=
  match providerStateError settings entity with
  | some error => Program.raise error
  | none => pure ()

structure Created where
  entity : Dict
  ref : Ref

def usableCreated (entity : Dict) (current : Option Ref) : Prog Created :=
  match Ref.ofJson? (entity.get "id") with
  | some ref =>
    if current = some ref then Program.raise (.provider .unavailable) else pure ⟨entity, ref⟩
  | none => Program.raise (.provider .unavailable)

def createProviderSubscription (plan : Plan) : Prog Created := do
  let entity ← rejectedIsUnavailable (razorpay (.createSubscription plan.providerPlanId none none))
  usableCreated entity none

def cancelOldProviderSubscription (ref : Ref) : Prog Unit := do
  let _ ← rejectedIsUnavailable (razorpay (.cancelSubscription ref false))
  pure ()

def newlyStored (sub : Subscription) (plan : Plan) (created : Created) : Subscription :=
  { sub with
    plan := plan
    status := .incomplete
    paymentProviderRef := some created.ref
    providerStatus := (created.entity.get "status").str?.map (takeChars 16)
    pendingPlan := none
    cancelAtPeriodEnd := false
    providerSyncedAt := none
    currentPeriodStart := none
    currentPeriodEnd := none }

def storeNewProviderSubscription (sub : Subscription) (plan : Plan) (created : Created)
    (actor : ℕ) : Prog Unit := do
  saveSubscription (newlyStored sub plan created)
  audit .checkoutStarted (some actor) [("plan_id", .int plan.pk), ("plan_name", .str plan.name)]

def resetRefusal (sub : Subscription) (entity : Option Dict) : Error :=
  match entity with
  | none => if sub.replacementCommittedAt = none then .provider .unavailable
    else .providerStateUnsupported
  | some entity => if statusIn ["active"] entity = true then .replacementActivating
    else .providerStateUnsupported

def clearReplacementBeforeReset (sub : Subscription) : Prog Subscription :=
  if sub.replacementProviderRef = none then pure sub
  else do
    let a ← abandonUnlessActive sub "row_ended" notActive none
    if a.abandoned = true then do
      saveSubscription a.sub
      pure a.sub
    else Program.raise (resetRefusal sub a.entity)

def cancelIfAsked (ref : Option Ref) : Prog Unit :=
  match ref with
  | some ref => cancelOldProviderSubscription ref
  | none => pure ()

def replaceProviderSubscription (sub : Subscription) (plan : Plan) (actor : ℕ)
    (cancelRef : Option Ref) : Prog CheckoutResult := do
  let env ← Program.ask
  let created ← Program.savepoint do
    let sub ← clearReplacementBeforeReset sub
    cancelIfAsked cancelRef
    let created ← createProviderSubscription plan
    storeNewProviderSubscription sub plan created actor
    pure created
  pure ⟨true, some (checkoutPayload env.settings created.ref)⟩

def freshRow (plan : Plan) : Row where
  sub := { plan := plan, status := .incomplete }
  checks := by constructor <;> simp

/-- `Subscription.objects.create(...)`, false for the unique violation of a second row. -/
def insertSubscription (plan : Plan) : Prog Bool :=
  Program.query fun _ db => match db.subscription with
    | some _ => (.ok false, db)
    | none => (.ok true, { db with subscription := some (freshRow plan) })

/-- `_first_checkout`, none when another checkout inserted the row first. -/
def firstCheckout (plan : Plan) (actor : ℕ) : Prog (Option CheckoutResult) := do
  let env ← Program.ask
  Program.savepoint do
    let inserted ← insertSubscription plan
    if inserted = false then pure none
    else do
      let created ← createProviderSubscription plan
      storeNewProviderSubscription (freshRow plan).sub plan created actor
      pure (some ⟨true, some (checkoutPayload env.settings created.ref)⟩)

def isUpdateUnsupportedRefusal (settings : Settings) (failure : ProviderFailure) : Bool :=
  match failure with
  | .rejected (some code) (some status) (some reason) =>
    decide ((status, code, reason) ∈ settings.updateUnsupportedRefusals)
  | _ => false

structure Terms where
  startAt : Option ℤ
  expiresAt : Time

/-- The window checks of `start_plan_change_replacement`, before the retired slot. -/
def replacementTerms (settings : Settings) (sub : Subscription) (kind : ReplacementKind)
    (window now : Time) : Except Error Terms :=
  match kind, sub.currentPeriodEnd with
  | .upgrade, _ => .ok ⟨none, now + window⟩
  | .downgrade, none => .error .typeError
  | .downgrade, some stop =>
    if settings.downgradeStartField = none ∨ stop - window ≤ now then .error .planChangeUnsupported
    else .ok ⟨some (toUnix stop), stop - window - seconds 1⟩

/-- `_create_replacement_subscription`. `_unix_time` refuses an instant before 1970. -/
def createReplacementSubscription (plan : Plan) (terms : Terms) (current : Option Ref) :
    Prog Created :=
  if (∃ start ∈ terms.startAt, start ≤ 0) ∨ toUnix terms.expiresAt ≤ 0 then
    Program.raise .valueError
  else do
    let entity ← rejectedIsUnavailable (razorpay
      (.createSubscription plan.providerPlanId terms.startAt (some (toUnix terms.expiresAt))))
    usableCreated entity current

def withReplacement (sub : Subscription) (plan : Plan) (kind : ReplacementKind) (ref : Ref)
    (expiresAt : Time) : Subscription :=
  { sub with
    replacementProviderRef := some ref
    replacementPlan := some plan
    replacementExpiresAt := some expiresAt
    pendingPlan := if kind = .downgrade then some plan else sub.pendingPlan }

def ReplacementKind.value : ReplacementKind → String
  | .upgrade => "UPGRADE"
  | .downgrade => "DOWNGRADE"

def storeReplacement (sub : Subscription) (plan : Plan) (kind : ReplacementKind) (ref : Ref)
    (expiresAt : Time) (actor : ℕ) : Prog Unit :=
  Program.savepoint do
    saveSubscription (withReplacement sub plan kind ref expiresAt)
    audit .replacementStarted (some actor)
      [("kind", .str kind.value), ("from_plan", .str sub.plan.name), ("to_plan", .str plan.name),
        ("plan_id", .int plan.pk)]

/-- `start_plan_change_replacement` once its terms are known. -/
def createReplacement (sub : Subscription) (plan : Plan) (kind : ReplacementKind) (actor : ℕ)
    (acknowledged : Bool) (terms : Terms) : Prog CheckoutResult :=
  if sub.retiredProviderRef ≠ none then Program.raise .replacementInProgress
  else if kind = .upgrade ∧ acknowledged = false then
    Program.raise .noCreditAcknowledgementRequired
  else do
    let env ← Program.ask
    let created ← createReplacementSubscription plan terms sub.paymentProviderRef
    storeReplacement sub plan kind created.ref terms.expiresAt actor
    pure ⟨true, some (checkoutPayload env.settings created.ref)⟩

def startPlanChangeReplacement (sub : Subscription) (plan : Plan) (kind : ReplacementKind)
    (actor : ℕ) (acknowledged : Bool) (settings : Settings) : Prog CheckoutResult :=
  match replacementWindow settings kind with
  | none => Program.raise (.provider .notConfigured)
  | some window => do
    let now ← timezoneNow
    match replacementTerms settings sub kind window now with
    | .error error => Program.raise error
    | .ok terms => createReplacement sub plan kind actor acknowledged terms

/-- `update_subscription`, a refusal being an answer. -/
def updateOrRefusal (ref : Ref) (plan : Plan) (scheduleChangeAt : String) :
    Prog (Except ProviderFailure Dict) :=
  Program.handle
    (do
      let entity ← razorpay (.updateSubscription ref plan.providerPlanId scheduleChangeAt)
      pure (.ok entity))
    fun e => match e with
      | .provider (.rejected code status reason) => pure (.error (.rejected code status reason))
      | e => Program.raise e

def applyUpgrade (sub : Subscription) (ref : Ref) (entity : Dict) (started : Time) (actor : ℕ) :
    Prog Unit :=
  Program.savepoint do
    if readable ref entity = false then Program.raise (.provider .unavailable)
    else do
      let invoices ← rejectedIsUnavailable
        (fetchInvoicesIfNeeded ref sub.status sub.currentPeriodStart entity)
      let _ ← applySnapshot entity invoices started (some actor)
      pure ()

def scheduleDowngrade (sub : Subscription) (plan : Plan) (actor : ℕ) : Prog Unit :=
  Program.savepoint do
    saveSubscription { sub with pendingPlan := some plan }
    audit .planChanged (some actor)
      [("effective", .str "SCHEDULED"), ("from_plan", .str sub.plan.name),
        ("to_plan", .str plan.name), ("plan_id", .int plan.pk)]

/-- `_checkout_active` after the provider's answer to the update. -/
def checkoutUpdated (sub : Subscription) (plan : Plan) (ref : Ref) (upgrade : Bool) (actor : ℕ)
    (acknowledged : Bool) (started : Time) (answer : Except ProviderFailure Dict)
    (settings : Settings) : Prog CheckoutResult :=
  let kind : ReplacementKind := if upgrade then .upgrade else .downgrade
  match answer with
  | .error refusal =>
    if isUpdateUnsupportedRefusal settings refusal = true ∧
      replacementEnabled settings kind = true then
      startPlanChangeReplacement sub plan kind actor acknowledged settings
    else Program.raise .planChangeUnsupported
  | .ok entity => do
    if upgrade then applyUpgrade sub ref entity started actor else scheduleDowngrade sub plan actor
    pure ⟨false, none⟩

def checkoutActive (sub : Subscription) (plan : Plan) (actor : ℕ) (acknowledged : Bool) :
    Prog CheckoutResult :=
  if sub.cancelAtPeriodEnd = true then Program.raise .subscriptionCancelling
  else if plan.pk = sub.plan.pk ∨ plan.monthlyPrice = sub.plan.monthlyPrice then
    Program.raise .planUnchanged
  else if sub.pendingPlan.map (·.pk) = some plan.pk then pure ⟨false, none⟩
  else match sub.paymentProviderRef with
    | none => Program.raise .valueError
    | some ref => do
      let upgrade := decide (sub.plan.monthlyPrice < plan.monthlyPrice)
      let env ← Program.ask
      let started ← timezoneNow
      let answer ← updateOrRefusal ref plan (if upgrade then "now" else "cycle_end")
      checkoutUpdated sub plan ref upgrade actor acknowledged started answer env.settings

def replacementPending (sub : Subscription) (plan : Plan) : Prog CheckoutResult :=
  match sub.replacementProviderRef with
  | some ref =>
    if sub.replacementPlan.map (·.pk) = some plan.pk then do
      let env ← Program.ask
      pure ⟨false, some (checkoutPayload env.settings ref)⟩
    else Program.raise .replacementInProgress
  | none => Program.raise .replacementInProgress

def checkoutIncomplete (sub : Subscription) (fetched : Option (Ref × Dict)) (plan : Plan)
    (actor : ℕ) : Prog CheckoutResult :=
  match fetched with
  | none => replaceProviderSubscription sub plan actor none
  | some (ref, entity) =>
    if statusIn terminalProviderStatuses entity = true then
      replaceProviderSubscription sub plan actor none
    else if isPlanId (entity.get "plan_id") plan.providerPlanId = true then do
      let env ← Program.ask
      pure ⟨false, some (checkoutPayload env.settings ref)⟩
    else if statusIn ["created"] entity = true then
      replaceProviderSubscription sub plan actor (some ref)
    -- Authorized, and perhaps paid: never cancelled or replaced.
    else Program.raise .subscriptionActivating

/-- `_checkout_ended`: a CANCELLED or EXPIRED row. -/
def checkoutEnded (sub : Subscription) (fetched : Option (Ref × Dict)) (plan : Plan) (actor : ℕ) :
    Prog CheckoutResult :=
  match fetched with
  | none => replaceProviderSubscription sub plan actor none
  | some (ref, entity) =>
    if statusIn terminalProviderStatuses entity = true then
      replaceProviderSubscription sub plan actor none
    else if statusIn cancellableProviderStatuses entity = true then
      replaceProviderSubscription sub plan actor (some ref)
    else Program.raise .providerStateUnsupported

/-- The routing of `start_checkout` on the reconciled row. -/
def checkoutRouted (sub : Subscription) (fetched : Option (Ref × Dict)) (before : Status)
    (plan : Plan) (actor : ℕ) (acknowledged : Bool) : Prog CheckoutResult :=
  if sub.status = .active then
    if before ≠ .active ∧ sub.plan.pk = plan.pk then pure ⟨false, none⟩
    else checkoutActive sub plan actor acknowledged
  else if sub.status = .incomplete then checkoutIncomplete sub fetched plan actor
  else checkoutEnded sub fetched plan actor

/-- `start_checkout` on the locked row. -/
def checkoutLocked (sub : Subscription) (plan : Plan) (actor : ℕ) (acknowledged : Bool) :
    Prog CheckoutResult :=
  if sub.status = .pastDue then Program.raise .subscriptionPastDue
  else if sub.status = .active ∧ sub.replacementProviderRef.isSome = true then
    replacementPending sub plan
  else match sub.paymentProviderRef with
    | some ref => do
      let env ← Program.ask
      let reconciled ← reconcile sub ref
      if reconciled.1.status = .pastDue then Program.raise .subscriptionPastDue
      else do
        checkProviderState env.settings reconciled.2
        checkoutRouted reconciled.1 (some (ref, reconciled.2)) sub.status plan actor acknowledged
    | none =>
      if sub.status = .active then Program.raise .providerStateUnsupported
      else checkoutRouted sub none sub.status plan actor acknowledged

/-- The first checkout of a merchant, or the locked row when another one won. -/
def checkoutUnlocked (plan : Plan) (actor : ℕ) (acknowledged : Bool) : Prog CheckoutResult := do
  let result ← firstCheckout plan actor
  match result with
  | some result => pure result
  | none => do
    let row ← lockCurrentSubscription
    match row with
    | some sub => checkoutLocked sub plan actor acknowledged
    | none => Program.raise .typeError

def startCheckout (actor planId : ℕ) (acknowledged : Bool) : Prog CheckoutResult := do
  let env ← Program.ask
  match env.settings.offeredPlan planId with
  | none => Program.raise .planNotAvailable
  | some plan =>
    if env.settings.configured = false then Program.raise (.provider .notConfigured)
    else do
      let row ← lockCurrentSubscription
      match row with
      | some sub => checkoutLocked sub plan actor acknowledged
      | none => checkoutUnlocked plan actor acknowledged

end ReviewFlow.Billing
