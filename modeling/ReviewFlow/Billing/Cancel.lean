import ReviewFlow.Billing.Checkout

/-!
# The merchant's cancel

`cancelSubscription` deals with a pending replacement first, then reconciles an
ACTIVE row and cancels it at the period end; a PAST_DUE row is cancelled at
once. `cancelReplacement` abandons the pending replacement alone.
-/

namespace ReviewFlow.Billing

open Savepoint

/-- The checks of `_cancel_and_retire_replacement` on the re-read replacement. -/
def cancelAndRetireError (sub : Subscription) (entity : Dict) : Option Error :=
  if statusIn ["active"] entity = true then some .replacementActivating
  else if notActive entity = false ∨
    sub.retiredProviderRef ≠ none then some .providerStateUnsupported
  else none

def cancelUncharged (sub : Subscription) (entity : Dict) : Prog Unit :=
  match sub.replacementProviderRef with
  | some ref =>
    Program.whenever (statusIn ["created", "authenticated"] entity = true)
      (cancelOldProviderSubscription ref)
  | none => pure ()

/-- `_cancel_and_retire_replacement` on the re-read replacement. -/
def retireReread (sub : Subscription) (actor : ℕ) (entity : Option Dict) : Prog Subscription :=
  match entity with
  | none => Program.raise (.provider .unavailable)
  | some entity =>
    match cancelAndRetireError sub entity with
    | some error => Program.raise error
    | none => do
      cancelUncharged sub entity
      let sub ← retireReplacement sub entity "merchant_cancelled" (some actor)
      saveSubscription sub
      pure sub

def cancelAndRetireReplacement (sub : Subscription) (actor : ℕ) (refuseCommitted : Bool) :
    Prog Subscription :=
  Program.savepoint do
    if refuseCommitted = true ∧ sub.replacementCommittedAt ≠ none then
      Program.raise .replacementCommitted
    else do
      let entity ← refetchReplacement sub
      retireReread sub actor entity

def cancelReplacement (actor : ℕ) : Prog (Option Subscription) := do
  let row ← lockCurrentSubscription
  match row with
  | none => pure none
  | some sub =>
    if sub.replacementProviderRef.isSome = true then do
      let sub ← cancelAndRetireReplacement sub actor true
      pure (some sub)
    else pure (some sub)

def cancelAtPeriodEnd (sub : Subscription) (ref : Ref) (actor : ℕ) : Prog Subscription := do
  let _ ← rejectedIsUnavailable (razorpay (.cancelSubscription ref true))
  Program.savepoint do
    saveSubscription { sub with cancelAtPeriodEnd := true }
    audit .cancellationRequested (some actor) [("effective", .str "PERIOD_END")]
  pure { sub with cancelAtPeriodEnd := true }

def pastDueCancelled (sub : Subscription) : Subscription :=
  clearGrace { sub with status := .cancelled }

/-- The local part of `_cancel_past_due`. -/
def storePastDueCancel (sub : Subscription) (actor : ℕ) : Prog Unit :=
  Program.savepoint do
    saveSubscription (pastDueCancelled sub)
    audit .cancellationRequested (some actor)
      [("from_status", .str Status.pastDue.value), ("to_status", .str Status.cancelled.value),
        ("effective", .str "IMMEDIATE")]
    let a ← abandonUnlessActive (pastDueCancelled sub) "row_ended" notActive none
    Program.whenever (a.abandoned = true) (saveSubscription a.sub)

def recordCancelAnswer (ref : Ref) (answer : Option Dict) : Prog Unit :=
  match answer with
  | none => pure ()
  | some entity => match (entity.get "status").str? with
    | some status => updateProviderStatus ref status
    | none => pure ()

/-- The provider part of `_cancel_past_due`: a failure is owed to the sweep. -/
def cancelPastDueProvider (ref : Option Ref) (providerStatus : Option String) : Prog Unit :=
  match ref with
  | some ref =>
    Program.whenever (providerMayBeCancelled providerStatus = true) do
      let answer ← orNone (razorpay (.cancelSubscription ref false))
      recordCancelAnswer ref answer
  | none => pure ()

def cancelPastDue (sub : Subscription) (actor : ℕ) : Prog Subscription := do
  storePastDueCancel sub actor
  cancelPastDueProvider sub.paymentProviderRef sub.providerStatus
  lockSubscription

/-- `cancel_subscription` on the reconciled row. -/
def cancelReconciled (sub : Subscription) (ref : Ref) (entity : Dict) (actor : ℕ) :
    Prog Subscription :=
  if sub.status = .active then
    if statusIn ["paused"] entity = true then Program.raise .providerStateUnsupported
    else cancelAtPeriodEnd sub ref actor
  else if sub.status ≠ .pastDue then Program.raise .subscriptionNotCancellable
  else cancelPastDue sub actor

/-- `cancel_subscription` once no replacement is pending. -/
def cancelMain (sub : Subscription) (actor : ℕ) : Prog Subscription :=
  if sub.status = .active then
    if sub.cancelAtPeriodEnd = true then pure sub
    else match sub.paymentProviderRef with
      | none => Program.raise .providerStateUnsupported
      | some ref => do
        let reconciled ← reconcile sub ref
        cancelReconciled reconciled.1 ref reconciled.2 actor
  else cancelPastDue sub actor

def cancelPendingReplacement (sub : Subscription) (actor : ℕ) : Prog Subscription :=
  if sub.replacementProviderRef.isSome = true then cancelAndRetireReplacement sub actor false
  else pure sub

def cancelSubscription (actor : ℕ) : Prog Subscription := do
  let row ← lockCurrentSubscription
  match row with
  | none => Program.raise .subscriptionNotCancellable
  | some sub =>
    if sub.status = .incomplete ∨ sub.status.Ended then Program.raise .subscriptionNotCancellable
    else do
      let sub ← cancelPendingReplacement sub actor
      cancelMain sub actor

end ReviewFlow.Billing
