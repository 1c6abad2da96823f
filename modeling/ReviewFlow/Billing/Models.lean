import ReviewFlow.Values

/-!
# The billing tables of one merchant

`Plan` is reference data. The rows of one merchant are its `Subscription` (at
most one, by `billing_subscription_merchant_uniq`), its usage records, payments,
webhook events and audit rows. `Row` is a subscription that the table's CHECK
constraints accept, so the database cannot hold any other.
-/

namespace ReviewFlow.Billing

/-- `core.tenancy.is_valid_billing_ref`: a full match of `^[A-Za-z0-9_]{1,64}$`. -/
def isValidBillingRef (text : String) : Bool :=
  decide (1 ≤ text.toList.length ∧ text.toList.length ≤ 64) &&
    text.toList.all fun c => c.isAlphanum || c == '_'

abbrev Ref := { text : String // isValidBillingRef text = true }

def Ref.ofJson? (value : Json) : Option Ref :=
  match value.str? with
  | none => none
  | some text => if h : isValidBillingRef text = true then some ⟨text, h⟩ else none

theorem Ref.ofJson?_eq_some {value : Json} {ref : Ref} :
    Ref.ofJson? value = some ref ↔ value = .str ref.val := by
  obtain ⟨text, h⟩ := ref
  unfold Ref.ofJson?
  cases value <;> simp [Json.str?]
  rintro rfl
  exact h

structure Plan where
  pk : ℕ
  name : String
  /-- in hundredths, as `decimal_places=2` -/
  monthlyPrice : ℕ
  quotaRequests : ℕ
  providerPlanId : Option String
  isActive : Bool
  deriving DecidableEq

inductive Status where
  | incomplete
  | active
  | pastDue
  | cancelled
  | expired
  deriving DecidableEq

def Status.value : Status → String
  | .incomplete => "INCOMPLETE"
  | .active => "ACTIVE"
  | .pastDue => "PAST_DUE"
  | .cancelled => "CANCELLED"
  | .expired => "EXPIRED"

/-- A row that ended: `CANCELLED` or `EXPIRED`. -/
def Status.Ended (s : Status) : Prop := s = .cancelled ∨ s = .expired

instance (s : Status) : Decidable s.Ended := inferInstanceAs (Decidable (_ ∨ _))

inductive RetiredKind where
  | switchedOld
  | abandonedReplacement
  deriving DecidableEq

structure Subscription where
  plan : Plan
  status : Status
  currentPeriodStart : Option Time := none
  currentPeriodEnd : Option Time := none
  paymentProviderRef : Option Ref := none
  pendingPlan : Option Plan := none
  pastDueAt : Option Time := none
  dunningStage : Option ℕ := none
  cancelAtPeriodEnd : Bool := false
  providerStatus : Option String := none
  providerSyncedAt : Option Time := none
  replacementProviderRef : Option Ref := none
  replacementExpiresAt : Option Time := none
  replacementPlan : Option Plan := none
  replacementCommittedAt : Option Time := none
  replacementCancelConfirmedAt : Option Time := none
  retiredProviderRef : Option Ref := none
  retiredKind : Option RetiredKind := none
  deriving DecidableEq

/-- `Subscription.Meta.constraints`, the CHECKs. A comparison with a null column is
unknown, which a CHECK lets pass. -/
structure Subscription.Checks (s : Subscription) : Prop where
  periodSet : s.status = .incomplete ∨
    (s.currentPeriodStart.isSome = true ∧ s.currentPeriodEnd.isSome = true)
  periodOrder : ∀ a ∈ s.currentPeriodStart, ∀ b ∈ s.currentPeriodEnd, a < b
  pastDueAt : s.pastDueAt.isSome = true ↔ s.status = .pastDue
  dunningEpisode : s.dunningStage.isSome = true ↔ s.pastDueAt.isSome = true
  dunningStage : ∀ n ∈ s.dunningStage, n = 0 ∨ n = 3 ∨ n = 6
  refDiffers : s.replacementProviderRef = none ∨
    s.replacementProviderRef ≠ s.paymentProviderRef
  expirySet : s.replacementExpiresAt.isSome = true ↔ s.replacementProviderRef.isSome = true
  planSet : s.replacementPlan.isSome = true ↔ s.replacementProviderRef.isSome = true
  committedNeedsRef : s.replacementCommittedAt = none ∨ s.replacementProviderRef.isSome = true
  retiredKindSet : s.retiredKind.isSome = true ↔ s.retiredProviderRef.isSome = true
  confirmedNeedsCommitted : s.replacementCancelConfirmedAt = none ∨
    s.replacementCommittedAt.isSome = true

instance (s : Subscription) : Decidable s.Checks :=
  decidable_of_iff (_ ∧ _ ∧ _ ∧ _ ∧ _ ∧ _ ∧ _ ∧ _ ∧ _ ∧ _ ∧ _)
    ⟨fun ⟨a, b, c, d, e, f, g, h, i, j, k⟩ => ⟨a, b, c, d, e, f, g, h, i, j, k⟩,
      fun ⟨a, b, c, d, e, f, g, h, i, j, k⟩ => ⟨a, b, c, d, e, f, g, h, i, j, k⟩⟩

structure Row where
  sub : Subscription
  checks : sub.Checks
  deriving DecidableEq

structure UsageRecord where
  periodStart : Time
  periodEnd : Time
  requestsUsed : ℕ
  deriving DecidableEq

inductive AttemptType where
  | renewal
  | retry
  deriving DecidableEq

/-- `provider` is always Razorpay and `status` always SUCCEEDED. -/
structure PaymentAttempt where
  providerAttemptId : String
  attemptType : AttemptType
  attemptedAt : Time
  deriving DecidableEq

structure BillingEvent where
  providerEventId : String
  eventType : String
  providerRef : Ref
  createdAt : Time
  processedAt : Option Time
  deriving DecidableEq

inductive AuditAction where
  | checkoutStarted
  | planChanged
  | cancellationRequested
  | activated
  | pastDue
  | dunningCheckpoint
  | recovered
  | cancelled
  | expired
  | replacementStarted
  | replacementCommitted
  | replacementAbandoned
  | replacementPaidAfterEnd
  deriving DecidableEq

/-- `actor` is the user of the team member, none for the system. -/
structure AuditRow where
  action : AuditAction
  actor : Option ℕ
  metadata : Dict

structure Database where
  subscription : Option Row
  usage : List UsageRecord
  payments : List PaymentAttempt
  events : List BillingEvent
  audits : List AuditRow

def Database.sub? (db : Database) : Option Subscription := db.subscription.map Row.sub

theorem Database.checks {db : Database} {sub : Subscription} (h : db.sub? = some sub) :
    sub.Checks := by
  obtain ⟨row, -, rfl⟩ := Option.map_eq_some_iff.mp h
  exact row.checks

theorem Database.replacement_ne_payment {db : Database} {sub : Subscription} {ref : Ref}
    (h : db.sub? = some sub) (href : sub.replacementProviderRef = some ref) :
    sub.paymentProviderRef ≠ some ref := by
  intro hpay
  rcases (Database.checks h).refDiffers with hnone | hne
  · rw [hnone] at href
    cases href
  · exact hne (href.trans hpay.symm)

def Database.usageFor (db : Database) (start stop : Time) : Option UsageRecord :=
  db.usage.find? fun u => decide (u.periodStart = start ∧ u.periodEnd = stop)

end ReviewFlow.Billing
