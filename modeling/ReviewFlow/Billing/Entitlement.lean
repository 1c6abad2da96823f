import ReviewFlow.Billing.Provider

/-!
# The paid-entitlement rule and what it pays for

`currentPeriodPaid` is the one test that a provider subscription's current cycle
is paid. A usage period is opened, and a payment entered in the ledger, only by
`resetUsagePeriod` and `recordPayment`, whose callers hold that proof.
-/

namespace ReviewFlow.Billing

open Savepoint

/-- `billing_start <= current_start < billing_end`. -/
def inBillingWindow (invoice : Dict) (currentStart : ℤ) : Bool :=
  match (invoice.get "billing_start").int?, (invoice.get "billing_end").int? with
  | some billingStart, some billingEnd =>
    decide (billingStart ≤ currentStart ∧ currentStart < billingEnd)
  | _, _ => false

def paymentId (invoice : Dict) : Option String :=
  (invoice.get "payment_id").str?.filter fun id => !id.isEmpty

def qualifies (ref : String) (currentStart : ℤ) (invoice : Dict) : Bool :=
  (invoice.get "subscription_id").isStr ref && (invoice.get "status").isStr "paid" &&
    (invoice.get "amount_due").int? == some 0 && (paymentId invoice).isSome &&
    inBillingWindow invoice currentStart

/-- `current_period_paid`: the first invoice that qualifies. -/
def currentPeriodPaid (entity : Dict) (invoices : Option (List Json)) : Option Dict :=
  match invoices, (entity.get "id").str?, (entity.get "current_start").int? with
  | some invoices, some ref, some currentStart =>
    (invoices.filterMap Json.dict?).find? (qualifies ref currentStart)
  | _, _, _ => none

@[simp] theorem currentPeriodPaid_none (entity : Dict) : currentPeriodPaid entity none = none := rfl

theorem currentPeriodPaid_spec {entity : Dict} {invoices : Option (List Json)} {invoice : Dict}
    (h : currentPeriodPaid entity invoices = some invoice) :
    ∃ list ref currentStart, invoices = some list ∧ entity.get "id" = .str ref ∧
      entity.get "current_start" = .int currentStart ∧ .obj invoice ∈ list ∧
      qualifies ref currentStart invoice = true := by
  unfold currentPeriodPaid at h
  split at h
  · rename_i list ref currentStart hr hs
    have hmem := List.mem_of_find?_eq_some h
    obtain ⟨j, hj, hd⟩ := List.mem_filterMap.mp hmem
    obtain rfl : j = .obj invoice := by cases j <;> simp [Json.dict?] at hd; rw [hd]
    exact ⟨list, ref, currentStart, rfl, Json.str?_eq_some.mp hr, Json.int?_eq_some.mp hs, hj,
      List.find?_some h⟩
  · cases h

theorem qualifies_window {ref : String} {currentStart : ℤ} {invoice : Dict}
    (h : qualifies ref currentStart invoice = true) :
    inBillingWindow invoice currentStart = true ∧ ∃ id, paymentId invoice = some id := by
  simp only [qualifies, Bool.and_eq_true] at h
  exact ⟨h.2, Option.isSome_iff_exists.mp h.1.2⟩

/-- `reset_usage_period`: insert-or-ignore, then the record of the current period. -/
def resetUsagePeriod (sub : Subscription) : Prog UsageRecord :=
  Program.query fun _ db => match sub.currentPeriodStart, sub.currentPeriodEnd with
    | some start, some stop =>
      match db.usageFor start stop with
      | some record => (.ok record, db)
      | none =>
        if start < stop then
          (.ok ⟨start, stop, 0⟩, { db with usage := db.usage ++ [⟨start, stop, 0⟩] })
        else (.error .doesNotExist, db)
    | _, _ => (.error .valueError, db)

/-- `provider_attempt_id__startswith="pay_"`. -/
def isPaymentKey (id : String) : Bool := "pay_".toList.isPrefixOf id.toList

/-- `_record_payment`: insert-or-ignore. An `IntegrityError` of any kind is swallowed,
an id longer than its column is a `DataError`. -/
def recordPayment (invoice : Dict) (wasPastDue : Bool) : Prog Unit :=
  Program.query fun env db => match fromUnix (invoice.get "paid_at") with
    | none => (.ok (), db)
    | some paidAt =>
      match (invoice.get "payment_id").str? with
      | none => (.error .typeError, db)
      | some id =>
        if 64 < id.toList.length then (.error .dataError, db)
        else if isPaymentKey id = false ∨ id ∈ db.payments.map (·.providerAttemptId) ∨
            id ∈ env.others.paymentIds then (.ok (), db)
        else
          let row : PaymentAttempt := ⟨id, if wasPastDue then .retry else .renewal, paidAt⟩
          (.ok (), { db with payments := db.payments ++ [row] })

section Rules

variable {env : Env} {s : State} {E : Error → State → Prop}

theorem Database.usageFor_none {db : Database} {start stop : Time}
    (h : db.usageFor start stop = none) :
    ∀ u ∈ db.usage, ¬ (u.periodStart = start ∧ u.periodEnd = stop) := by
  intro u hu hp
  have := List.find?_eq_none.mp h u hu
  simp [hp] at this

/-- The usage table after a period is opened: unchanged, or with one more record at
zero for a period that had none. -/
def Opened (before after : List UsageRecord) (start stop : Time) : Prop :=
  after = before ∨
    ((∀ u ∈ before, ¬ (u.periodStart = start ∧ u.periodEnd = stop)) ∧
      after = before ++ [⟨start, stop, 0⟩])

theorem resetUsagePeriod_spec {sub : Subscription} {start stop : Time}
    (hs : sub.currentPeriodStart = some start) (he : sub.currentPeriodEnd = some stop) :
    Program.wp env (resetUsagePeriod sub)
      (fun _ t => t.journal = s.journal ∧ Opened s.data.usage t.data.usage start stop ∧
        t.data = { s.data with usage := t.data.usage })
      (fun e t => t = s ∧ e.isDomain = false) s := by
  unfold resetUsagePeriod
  rw [Program.wp_query]
  cases hu : s.data.usageFor start stop with
  | some record =>
    simp only [hs, he, hu]
    exact ⟨fun _ _ => ⟨trivial, Or.inl rfl, trivial⟩, by simp⟩
  | none =>
    by_cases hlt : start < stop
    · simp only [hs, he, hu, if_pos hlt]
      exact ⟨fun _ _ => ⟨trivial, Or.inr ⟨Database.usageFor_none hu, rfl⟩, trivial⟩, by simp⟩
    · simp only [hs, he, hu, if_neg hlt]
      exact ⟨by simp, by rintro _ ⟨⟩; exact ⟨trivial, rfl⟩⟩

theorem recordPayment_spec {invoice : Dict} {wasPastDue : Bool} :
    Program.wp env (recordPayment invoice wasPastDue)
      (fun _ t => t.journal = s.journal ∧ t.data = { s.data with payments := t.data.payments })
      (fun e t => t = s ∧ e.isDomain = false) s := by
  unfold recordPayment
  rw [Program.wp_query]
  have same : ∀ e : Except Error Unit, (∀ a, (e, s.data).1 = .ok a →
      (⟨(e, s.data).2, s.journal⟩ : State).journal = s.journal ∧
        (⟨(e, s.data).2, s.journal⟩ : State).data = { s.data with payments := s.data.payments }) :=
    fun _ _ _ => ⟨rfl, rfl⟩
  split
  · exact ⟨same _, by simp⟩
  · split
    · exact ⟨same _, by rintro _ ⟨⟩; exact ⟨rfl, rfl⟩⟩
    · split
      · exact ⟨same _, by rintro _ ⟨⟩; exact ⟨rfl, rfl⟩⟩
      · split
        · exact ⟨same _, by simp⟩
        · exact ⟨fun _ _ => ⟨rfl, rfl⟩, by simp⟩

end Rules

end ReviewFlow.Billing
