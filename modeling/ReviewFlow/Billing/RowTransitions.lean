import ReviewFlow.Billing.Entitlement

/-!
# The transitions of the subscription row

Each helper of `_apply_snapshot` changes the row it is given and writes audit and
ledger rows beside it. The row part of each is a function of the row and the
snapshot (`refreshed`, `activated`, `graced`, `ended`), and the specification of
the helper says that it returns that row and touches nothing but the two logs.
-/

namespace ReviewFlow.Billing

open Savepoint

def grace : ℤ := days 7

def terminalProviderStatuses : List String := ["cancelled", "completed", "expired"]

def cancellableProviderStatuses : List String := ["created", "pending", "halted", "active"]

def providerMayBeCancelled (providerStatus : Option String) : Bool :=
  match providerStatus with
  | some status => decide (status ∈ cancellableProviderStatuses)
  | none => false

/-- `changed`: a status, plan or period changed. `settled`: the snapshot was applied,
so the events that asked for it are marked. -/
structure SnapshotResult where
  changed : Bool
  settled : Bool
  deriving DecidableEq

/-- What a helper made of the row; `advanced` asks for a new usage period. -/
structure Applied where
  sub : Subscription
  changed : Bool
  settled : Bool
  advanced : Bool

def Applied.unsettled (sub : Subscription) : Applied := ⟨sub, false, false, false⟩
def Applied.noChange (sub : Subscription) : Applied := ⟨sub, false, true, false⟩

def takePlan (sub : Subscription) (plan : Plan) (oldPending : Option ℕ)
    (period : Option (Time × Time)) : Subscription :=
  let sub := { sub with
    plan := plan
    pendingPlan := if oldPending = some plan.pk then none else sub.pendingPlan }
  match period with
  | some (start, stop) =>
    { sub with currentPeriodStart := some start, currentPeriodEnd := some stop }
  | none => sub

def clearGrace (sub : Subscription) : Subscription :=
  { sub with pastDueAt := none, dunningStage := none }

def auditPlanChange (actor : Option ℕ) (oldPlan plan : Plan) (oldPending : Option ℕ)
    (effective : Option String) : Prog Unit :=
  let extra : Dict :=
    if effective = some "REPLACEMENT_IMMEDIATE" then [("acknowledged_no_credit", .bool true)]
    else []
  let value := effective.getD (if oldPending = some plan.pk then "APPLIED" else "IMMEDIATE")
  audit .planChanged actor
    ([("effective", .str value), ("from_plan", .str oldPlan.name), ("to_plan", .str plan.name),
      ("plan_id", .int plan.pk)] ++ extra)

def refreshed (sub : Subscription) (plan : Plan) : Subscription :=
  let oldPending := sub.pendingPlan.map (·.pk)
  if sub.plan.pk ≠ plan.pk then takePlan sub plan oldPending none
  else if oldPending = some plan.pk then { sub with pendingPlan := none }
  else sub

/-- The row after a paid snapshot of a period it is not already active in. -/
def activated (sub : Subscription) (plan : Plan) (start stop : Time) : Subscription :=
  let taken := takePlan sub plan (sub.pendingPlan.map (·.pk)) (some (start, stop))
  if sub.status = .active then taken
  else if sub.status = .pastDue then clearGrace { taken with status := .active }
  else { taken with status := .active, cancelAtPeriodEnd := false }

def usablePeriod (entity : Dict) : Option (Time × Time) :=
  match fromUnix (entity.get "current_start"), fromUnix (entity.get "current_end") with
  | some start, some stop => if stop ≤ start then none else some (start, stop)
  | _, _ => none

theorem usablePeriod_eq_some {entity : Dict} {start stop : Time} :
    usablePeriod entity = some (start, stop) ↔
      fromUnix (entity.get "current_start") = some start ∧
        fromUnix (entity.get "current_end") = some stop ∧ start < stop := by
  unfold usablePeriod
  cases fromUnix (entity.get "current_start") with
  | none => simp
  | some a =>
    cases fromUnix (entity.get "current_end") with
    | none => simp
    | some b =>
      by_cases hle : b ≤ a
      · simp only [hle, ↓reduceIte, reduceCtorEq, Option.some.injEq, false_iff]
        rintro ⟨rfl, rfl, hlt⟩
        exact absurd hlt (not_lt.mpr hle)
      · simp only [hle, ↓reduceIte, Option.some.injEq, Prod.mk.injEq]
        constructor
        · rintro ⟨rfl, rfl⟩
          exact ⟨rfl, rfl, not_le.mp hle⟩
        · rintro ⟨rfl, rfl, -⟩
          exact ⟨rfl, rfl⟩

/-- `same_period`: an ACTIVE row with the snapshot's `current_start`. -/
def samePeriod (sub : Subscription) (start : Time) : Prop :=
  sub.status = .active ∧ sub.currentPeriodStart = some start

instance (sub : Subscription) (start : Time) : Decidable (samePeriod sub start) :=
  inferInstanceAs (Decidable (_ ∧ _))

def auditActivation (sub : Subscription) (plan : Plan) (actor : Option ℕ)
    (effective : Option String) :
    Prog Unit :=
  let wasPastDue := sub.status = .pastDue
  let oldPending := sub.pendingPlan.map (·.pk)
  if sub.status ≠ .active then do
    audit (if wasPastDue then .recovered else .activated) none
      [("from_status", .str sub.status.value), ("to_status", .str Status.active.value),
        ("plan_id", .int plan.pk), ("plan_name", .str plan.name)]
    -- A replacement switch on a PAST_DUE row: recovered and plan changed.
    Program.whenever (effective.isSome ∧ wasPastDue ∧ sub.plan.pk ≠ plan.pk)
      (auditPlanChange actor sub.plan plan oldPending effective)
  else
    Program.whenever (sub.plan.pk ≠ plan.pk)
      (auditPlanChange actor sub.plan plan oldPending effective)

/-- `if paid is not None: _record_payment(...)`. -/
def recordPaid (paid : Option Dict) (wasPastDue : Bool) : Prog Unit :=
  match paid with
  | some invoice => recordPayment invoice wasPastDue
  | none => pure ()

def applyActive (sub : Subscription) (entity : Dict) (invoices : Option (List Json)) (plan : Plan)
    (actor : Option ℕ) (effective : Option String) : Prog Applied :=
  match usablePeriod entity with
  | none => pure (.unsettled sub)
  | some (start, stop) =>
    let paid := currentPeriodPaid entity invoices
    let wasPastDue := decide (sub.status = .pastDue)
    let oldPending := sub.pendingPlan.map (·.pk)
    if samePeriod sub start then do
      Program.whenever (sub.plan.pk ≠ plan.pk)
        (auditPlanChange actor sub.plan plan oldPending effective)
      recordPaid paid wasPastDue
      pure ⟨refreshed sub plan,
        decide (sub.plan.pk ≠ plan.pk ∨ oldPending = some plan.pk), true, false⟩
    else if paid.isNone then
      -- Fail closed: no proof, no transition, no period, no usage record.
      pure (.unsettled sub)
    else do
      auditActivation sub plan actor effective
      recordPaid paid wasPastDue
      pure ⟨activated sub plan start stop, true, true, true⟩

/-- The row part of `_apply_active`. -/
def activeOutcome (sub : Subscription) (entity : Dict)
    (invoices : Option (List Json)) (plan : Plan) :
    Applied :=
  match usablePeriod entity with
  | none => .unsettled sub
  | some (start, stop) =>
    if samePeriod sub start then
      ⟨refreshed sub plan,
        decide (sub.plan.pk ≠ plan.pk ∨ sub.pendingPlan.map (·.pk) = some plan.pk), true, false⟩
    else if (currentPeriodPaid entity invoices).isNone then .unsettled sub
    else ⟨activated sub plan start stop, true, true, true⟩

def graced (sub : Subscription) (now : Time) : Subscription :=
  { sub with status := .pastDue, pastDueAt := some now, dunningStage := some 0 }

def applyPaymentFailed (sub : Subscription) (now : Time) : Prog Applied :=
  if sub.status ≠ .active then pure (.noChange sub)
  else do
    audit .pastDue none [("from_status", .str sub.status.value),
      ("to_status", .str Status.pastDue.value), ("plan_id", .int sub.plan.pk)]
    pure ⟨graced sub now, true, true, false⟩

def committedDowngradeReplacement (sub : Subscription) : Bool :=
  decide (sub.status = .active) && sub.replacementProviderRef.isSome &&
    sub.replacementCommittedAt.isSome

def graceEnd (pastDueAt now : Time) : Status :=
  if pastDueAt + grace ≤ now then .expired else .cancelled

def ended (sub : Subscription) (now : Time) : Subscription :=
  match sub.status, sub.pastDueAt with
  | .active, _ => { sub with status := .cancelled }
  | .pastDue, some pastDueAt => clearGrace { sub with status := graceEnd pastDueAt now }
  | _, _ => sub

def applyTerminal (sub : Subscription) (now : Time) : Prog Applied :=
  match sub.status, sub.pastDueAt with
  | .active, _ => do
    audit .cancelled none [("from_status", .str Status.active.value),
      ("to_status", .str Status.cancelled.value)]
    pure ⟨ended sub now, true, true, false⟩
  | .pastDue, some pastDueAt => do
    let status := graceEnd pastDueAt now
    audit (if status = .expired then .expired else .cancelled) none
      [("from_status", .str Status.pastDue.value), ("to_status", .str status.value)]
    pure ⟨ended sub now, true, true, false⟩
  | .pastDue, none => Program.raise .typeError
  | _, _ => pure (.noChange sub)

section Rules

variable {env : Env} {s : State}

def LogsOnly (s t : State) : Prop :=
  t.journal = s.journal ∧
    t.data = { s.data with payments := t.data.payments, audits := t.data.audits }

theorem LogsOnly.refl (s : State) : LogsOnly s s := ⟨rfl, rfl⟩

theorem LogsOnly.trans {s t u : State} (h : LogsOnly s t) (h' : LogsOnly t u) : LogsOnly s u := by
  refine ⟨h'.1.trans h.1, ?_⟩
  rw [h'.2, h.2]

theorem LogsOnly.sub? {s t : State} (h : LogsOnly s t) : t.data.sub? = s.data.sub? := by
  rw [h.2]; rfl

theorem LogsOnly.usage {s t : State} (h : LogsOnly s t) : t.data.usage = s.data.usage := by
  rw [h.2]

theorem LogsOnly.events {s t : State} (h : LogsOnly s t) : t.data.events = s.data.events := by
  rw [h.2]

theorem audit_spec {action : AuditAction} {actor : Option ℕ} {metadata : Dict} :
    Program.wp env (audit action actor metadata) (fun _ t => LogsOnly s t)
      (fun _ t => LogsOnly s t) s := by
  rw [wp_audit]
  exact ⟨fun _ => ⟨rfl, rfl⟩, fun _ => LogsOnly.refl s⟩

theorem recordPayment_logs {invoice : Dict} {wasPastDue : Bool} :
    Program.wp env (recordPayment invoice wasPastDue) (fun _ t => LogsOnly s t)
      (fun _ t => LogsOnly s t) s :=
  Program.wp_mono recordPayment_spec (fun _ _ h => ⟨h.1, by rw [h.2]⟩)
    (fun _ _ h => h.1 ▸ LogsOnly.refl s)

theorem auditPlanChange_spec {actor : Option ℕ} {oldPlan plan : Plan} {oldPending : Option ℕ}
    {effective : Option String} :
    Program.wp env (auditPlanChange actor oldPlan plan oldPending effective)
      (fun _ t => LogsOnly s t) (fun _ t => LogsOnly s t) s :=
  audit_spec

theorem recordPaid_spec {paid : Option Dict} {wasPastDue : Bool} :
    Program.wp env (recordPaid paid wasPastDue) (fun _ t => LogsOnly s t)
      (fun _ t => LogsOnly s t) s := by
  cases paid with
  | none => exact LogsOnly.refl s
  | some invoice => exact recordPayment_logs

theorem LogsOnly.whenever {c : Prop} [Decidable c] {m : Prog Unit}
    (h : Program.wp env m (fun _ t => LogsOnly s t) (fun _ t => LogsOnly s t) s) :
    Program.wp env (Program.whenever c m) (fun _ t => LogsOnly s t)
    (fun _ t => LogsOnly s t) s := by
  rw [Program.wp_whenever]
  exact ⟨fun _ => h, fun _ => LogsOnly.refl s⟩

theorem LogsOnly.before {α β : Type} {m : Prog α} {f : α → Prog β} {P : β → Prop}
    (hm : Program.wp env m (fun _ t => LogsOnly s t) (fun _ t => LogsOnly s t) s)
    (hf : ∀ a t, Program.wp env (f a) (fun b u => P b ∧ LogsOnly t u) (fun _ u => LogsOnly t u) t) :
    Program.wp env (m >>= f) (fun b u => P b ∧ LogsOnly s u) (fun _ u => LogsOnly s u) s :=
  Program.wp_bind_of hm
    (fun a t ht => Program.wp_mono (hf a t)
      (fun _ _ hu => ⟨hu.1, ht.trans hu.2⟩) (fun _ _ hu => ht.trans hu))
    (fun _ _ h => h)

theorem auditActivation_spec {sub : Subscription} {plan : Plan} {actor : Option ℕ}
    {effective : Option String} :
    Program.wp env (auditActivation sub plan actor effective) (fun _ t => LogsOnly s t)
      (fun _ t => LogsOnly s t) s := by
  unfold auditActivation
  rw [Program.wp_ite]
  refine ⟨fun _ => ?_, fun _ => LogsOnly.whenever auditPlanChange_spec⟩
  refine Program.wp_bind_of audit_spec (fun _ t ht => ?_) (fun _ _ h => h)
  exact Program.wp_mono (LogsOnly.whenever auditPlanChange_spec)
    (fun _ _ h => ht.trans h) (fun _ _ h => ht.trans h)

theorem applyActive_spec {sub : Subscription} {entity : Dict} {invoices : Option (List Json)}
    {plan : Plan} {actor : Option ℕ} {effective : Option String} :
    Program.wp env (applyActive sub entity invoices plan actor effective)
      (fun r t => r = activeOutcome sub entity invoices plan ∧ LogsOnly s t)
      (fun _ t => LogsOnly s t) s := by
  unfold applyActive activeOutcome
  cases usablePeriod entity with
  | none => exact ⟨rfl, LogsOnly.refl s⟩
  | some period =>
    obtain ⟨start, stop⟩ := period
    by_cases hsame : samePeriod sub start
    · simp only [hsame, ↓reduceIte]
      exact LogsOnly.before (LogsOnly.whenever auditPlanChange_spec) fun _ t =>
        LogsOnly.before recordPaid_spec fun _ u => ⟨rfl, LogsOnly.refl u⟩
    · by_cases hpaid : (currentPeriodPaid entity invoices).isNone = true
      · simp only [hsame, hpaid, ↓reduceIte]
        exact ⟨rfl, LogsOnly.refl s⟩
      · simp only [hsame, hpaid, Bool.false_eq_true, ↓reduceIte]
        exact LogsOnly.before auditActivation_spec fun _ t =>
          LogsOnly.before recordPaid_spec fun _ u => ⟨rfl, LogsOnly.refl u⟩

/-- The row part of `_apply_payment_failed`. -/
def failedOutcome (sub : Subscription) (now : Time) : Applied :=
  if sub.status ≠ .active then .noChange sub else ⟨graced sub now, true, true, false⟩

theorem applyPaymentFailed_spec {sub : Subscription} {now : Time} :
    Program.wp env (applyPaymentFailed sub now)
      (fun r t => r = failedOutcome sub now ∧ LogsOnly s t) (fun _ t => LogsOnly s t) s := by
  unfold applyPaymentFailed failedOutcome
  by_cases h : sub.status = .active
  · simp only [h, ne_eq, not_true_eq_false, ↓reduceIte]
    exact LogsOnly.before audit_spec fun _ u => ⟨rfl, LogsOnly.refl u⟩
  · simp only [h, ne_eq, not_false_eq_true, ↓reduceIte]
    exact ⟨rfl, LogsOnly.refl s⟩

/-- The row part of `_apply_terminal`. -/
def terminalOutcome (sub : Subscription) (now : Time) : Applied :=
  if sub.status = .active ∨ sub.status = .pastDue then ⟨ended sub now, true, true, false⟩
  else .noChange sub

theorem applyTerminal_spec {sub : Subscription} {now : Time} :
    Program.wp env (applyTerminal sub now)
      (fun r t => r = terminalOutcome sub now ∧ LogsOnly s t) (fun _ t => LogsOnly s t) s := by
  unfold applyTerminal terminalOutcome
  split
  · rename_i h
    simp only [h, true_or, ↓reduceIte]
    exact LogsOnly.before audit_spec fun _ u => ⟨rfl, LogsOnly.refl u⟩
  · rename_i h _
    simp only [h, or_true, ↓reduceIte]
    exact LogsOnly.before audit_spec fun _ u => ⟨rfl, LogsOnly.refl u⟩
  · exact LogsOnly.refl s
  · rename_i h₁ h₂ h₃
    have hp : sub.status ≠ .pastDue := by
      intro h
      cases hd : sub.pastDueAt with
      | none => exact h₃ h hd
      | some d => exact h₂ d h hd
    have ha : sub.status ≠ .active := fun h => h₁ h
    rw [if_neg (not_or.mpr ⟨ha, hp⟩)]
    exact ⟨rfl, LogsOnly.refl s⟩

end Rules

end ReviewFlow.Billing
