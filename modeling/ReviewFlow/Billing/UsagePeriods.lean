import ReviewFlow.Billing.PaidEntitlement
import ReviewFlow.Billing.Usage

/-!
# Which payment opens which usage period

A usage record is only created for the period of an entity whose invoice
`currentPeriodPaid` accepts, so the period starts inside that invoice's billing window.
The window test leaves room for several periods in one paid cycle.
-/

namespace ReviewFlow.Billing

open Savepoint Interleaving

/-- The invoice proved the record's period paid, for an entity that reports this period. -/
def Justifies (calls : List Call) (u : UsageRecord) (invoice : Dict) : Prop :=
  ∃ entity list, Answered calls entity ∧ (∃ ref, .invoices ref (.ok list) ∈ calls) ∧
    currentPeriodPaid entity (some list) = some invoice ∧ usablePeriod entity = some u.period

def billingWindow (invoice : Dict) : Option Period :=
  (invoice.get "billing_start").int?.bind fun start =>
    (invoice.get "billing_end").int?.map fun stop => (seconds start, seconds stop)

theorem Justifies.window {calls : List Call} {u : UsageRecord} {invoice : Dict}
    (h : Justifies calls u invoice) : (paymentId invoice).isSome = true ∧
      ∃ w, billingWindow invoice = some w ∧ w.1 ≤ u.periodStart ∧ u.periodStart < w.2 := by
  obtain ⟨entity, list, -, -, hpaid, hperiod⟩ := h
  obtain ⟨_, ref, currentStart, -, -, hstart, -, hq⟩ := currentPeriodPaid_spec hpaid
  obtain ⟨hwindow, id, hid⟩ := qualifies_window hq
  refine ⟨by rw [hid]; rfl, ?_⟩
  have hu : u.periodStart = seconds currentStart := by
    obtain ⟨z, hz, -, -, hu⟩ := fromUnix_eq_some.mp (usablePeriod_eq_some.mp hperiod).1
    rw [hstart] at hz
    cases hz
    exact hu
  unfold inBillingWindow at hwindow
  split at hwindow
  · rename_i start stop hs he
    obtain ⟨hle, hlt⟩ := of_decide_eq_true hwindow
    refine ⟨(seconds start, seconds stop), by rw [billingWindow, hs, he]; rfl, ?_, ?_⟩
    · rw [hu]
      exact seconds_le_seconds.mpr hle
    · rw [hu]
      exact seconds_lt_seconds.mpr hlt
  · cases hwindow

section Moves

variable {calls : List Call} {a b : Database} {u : UsageRecord}

def JustifiesNew (calls : List Call) (a b : Database) : Prop :=
  ∀ u ∈ b.usage, u ∈ a.usage ∨ ∃ invoice, Justifies calls u invoice

theorem JustifiesNew.of_usage (h : b.usage = a.usage) : JustifiesNew calls a b :=
  fun _ hu => Or.inl (h ▸ hu)

theorem JustifiesNew.trans {c : Database} (h : JustifiesNew calls a b)
    (h' : JustifiesNew calls b c) :
    JustifiesNew calls a c :=
  fun u hu => (h' u hu).elim (h u) Or.inr

theorem Opened.justified {entity : Dict} {invoices : Option (List Json)} {start stop : Time}
    (h : Opened a.usage b.usage start stop) (ha : Answered calls entity)
    (hi : Invoiced calls invoices)
    (hp : (currentPeriodPaid entity invoices).isSome = true)
    (hperiod : usablePeriod entity = some (start, stop)) : JustifiesNew calls a b := by
  intro u hu
  rcases h with h | ⟨-, h⟩
  · exact Or.inl (h ▸ hu)
  · rw [h] at hu
    refine (List.mem_append.mp hu).imp_right fun hu => ?_
    obtain rfl := List.mem_singleton.mp hu
    obtain ⟨invoice, hinv⟩ := Option.isSome_iff_exists.mp hp
    obtain ⟨list, _, _, rfl, -⟩ := currentPeriodPaid_spec hinv
    exact ⟨invoice, entity, list, ha, hi list rfl, hinv, hperiod⟩

/-- A move that entitles justifies the record it creates, and an ACTIVE row has another start. -/
theorem Entitling.justified (h : Entitling calls a b) : JustifiesNew calls a b ∧
    (b.usage = a.usage ∨ ∃ sub start stop, a.sub? = some sub ∧ ¬ samePeriod sub start ∧
      Opened a.usage b.usage start stop) := by
  cases h with
  | @snapshot settings entity invoices started sub plan status now r answered invoiced done =>
    cases hadv : r.advanced with
    | false =>
      have husage := done.usage
      rw [hadv] at husage
      exact ⟨.of_usage husage, Or.inl husage⟩
    | true =>
      have hout : (statusOutcome sub entity invoices plan status now).advanced = true := by
        have := done.result
        rw [this] at hadv
        exact hadv
      obtain ⟨-, start, stop, hperiod, hsame, hpaid, -⟩ := statusOutcome_advanced hout
      obtain ⟨start', stop', hperiod', hopened⟩ := (if_pos hadv) ▸ done.usage
      rw [hperiod] at hperiod'
      cases hperiod'
      exact ⟨hopened.justified answered invoiced hpaid hperiod,
        Or.inr ⟨sub, start, stop, done.before, hsame, hopened⟩⟩
  | @switched settings entity invoices started sub plan status start stop answered invoiced done =>
    exact ⟨done.usage.justified answered invoiced done.paid done.period,
      Or.inr ⟨sub, start, stop, done.before, fun h => done.moved h.2, done.usage⟩⟩

theorem Move.justified (h : Move calls a b) : JustifiesNew calls a b :=
  h.elim (fun he => he.justified.1) fun hq => .of_usage hq.usage

theorem Keeping.justified (h : Keeping calls a b) : JustifiesNew calls a b := by
  induction h with
  | refl => exact .of_usage rfl
  | tail _ hm ih => exact ih.trans (Move.justified hm.1)

theorem Course.justified (h : Course calls a b) : JustifiesNew calls a b := by
  obtain ⟨mid, hfirst, htail⟩ := h
  have hmid : JustifiesNew calls a mid := by
    rcases hfirst with rfl | hm
    · exact .of_usage rfl
    · exact hm.justified
  rcases htail with (hk | ⟨-, hq⟩) | ⟨-, -, -, done⟩
  · exact hmid.trans hk.justified
  · exact hmid.trans (.of_usage hq.usage)
  · exact hmid.trans (.of_usage done.usage)

theorem Stepped.justified (h : Stepped calls a b) : JustifiesNew calls a b := by
  obtain ⟨mid, hc, hi⟩ := h
  exact hc.justified.trans (.of_usage hi.usage)

/-- A step of a task opens no period with the start that an ACTIVE row has. -/
theorem Tended.start_ne {sub : Subscription} (h : Tended calls a b) (hsub : a.sub? = some sub)
    (hactive : sub.status = .active) (hu : u ∈ b.usage) (hnew : u ∉ a.usage) :
    sub.currentPeriodStart ≠ some u.periodStart := by
  obtain ⟨mid, hm, hi⟩ := h
  rw [hi.usage] at hu
  rcases hm with rfl | hm | hm
  · exact absurd hu hnew
  · rcases hm.justified.2 with hsame | ⟨x, start, stop, hx, hne, hopened⟩
    · exact absurd (hsame ▸ hu) hnew
    · rw [hsub] at hx
      cases hx
      rcases hopened with h | ⟨-, h⟩
      · exact absurd (h ▸ hu) hnew
      · rw [h] at hu
        obtain rfl := List.mem_singleton.mp ((List.mem_append.mp hu).resolve_left hnew)
        exact fun hs => hne ⟨hactive, hs⟩
  · exact absurd (hm.usage ▸ hu) hnew

end Moves

/-- The step creates the record: its period had none before. -/
def Transition.CreatesRecord (t : Transition) (u : UsageRecord) : Prop :=
  u ∈ t.after.db.usage ∧ ∀ v ∈ t.before.db.usage, v.period ≠ u.period

def Transition.Justifies (t : Transition) (u : UsageRecord) (invoice : Dict) : Prop :=
  Billing.Justifies t.calls u invoice

/-- One payment for one cycle proved both periods paid: each starts inside the cycle, and
they are not both the cycle itself. -/
def SharesCycle (u₁ u₂ : UsageRecord) (i₁ i₂ : Dict) : Prop :=
  paymentId i₁ = paymentId i₂ ∧ ∃ w, billingWindow i₁ = some w ∧ billingWindow i₂ = some w ∧
    (w.1 ≤ u₁.periodStart ∧ u₁.periodStart < w.2) ∧ (w.1 ≤ u₂.periodStart ∧ u₂.periodStart < w.2) ∧
    (u₁.period ≠ w ∨ u₂.period ≠ w)

/-- In every run each new usage record has its proof of payment, and a step of a task opens
no second period at the start of an ACTIVE row. Two records have two payments, unless the
provider reported two periods that start in one paid cycle. -/
theorem periods_in_paid_cycles (db : Database) (choices : List Choice) :
    (∀ t ∈ runFrom db choices, ∀ u, t.CreatesRecord u →
      (∃ invoice, t.Justifies u invoice ∧ (paymentId invoice).isSome = true) ∧
      ((∀ request env commits, t.label ≠ .request request env commits) →
        ∀ sub, t.before.db.sub? = some sub → sub.status = .active →
          sub.currentPeriodStart ≠ some u.periodStart)) ∧
    ∀ t₁ ∈ runFrom db choices, ∀ t₂ ∈ runFrom db choices, ∀ u₁ u₂ i₁ i₂, t₁.CreatesRecord u₁ →
      t₂.CreatesRecord u₂ → u₁.period ≠ u₂.period → t₁.Justifies u₁ i₁ → t₂.Justifies u₂ i₂ →
      (paymentId i₁ ≠ paymentId i₂ ∨ billingWindow i₁ ≠ billingWindow i₂) ∨
        SharesCycle u₁ u₂ i₁ i₂ := by
  refine ⟨fun t ht u hc => ?_, fun t₁ _ t₂ _ u₁ u₂ i₁ i₂ _ _ hne h₁ h₂ => ?_⟩
  · have hnew : u ∉ t.before.db.usage := fun hu => hc.2 u hu rfl
    refine ⟨?_, fun hlabel sub hsub hactive => ?_⟩
    · obtain ⟨invoice, hj⟩ := ((runFrom_stepped ht).justified u hc.1).resolve_left hnew
      exact ⟨invoice, hj, hj.window.1⟩
    · have htended := System.step_tended (runFrom_sound ht) hlabel
      rw [← show t.after = t.before.step t.label from congrArg (·.after) (trace_step ht)] at htended
      exact htended.start_ne hsub hactive hc.1 hnew
  · rw [Classical.or_iff_not_imp_left, not_or, not_not, not_not]
    rintro ⟨hpayment, hwindow⟩
    obtain ⟨-, w, hw, hin⟩ := h₁.window
    obtain ⟨-, w', hw', hin'⟩ := h₂.window
    have hsame : w = w' := Option.some.inj (hw.symm.trans (hwindow.trans hw'))
    subst hsame
    refine ⟨hpayment, w, hw, hw', hin, hin', ?_⟩
    by_contra hboth
    rw [not_or, not_not, not_not] at hboth
    exact hne (hboth.1.trans hboth.2.symm)

/-- One sync finds the cycle paid, and the next one finds a later start in the same cycle. -/
def movedStart : List Choice :=
  let paid (start stop : ℤ) : Answers :=
    { fetch := onlyA (entityA "active" start stop)
      invoices := .ok [invoiceOf "sub_a" "pay_1" 1000 2000] }
  [.spawn .sync] ++ List.replicate 6 (.advance 0 ((paid 1000 2000).at 1100)) ++
    [.spawn .sync] ++ List.replicate 6 (.advance 1 ((paid 1500 2500).at 1600))

theorem Justifies.of_calls {calls : List Call} {u : UsageRecord} {invoice : Dict} (i j : ℕ)
    {request : Request} {entity : Dict} {ref : Ref} {list : List Json}
    (hi : calls[i]? = some (.subscription request (.ok entity)))
    (hj : calls[j]? = some (.invoices ref (.ok list)))
    (hpaid : currentPeriodPaid entity (some list) = some invoice)
    (hperiod : usablePeriod entity = some u.period) : Justifies calls u invoice :=
  ⟨entity, list, ⟨request, List.mem_of_getElem? hi⟩, ⟨ref, List.mem_of_getElem? hj⟩, hpaid, hperiod⟩

theorem one_payment_two_periods : ∃ t₁ ∈ runFrom awaitingPayment movedStart,
    ∃ t₂ ∈ runFrom awaitingPayment movedStart, ∃ u₁ u₂ i₁ i₂, t₁.CreatesRecord u₁ ∧
      t₂.CreatesRecord u₂ ∧ u₁ ≠ u₂ ∧ t₁.Justifies u₁ i₁ ∧ t₂.Justifies u₂ i₂ ∧
      paymentId i₁ = paymentId i₂ := by
  refine ⟨_, (runFrom awaitingPayment movedStart).get_mem ⟨5, by decide⟩,
    _, (runFrom awaitingPayment movedStart).get_mem ⟨12, by decide⟩,
    ⟨seconds 1000, seconds 2000, 0⟩, ⟨seconds 1500, seconds 2500, 0⟩,
    invoiceFields "sub_a" "pay_1" 1000 2000, invoiceFields "sub_a" "pay_1" 1000 2000,
    ⟨by decide, by decide⟩, ⟨by decide, by decide⟩, by decide, ?_, ?_, rfl⟩
  · exact Justifies.of_calls 0 1 rfl rfl rfl rfl
  · exact Justifies.of_calls 0 1 rfl rfl rfl rfl

end ReviewFlow.Billing
