import ReviewFlow.Billing.Replacement

/-!
# What a snapshot writes to the payment ledger

`_record_payment` inserts the payment of the invoice that proved the period, or ignores it.
`Recorded` says which, and why; an id that the table cannot hold raises instead.
-/

namespace ReviewFlow.Billing

open Savepoint

def attemptId (invoice : Dict) : Option String := (invoice.get "payment_id").str?

inductive Recorded (others : Others) (invoice : Dict) (wasPastDue : Bool)
    (before after : List PaymentAttempt) : Prop
  | untimed (time : fromUnix (invoice.get "paid_at") = none) (same : after = before)
  | refused (id : String) (name : attemptId invoice = some id) (short : ¬ 64 < id.toList.length)
      (why : isPaymentKey id = false ∨ id ∈ others.paymentIds) (same : after = before)
  | present (id : String) (name : attemptId invoice = some id) (short : ¬ 64 < id.toList.length)
      (held : id ∈ before.map (·.providerAttemptId)) (same : after = before)
  | added (id : String) (paidAt : Time) (name : attemptId invoice = some id)
      (short : ¬ 64 < id.toList.length) (time : fromUnix (invoice.get "paid_at") = some paidAt)
      (fresh : id ∉ before.map (·.providerAttemptId))
      (row : after = before ++ [⟨id, if wasPastDue then .retry else .renewal, paidAt⟩])

/-- An insert that raises: there is no id, or it is longer than its column. -/
def Unrecordable (invoice : Dict) (e : Error) : Prop :=
  (attemptId invoice = none ∧ e = .typeError) ∨
    ∃ id, attemptId invoice = some id ∧ 64 < id.toList.length ∧ e = .dataError

def RecordedPaid (others : Others) (paid : Option Dict) (wasPastDue : Bool)
    (before after : List PaymentAttempt) : Prop :=
  match paid with
  | some invoice => Recorded others invoice wasPastDue before after
  | none => after = before

/-- Beside the ledger and the audit table nothing was written, and audit rows were only added. -/
structure Logged (s t : State) : Prop where
  journal : t.journal = s.journal
  data : t.data = { s.data with payments := t.data.payments, audits := t.data.audits }
  audits : s.data.audits <+: t.data.audits

theorem Logged.refl (s : State) : Logged s s := ⟨rfl, rfl, List.prefix_refl _⟩

theorem Logged.trans {s t u : State} (h : Logged s t) (h' : Logged t u) : Logged s u := by
  refine ⟨h'.journal.trans h.journal, ?_, h.audits.trans h'.audits⟩
  rw [h'.data, h.data]

section Rules

variable {env : Env} {s : State}

theorem recordPayment_ledger {invoice : Dict} {wasPastDue : Bool} :
    Program.wp env (recordPayment invoice wasPastDue)
      (fun _ t => t.journal = s.journal ∧ t.data = { s.data with payments := t.data.payments } ∧
        Recorded env.others invoice wasPastDue s.data.payments t.data.payments)
      (fun e _ => Unrecordable invoice e) s := by
  unfold recordPayment
  rw [Program.wp_query]
  cases htime : fromUnix (invoice.get "paid_at") with
  | none => exact ⟨fun _ _ => ⟨rfl, rfl, .untimed htime rfl⟩, fun _ h => (nomatch h)⟩
  | some paidAt =>
    cases hname : (invoice.get "payment_id").str? with
    | none =>
      refine ⟨fun _ h => (nomatch h), fun e h => ?_⟩
      cases h
      exact Or.inl ⟨hname, rfl⟩
    | some id =>
      by_cases hlong : 64 < id.toList.length
      · dsimp only
        rw [if_pos hlong]
        refine ⟨fun _ h => (nomatch h), fun e h => ?_⟩
        cases h
        exact Or.inr ⟨id, hname, hlong, rfl⟩
      · dsimp only
        rw [if_neg hlong]
        split
        · rename_i hc
          refine ⟨fun _ _ => ⟨rfl, rfl, ?_⟩, fun _ h => (nomatch h)⟩
          rcases hc with hc | hc | hc
          · exact .refused id hname hlong (Or.inl hc) rfl
          · exact .present id hname hlong hc rfl
          · exact .refused id hname hlong (Or.inr hc) rfl
        · rename_i hc
          rw [not_or, not_or] at hc
          exact ⟨fun _ _ => ⟨rfl, rfl, .added id paidAt hname hlong htime hc.2.1 rfl⟩,
            fun _ h => (nomatch h)⟩

theorem recordPaid_ledger {paid : Option Dict} {wasPastDue : Bool} :
    Program.wp env (recordPaid paid wasPastDue)
      (fun _ t => Logged s t ∧ t.data.audits = s.data.audits ∧
        RecordedPaid env.others paid wasPastDue s.data.payments t.data.payments)
      (fun e _ => ∃ invoice, paid = some invoice ∧ Unrecordable invoice e) s := by
  cases paid with
  | none => exact ⟨.refl s, rfl, rfl⟩
  | some invoice =>
    apply Program.wp_mono recordPayment_ledger
    · rintro _ t ⟨hj, hd, hr⟩
      have ha : t.data.audits = s.data.audits := by rw [hd]
      exact ⟨⟨hj, by rw [ha]; exact hd, by rw [ha]⟩, ha, hr⟩
    · exact fun _ _ h => ⟨invoice, rfl, h⟩

theorem audit_logged {action : AuditAction} {actor : Option ℕ} {metadata : Dict} :
    Program.wp env (audit action actor metadata)
      (fun _ t => Logged s t ∧ t.data.payments = s.data.payments ∧
        t.data.audits = s.data.audits ++ [⟨action, actor, metadata⟩])
      (fun e _ => e = .actorNotMember ∧ actor ≠ none) s := by
  rw [wp_audit]
  refine ⟨fun _ => ⟨⟨rfl, rfl, List.prefix_append _ _⟩, rfl, rfl⟩, fun h => ⟨rfl, ?_⟩⟩
  rintro rfl
  exact h fun _ hu => nomatch hu

theorem recordPaid_again {paid : Option Dict} {wasPastDue wasPastDue' : Bool}
    {before : List PaymentAttempt}
    (h : RecordedPaid env.others paid wasPastDue before s.data.payments) :
    Program.wp env (recordPaid paid wasPastDue') (fun _ t => t = s) (fun _ _ => False) s := by
  cases paid with
  | none => exact rfl
  | some invoice =>
    have hheld : fromUnix (invoice.get "paid_at") = none ∨ ∃ id, attemptId invoice = some id ∧
        ¬ 64 < id.toList.length ∧ (isPaymentKey id = false ∨
          id ∈ s.data.payments.map (·.providerAttemptId) ∨ id ∈ env.others.paymentIds) := by
      rcases h with ⟨time, _⟩ | ⟨id, name, short, why, _⟩ | ⟨id, name, short, held, same⟩ |
        ⟨id, paidAt, name, short, _, _, row⟩
      · exact Or.inl time
      · exact Or.inr ⟨id, name, short, why.imp_right Or.inr⟩
      · exact Or.inr ⟨id, name, short, Or.inr (Or.inl (same ▸ held))⟩
      · exact Or.inr ⟨id, name, short, Or.inr (Or.inl (by simp [row]))⟩
    unfold recordPaid recordPayment
    dsimp only
    rw [Program.wp_query]
    rcases hheld with htime | ⟨id, hname, hshort, hheld⟩
    · rw [htime]
      exact ⟨fun _ _ => rfl, by simp⟩
    · have hname' : (invoice.get "payment_id").str? = some id := hname
      cases fromUnix (invoice.get "paid_at") with
      | none => exact ⟨fun _ _ => rfl, by simp⟩
      | some paidAt =>
        dsimp only
        rw [hname']
        dsimp only
        rw [if_neg hshort, if_pos hheld]
        exact ⟨fun _ _ => rfl, by simp⟩

def Audits (env : Env) (m : Prog Unit) : Prop :=
  ∀ s : State, Program.returns env m (fun _ t => Logged s t ∧ t.data.payments = s.data.payments) s

theorem Audits.audit (action : AuditAction) (actor : Option ℕ) (metadata : Dict) :
    Audits env (audit action actor metadata) :=
  fun _ => Program.wp_mono audit_logged (fun _ _ h => ⟨h.1, h.2.1⟩) (fun _ _ _ => trivial)

theorem Audits.bind {m n : Prog Unit} (hm : Audits env m) (hn : Audits env n) :
    Audits env (m >>= fun _ => n) := by
  intro s
  refine Program.returns_bind (hm s) fun _ t ht => Program.returns_mono (hn t) fun _ u hu => ?_
  exact ⟨ht.1.trans hu.1, hu.2.trans ht.2⟩

theorem Audits.whenever {c : Prop} [Decidable c] {m : Prog Unit} (hm : Audits env m) :
    Audits env (Program.whenever c m) :=
  fun s => (Program.wp_whenever m).mpr ⟨fun _ => hm s, fun _ => ⟨.refl s, rfl⟩⟩

theorem audits_activation {sub : Subscription} {plan : Plan} {actor : Option ℕ}
    {effective : Option String} :
    Audits env (auditActivation sub plan actor effective) := by
  intro s
  unfold auditActivation
  rw [Program.returns, Program.wp_ite]
  exact ⟨fun _ => (Audits.audit _ _ _).bind (Audits.audit _ _ _).whenever s,
    fun _ => (Audits.audit _ _ _).whenever s⟩

/-- The ledger after `_apply_active`: the payment of the invoice is in it, where the period is
usable. -/
structure ActiveRecorded (others : Others) (sub : Subscription) (entity : Dict)
    (invoices : Option (List Json))
    (before after : List PaymentAttempt) : Prop where
  unusable : usablePeriod entity = none → after = before
  usable : (usablePeriod entity).isSome = true →
    RecordedPaid others (currentPeriodPaid entity invoices)
    (decide (sub.status = .pastDue)) before after

theorem applyActive_ledger {sub : Subscription} {entity : Dict}
    {invoices : Option (List Json)} {plan : Plan}
    {actor : Option ℕ} {effective : Option String} :
    Program.returns env (applyActive sub entity invoices plan actor effective)
      (fun r t => r = activeOutcome sub entity invoices plan ∧ Logged s t ∧
        ActiveRecorded env.others sub entity invoices s.data.payments t.data.payments) s := by
  have hpaid : ∀ {m : Prog Unit} {r : Applied}, Audits env m →
      Program.returns env
        (do
          m
          recordPaid (currentPeriodPaid entity invoices) (decide (sub.status = .pastDue))
          pure r)
        (fun r' t => r' = r ∧ Logged s t ∧
          RecordedPaid env.others (currentPeriodPaid entity invoices)
          (decide (sub.status = .pastDue)) s.data.payments t.data.payments) s := by
    intro m r hm
    refine Program.returns_bind (hm s) fun _ t ht => ?_
    refine Program.returns_bind (Program.returns_of_wp recordPaid_ledger) fun _ u hu => ?_
    exact ⟨rfl, ht.1.trans hu.1, ht.2 ▸ hu.2.2⟩
  unfold applyActive activeOutcome
  cases hp : usablePeriod entity with
  | none => exact ⟨rfl, .refl s, fun _ => rfl, fun h => absurd h (by simp [hp])⟩
  | some period =>
    obtain ⟨start, stop⟩ := period
    have hrecorded : ∀ {t : State}, RecordedPaid env.others (currentPeriodPaid entity invoices)
        (decide (sub.status = .pastDue)) s.data.payments t.data.payments →
        ActiveRecorded env.others sub entity invoices s.data.payments t.data.payments :=
      fun h => ⟨fun hn => absurd (hp.symm.trans hn) (by simp), fun _ => h⟩
    by_cases hsame : samePeriod sub start
    · simp only [hsame, ↓reduceIte]
      exact Program.returns_mono (hpaid (Audits.audit _ _ _).whenever) fun _ _ h =>
        ⟨h.1, h.2.1, hrecorded h.2.2⟩
    by_cases hn : (currentPeriodPaid entity invoices).isNone = true
    · simp only [hsame, hn, ↓reduceIte]
      refine ⟨rfl, .refl s, hrecorded ?_⟩
      rw [Option.isNone_iff_eq_none.mp hn]
      rfl
    · simp only [hsame, hn, Bool.false_eq_true, ↓reduceIte]
      exact Program.returns_mono (hpaid audits_activation) fun _ _ h =>
        ⟨h.1, h.2.1, hrecorded h.2.2⟩

end Rules

end ReviewFlow.Billing
