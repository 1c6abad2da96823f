import ReviewFlow.Billing.Reapplied

/-!
# The payment ledger over runs

A step of a run is a snapshot of the main subscription, one of the replacement, or anything else,
which may write the row and not the ledger. The ledger holds the payment of each use of a proof
once, from its first use, as long as no insert is refused for the id itself or for another merchant.
-/

namespace ReviewFlow.Billing

open Savepoint Interleaving

/-- The row is ACTIVE in a period that it was not ACTIVE in. -/
def Entitles (db db' : Database) : Prop :=
  ∃ sub sub', db.sub? = some sub ∧ db'.sub? = some sub' ∧ sub'.status = .active ∧
    ¬ (sub.status = .active ∧ sub'.currentPeriodStart = sub.currentPeriodStart)

def SameEntitlement (db db' : Database) : Prop :=
  ∀ sub, db.sub? = some sub → ∃ sub', db'.sub? = some sub' ∧ sub'.status = sub.status ∧
    sub'.currentPeriodStart = sub.currentPeriodStart

theorem SameEntitlement.not_entitles {db db' : Database} (h : SameEntitlement db db') :
    ¬ Entitles db db' := by
  rintro ⟨sub, sub', hsub, hsub', hactive, hno⟩
  obtain ⟨sub'', hsub'', hstatus, hstart⟩ := h sub hsub
  rw [hsub'] at hsub''
  cases hsub''
  exact hno ⟨hstatus ▸ hactive, hstart⟩

theorem SameEntitlement.of_sub {db db' : Database} (h : db'.sub? = db.sub?) :
    SameEntitlement db db' :=
  fun sub hsub => ⟨sub, h.trans hsub, rfl, rfl⟩

/-- The guards of a snapshot step that hands an invoice to the ledger. -/
def HandsOver (settings : Settings) (db : Database) (entity : Dict) (started : Time) : Prop :=
  ∃ sub plan, db.sub? = some sub ∧ Accepts settings sub entity started plan "active" ∧
    (usablePeriod entity).isSome = true

section Steps

variable {env : Env} {s : State} {sub : Subscription} {entity : Dict}
    {invoices : Option (List Json)}
  {plan : Plan} {actor : Option ℕ} {status : String} {started : Time}

theorem Cell.Holds.entitles {others : Others} {changed : Bool} {db db' : Database} {now : Time}
    (hsub : db.sub? = some sub)
    (h : (mapping (tableInput sub entity invoices now) sub.status status).Holds others sub
    entity invoices plan
      status started changed db db') (he : Entitles db db') :
    status = "active" ∧ (usablePeriod entity).isSome = true := by
  obtain ⟨sub₁, sub', hsub₁, hsub', hactive, hno⟩ := he
  rw [hsub] at hsub₁
  cases hsub₁
  cases hcell : mapping (tableInput sub entity invoices now) sub.status status with
  | noChange =>
    rw [hcell] at h
    have hrow := h.1
    rw [hsub'] at hrow
    cases hrow
    exact absurd ⟨hactive, rfl⟩ hno
  | refresh =>
    rw [hcell] at h
    have hrow := h.1
    rw [hsub'] at hrow
    cases hrow
    exact absurd ⟨hactive, rfl⟩ hno
  | becomes column =>
    rw [hcell] at h
    obtain ⟨sub'', hrow, hstatus, -, -, hrest⟩ := h
    rw [hsub'] at hrow
    cases hrow
    have hcolumn : column = .active := hstatus.symm.trans hactive
    subst hcolumn
    obtain ⟨start, stop, hp, -⟩ := hrest
    exact ⟨mapping_active_reported hcell, by simp [hp]⟩

def SnapshotLedger (env : Env) (entity : Dict) (invoices : Option (List Json)) (started : Time)
    (db db' : Database) : Prop :=
  (HandsOver env.settings db entity started ∧ ∃ wasPastDue,
      RecordedPaid env.others (currentPeriodPaid entity invoices) wasPastDue
      db.payments db'.payments) ∨
    (¬ HandsOver env.settings db entity started ∧ db'.payments = db.payments ∧ ¬ Entitles db db')

/-- A snapshot step records the payment of a proof that it is handed, and otherwise neither writes
to the ledger nor makes the row ACTIVE in a new period. -/
theorem snapshot_ledger :
    Program.returns env (applySnapshot entity invoices started actor)
      (fun _ t => SnapshotLedger env entity invoices started s.data t.data) s := by
  rw [Program.returns, Program.wp_iff_run]
  refine ⟨fun r t hrun => ?_, fun _ _ _ => trivial⟩
  obtain ⟨sub, hsub, ⟨plan, status, ha, hholds⟩ | ⟨hno, hdata⟩⟩ := applySnapshot_returned hrun
  · have hguards : HandsOver env.settings s.data entity started ↔
        status = "active" ∧ (usablePeriod entity).isSome = true := by
      constructor
      · rintro ⟨sub', plan', hsub', ha', hp⟩
        have hstr : Json.str status = .str "active" := ha.status.symm.trans ha'.status
        cases hstr
        exact ⟨rfl, hp⟩
      · rintro ⟨rfl, hp⟩
        exact ⟨sub, plan, hsub, ha, hp⟩
    by_cases hactive : status = "active" ∧ (usablePeriod entity).isSome = true
    · refine Or.inl ⟨hguards.mpr hactive, decide (sub.status = .pastDue), ?_⟩
      obtain ⟨rfl, hp⟩ := hactive
      have hwrites : Program.returns env (applySnapshot entity invoices started actor)
          (fun _ t => RecordedPaid env.others (currentPeriodPaid entity invoices)
            (decide (sub.status = .pastDue)) s.data.payments t.data.payments) s := by
        rw [Program.returns, wp_applySnapshot hsub ha]
        unfold applyStatus
        rw [if_pos rfl]
        refine Program.returns_bind applyActive_ledger ?_
        rintro r u ⟨-, -, hrecorded⟩
        apply Program.returns_mono
          (Program.returns_of_wp ((apart_payments.storeSnapshot r _ _).wp env u))
        intro _ v hv
        rw [hv]
        exact hrecorded.usable hp
      exact Program.wp_ok hwrites hrun
    · refine Or.inr
        ⟨fun h => hactive (hguards.mp h), ?_, fun he => hactive (hholds.entitles hsub he)⟩
      have hkeeps : Program.returns env (applySnapshot entity invoices started actor)
          (fun _ t => t.data.payments = s.data.payments) s := by
        rw [Program.returns, wp_applySnapshot hsub ha]
        refine Program.returns_bind (P := fun _ u => u.data.payments = s.data.payments) ?_ ?_
        · by_cases hstatus : status = "active"
          · have hunusable : usablePeriod entity = none := by
              by_contra hp
              exact hactive ⟨hstatus, Option.isSome_iff_ne_none.mpr hp⟩
            unfold applyStatus
            rw [if_pos hstatus]
            exact Program.returns_mono applyActive_ledger fun _ _ h => h.2.2.unusable hunusable
          · exact Program.returns_of_wp ((apart_payments.applyStatus hstatus).wp env s.tick)
        · intro r u hu
          exact Program.returns_mono
            (Program.returns_of_wp ((apart_payments.storeSnapshot r _ _).wp env u))
            fun _ _ hv => hv.trans hu
      exact Program.wp_ok hkeeps hrun
  · refine Or.inr ⟨?_, by rw [hdata], (SameEntitlement.of_sub (by rw [hdata])).not_entitles⟩
    rintro ⟨sub', plan, hsub', ha, -⟩
    rw [hsub] at hsub'
    cases hsub'
    exact hno plan "active" ha

/-- Without an invoice there is no switch, and every other outcome leaves the status and the
period. -/
theorem ReplacementPost.sameEntitlement {t : State}
    (h : ReplacementPost env.settings entity none started s t) : SameEntitlement s.data t.data := by
  have hretires : ∀ {sub sub' : Subscription}, Retires t.journal.calls sub sub' s.data t.data →
      SameEntitlement s.data t.data := by
    rintro sub sub' ⟨hbefore, ⟨_, target, -, -, -, rfl⟩, hafter, -, -⟩ stored hstored
    rw [hbefore] at hstored
    cases hstored
    exact ⟨_, hafter, rfl, rfl⟩
  cases h with
  | kept same => exact .of_sub same.sub?
  | abandoned _ _ _ done => exact hretires done
  | failed _ _ _ _ _ done => exact hretires done
  | switched _ _ _ _ _ done => exact absurd done.paid (by simp)

theorem resetUsagePeriod_row (sub : Subscription) :
    Program.Keeps (·.subscription) (resetUsagePeriod sub) := by
  refine Program.keeps_query fun env db => ?_
  split
  · split
    · rfl
    · split <;> rfl
  · rfl

theorem markEventsProcessed_row (ref : Option Ref) :
    Program.Keeps (·.subscription) (markEventsProcessed ref) :=
  Program.Keeps.bind (fun _ _ => rfl) fun _ => Program.keeps_modify fun _ => rfl

theorem storeSwitch_row {departing : Option Ref} :
    Program.returns env (storeSwitch sub departing)
      (fun _ t => t.data.sub? = some sub ∧ t.data.payments = s.data.payments) s := by
  unfold storeSwitch
  refine Program.returns_bind saveSubscription_spec ?_
  rintro _ t ⟨-, hrow, hdata⟩
  have hpay : t.data.payments = s.data.payments := by rw [hdata]
  refine Program.returns_bind
    (P := fun _ u => u.data.sub? = some sub ∧ u.data.payments = s.data.payments) ?_ ?_
  · apply Program.returns_mono
      (Program.returns_of_wp (Program.wp_and ((resetUsagePeriod_row sub).wp env t)
      ((apart_payments.resetUsagePeriod sub).wp env t)))
    rintro _ u ⟨hsub, hu⟩
    refine ⟨?_, hu.trans hpay⟩
    unfold Database.sub? at hrow ⊢
    rw [hsub]
    exact hrow
  · rintro _ u ⟨hsub, hu⟩
    refine Program.returns_bind
      (P := fun _ v => v.data.sub? = some sub ∧ v.data.payments = s.data.payments) ?_
      fun _ _ h => h
    apply Program.returns_mono (Program.returns_of_wp (Program.wp_and
      (((markEventsProcessed_row departing).whenever (c := departing.isSome = true)).wp env u)
      (((apart_payments.markEvents _).whenever).wp env u)))
    rintro _ v ⟨hrow', hv⟩
    refine ⟨?_, hv.trans hu⟩
    unfold Database.sub? at hsub ⊢
    rw [hrow']
    exact hsub

/-- The guards of a step of the replacement that switches the row to it, its proof aside. -/
def SwitchReady (settings : Settings) (db : Database) (entity : Dict) : Prop :=
  ∃ sub plan, db.sub? = some sub ∧ namesReplacement sub entity = true ∧
    (entity.get "status").str? = some "active" ∧
    settings.planFor (entity.get "plan_id") = some plan ∧
    (sub.status = .active ∨ sub.status = .pastDue) ∧ sub.retiredProviderRef = none ∧
    ∃ start stop, usablePeriod entity = some (start, stop) ∧ sub.currentPeriodStart ≠ some start

/-- What a step of the replacement did to the ledger and to the entitlement. -/
def ReplacementLedger (env : Env) (entity : Dict) (invoices : Option (List Json))
    (db db' : Database) :
    Prop :=
  (SwitchReady env.settings db entity ∧ Entitles db db' ∧ ∃ wasPastDue,
      RecordedPaid env.others (currentPeriodPaid entity invoices) wasPastDue
      db.payments db'.payments) ∨
    (db'.payments = db.payments ∧ ¬ Entitles db db')

theorem switchToReplacement_ledger (hsub : s.data.sub? = some sub)
    (hnames : namesReplacement sub entity = true)
    (hactive : (entity.get "status").str? = some "active")
    (hplan : env.settings.planFor (entity.get "plan_id") = some plan)
    (hentitled : sub.status = .active ∨ sub.status = .pastDue)
    (hpaid : (currentPeriodPaid entity invoices).isSome = true) :
    Program.returns env (switchToReplacement sub entity invoices plan status started)
      (fun _ t => ReplacementLedger env entity invoices s.data t.data) s := by
  have hkept : ReplacementLedger env entity invoices s.data s.data :=
    Or.inr ⟨rfl, (SameEntitlement.of_sub rfl).not_entitles⟩
  unfold switchToReplacement
  cases hstart : fromUnix (entity.get "current_start") with
  | none => exact hkept
  | some start =>
    dsimp only
    rw [Program.returns, Program.wp_ite]
    refine ⟨fun _ => hkept, fun hmoved => ?_⟩
    rw [Program.wp_ite]
    refine ⟨fun _ => hkept, fun hfree => ?_⟩
    refine Program.returns_bind applyActive_ledger ?_
    rintro r t ⟨rfl, hlog, hrecorded⟩
    have hsub' : t.data.sub? = s.data.sub? := by
      rw [hlog.data]
      rfl
    rw [Program.returns, Program.wp_ite]
    refine ⟨fun hadv => Or.inr ⟨?_, (SameEntitlement.of_sub hsub').not_entitles⟩, fun hadv => ?_⟩
    · apply hrecorded.unusable
      by_contra hp
      obtain ⟨⟨start', stop⟩, hp⟩ := Option.ne_none_iff_exists'.mp hp
      obtain rfl : start = start' :=
        Option.some.inj (hstart.symm.trans (usablePeriod_eq_some.mp hp).1)
      have hn : ¬ (currentPeriodPaid entity invoices).isNone = true := by
        rw [Option.isNone_iff_eq_none]
        exact Option.isSome_iff_ne_none.mp hpaid
      unfold activeOutcome at hadv
      rw [hp] at hadv
      dsimp only at hadv
      rw [if_neg fun hs : samePeriod sub start => hmoved hs.2, if_neg hn] at hadv
      cases hadv
    · rw [Bool.not_eq_false] at hadv
      obtain ⟨start', stop, hp, hns, -, ho⟩ := activeOutcome_advanced hadv
      apply Program.returns_mono storeSwitch_row
      rintro _ u ⟨hrow, hpay⟩
      have hswitches : SwitchReady env.settings s.data entity := by
        refine ⟨sub, plan, hsub, hnames, hactive, hplan, hentitled, not_not.mp hfree,
          start', stop, hp, ?_⟩
        rw [← (usablePeriod_eq_some.mp hp).1, hstart]
        exact hmoved
      refine Or.inl ⟨hswitches, ⟨sub, _, hsub, hrow, ?_, ?_⟩, decide (sub.status = .pastDue), ?_⟩
      · rw [ho]
        exact (activated_period ..).2.2
      · rw [ho]
        rintro ⟨hactive, hstart'⟩
        refine hns ⟨hactive, ?_⟩
        rw [← hstart']
        exact (activated_period ..).1
      · rw [hpay]
        exact hrecorded.usable (by simp [hp])

/-- A step of the replacement records the payment of its proof where it switches the row to it, and
otherwise writes nothing to the ledger. -/
theorem replacement_ledger :
    Program.returns env (applyReplacementSnapshot entity invoices started)
      (fun _ t => ReplacementLedger env entity invoices s.data t.data) s := by
  unfold applyReplacementSnapshot
  refine Program.returns_savepoint ?_
  rw [Program.returns, Program.wp_bind, wp_lockSubscription]
  refine ⟨fun sub hsub => ?_, fun _ => trivial⟩
  rw [Program.wp_bind, Program.wp_ask]
  have hkept : ReplacementLedger env entity invoices s.data s.data :=
    Or.inr ⟨rfl, (SameEntitlement.of_sub rfl).not_entitles⟩
  have hquiet : ∀ {m : Prog SnapshotResult}, Program.Keeps (·.payments) m →
      Program.returns env m (fun _ t => ReplacementPost env.settings entity none started s t) s →
      Program.returns env m (fun _ t => ReplacementLedger env entity invoices s.data t.data) s := by
    intro m hkeeps hpost
    apply Program.wp_mono (Program.wp_and (hkeeps.wp env s) hpost)
    · exact fun _ _ h => Or.inr ⟨h.1, h.2.sameEntitlement.not_entitles⟩
    · exact fun _ _ _ => trivial
  unfold replacementLocked
  cases hstatus : (entity.get "status").str? with
  | none => exact hkept
  | some status =>
    dsimp only
    rw [Program.wp_ite]
    refine ⟨fun _ => hkept, fun hnames => ?_⟩
    rw [Program.wp_ite]
    refine ⟨fun hactive => ?_, fun _ => ?_⟩
    · subst hactive
      unfold replacementActive
      rw [Program.wp_ite]
      refine ⟨fun _ => hkept, fun hpaid => ?_⟩
      cases hplan : env.settings.planFor (entity.get "plan_id") with
      | none => exact hkept
      | some plan =>
        dsimp only
        rw [Program.wp_ite]
        refine ⟨fun _ => ?_, fun _ => ?_⟩
        · refine Program.returns_bind
            (P := fun _ t => Logged s t ∧ t.data.payments = s.data.payments) ?_ ?_
          · unfold auditPaidAfterEnd
            rw [Program.returns, Program.wp_bind, Program.wp_get]
            exact (Audits.audit _ _ _).whenever s
          · rintro _ t ⟨hlog, hpay⟩
            refine Or.inr ⟨hpay, (SameEntitlement.of_sub ?_).not_entitles⟩
            rw [hlog.data]
            rfl
        · rw [Program.wp_ite]
          refine ⟨fun _ => hkept, fun hstanding => ?_⟩
          apply switchToReplacement_ledger hsub (Bool.not_eq_false _ ▸ hnames) hstatus hplan
          · by_contra h
            exact hstanding (not_or.mp h)
          · simpa [Option.isSome_iff_ne_none] using hpaid
    · rw [Program.wp_ite]
      refine ⟨fun _ => ?_, fun _ => ?_⟩
      · rw [Program.wp_ite]
        exact ⟨fun _ => hquiet (apart_payments.clearFailedCommitted sub)
          (clearFailedCommitted_spec hsub),
          fun _ => hkept⟩
      · exact hquiet (apart_payments.replacementInactive _ _ _) (replacementInactive_spec hsub)

end Steps

inductive LedgerStep where
  | snapshot (env : Env) (entity : Dict) (invoices : Option (List Json)) (started : Time)
    (actor : Option ℕ)
  | replacement (env : Env) (entity : Dict) (invoices : Option (List Json)) (started : Time)
  | other (subscription : Option Row) (usage : List UsageRecord) (events : List BillingEvent)
      (audits : List AuditRow)

def LedgerStep.next (db : Database) : LedgerStep → Database
  | .snapshot env entity invoices started actor =>
    ((applySnapshot entity invoices started actor).run env ⟨db, .empty⟩).2.data
  | .replacement env entity invoices started =>
    ((applyReplacementSnapshot entity invoices started).run env ⟨db, .empty⟩).2.data
  | .other subscription usage events audits => ⟨subscription, usage, db.payments, events, audits⟩

def LedgerStep.invoice : LedgerStep → Option Dict
  | .snapshot _ entity invoices _ _ => currentPeriodPaid entity invoices
  | .replacement _ entity invoices _ => currentPeriodPaid entity invoices
  | .other _ _ _ _ => none

def LedgerStep.foreignIds : LedgerStep → List String
  | .snapshot env _ _ _ _ => env.others.paymentIds
  | .replacement env _ _ _ => env.others.paymentIds
  | .other _ _ _ _ => []

abbrev LedgerTransition := Interleaving.Transition Database LedgerStep

def LedgerStep.Commits (db : Database) : LedgerStep → Prop
  | .snapshot env entity invoices started actor =>
    ∃ r t, (applySnapshot entity invoices started actor).run env ⟨db, .empty⟩ = (.ok r, t)
  | .replacement env entity invoices started =>
    ∃ r t, (applyReplacementSnapshot entity invoices started).run env ⟨db, .empty⟩ = (.ok r, t)
  | .other _ _ _ _ => True

/-- The transition commits, and acts on the proof: an active snapshot with a usable period, or a
switch. -/
def Acts (t : LedgerTransition) : Prop :=
  t.label.Commits t.before ∧ match t.label with
    | .snapshot env entity _ started _ => HandsOver env.settings t.before entity started
    | .replacement _ _ _ _ => Entitles t.before t.after
    | .other _ _ _ _ => False

/-- It acts on an invoice with this payment and a usable `paid_at`. -/
def Uses (t : LedgerTransition) (id : String) (paidAt : Time) : Prop :=
  Acts t ∧ ∃ invoice, t.label.invoice = some invoice ∧ attemptId invoice = some id ∧
    fromUnix (invoice.get "paid_at") = some paidAt

/-- The first use of a payment, with its `paid_at`. -/
def FirstUse (history : List LedgerTransition) (id : String) (paidAt : Time) : Prop :=
  ∃ before t after, history = before ++ t :: after ∧ Uses t id paidAt ∧
    ∀ u ∈ before, ∀ x, ¬ Uses u id x

/-- The guards that lead to the insert let the step through. -/
def Reaches (t : LedgerTransition) : Prop :=
  match t.label with
  | .snapshot env entity _ started _ => HandsOver env.settings t.before entity started
  | .replacement env entity _ _ => SwitchReady env.settings t.before entity
  | .other _ _ _ _ => False

theorem transition_ledger (db : Database) (step : LedgerStep) :
    (Acts (transition LedgerStep.next db step) ∧ Reaches (transition LedgerStep.next db step) ∧
      ∃ others wasPastDue, Others.paymentIds others = step.foreignIds ∧
        RecordedPaid others step.invoice wasPastDue db.payments
        (LedgerStep.next db step).payments) ∨
    (¬ Acts (transition LedgerStep.next db step) ∧
      (LedgerStep.next db step).payments = db.payments ∧
      ((∃ invoice, step.invoice = some invoice) → ¬ Entitles db (LedgerStep.next db step))) := by
  have hsame : ∀ {next : Database}, next = db → ¬ Entitles db next := by
    rintro next rfl
    exact (SameEntitlement.of_sub rfl).not_entitles
  cases step with
  | snapshot env entity invoices started actor =>
    have hledger : Program.returns env
        (applySnapshot entity invoices started actor) _ ⟨db, .empty⟩ :=
      snapshot_ledger
    rcases Program.savepoint_run hledger with
      ⟨hran, ⟨hands, w, hrec⟩ | ⟨hno, hpay, hent⟩⟩ | ⟨hfails, hdata⟩
    · exact Or.inl ⟨⟨hran, hands⟩, hands, env.others, w, rfl, hrec⟩
    · exact Or.inr ⟨fun h => hno h.2, hpay, fun _ => hent⟩
    · exact Or.inr ⟨fun h => hfails h.1, congrArg Database.payments hdata, fun _ => hsame hdata⟩
  | replacement env entity invoices started =>
    have hledger : Program.returns env
        (applyReplacementSnapshot entity invoices started) _ ⟨db, .empty⟩ :=
      replacement_ledger
    rcases Program.savepoint_run hledger with
      ⟨hran, ⟨hswitches, hent, w, hrec⟩ | ⟨hpay, hent⟩⟩ | ⟨hfails, hdata⟩
    · exact Or.inl ⟨⟨hran, hent⟩, hswitches, env.others, w, rfl, hrec⟩
    · exact Or.inr ⟨fun h => hent h.2, hpay, fun _ => hent⟩
    · exact Or.inr ⟨fun h => hfails h.1, congrArg Database.payments hdata, fun _ => hsame hdata⟩
  | other subscription usage events audits =>
    refine Or.inr ⟨fun h => h.2, rfl, ?_⟩
    rintro ⟨invoice, h⟩
    cases h

/-- The ledger after a history: one row for each payment used, from its first use. -/
structure Books (history : List LedgerTransition) (payments : List PaymentAttempt) : Prop where
  nodup : (payments.map (·.providerAttemptId)).Nodup
  sound : ∀ p ∈ payments, FirstUse history p.providerAttemptId p.attemptedAt
  complete : ∀ t ∈ history, ∀ id paidAt, Uses t id paidAt → id ∈ payments.map (·.providerAttemptId)

/-- A payment that a step reaches the insert with is refused neither for its own id nor for the
ledger of another merchant. -/
def Acceptable (t : LedgerTransition) : Prop :=
  Reaches t → ∀ invoice id, t.label.invoice = some invoice → attemptId invoice = some id →
    isPaymentKey id = true ∧ id ∉ t.label.foreignIds

variable {history : List LedgerTransition} {payments : List PaymentAttempt} {t : LedgerTransition}

theorem FirstUse.append {id : String} {paidAt : Time} (h : FirstUse history id paidAt)
    (more : List LedgerTransition) : FirstUse (history ++ more) id paidAt := by
  obtain ⟨before, u, after, rfl, huse, hfirst⟩ := h
  exact ⟨before, u, after ++ more, by simp, huse, hfirst⟩

theorem Books.kept (h : Books history payments)
    (hheld : ∀ id paidAt, Uses t id paidAt → id ∈ payments.map (·.providerAttemptId)) :
    Books (history ++ [t]) payments := by
  refine ⟨h.nodup, fun p hp => (h.sound p hp).append [t], ?_⟩
  intro u hu id paidAt huse
  rcases List.mem_append.mp hu with hu | hu
  · exact h.complete u hu id paidAt huse
  · rw [List.mem_singleton] at hu
    subst hu
    exact hheld id paidAt huse

theorem Books.added (h : Books history payments) {row : PaymentAttempt}
    (hfresh : row.providerAttemptId ∉ payments.map (·.providerAttemptId))
    (huse : Uses t row.providerAttemptId row.attemptedAt)
    (hone : ∀ id paidAt, Uses t id paidAt → id = row.providerAttemptId) :
    Books (history ++ [t]) (payments ++ [row]) := by
  constructor
  · rw [List.map_append, List.map_singleton]
    exact List.nodup_append_comm.mp (List.nodup_cons.mpr ⟨hfresh, h.nodup⟩)
  · intro p hp
    rcases List.mem_append.mp hp with hp | hp
    · exact (h.sound p hp).append [t]
    · rw [List.mem_singleton] at hp
      subst hp
      exact ⟨history, t, [], rfl, huse, fun u hu x hx => hfresh (h.complete u hu _ x hx)⟩
  · intro u hu id paidAt huse'
    rw [List.map_append, List.mem_append]
    rcases List.mem_append.mp hu with hu | hu
    · exact Or.inl (h.complete u hu id paidAt huse')
    · rw [List.mem_singleton] at hu
      subst hu
      exact Or.inr (by simp [hone id paidAt huse'])

theorem Books.step {db : Database} {step : LedgerStep} (h : Books history db.payments)
    (hok : Acceptable (transition LedgerStep.next db step)) :
    Books (history ++ [transition LedgerStep.next db step]) (LedgerStep.next db step).payments := by
  rcases transition_ledger db step with ⟨hacts, hreaches, others, w, hforeign, hrec⟩ |
    ⟨hno, hpay, -⟩
  · cases hinvoice : step.invoice with
    | none =>
      rw [hinvoice] at hrec
      rw [show (LedgerStep.next db step).payments = db.payments from hrec]
      refine h.kept fun id paidAt huse => ?_
      obtain ⟨-, invoice, hi, -⟩ := huse
      exact absurd (hinvoice.symm.trans hi) (by simp)
    | some invoice =>
      rw [hinvoice] at hrec
      have hsame : ∀ {id id' paidAt}, attemptId invoice = some id →
          Uses (transition LedgerStep.next db step) id' paidAt → id' = id := by
        rintro id id' paidAt hname ⟨-, invoice', hi, hname', -⟩
        obtain rfl : invoice = invoice' := Option.some.inj (hinvoice.symm.trans hi)
        exact Option.some.inj (hname'.symm.trans hname)
      have hrec : Recorded others invoice w db.payments (LedgerStep.next db step).payments := hrec
      cases hrec with
      | untimed time same =>
        rw [same]
        refine h.kept fun id paidAt huse => ?_
        obtain ⟨-, invoice', hi, -, htime⟩ := huse
        obtain rfl : invoice = invoice' := Option.some.inj (hinvoice.symm.trans hi)
        rw [time] at htime
        cases htime
      | refused id name _ why same =>
        rw [same]
        refine h.kept fun id' paidAt huse => ?_
        obtain rfl := hsame name huse
        obtain ⟨hkey, hother⟩ := hok hreaches invoice _ hinvoice name
        rcases why with why | why
        · rw [hkey] at why
          cases why
        · rw [hforeign] at why
          exact absurd why hother
      | present id name _ held same =>
        rw [same]
        refine h.kept fun id' paidAt huse => ?_
        obtain rfl := hsame name huse
        exact held
      | added id paidAt name _ time fresh row =>
        rw [row]
        exact h.added fresh ⟨hacts, invoice, hinvoice, name, time⟩ fun id' x huse => hsame name huse
  · rw [hpay]
    exact h.kept fun id paidAt huse => absurd huse.1 hno

section Runs

variable {db : Database} {steps : List LedgerStep} {before after : List LedgerTransition}

theorem books_kept (hempty : db.payments = [])
    (hok : ∀ t ∈ trace LedgerStep.next db steps, Acceptable t)
    (hsplit : trace LedgerStep.next db steps = before ++ t :: after) :
    Books (before ++ [t]) t.after.payments := by
  have hmeets : MeetsFrom (fun h t => Books (h ++ [t]) t.after.payments) []
      (trace LedgerStep.next db steps) := by
    apply MeetsFrom.of_invariant (P := fun h db => Books h db.payments) ?_ ?_
      (MeetsFrom.of_forall hok [])
    · rw [hempty]
      exact ⟨List.nodup_nil, by simp, by simp⟩
    · intro h db step hbooks hok
      exact ⟨hbooks.step hok, hbooks.step hok⟩
  rw [hsplit] at hmeets
  exact hmeets.split

theorem Books.one {id : String} (h : Books history payments)
    (hid : id ∈ payments.map (·.providerAttemptId)) :
    ∃ p, payments.filter (fun p => p.providerAttemptId = id) = [p] ∧
    FirstUse history id p.attemptedAt := by
  obtain ⟨p, hp, rfl⟩ := List.mem_map.mp hid
  refine ⟨p, ?_, h.sound p hp⟩
  have hnodup := h.nodup
  clear h hid
  induction payments with
  | nil => cases hp
  | cons q payments ih =>
    rw [List.map_cons, List.nodup_cons] at hnodup
    rcases List.mem_cons.mp hp with rfl | hp
    · have hrest : payments.filter (fun q => q.providerAttemptId = p.providerAttemptId) = [] := by
        rw [List.filter_eq_nil_iff]
        intro q hq heq
        exact hnodup.1 (List.mem_map.mpr ⟨q, hq, of_decide_eq_true heq⟩)
      rw [List.filter_cons, if_pos (decide_eq_true rfl), hrest]
    · have hne : q.providerAttemptId ≠ p.providerAttemptId := fun heq =>
        hnodup.1 (List.mem_map.mpr ⟨p, hp, heq.symm⟩)
      rw [List.filter_cons, if_neg (by simpa using hne)]
      exact ih hp hnodup.2

/-- A commit that acts on an invoice with a usable `paid_at`, or entitles on the strength of it,
uses its payment. -/
theorem uses_of_gain {step : LedgerStep} {invoice : Dict} {paidAt : Time}
    (hgain : Entitles db (LedgerStep.next db step) ∨ Acts (transition LedgerStep.next db step))
    (hinvoice : step.invoice = some invoice)
    (htime : fromUnix (invoice.get "paid_at") = some paidAt) :
    ∃ id, attemptId invoice = some id ∧ Uses (transition LedgerStep.next db step) id paidAt := by
  rcases transition_ledger db step with ⟨hacts, -, others, w, -, hrec⟩ | ⟨hno, -, hent⟩
  · have hnamed : ∃ id, attemptId invoice = some id := by
      rw [hinvoice] at hrec
      have hrec : Recorded others invoice w db.payments (LedgerStep.next db step).payments := hrec
      cases hrec with
      | untimed time => exact absurd (time.symm.trans htime) (by simp)
      | refused id name => exact ⟨id, name⟩
      | present id name => exact ⟨id, name⟩
      | added id paidAt name => exact ⟨id, name⟩
    obtain ⟨id, hname⟩ := hnamed
    exact ⟨id, hname, hacts, invoice, hinvoice, hname, htime⟩
  · rcases hgain with hgain | hacts
    · exact absurd hgain (hent ⟨invoice, hinvoice⟩)
    · exact absurd hacts hno

/-- In every run from an empty ledger whose payments are all acceptable, a commit on the strength of
an invoice with a usable `paid_at` leaves one row of its payment for good, with the `paid_at` of the
first commit that used it. -/
theorem ledger_complete (db : Database) (steps : List LedgerStep)
    (before after : List LedgerTransition)
    (t t' : LedgerTransition) (invoice : Dict) (paidAt : Time) (hempty : db.payments = [])
    (hok : ∀ u ∈ trace LedgerStep.next db steps, Acceptable u)
    (hsplit : trace LedgerStep.next db steps = before ++ t :: after)
    (hgain : Entitles t.before t.after ∨ Acts t) (hinvoice : t.label.invoice = some invoice)
    (htime : fromUnix (invoice.get "paid_at") = some paidAt) (hlater : t' ∈ t :: after) :
    ∃ id p, attemptId invoice = some id ∧
      t'.after.payments.filter (fun p => p.providerAttemptId = id) = [p] ∧
      FirstUse (trace LedgerStep.next db steps) id p.attemptedAt := by
  have hin : t ∈ trace LedgerStep.next db steps := by simp [hsplit]
  have hstep : t = transition LedgerStep.next t.before t.label := trace_step hin
  have huses : ∃ id, attemptId invoice = some id ∧ Uses t id paidAt := by
    rw [hstep] at hgain ⊢
    exact uses_of_gain hgain hinvoice htime
  obtain ⟨id, hname, huse⟩ := huses
  obtain ⟨mid, rest, hcut⟩ := List.append_of_mem hlater
  have hsplit' : trace LedgerStep.next db steps = (before ++ mid) ++ t' :: rest := by
    rw [hsplit, hcut, List.append_assoc]
  have hbooks := books_kept hempty hok hsplit'
  have hmem : t ∈ (before ++ mid) ++ [t'] := by
    cases mid with
    | nil => simp [(List.cons.inj hcut).1]
    | cons u mid => simp [(List.cons.inj hcut).1]
  obtain ⟨p, hp, hfirst⟩ := hbooks.one (hbooks.complete t hmem id paidAt huse)
  refine ⟨id, p, hname, hp, ?_⟩
  rw [hsplit']
  simpa using hfirst.append rest

end Runs

/-- A first subscription found paid, where the ledgers of other merchants hold these payments. -/
def paidStep (foreign : List String) (payment : String) : LedgerStep :=
  .snapshot { paidEnv with others := { paidEnv.others with paymentIds := foreign } } paidSnapshot
    (some [invoiceOf "sub_a" payment 1000 2000]) (seconds 1500) none

/-- The step entitles on the strength of an invoice with a usable `paid_at`, and enters nothing. -/
def LedgerStep.Misses (db : Database) (step : LedgerStep) : Prop :=
  Entitles db (step.next db) ∧
    (∃ invoice paidAt, step.invoice = some invoice ∧
      fromUnix (invoice.get "paid_at") = some paidAt) ∧
    (step.next db).payments = []

/-- The row becomes ACTIVE on a payment that another merchant's ledger holds, or on one without the
prefix, and the ledger stays empty. -/
theorem ledger_misses_payment : (paidStep ["pay_1"] "pay_1").Misses awaitingPayment ∧
    (paidStep [] "order_1").Misses awaitingPayment := by
  have hactivates : ∀ {db : Database} {sub sub' : Subscription}, awaitingPayment.sub? = some sub →
      db.sub? = some sub' → sub'.status = .active → sub.status ≠ .active →
        Entitles awaitingPayment db :=
    fun hsub hsub' hactive hno => ⟨_, _, hsub, hsub', hactive, fun h => hno h.1⟩
  constructor
  · exact ⟨hactivates rfl rfl rfl (by decide), ⟨_, _, rfl, rfl⟩, rfl⟩
  · exact ⟨hactivates rfl rfl rfl (by decide), ⟨_, _, rfl, rfl⟩, rfl⟩

/-- A first subscription found paid twice: the second snapshot has its ledger row from the first. -/
theorem ledger_complete_activation :
    let ts := trace LedgerStep.next awaitingPayment [paidStep [] "pay_1", paidStep [] "pay_1"]
    ∃ id p, attemptId (invoiceFields "sub_a" "pay_1" 1000 2000) = some id ∧
      ((ts.get ⟨1, by decide⟩).after.payments.filter fun p => p.providerAttemptId = id) = [p] ∧
      FirstUse ts id p.attemptedAt := by
  apply ledger_complete awaitingPayment [paidStep [] "pay_1", paidStep [] "pay_1"] [] _ _ _
    (invoiceFields "sub_a" "pay_1" 1000 2000) (seconds 1000) rfl ?_ rfl ?_ rfl rfl ?_
  · have hacceptable : ∀ {db : Database},
        Acceptable (transition LedgerStep.next db (paidStep [] "pay_1")) := by
      intro db _ invoice id hinvoice hname
      obtain rfl : invoiceFields "sub_a" "pay_1" 1000 2000 = invoice := Option.some.inj hinvoice
      obtain rfl : "pay_1" = id := Option.some.inj hname
      exact ⟨by decide, List.not_mem_nil⟩
    intro u hu
    simp only [trace, List.mem_cons, List.not_mem_nil, or_false] at hu
    rcases hu with rfl | rfl
    · exact hacceptable
    · exact hacceptable
  · exact Or.inl ⟨_, _, rfl, rfl, rfl, by decide⟩
  · exact List.mem_cons_of_mem _ List.mem_cons_self

end ReviewFlow.Billing
