import ReviewFlow.Billing.System

/-!
# Entitlement is only given for a paid period

A step gains when the row becomes ACTIVE, takes a bound of a period, or a usage
record is created. Every move that gains rests on `currentPeriodPaid` for the
entity the row points at afterwards, and so does every step of every run.
-/

namespace ReviewFlow.Billing

open Savepoint

def BecomesActive (db db' : Database) : Prop := db'.Active ∧ ¬ db.Active

def Database.periodStart? (db : Database) : Option Time := db.sub?.bind (·.currentPeriodStart)
def Database.periodEnd? (db : Database) : Option Time := db.sub?.bind (·.currentPeriodEnd)

def TakesValue (old new : Option Time) : Prop := new.isSome = true ∧ new ≠ old

def TakesPeriod (db db' : Database) : Prop :=
  TakesValue db.periodStart? db'.periodStart? ∨ TakesValue db.periodEnd? db'.periodEnd?

def CreatesUsage (db db' : Database) : Prop :=
  ∃ u ∈ db'.usage, ∀ v ∈ db.usage, ¬ (v.periodStart = u.periodStart ∧ v.periodEnd = u.periodEnd)

def Gains (db db' : Database) : Prop :=
  BecomesActive db db' ∨ TakesPeriod db db' ∨ CreatesUsage db db'

def PaidFor (calls : List Call) (db : Database) : Prop :=
  ∃ entity list invoice ref, Answered calls entity ∧ (∃ r, .invoices r (.ok list) ∈ calls) ∧
    currentPeriodPaid entity (some list) = some invoice ∧
    entity.get "id" = .str ref.val ∧ db.payment? = some ref

theorem TakesValue.split {a b c : Option Time} (h : TakesValue a c) :
    TakesValue a b ∨ TakesValue b c := by
  by_cases hb : c = b
  · exact Or.inl (hb ▸ h)
  · exact Or.inr ⟨h.1, hb⟩

theorem not_gains_trans {a b c : Database} (h : ¬ Gains a b) (h' : ¬ Gains b c) : ¬ Gains a c := by
  simp only [Gains, TakesPeriod, not_or] at *
  obtain ⟨ha, ⟨hs, he⟩, hu⟩ := h
  obtain ⟨ha', ⟨hs', he'⟩, hu'⟩ := h'
  refine ⟨?_, ⟨fun h => h.split.elim hs hs', fun h => h.split.elim he he'⟩, ?_⟩
  · rintro ⟨hc, hna⟩
    by_cases hb : b.Active
    · exact ha ⟨hb, hna⟩
    · exact ha' ⟨hc, hb⟩
  · rintro ⟨u, huc, hno⟩
    by_cases hex : ∃ v ∈ b.usage, v.periodStart = u.periodStart ∧ v.periodEnd = u.periodEnd
    · obtain ⟨v, hv, hvs, hve⟩ := hex
      exact hu ⟨v, hv, fun w hw hwv => hno w hw ⟨hwv.1.trans hvs, hwv.2.trans hve⟩⟩
    · exact hu' ⟨u, huc, fun v hv hvu => hex ⟨v, hv, hvu⟩⟩

structure NoMore (sub sub' : Subscription) : Prop where
  start : sub'.currentPeriodStart = sub.currentPeriodStart ∨ sub'.currentPeriodStart = none
  stop : sub'.currentPeriodEnd = sub.currentPeriodEnd ∨ sub'.currentPeriodEnd = none
  status : sub'.status = .active → sub.status = .active

theorem NotEntitled.noMore {sub sub' : Subscription} (h : NotEntitled sub sub') :
    NoMore sub sub' :=
  ⟨Or.inl h.start, Or.inl h.stop, fun ha =>
    h.status.elim (fun hs => hs ▸ ha) (fun hn => absurd ha hn.1)⟩

theorem Abandons.noMore {calls : List Call} {sub sub' : Subscription}
    (h : Abandons calls sub sub') :
    NoMore sub sub' := by
  obtain ⟨_, _, -, -, -, rfl⟩ := h
  exact ⟨Or.inl rfl, Or.inl rfl, id⟩

theorem NoMore.trans {a b c : Subscription} (h : NoMore a b) (h' : NoMore b c) : NoMore a c := by
  refine ⟨?_, ?_, fun hc => h.status (h'.status hc)⟩
  · rcases h'.start with hs | hs
    · rw [hs]
      exact h.start
    · exact Or.inr hs
  · rcases h'.stop with hs | hs
    · rw [hs]
      exact h.stop
    · exact Or.inr hs

theorem not_createsUsage {db db' : Database} (h : db'.usage = db.usage) :
    ¬ CreatesUsage db db' := by
  rintro ⟨u, hu, hno⟩
  rw [h] at hu
  exact hno u hu ⟨rfl, rfl⟩

theorem not_takesValue {old new : Option Time} (h : new = old ∨ new = none) :
    ¬ TakesValue old new := by
  rintro ⟨hs, hne⟩
  rcases h with rfl | rfl
  · exact hne rfl
  · cases hs

theorem not_gains_of_row {db db' : Database} {sub sub' : Subscription} (hb : db.sub? = some sub)
    (ha : db'.sub? = some sub') (hu : db'.usage = db.usage) (h : NoMore sub sub') :
    ¬ Gains db db' := by
  rintro (⟨⟨x, hx, hact⟩, hna⟩ | hp | hc)
  · rw [ha] at hx
    cases hx
    exact hna ⟨sub, hb, h.status hact⟩
  · simp only [TakesPeriod, Database.periodStart?, Database.periodEnd?, hb, ha,
      Option.bind_some] at hp
    exact hp.elim (not_takesValue h.start) (not_takesValue h.stop)
  · exact not_createsUsage hu hc

theorem not_gains_of_same {db db' : Database} (hs : db'.sub? = db.sub?)
    (hu : db'.usage = db.usage) :
    ¬ Gains db db' := by
  rintro (⟨⟨x, hx, hact⟩, hna⟩ | hp | hc)
  · exact hna ⟨x, hs ▸ hx, hact⟩
  · simp only [TakesPeriod, Database.periodStart?, Database.periodEnd?, hs] at hp
    exact hp.elim (not_takesValue (Or.inl rfl)) (not_takesValue (Or.inl rfl))
  · exact not_createsUsage hu hc

theorem Stored.not_gains {sub sub' : Subscription} {db db' : Database} (h : Stored sub sub' db db')
    (hn : NoMore sub sub') : ¬ Gains db db' :=
  not_gains_of_row h.before h.after h.usage hn

theorem Tending.not_gains {calls : List Call} {db db' : Database} (h : Tending calls db db') :
    ¬ Gains db db' := by
  cases h with
  | retires done => exact not_gains_of_row done.before done.after done.usage done.row.noMore
  | committed candidate done => exact done.not_gains ⟨Or.inl rfl, Or.inl rfl, id⟩
  | uncommitted done => exact done.not_gains ⟨Or.inl rfl, Or.inl rfl, id⟩
  | @undone sub sub' before row after usage events =>
    have hclear : NoMore sub { sub with replacementCommittedAt := none } :=
      ⟨Or.inl rfl, Or.inl rfl, id⟩
    exact not_gains_of_row before after usage (hclear.trans row.noMore)
  | retiredCleared gone done =>
    exact not_gains_of_row done.before done.after done.usage ⟨Or.inl rfl, Or.inl rfl, id⟩
  | plain done => exact done.toStored.not_gains done.entitlement.noMore

theorem Quiet.not_gains {calls : List Call} {db db' : Database} (h : Quiet calls db db') :
    ¬ Gains db db' := by
  cases h with
  | tending done => exact done.not_gains
  | stored inactive fresh gone done =>
    exact done.not_gains ⟨Or.inr rfl, Or.inr rfl, fun h => by cases h⟩
  | inserted plan absent after =>
    subst after
    rintro (⟨⟨x, hx, hact⟩, -⟩ | hp | hc)
    · cases hx
      cases hact
    · simp [TakesPeriod, TakesValue, Database.periodStart?, Database.periodEnd?, Database.sub?,
        freshRow] at hp
    · exact not_createsUsage rfl hc

theorem namesMain_iff {sub : Subscription} {entity : Dict} :
    namesMain sub entity = true ↔
      ∃ ref, sub.paymentProviderRef = some ref ∧ entity.get "id" = .str ref.val := by
  unfold namesMain
  cases sub.paymentProviderRef with
  | none => simp
  | some ref => simp only [Json.isStr_iff, Option.some.injEq, exists_eq_left']

theorem namesReplacement_iff {sub : Subscription} {entity : Dict} :
    namesReplacement sub entity = true ↔
      ∃ ref, sub.replacementProviderRef = some ref ∧ entity.get "id" = .str ref.val := by
  unfold namesReplacement
  cases sub.replacementProviderRef with
  | none => simp
  | some ref => simp only [Json.isStr_iff, Option.some.injEq, exists_eq_left']

theorem paidFor_of {calls : List Call} {entity : Dict} {invoices : Option (List Json)}
    {db : Database} {ref : Ref} (ha : Answered calls entity) (hi : Invoiced calls invoices)
    (hp : (currentPeriodPaid entity invoices).isSome = true) (hid : entity.get "id" = .str ref.val)
    (hpay : db.payment? = some ref) : PaidFor calls db := by
  obtain ⟨invoice, hinv⟩ := Option.isSome_iff_exists.mp hp
  obtain ⟨list, _, _, rfl, -⟩ := currentPeriodPaid_spec hinv
  exact ⟨entity, list, invoice, ref, ha, hi list rfl, hinv, hid, hpay⟩

theorem Entitling.earns {calls : List Call} {db db' : Database} (h : Entitling calls db db') :
    ¬ Gains db db' ∨ (PaidFor calls db' ∧ db'.Active) := by
  cases h with
  | @snapshot settings entity invoices started sub plan status now r answered invoiced done =>
    cases hadv : r.advanced with
    | false =>
      have hout : (statusOutcome sub entity invoices plan status now).advanced = false := by
        rw [done.result] at hadv
        exact hadv
      have husage := done.usage
      rw [hadv] at husage
      have hno : NoMore sub r.sub := by
        have h₁ := (statusOutcome_notEntitled hout).noMore
        rcases done.row with hr | ⟨-, -, -, ha⟩
        · exact hr ▸ h₁
        · exact h₁.trans ha.noMore
      exact Or.inl (not_gains_of_row done.before done.after husage
        (hno.trans ⟨Or.inl rfl, Or.inl rfl, id⟩))
    | true =>
      have hout : (statusOutcome sub entity invoices plan status now).advanced = true := by
        rw [done.result] at hadv
        exact hadv
      obtain ⟨-, start, stop, -, -, hpaid, hact⟩ := statusOutcome_advanced hout
      obtain ⟨ref, href, hid⟩ := namesMain_iff.mp done.accepts.names
      refine Or.inr ⟨paidFor_of answered invoiced hpaid hid ?_, _, done.after, ?_⟩
      · rw [done.payment?, Database.payment?_of done.before, href]
      · rcases done.row with hr | ⟨-, hn, -, -⟩
        · rw [hr, hact]
          exact (activated_period ..).2.2
        · rw [hn] at hout
          cases hout
  | switched answered invoiced done =>
    obtain ⟨ref, href, hid⟩ := namesReplacement_iff.mp done.names
    refine Or.inr ⟨paidFor_of answered invoiced done.paid hid ?_, _, done.after, ?_⟩
    · rw [Database.payment?_of done.after]
      exact ((activated_slots ..).replacement).trans href
    · exact (activated_period ..).2.2

def Earns (calls : List Call) (db db' : Database) : Prop := ¬ Gains db db' ∨ PaidFor calls db'

theorem Move.earns {calls : List Call} {db db' : Database} (h : Move calls db db') :
    Earns calls db db' := by
  rcases h with h | h
  · exact h.earns.imp_right And.left
  · exact Or.inl h.not_gains

theorem Earns.keeping {calls : List Call} {a b c : Database} (h : Earns calls a b)
    (hk : Keeping calls b c) : Earns calls a c := by
  induction hk with
  | refl => exact h
  | tail _ hm ih =>
    obtain ⟨hmove, hpay, -⟩ := hm
    rcases Move.earns hmove with hn | hp
    · rcases ih with hn' | ⟨e, l, i, ref, ha, hl, hi, hid, href⟩
      · exact Or.inl (not_gains_trans hn' hn)
      · exact Or.inr ⟨e, l, i, ref, ha, hl, hi, hid, hpay.trans href⟩
    · exact Or.inr hp

theorem Earns.starting {calls : List Call} {a b c : Database} (h : Earns calls a b)
    (hs : Starting calls b c) : Earns calls a c := by
  obtain ⟨active, free, fresh, done⟩ := hs
  rcases h with hn | ⟨e, l, i, ref, ha, hl, hi, hid, href⟩
  · exact Or.inl (not_gains_trans hn (done.not_gains ⟨Or.inl rfl, Or.inl rfl, id⟩))
  · exact Or.inr ⟨e, l, i, ref, ha, hl, hi, hid, (done.payment? rfl).trans href⟩

theorem QuietPath.not_gains {calls : List Call} {db db' : Database} (h : QuietPath calls db db') :
    ¬ Gains db db' := by
  induction h with
  | refl => exact not_gains_of_same rfl rfl
  | tail _ hm ih => exact not_gains_trans ih hm.1.not_gains

theorem Course.earns {calls : List Call} {db db' : Database} (h : Course calls db db') :
    Earns calls db db' := by
  obtain ⟨mid, hfirst, htail⟩ := h
  have hearns : Earns calls db mid := by
    rcases hfirst with rfl | hm
    · exact Or.inl (not_gains_of_same rfl rfl)
    · exact hm.earns
  rcases htail with (hk | ⟨hna, hq⟩) | hs
  · exact hearns.keeping hk
  · refine Or.inl (not_gains_trans ?_ hq.not_gains)
    rcases hfirst with rfl | he | hm
    · exact not_gains_of_same rfl rfl
    · exact he.earns.resolve_right fun h => hna h.2
    · exact hm.not_gains
  · exact hearns.starting hs

theorem Stepped.earns {calls : List Call} {db db' : Database} (h : Stepped calls db db') :
    Earns calls db db' := by
  obtain ⟨mid, hc, hi⟩ := h
  have hin : ¬ Gains mid db' := not_gains_of_same hi.sub? hi.usage
  rcases hc.earns with hn | ⟨e, l, i, ref, ha, hl, hinv, hid, href⟩
  · exact Or.inl (not_gains_trans hn hin)
  · refine Or.inr ⟨e, l, i, ref, ha, hl, hinv, hid, ?_⟩
    rw [Database.payment?, hi.sub?]
    exact href

/-- In every run, a step that makes the row ACTIVE, takes a period or creates a usage
record has been answered, in the operation that takes it, with an entity and invoices
for which the current period is paid, and the row points at that entity afterwards. -/
theorem gains_paid (db : Database) (choices : List Choice) (t : Transition)
    (ht : t ∈ runFrom db choices) (hg : Gains t.before.db t.after.db) :
    PaidFor t.calls t.after.db :=
  (runFrom_stepped ht).earns.resolve_left fun hn => hn hg

instance (db : Database) : Decidable db.Active :=
  decidable_of_iff (db.sub?.any (fun sub => decide (sub.status = .active)) = true) (by
    unfold Database.Active
    cases db.sub? <;> simp)

def awaitingPayment : Database :=
  rowless.withRow { plan := starter, status := .incomplete, paymentProviderRef := some refA }
    (by decide)

def paidEnv : Env :=
  envAt 1500 (fun _ => .ok (entityOf "sub_a" "plan_s" "active" 1000 2000))
    (.ok [invoiceOf "sub_a" "pay_1" 1000 2000])

def activation : List Choice := .spawn .sync :: List.replicate 5 (.advance 0 paidEnv)

theorem gains_paid_activation : ∃ t ∈ runFrom awaitingPayment activation,
    Gains t.before.db t.after.db ∧ PaidFor t.calls t.after.db := by
  have ht := (runFrom awaitingPayment activation).get_mem ⟨5, by decide⟩
  have hg : Gains ((runFrom awaitingPayment activation).get ⟨5, by decide⟩).before.db
      ((runFrom awaitingPayment activation).get ⟨5, by decide⟩).after.db :=
    Or.inl ⟨by decide, by decide⟩
  exact ⟨_, ht, hg, gains_paid _ _ _ ht hg⟩

end ReviewFlow.Billing
