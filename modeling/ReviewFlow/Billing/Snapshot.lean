import ReviewFlow.Billing.Abandon

/-!
# Applying a fetched main subscription

`applySnapshot` is the single place a status, plan or period of the row changes,
a replacement switch apart. `statusOutcome` is the row part of its branches, and
`Snapshotted` relates the rows before and after an accepted snapshot.
-/

namespace ReviewFlow.Billing

open Savepoint

/-- `sub.payment_provider_ref == entity.get("id")`, for an id that is not empty. -/
def namesMain (sub : Subscription) (entity : Dict) : Bool :=
  match sub.paymentProviderRef with
  | some ref => (entity.get "id").isStr ref.val
  | none => false

def newer (sub : Subscription) (started : Time) : Bool :=
  match sub.providerSyncedAt with
  | some synced => decide (synced < started)
  | none => true

def failedProviderStatuses : List String := ["pending", "halted"]

/-- A change that ends the row or puts it in grace abandons a replacement. -/
def abandonAfter (r : Applied) (reason : String) : Prog Applied :=
  if r.changed = true then do
    let a ← abandonUnlessActive r.sub reason notActive none
    pure { r with sub := a.sub }
  else pure r

/-- The branches of `_apply_snapshot` on the provider status. -/
def applyStatus (sub : Subscription) (entity : Dict) (invoices : Option (List Json)) (plan : Plan)
    (actor : Option ℕ) (status : String) (now : Time) : Prog Applied :=
  if status = "active" then applyActive sub entity invoices plan actor none
  else if status ∈ failedProviderStatuses then do
    let r ← applyPaymentFailed sub now
    abandonAfter r "past_due"
  else if status ∈ terminalProviderStatuses then
    -- Rule 5: the commit scheduled this end on purpose.
    if committedDowngradeReplacement sub = true then pure (.noChange sub)
    else do
      let r ← applyTerminal sub now
      abandonAfter r "row_ended"
  else pure (.noChange sub)

def stamped (sub : Subscription) (status : String) (started : Time) : Subscription :=
  { sub with
    providerStatus := some (takeChars 16 status)
    providerSyncedAt := some started }

def storeSnapshot (r : Applied) (status : String) (started : Time) : Prog SnapshotResult := do
  saveSubscription (stamped r.sub status started)
  Program.whenever (r.advanced = true) (do
    let _ ← resetUsagePeriod (stamped r.sub status started)
    pure ())
  pure ⟨r.changed, r.settled⟩

/-- `_apply_snapshot` on the locked row. -/
def snapshotLocked (sub : Subscription) (entity : Dict) (invoices : Option (List Json))
    (started : Time) (actor : Option ℕ) (now : Time) (settings : Settings) : Prog SnapshotResult :=
  if namesMain sub entity = false then pure ⟨false, false⟩
  else if newer sub started = false then pure ⟨false, false⟩
  else match settings.planFor (entity.get "plan_id"), (entity.get "status").str? with
    | some plan, some status => do
      let r ← applyStatus sub entity invoices plan actor status now
      storeSnapshot r status started
    | _, _ => pure ⟨false, false⟩

def applySnapshot (entity : Dict) (invoices : Option (List Json)) (started : Time)
    (actor : Option ℕ) : Prog SnapshotResult :=
  Program.savepoint do
    let sub ← lockSubscription
    let now ← timezoneNow
    let env ← Program.ask
    snapshotLocked sub entity invoices started actor now env.settings

def statusOutcome (sub : Subscription) (entity : Dict) (invoices : Option (List Json)) (plan : Plan)
    (status : String) (now : Time) : Applied :=
  if status = "active" then activeOutcome sub entity invoices plan
  else if status ∈ failedProviderStatuses then failedOutcome sub now
  else if status ∈ terminalProviderStatuses then
    if committedDowngradeReplacement sub = true then .noChange sub else terminalOutcome sub now
  else .noChange sub

structure SameSlots (sub sub' : Subscription) : Prop where
  payment : sub'.paymentProviderRef = sub.paymentProviderRef
  replacement : sub'.replacementProviderRef = sub.replacementProviderRef
  retired : sub'.retiredProviderRef = sub.retiredProviderRef
  committed : sub'.replacementCommittedAt = sub.replacementCommittedAt

theorem SameSlots.refl (sub : Subscription) : SameSlots sub sub := ⟨rfl, rfl, rfl, rfl⟩

theorem SameSlots.trans {a b c : Subscription} (h : SameSlots a b) (h' : SameSlots b c) :
    SameSlots a c :=
  ⟨h'.payment.trans h.payment, h'.replacement.trans h.replacement, h'.retired.trans h.retired,
    h'.committed.trans h.committed⟩

theorem takePlan_slots (sub : Subscription) (plan : Plan) (oldPending : Option ℕ)
    (period : Option (Time × Time)) : SameSlots sub (takePlan sub plan oldPending period) := by
  unfold takePlan
  cases period <;> exact ⟨rfl, rfl, rfl, rfl⟩

theorem refreshed_slots (sub : Subscription) (plan : Plan) :
    SameSlots sub (refreshed sub plan) := by
  unfold refreshed
  dsimp only
  split
  · exact takePlan_slots sub plan _ none
  · split <;> exact ⟨rfl, rfl, rfl, rfl⟩

theorem activated_slots (sub : Subscription) (plan : Plan) (start stop : Time) :
    SameSlots sub (activated sub plan start stop) := by
  unfold activated
  split
  · exact takePlan_slots ..
  · split <;> exact (takePlan_slots sub plan _ _).trans ⟨rfl, rfl, rfl, rfl⟩

theorem ended_slots (sub : Subscription) (now : Time) : SameSlots sub (ended sub now) := by
  unfold ended
  split <;> exact ⟨rfl, rfl, rfl, rfl⟩

theorem activeOutcome_slots (sub : Subscription) (entity : Dict) (invoices : Option (List Json))
    (plan : Plan) : SameSlots sub (activeOutcome sub entity invoices plan).sub := by
  unfold activeOutcome
  split
  · exact SameSlots.refl sub
  · split
    · exact refreshed_slots sub plan
    · split
      · exact SameSlots.refl sub
      · exact activated_slots ..

theorem statusOutcome_slots (sub : Subscription) (entity : Dict) (invoices : Option (List Json))
    (plan : Plan) (status : String) (now : Time) :
    SameSlots sub (statusOutcome sub entity invoices plan status now).sub := by
  unfold statusOutcome
  split
  · exact activeOutcome_slots ..
  split
  · unfold failedOutcome
    split <;> exact ⟨rfl, rfl, rfl, rfl⟩
  split
  · split
    · exact SameSlots.refl sub
    · unfold terminalOutcome
      split
      · exact ended_slots sub now
      · exact SameSlots.refl sub
  · exact SameSlots.refl sub

theorem activeOutcome_advanced {sub : Subscription} {entity : Dict}
    {invoices : Option (List Json)} {plan : Plan}
    (h : (activeOutcome sub entity invoices plan).advanced = true) :
    ∃ start stop, usablePeriod entity = some (start, stop) ∧ ¬ samePeriod sub start ∧
      (currentPeriodPaid entity invoices).isSome = true ∧
      activeOutcome sub entity invoices plan =
        ⟨activated sub plan start stop, true, true, true⟩ := by
  unfold activeOutcome at *
  split at h
  · cases h
  · rename_i start stop hp
    split at h
    · cases h
    · split at h
      · cases h
      · rename_i hs hn
        refine ⟨start, stop, hp, hs, ?_, ?_⟩
        · rwa [Option.isNone_iff_eq_none, ← ne_eq, Option.ne_none_iff_isSome] at hn
        · simp only [hs, hn, Bool.false_eq_true, ↓reduceIte]

/-- Without a new period the bounds stay, and the row does not become ACTIVE. -/
structure NotEntitled (sub sub' : Subscription) : Prop where
  start : sub'.currentPeriodStart = sub.currentPeriodStart
  stop : sub'.currentPeriodEnd = sub.currentPeriodEnd
  status : sub'.status = sub.status ∨ (sub'.status ≠ .active ∧ ¬ sub.status.Ended)

theorem NotEntitled.refl (sub : Subscription) : NotEntitled sub sub := ⟨rfl, rfl, Or.inl rfl⟩

theorem refreshed_notEntitled (sub : Subscription) (plan : Plan) :
    NotEntitled sub (refreshed sub plan) := by
  unfold refreshed takePlan
  dsimp only
  split
  · exact ⟨rfl, rfl, Or.inl rfl⟩
  · split <;> exact ⟨rfl, rfl, Or.inl rfl⟩

theorem graceEnd_ne_active (pastDueAt now : Time) : graceEnd pastDueAt now ≠ .active := by
  unfold graceEnd
  split <;> decide

theorem ended_notEntitled (sub : Subscription) (now : Time) : NotEntitled sub (ended sub now) := by
  unfold ended
  split
  · rename_i h
    exact ⟨rfl, rfl, Or.inr ⟨by simp, by rw [h]; decide⟩⟩
  · rename_i h _
    exact ⟨rfl, rfl, Or.inr ⟨graceEnd_ne_active _ _, by rw [h]; decide⟩⟩
  · exact NotEntitled.refl sub

theorem statusOutcome_notEntitled {sub : Subscription} {entity : Dict}
    {invoices : Option (List Json)} {plan : Plan} {status : String} {now : Time}
    (h : (statusOutcome sub entity invoices plan status now).advanced = false) :
    NotEntitled sub (statusOutcome sub entity invoices plan status now).sub := by
  unfold statusOutcome at *
  split
  · rename_i ha
    simp only [ha, ↓reduceIte] at h
    unfold activeOutcome at *
    split
    · exact NotEntitled.refl sub
    · rename_i hp
      simp only [hp] at h
      split
      · exact refreshed_notEntitled sub plan
      · split
        · exact NotEntitled.refl sub
        · rename_i hs hn
          simp [hs, hn] at h
  split
  · unfold failedOutcome
    split
    · exact NotEntitled.refl sub
    · rename_i ha
      rw [not_not] at ha
      exact ⟨rfl, rfl, Or.inr ⟨by simp [graced], by rw [ha]; decide⟩⟩
  split
  · split
    · exact NotEntitled.refl sub
    · unfold terminalOutcome
      split
      · exact ended_notEntitled sub now
      · exact NotEntitled.refl sub
  · exact NotEntitled.refl sub

theorem statusOutcome_advanced {sub : Subscription} {entity : Dict}
    {invoices : Option (List Json)} {plan : Plan} {status : String} {now : Time}
    (h : (statusOutcome sub entity invoices plan status now).advanced = true) :
    status = "active" ∧ ∃ start stop, usablePeriod entity = some (start, stop) ∧
      ¬ samePeriod sub start ∧ (currentPeriodPaid entity invoices).isSome = true ∧
      (statusOutcome sub entity invoices plan status now).sub = activated sub plan start stop := by
  unfold statusOutcome at *
  split at h
  · rename_i ha
    rw [if_pos ha]
    obtain ⟨start, stop, hp, hs, hi, ho⟩ := activeOutcome_advanced h
    exact ⟨ha, start, stop, hp, hs, hi, by rw [ho]⟩
  split at h
  · unfold failedOutcome at h
    split at h <;> cases h
  split at h
  · split at h
    · cases h
    · unfold terminalOutcome at h
      split at h <;> cases h
  · cases h

theorem activated_period (sub : Subscription) (plan : Plan) (start stop : Time) :
    (activated sub plan start stop).currentPeriodStart = some start ∧
      (activated sub plan start stop).currentPeriodEnd = some stop ∧
      (activated sub plan start stop).status = .active := by
  unfold activated takePlan clearGrace
  by_cases ha : sub.status = .active
  · simp [ha]
  · by_cases hp : sub.status = .pastDue <;> simp [hp, ha]

def StatusRow (calls : List Call) (outcome : Applied) (sub : Subscription) : Prop :=
  sub = outcome.sub ∨ (outcome.changed = true ∧ outcome.advanced = false ∧
    outcome.sub.replacementCommittedAt = none ∧ Abandons calls outcome.sub sub)

theorem StatusRow.mono {a b : Journal} {outcome : Applied} {sub : Subscription}
    (h : StatusRow a.calls outcome sub) (hab : a ≤ b) : StatusRow b.calls outcome sub :=
  h.imp_right fun ⟨hc, hadv, hn, ha⟩ => ⟨hc, hadv, hn, ha.mono hab⟩

/-- The events an abandon inside a snapshot may mark: those of the reference that left. -/
def Departing (sub sub' : Subscription) (e : BillingEvent) : Prop :=
  sub.replacementProviderRef = some e.providerRef ∧ sub'.replacementProviderRef = none

section Rules

variable {env : Env} {s : State}

theorem abandonAfter_spec {r : Applied} {reason : String} (hr : r.advanced = false) :
    Program.returns env (abandonAfter r reason)
      (fun r' t => StatusRow t.journal.calls r r'.sub ∧
        r' = { r with sub := r'.sub } ∧ Beside (Departing r.sub r'.sub) s t) s := by
  unfold abandonAfter
  rw [Program.returns, Program.wp_ite]
  refine ⟨fun hc => ?_, fun _ => ⟨Or.inl rfl, rfl, Beside.refl _ s⟩⟩
  refine Program.returns_bind (abandonUnlessActive_spec (by simp)) fun a t ht => ?_
  cases ha : a.abandoned with
  | false =>
    obtain ⟨hs, hd⟩ := ht.kept ha
    exact ⟨Or.inl hs, rfl, Beside.of_data hd⟩
  | true =>
    obtain ⟨entity, target, -, -, hn, -, hs⟩ := ht.moved ha
    refine ⟨Or.inr ⟨hc, hr, hn, ht.abandons (fun _ h => h) ha⟩, rfl, ?_⟩
    refine ht.beside.mono fun e _ he => ⟨he.2, ?_⟩
    simp only [hs, retired]

theorem applyStatus_spec {sub : Subscription} {entity : Dict} {invoices : Option (List Json)}
    {plan : Plan} {actor : Option ℕ} {status : String} {now : Time} :
    Program.returns env (applyStatus sub entity invoices plan actor status now)
      (fun r t => StatusRow t.journal.calls
      (statusOutcome sub entity invoices plan status now) r.sub ∧
        r = { statusOutcome sub entity invoices plan status now with sub := r.sub } ∧
        Beside (Departing sub r.sub) s t) s := by
  have kept : ∀ o : Applied, StatusRow s.journal.calls o o.sub ∧
      o = { o with sub := o.sub } ∧ Beside (Departing sub o.sub) s s :=
    fun o => ⟨Or.inl rfl, rfl, Beside.refl _ s⟩
  unfold applyStatus statusOutcome
  by_cases ha : status = "active"
  · simp only [ha, ↓reduceIte]
    refine Program.returns_mono (Program.returns_of_wp applyActive_spec) ?_
    rintro r t ⟨rfl, ht⟩
    exact ⟨Or.inl rfl, rfl, ht.beside⟩
  by_cases hf : status ∈ failedProviderStatuses
  · simp only [ha, hf, ↓reduceIte]
    refine Program.returns_bind (Program.returns_of_wp applyPaymentFailed_spec) ?_
    rintro r t ⟨rfl, ht⟩
    have hadv : (failedOutcome sub now).advanced = false := by
      unfold failedOutcome
      split <;> rfl
    have hrep : (failedOutcome sub now).sub.replacementProviderRef =
        sub.replacementProviderRef := by
      unfold failedOutcome
      split <;> rfl
    refine Program.returns_mono (abandonAfter_spec hadv) fun r' u hu => ⟨hu.1, hu.2.1, ?_⟩
    exact ht.beside.trans (hu.2.2.mono fun e _ he => ⟨hrep ▸ he.1, he.2⟩)
  by_cases ht : status ∈ terminalProviderStatuses
  · by_cases hc : committedDowngradeReplacement sub = true
    · simp only [ha, hf, ht, hc, ↓reduceIte]
      exact kept (.noChange sub)
    · simp only [ha, hf, ht, hc, ↓reduceIte]
      refine Program.returns_bind (Program.returns_of_wp applyTerminal_spec) ?_
      rintro r t ⟨rfl, ht⟩
      have hadv : (terminalOutcome sub now).advanced = false := by
        unfold terminalOutcome
        split <;> rfl
      have hrep : (terminalOutcome sub now).sub.replacementProviderRef =
          sub.replacementProviderRef := by
        unfold terminalOutcome
        split
        · exact (ended_slots sub now).replacement
        · rfl
      refine Program.returns_mono (abandonAfter_spec hadv) fun r' u hu => ⟨hu.1, hu.2.1, ?_⟩
      exact ht.beside.trans (hu.2.2.mono fun e _ he => ⟨hrep ▸ he.1, he.2⟩)
  · simp only [ha, hf, ht, ↓reduceIte]
    exact kept (.noChange sub)

/-- The row and the snapshot's fields that the guards of `_apply_snapshot` let through. -/
structure Accepts (settings : Settings) (sub : Subscription) (entity : Dict) (started : Time)
    (plan : Plan) (status : String) : Prop where
  names : namesMain sub entity = true
  newer : newer sub started = true
  plan : settings.planFor (entity.get "plan_id") = some plan
  status : entity.get "status" = .str status

structure Snapshotted (settings : Settings) (calls : List Call) (entity : Dict)
    (invoices : Option (List Json)) (started : Time) (sub : Subscription) (plan : Plan)
    (status : String) (now : Time) (r : Applied) (db db' : Database) : Prop where
  before : db.sub? = some sub
  accepts : Accepts settings sub entity started plan status
  row : StatusRow calls (statusOutcome sub entity invoices plan status now) r.sub
  result : r = { statusOutcome sub entity invoices plan status now with sub := r.sub }
  after : db'.sub? = some (stamped r.sub status started)
  usage : if r.advanced = true then ∃ start stop, usablePeriod entity = some (start, stop) ∧
      Opened db.usage db'.usage start stop else db'.usage = db.usage
  events : Marked (Departing sub r.sub) db.events db'.events

theorem Snapshotted.mono {settings : Settings} {a b : Journal} {entity : Dict}
    {invoices : Option (List Json)} {started : Time} {sub : Subscription} {plan : Plan}
    {status : String} {now : Time} {r : Applied} {db db' : Database}
    (h : Snapshotted settings a.calls entity invoices started sub plan status now r db db')
    (hab : a ≤ b) :
    Snapshotted settings b.calls entity invoices started sub plan status now r db db' :=
  { h with row := h.row.mono hab }

/-- What `_apply_snapshot` did: nothing, where a guard stopped it, or one accepted snapshot. -/
inductive SnapshotPost (settings : Settings) (entity : Dict) (invoices : Option (List Json))
    (started : Time) (result : SnapshotResult) (s t : State) : Prop
  | dropped (sub : Subscription) (before : s.data.sub? = some sub)
      (stopped : ∀ plan status, ¬ Accepts settings sub entity started plan status)
      (data : t.data = s.data) (result : result = ⟨false, false⟩)
  | applied (sub : Subscription) (plan : Plan) (status : String) (now : Time) (r : Applied)
      (done : Snapshotted settings t.journal.calls entity invoices started sub plan status now r
        s.data t.data)
      (result : result = ⟨r.changed, r.settled⟩)

theorem storeSnapshot_spec {r : Applied} {status : String} {started : Time}
    (hr : r.advanced = true → ∃ start stop, r.sub.currentPeriodStart = some start ∧
      r.sub.currentPeriodEnd = some stop) :
    Program.returns env (storeSnapshot r status started)
      (fun result t => result = ⟨r.changed, r.settled⟩ ∧
        t.data.sub? = some (stamped r.sub status started) ∧
        t.data.events = s.data.events ∧
        (if r.advanced = true then ∃ start stop, r.sub.currentPeriodStart = some start ∧
          r.sub.currentPeriodEnd = some stop ∧ Opened s.data.usage t.data.usage start stop
          else t.data.usage = s.data.usage)) s := by
  unfold storeSnapshot
  rw [Program.returns, Program.wp_bind, wp_saveSubscription]
  refine ⟨fun hc _ => ?_, fun _ => trivial⟩
  rw [Program.wp_bind, Program.wp_whenever]
  refine ⟨fun hadv => ?_, fun hadv => ?_⟩
  · obtain ⟨start, stop, hs, he⟩ := hr hadv
    refine Program.returns_bind (Program.returns_of_wp
      (resetUsagePeriod_spec hs he)) ?_
    rintro _ t ⟨-, ho, hd⟩
    refine ⟨rfl, by rw [hd, Database.sub?]; rfl, by rw [hd], ?_⟩
    rw [if_pos hadv]
    exact ⟨start, stop, hs, he, ho⟩
  · refine ⟨rfl, rfl, rfl, ?_⟩
    rw [if_neg hadv]

theorem applySnapshot_spec {entity : Dict} {invoices : Option (List Json)} {started : Time}
    {actor : Option ℕ} :
    Program.returns env (applySnapshot entity invoices started actor)
      (fun r t => SnapshotPost env.settings entity invoices started r s t) s := by
  unfold applySnapshot
  refine Program.returns_savepoint ?_
  rw [Program.returns, Program.wp_bind, wp_lockSubscription]
  refine ⟨fun sub hsub => ?_, fun _ => trivial⟩
  rw [Program.wp_bind, wp_timezoneNow, Program.wp_bind, Program.wp_ask]
  generalize env.oracle.clock s.journal.ticks = now
  unfold snapshotLocked
  have dropped : (∀ plan status, ¬ Accepts env.settings sub entity started plan status) →
      SnapshotPost env.settings entity invoices started ⟨false, false⟩ s s.tick :=
    fun h => .dropped sub hsub h rfl rfl
  rw [Program.wp_ite]
  refine ⟨fun h => dropped fun _ _ ha => by simp [ha.names] at h, fun hnames => ?_⟩
  rw [Program.wp_ite]
  refine ⟨fun h => dropped fun _ _ ha => by simp [ha.newer] at h, fun hnewer => ?_⟩
  split
  · rename_i plan status hplan hstatus
    have hacc : Accepts env.settings sub entity started plan status :=
      ⟨by simpa using hnames, by simpa using hnewer, hplan, Json.str?_eq_some.mp hstatus⟩
    refine Program.returns_bind applyStatus_spec ?_
    rintro r t ⟨hrow, hres, hb⟩
    have hadv : r.advanced = true → ∃ start stop, usablePeriod entity = some (start, stop) ∧
        r.sub.currentPeriodStart = some start ∧ r.sub.currentPeriodEnd = some stop := by
      intro ha
      have ha' : (statusOutcome sub entity invoices plan status now).advanced = true := by
        rw [hres] at ha
        exact ha
      obtain ⟨-, start, stop, hp, -, -, ho⟩ := statusOutcome_advanced ha'
      rcases hrow with hrow | ⟨-, hn, -, -⟩
      · rw [hrow, ho]
        exact ⟨start, stop, hp, (activated_period ..).1, (activated_period ..).2.1⟩
      · rw [hn] at ha'
        cases ha'
    have hperiod : r.advanced = true → ∃ start stop,
        r.sub.currentPeriodStart = some start ∧ r.sub.currentPeriodEnd = some stop := by
      intro ha
      obtain ⟨start, stop, -, h⟩ := hadv ha
      exact ⟨start, stop, h⟩
    refine Program.returns_mono
      (Program.returns_of_wp (Program.wp_grows (storeSnapshot_spec hperiod))) ?_
    rintro result u ⟨⟨hresult, hsub', hev, hus⟩, hg⟩
    refine .applied sub plan status now r ⟨hsub, hacc, hrow.mono hg, hres, hsub', ?_, ?_⟩ hresult
    · split
      · rename_i ha
        rw [if_pos ha] at hus
        obtain ⟨a, b, hp, hs, he⟩ := hadv ha
        obtain ⟨a', b', hs', he', ho⟩ := hus
        rw [hs] at hs'
        rw [he] at he'
        cases hs'
        cases he'
        refine ⟨a, b, hp, ?_⟩
        rw [← hb.usage.trans (by rfl : s.tick.data.usage = s.data.usage)]
        exact ho
      · rename_i ha
        rw [if_neg ha] at hus
        exact hus.trans hb.usage
    · rw [hev]
      exact hb.events
  · rename_i hno
    refine dropped fun plan status ha => hno plan status ha.plan ?_
    rw [ha.status]
    rfl

end Rules

end ReviewFlow.Billing
