import ReviewFlow.Billing.Constraints
import ReviewFlow.Billing.Frames
import ReviewFlow.Billing.Ledger

/-!
# The snapshot step and the documented table

`mapping` is the table from Razorpay's status to ReviewFlow's as it is documented, over what a
snapshot says and the local status. The snapshot step is compared with it cell by cell, with all
that a cell leaves as it was.
-/

namespace ReviewFlow.Billing

open Savepoint

inductive Cell where
  | noChange
  | refresh
  | becomes (status : Status)
  deriving DecidableEq

structure TableInput where
  usable : Bool
  paid : Bool
  same : Bool
  committed : Bool
  graceOver : Bool

/-- The table, a row for each provider status and a column for each local one. -/
def mapping (x : TableInput) (column : Status) (reported : String) : Cell :=
  if reported = "active" then
    if x.usable = false then .noChange
    else if column = .active ∧ x.same = true then .refresh
    else if x.paid = true then .becomes .active
    else .noChange
  else if reported = "pending" ∨ reported = "halted" then
    if column = .active then .becomes .pastDue else .noChange
  else if reported = "cancelled" ∨ reported = "completed" ∨ reported = "expired" then
    match column with
    | .active => if x.committed = true then .noChange else .becomes .cancelled
    | .pastDue => .becomes (if x.graceOver = true then .expired else .cancelled)
    | _ => .noChange
  else .noChange

def tableInput (sub : Subscription) (entity : Dict) (invoices : Option (List Json))
    (now : Time) : TableInput where
  usable := (usablePeriod entity).isSome
  paid := (currentPeriodPaid entity invoices).isSome
  same := decide
    (∃ start ∈ sub.currentPeriodStart, fromUnix (entity.get "current_start") = some start)
  committed := sub.replacementProviderRef.isSome && sub.replacementCommittedAt.isSome
  graceOver := decide (∃ pastDueAt ∈ sub.pastDueAt, pastDueAt + grace ≤ now)

def refreshedColumns (sub : Subscription) (plan : Plan) : Subscription :=
  { sub with
    plan := if sub.plan.pk = plan.pk then sub.plan else plan
    pendingPlan := if sub.pendingPlan.map (·.pk) = some plan.pk then none else sub.pendingPlan }

def Cell.Holds (others : Others) (sub : Subscription) (entity : Dict)
    (invoices : Option (List Json))
    (plan : Plan) (status : String) (started : Time) (changed : Bool)
    (db db' : Database) : Cell → Prop
  | .noChange => db'.sub? = some (stamped sub status started) ∧
      db' = { db with subscription := db'.subscription } ∧ changed = false
  | .refresh => db'.sub? = some (stamped (refreshedColumns sub plan) status started) ∧
      db'.usage = db.usage ∧ db'.events = db.events ∧
      (if sub.plan.pk = plan.pk then db'.audits = db.audits
        else ∃ row, row.action = .planChanged ∧ db'.audits = db.audits ++ [row]) ∧
      RecordedPaid others (currentPeriodPaid entity invoices) false db.payments db'.payments
  | .becomes column =>
    ∃ sub', db'.sub? = some (stamped sub' status started) ∧ sub'.status = column ∧
      sub'.paymentProviderRef = sub.paymentProviderRef ∧ changed = true ∧
      if column = .active then ∃ start stop, usablePeriod entity = some (start, stop) ∧
        sub' = activated sub plan start stop ∧ Opened db.usage db'.usage start stop ∧
        RecordedPaid others (currentPeriodPaid entity invoices) (decide (sub.status = .pastDue))
          db.payments db'.payments
      else sub'.currentPeriodStart = sub.currentPeriodStart ∧
        sub'.currentPeriodEnd = sub.currentPeriodEnd ∧ db'.usage = db.usage

section TableInput

variable {sub : Subscription} {entity : Dict} {invoices : Option (List Json)} {plan : Plan}
  {status : String} {now : Time}

theorem terminalProviderStatuses_iff :
    status ∈ terminalProviderStatuses ↔
      status = "cancelled" ∨ status = "completed" ∨ status = "expired" := by
  simp [terminalProviderStatuses]

theorem failedProviderStatuses_iff :
    status ∈ failedProviderStatuses ↔ status = "pending" ∨ status = "halted" := by
  simp [failedProviderStatuses]

theorem tableInput_same {start stop : Time} (hp : usablePeriod entity = some (start, stop)) :
    (tableInput sub entity invoices now).same = true ↔ sub.currentPeriodStart = some start := by
  simp [tableInput, (usablePeriod_eq_some.mp hp).1]

theorem mapping_active {start stop : Time} (hp : usablePeriod entity = some (start, stop)) :
    mapping (tableInput sub entity invoices now) sub.status "active" =
      if samePeriod sub start then .refresh
      else if (currentPeriodPaid entity invoices).isSome then .becomes .active else .noChange := by
  have husable : (tableInput sub entity invoices now).usable = true := by simp [tableInput, hp]
  have hpaid : (tableInput sub entity invoices now).paid =
    (currentPeriodPaid entity invoices).isSome := rfl
  simp only [mapping, husable, hpaid, tableInput_same hp, samePeriod, Bool.true_eq_false,
    if_true, if_false]
  congr

theorem refreshed_columns : refreshed sub plan = refreshedColumns sub plan := by
  unfold refreshed refreshedColumns takePlan
  by_cases hk : sub.plan.pk = plan.pk
  · by_cases hp : sub.pendingPlan.map (·.pk) = some plan.pk
    · simp [hk, hp]
    · simp [hk, hp]
  · simp [hk]

theorem applyStatus_noChange (plan : Plan) (actor : Option ℕ)
    (h : mapping (tableInput sub entity invoices now) sub.status status = .noChange) :
    ∃ settled, applyStatus sub entity invoices plan actor status now =
      pure ⟨sub, false, settled, false⟩ := by
  unfold applyStatus
  by_cases ha : status = "active"
  · subst ha
    rw [if_pos rfl]
    unfold applyActive
    cases hp : usablePeriod entity with
    | none => exact ⟨_, rfl⟩
    | some period =>
      obtain ⟨start, stop⟩ := period
      rw [mapping_active hp] at h
      split at h
      · cases h
      · rename_i hs
        split at h
        · cases h
        · rename_i hpaid
          have hn : (currentPeriodPaid entity invoices).isNone = true := by simpa using hpaid
          dsimp only
          rw [if_neg hs, if_pos hn]
          exact ⟨_, rfl⟩
  rw [if_neg ha]
  unfold mapping at h
  rw [if_neg ha] at h
  by_cases hf : status ∈ failedProviderStatuses
  · rw [if_pos (failedProviderStatuses_iff.mp hf)] at h
    have hactive : sub.status ≠ .active := fun he => by simp [he] at h
    rw [if_pos hf]
    unfold applyPaymentFailed
    rw [if_pos hactive]
    exact ⟨_, rfl⟩
  rw [if_neg hf]
  rw [if_neg fun he => hf (failedProviderStatuses_iff.mpr he)] at h
  by_cases ht : status ∈ terminalProviderStatuses
  · rw [if_pos ht]
    rw [if_pos (terminalProviderStatuses_iff.mp ht)] at h
    by_cases hc : committedDowngradeReplacement sub = true
    · rw [if_pos hc]
      exact ⟨_, rfl⟩
    · rw [if_neg hc]
      unfold applyTerminal
      cases hs : sub.status with
      | active =>
        have hcommitted : (tableInput sub entity invoices now).committed = true := by
          by_contra hn
          simp [hs, hn] at h
        simp [committedDowngradeReplacement, hs, tableInput] at hc hcommitted
        exact absurd hcommitted.2 (by simpa [hcommitted.1] using hc)
      | pastDue => simp [hs] at h
      | incomplete => exact ⟨_, rfl⟩
      | cancelled => exact ⟨_, rfl⟩
      | expired => exact ⟨_, rfl⟩
  · rw [if_neg ht]
    exact ⟨_, rfl⟩

theorem mapping_refresh
    (h : mapping (tableInput sub entity invoices now) sub.status status = .refresh) :
    status = "active" ∧ ∃ start stop, usablePeriod entity = some (start, stop) ∧
    samePeriod sub start := by
  by_cases ha : status = "active"
  · subst ha
    refine ⟨rfl, ?_⟩
    cases hp : usablePeriod entity with
    | none => simp [mapping, tableInput, hp] at h
    | some period =>
      obtain ⟨start, stop⟩ := period
      rw [mapping_active hp] at h
      split at h
      · rename_i hs
        exact ⟨start, stop, rfl, hs⟩
      · split at h <;> cases h
  · unfold mapping at h
    rw [if_neg ha] at h
    split at h
    · split at h <;> cases h
    · split at h
      · split at h
        · split at h <;> cases h
        · cases h
        · cases h
      · cases h

theorem statusOutcome_becomes (plan : Plan) {column : Status} (hchecks : sub.Checks)
    (h : mapping (tableInput sub entity invoices now) sub.status status = .becomes column) :
    (statusOutcome sub entity invoices plan status now).sub.status = column ∧
      (statusOutcome sub entity invoices plan status now).changed = true ∧
      ((statusOutcome sub entity invoices plan status now).advanced = true ↔ column = .active) := by
  unfold statusOutcome
  by_cases ha : status = "active"
  · subst ha
    rw [if_pos rfl]
    unfold activeOutcome
    cases hp : usablePeriod entity with
    | none => simp [mapping, tableInput, hp] at h
    | some period =>
      obtain ⟨start, stop⟩ := period
      rw [mapping_active hp] at h
      split at h
      · cases h
      · rename_i hs
        split at h
        · rename_i hpaid
          cases h
          have hn : ¬ (currentPeriodPaid entity invoices).isNone = true := by
            simpa [Option.isSome_iff_ne_none] using hpaid
          dsimp only
          rw [if_neg hs, if_neg hn]
          exact ⟨(activated_period ..).2.2, rfl, iff_of_true rfl rfl⟩
        · cases h
  rw [if_neg ha]
  unfold mapping at h
  rw [if_neg ha] at h
  by_cases hf : status ∈ failedProviderStatuses
  · rw [if_pos (failedProviderStatuses_iff.mp hf)] at h
    split at h
    · rename_i hactive
      cases h
      rw [if_pos hf]
      unfold failedOutcome
      rw [if_neg (not_not.mpr hactive)]
      exact ⟨rfl, rfl, by simp⟩
    · cases h
  rw [if_neg hf]
  rw [if_neg fun he => hf (failedProviderStatuses_iff.mpr he)] at h
  by_cases ht : status ∈ terminalProviderStatuses
  · rw [if_pos ht]
    rw [if_pos (terminalProviderStatuses_iff.mp ht)] at h
    cases hs : sub.status with
    | active =>
      have hcommitted : (tableInput sub entity invoices now).committed = false := by
        by_contra hn
        rw [Bool.not_eq_false] at hn
        simp [hs, hn] at h
      have hc : ¬ committedDowngradeReplacement sub = true := by
        simpa [committedDowngradeReplacement, hs, tableInput] using hcommitted
      rw [hs, hcommitted] at h
      cases h
      rw [if_neg hc]
      simp [terminalOutcome, ended, hs]
    | pastDue =>
      have hc : ¬ committedDowngradeReplacement sub = true := by
        simp [committedDowngradeReplacement, hs]
      obtain ⟨pastDueAt, hpast⟩ := Option.isSome_iff_exists.mp (hchecks.pastDueAt.mpr hs)
      rw [hs] at h
      rw [if_neg hc]
      have hcolumn : column = graceEnd pastDueAt now := by
        simp only [Cell.becomes.injEq, tableInput, hpast] at h
        rw [← h]
        simp [graceEnd]
      rw [hcolumn]
      simp [terminalOutcome, ended, hs, hpast, clearGrace, graceEnd_ne_active]
    | incomplete => simp [hs] at h
    | cancelled => simp [hs] at h
    | expired => simp [hs] at h
  · rw [if_neg fun he => ht (terminalProviderStatuses_iff.mpr he)] at h
    cases h

end TableInput

inductive SnapshotRefused (others : Others) (sub : Subscription) (entity : Dict)
    (invoices : Option (List Json)) (actor : Option ℕ) : Error → Prop
  | actor (named : actor ≠ none) : SnapshotRefused others sub entity invoices actor .actorNotMember
  | payment (invoice : Dict) (id : String) (paid : currentPeriodPaid entity invoices = some invoice)
      (name : attemptId invoice = some id) (long : 64 < id.toList.length) :
      SnapshotRefused others sub entity invoices actor .dataError
  | retired (ref : Ref) (held : sub.replacementProviderRef = some ref)
    (other : ref ∈ others.retiredRefs) :
      SnapshotRefused others sub entity invoices actor .integrityError
  | unread (ref : Ref) (held : sub.replacementProviderRef = some ref) :
      SnapshotRefused others sub entity invoices actor (.provider .notImplemented)

section Raises

variable {env : Env} {s : State} {sub : Subscription} {entity : Dict}
    {invoices : Option (List Json)}
  {plan : Plan} {actor : Option ℕ} {status : String} {started now : Time}

theorem currentPeriodPaid_attemptId {invoice : Dict}
    (h : currentPeriodPaid entity invoices = some invoice) :
    ∃ id, attemptId invoice = some id := by
  obtain ⟨_, _, _, _, _, _, _, hq⟩ := currentPeriodPaid_spec h
  obtain ⟨_, id, hid⟩ := qualifies_window hq
  exact ⟨id, (Option.filter_eq_some_iff.mp hid).1⟩

theorem recordPaid_refused {wasPastDue : Bool} :
    Program.wp env (recordPaid (currentPeriodPaid entity invoices) wasPastDue) (fun _ _ => True)
      (fun e _ => SnapshotRefused env.others sub entity invoices actor e) s := by
  apply Program.wp_mono recordPaid_ledger (fun _ _ _ => trivial)
  rintro e _ ⟨invoice, hpaid, hno | ⟨id, hname, hlong, rfl⟩⟩
  · obtain ⟨id, hid⟩ := currentPeriodPaid_attemptId hpaid
    rw [hno.1] at hid
    cases hid
  · exact .payment invoice id hpaid hname hlong

theorem audit_refused {action : AuditAction} {metadata : Dict} :
    Program.wp env (audit action actor metadata) (fun _ _ => True)
      (fun e _ => SnapshotRefused env.others sub entity invoices actor e) s := by
  apply Program.wp_mono audit_logged (fun _ _ _ => trivial)
  rintro e _ ⟨rfl, hactor⟩
  exact .actor hactor

theorem audit_system {action : AuditAction} {metadata : Dict} :
    Program.wp env (audit action none metadata) (fun _ _ => True) (fun _ _ => False) s :=
  Program.wp_mono audit_logged (fun _ _ _ => trivial) (fun _ _ h => h.2 rfl)

theorem applyActive_refused :
    Program.wp env (applyActive sub entity invoices plan actor none) (fun _ _ => True)
      (fun e _ => SnapshotRefused env.others sub entity invoices actor e) s := by
  have hchange : ∀ {c : Prop} [Decidable c] {old : Option ℕ} {t : State},
      Program.wp env
      (Program.whenever c (auditPlanChange actor sub.plan plan old none)) (fun _ _ => True)
        (fun e _ => SnapshotRefused env.others sub entity invoices actor e) t := by
    intro c _ old t
    exact (Program.wp_whenever _).mpr ⟨fun _ => audit_refused, fun _ => trivial⟩
  have hrest : ∀ {w : Bool} {r : Applied} {t : State},
      Program.wp env (do recordPaid (currentPeriodPaid entity invoices) w; pure r) (fun _ _ => True)
        (fun e _ => SnapshotRefused env.others sub entity invoices actor e) t :=
    Program.wp_bind_of recordPaid_refused (fun _ _ _ => trivial) (fun _ _ h => h)
  unfold applyActive
  cases usablePeriod entity with
  | none => trivial
  | some period =>
    dsimp only
    rw [Program.wp_ite]
    refine ⟨fun _ => Program.wp_bind_of hchange (fun _ _ _ => hrest) (fun _ _ h => h), fun _ => ?_⟩
    rw [Program.wp_ite]
    refine ⟨fun _ => trivial, fun _ => ?_⟩
    refine Program.wp_bind_of (P := fun _ _ => True) ?_ (fun _ _ _ => hrest) (fun _ _ h => h)
    unfold auditActivation
    rw [Program.wp_ite]
    refine ⟨fun _ => ?_, fun _ => hchange⟩
    exact Program.wp_bind_of audit_system (fun _ _ _ => hchange) (fun _ _ h => h.elim)

theorem abandonAfter_refused {r : Applied} {reason : String}
    (hr : r.sub.replacementProviderRef = sub.replacementProviderRef) :
    Program.wp env (abandonAfter r reason) (fun _ _ => True)
      (fun e _ => SnapshotRefused env.others sub entity invoices actor e) s := by
  unfold abandonAfter
  rw [Program.wp_ite]
  refine ⟨fun _ => ?_, fun _ => trivial⟩
  refine Program.wp_bind_of (P := fun _ _ => True) ?_ (fun _ _ _ => trivial) (fun _ _ h => h)
  unfold abandonUnlessActive
  rw [Program.wp_ite]
  refine ⟨fun _ => trivial, fun _ => ?_⟩
  refine Program.wp_bind_of (P := fun _ _ => True) ?_ (fun e t _ => ?_) (fun _ _ h => h)
  · unfold entityOrRefetch refetchReplacement
    cases href : r.sub.replacementProviderRef with
    | none => simp_all
    | some ref =>
      dsimp only
      rw [Program.wp_bind, wp_orNone, wp_razorpay]
      refine ⟨fun _ _ => trivial, fun failure _ => ⟨fun _ => trivial, fun hc => ?_⟩⟩
      cases failure with
      | notImplemented => exact .unread ref (hr ▸ href)
      | _ => cases hc
  · cases e with
    | none => trivial
    | some entity' =>
      dsimp only
      rw [Program.wp_ite]
      refine ⟨fun _ => trivial, fun _ => ?_⟩
      rw [Program.wp_ite]
      refine ⟨fun _ => trivial, fun _ => ?_⟩
      exact Program.wp_bind_of retireReplacement_returns (fun _ _ _ => trivial)
        (fun _ _ h => h.elim)

theorem applyTerminal_total (hchecks : sub.Checks) :
    Program.wp env (applyTerminal sub now) (fun r _ => r = terminalOutcome sub now)
    (fun _ _ => False) s := by
  have hsystem : Program.wp env (applyTerminal sub now) (fun _ _ => True) (fun _ _ => False) s := by
    unfold applyTerminal
    cases hs : sub.status with
    | active => exact Program.wp_bind_of audit_system (fun _ _ _ => trivial) (fun _ _ h => h)
    | pastDue =>
      obtain ⟨pastDueAt, hpast⟩ := Option.isSome_iff_exists.mp (hchecks.pastDueAt.mpr hs)
      rw [hpast]
      exact Program.wp_bind_of audit_system (fun _ _ _ => trivial) (fun _ _ h => h)
    | incomplete => trivial
    | cancelled => trivial
    | expired => trivial
  exact Program.wp_mono (Program.wp_and applyTerminal_spec hsystem) (fun _ _ h => h.1.1)
    (fun _ _ h => h.2)

theorem applyStatus_refused (hchecks : sub.Checks) :
    Program.wp env (applyStatus sub entity invoices plan actor status now) (fun _ _ => True)
      (fun e _ => SnapshotRefused env.others sub entity invoices actor e) s := by
  unfold applyStatus
  rw [Program.wp_ite]
  refine ⟨fun _ => applyActive_refused, fun _ => ?_⟩
  rw [Program.wp_ite]
  refine ⟨fun _ => ?_, fun _ => ?_⟩
  · refine Program.wp_bind_of (P := fun r _ => r = failedOutcome sub now)
      (F := fun _ _ => False) ?_ ?_
      (fun _ _ h => h.elim)
    · unfold applyPaymentFailed failedOutcome
      split
      · exact rfl
      · exact Program.wp_bind_of audit_system (fun _ _ _ => rfl) (fun _ _ h => h)
    · rintro _ t rfl
      apply abandonAfter_refused
      unfold failedOutcome
      split <;> rfl
  · rw [Program.wp_ite]
    refine ⟨fun _ => ?_, fun _ => trivial⟩
    rw [Program.wp_ite]
    refine ⟨fun _ => trivial, fun _ => ?_⟩
    refine Program.wp_bind_of (P := fun r _ => r = terminalOutcome sub now)
      (F := fun _ _ => False) ?_ ?_
      (fun _ _ h => h.elim)
    · exact applyTerminal_total hchecks
    · rintro _ t rfl
      apply abandonAfter_refused
      unfold terminalOutcome
      split
      · exact (ended_slots sub now).replacement
      · rfl

theorem SameSlots.not_clash {sub' : Subscription} {others : Others} (h : SameSlots sub sub') :
    ¬ others.clash (some sub) sub' := by
  rintro (⟨ref, href, -, hne⟩ | ⟨ref, href, -, hne⟩ | ⟨ref, href, -, hne⟩)
  · exact hne (h.payment.symm.trans href)
  · exact hne (h.replacement.symm.trans href)
  · exact hne (h.retired.symm.trans href)

theorem saveSubscription_total {sub' : Subscription} (hsub : s.data.sub? = some sub)
    (hchecks : sub'.Checks) (hslots : SameSlots sub sub') :
    Program.wp env (saveSubscription sub')
      (fun _ t => t.data.sub? = some sub' ∧
        t.data = { s.data with subscription := t.data.subscription })
      (fun _ _ => False) s := by
  rw [wp_saveSubscription]
  refine ⟨fun _ _ => ⟨rfl, rfl⟩, fun hno => hno ⟨hchecks, ?_⟩⟩
  rw [hsub]
  exact hslots.not_clash

theorem stamped_slots (sub : Subscription) : SameSlots sub (stamped sub status started) :=
  ⟨rfl, rfl, rfl, rfl⟩

theorem wp_applySnapshot {Q : SnapshotResult → State → Prop} {E : Error → State → Prop}
    (hsub : s.data.sub? = some sub) (ha : Accepts env.settings sub entity started plan status) :
    Program.wp env (applySnapshot entity invoices started actor) Q E s ↔
      Program.wp env
        (do
          let r ← applyStatus sub entity invoices plan actor status
            (env.oracle.clock s.journal.ticks)
          storeSnapshot r status started)
        Q (fun e t => E e ⟨s.data, t.journal⟩) s.tick := by
  unfold applySnapshot snapshotLocked
  have hstr : (entity.get "status").str? = some status := Json.str?_eq_some.mpr ha.status
  rw [Program.wp_savepoint, Program.wp_bind, wp_lockSubscription]
  simp only [hsub, Option.some.injEq, forall_eq', reduceCtorEq, false_implies,
    and_true, Program.wp_bind,
    wp_timezoneNow, Program.wp_ask, ha.names, ha.newer, ha.plan, hstr, Bool.true_eq_false, if_false]

theorem storeSnapshot_kept {r : Applied} (hr : r.advanced = false) (hsub : s.data.sub? = some sub)
    (hchecks : r.sub.Checks) (hslots : SameSlots sub r.sub) :
    Program.wp env (storeSnapshot r status started)
      (fun result t => result = ⟨r.changed, r.settled⟩ ∧
        t.data.sub? = some (stamped r.sub status started) ∧
        t.data = { s.data with subscription := t.data.subscription })
      (fun _ _ => False) s := by
  unfold storeSnapshot
  refine Program.wp_bind_of (saveSubscription_total hsub (stamped_checks hchecks _ _)
    (hslots.trans (stamped_slots r.sub))) ?_ (fun _ _ h => h)
  rintro _ t ⟨hstored, hdata⟩
  rw [Program.wp_bind, Program.wp_whenever]
  exact ⟨fun h => absurd h (by simp [hr]), fun _ => ⟨rfl, hstored, hdata⟩⟩

theorem holds_noChange (hsub : s.data.sub? = some sub)
    (ha : Accepts env.settings sub entity started plan status)
    (hcell : mapping (tableInput sub entity invoices (env.oracle.clock s.journal.ticks))
      sub.status status = .noChange) :
    Program.wp env (applySnapshot entity invoices started actor)
      (fun r t => Cell.noChange.Holds env.others sub entity invoices plan status started
      r.changed s.data t.data)
      (fun _ _ => False) s := by
  obtain ⟨settled, hpure⟩ := applyStatus_noChange plan actor hcell
  have hstore : Program.wp env
      (storeSnapshot ⟨sub, false, settled, false⟩ status started) _ _ s.tick :=
    storeSnapshot_kept rfl hsub (Database.checks hsub) (.refl sub)
  rw [wp_applySnapshot hsub ha, hpure, Program.wp_bind, Program.wp_pure]
  apply Program.wp_mono hstore
  · rintro _ t ⟨rfl, hstored, hdata⟩
    exact ⟨hstored, hdata, rfl⟩
  · exact fun _ _ h => h

theorem refreshedColumns_slots : SameSlots sub (refreshedColumns sub plan) := ⟨rfl, rfl, rfl, rfl⟩

theorem holds_refresh (hsub : s.data.sub? = some sub)
    (ha : Accepts env.settings sub entity started plan status)
    (hcell : mapping (tableInput sub entity invoices (env.oracle.clock s.journal.ticks))
      sub.status status = .refresh) :
    Program.wp env (applySnapshot entity invoices started actor)
      (fun r t => Cell.refresh.Holds env.others sub entity invoices plan status started
      r.changed s.data t.data)
      (fun e _ => SnapshotRefused env.others sub entity invoices actor e) s := by
  obtain ⟨rfl, start, stop, hp, hsame⟩ := mapping_refresh hcell
  rw [wp_applySnapshot hsub ha, Program.wp_bind]
  have hrefused : Program.wp env (applyStatus sub entity invoices plan actor "active"
      (env.oracle.clock s.journal.ticks)) _ _ s.tick := applyStatus_refused (Database.checks hsub)
  have hwrites : Program.wp env (applyStatus sub entity invoices plan actor "active"
      (env.oracle.clock s.journal.ticks))
      (fun r t => (r.sub = refreshedColumns sub plan ∧ r.advanced = false) ∧
        t.data = { s.data with payments := t.data.payments, audits := t.data.audits } ∧
        (if sub.plan.pk = plan.pk then t.data.audits = s.data.audits
          else ∃ row, row.action = .planChanged ∧ t.data.audits = s.data.audits ++ [row]) ∧
        RecordedPaid env.others (currentPeriodPaid entity invoices) false
        s.data.payments t.data.payments)
      (fun _ _ => True) s.tick := by
    have hpast : decide (sub.status = .pastDue) = false := by simp [hsame.1]
    unfold applyStatus applyActive
    rw [if_pos rfl, hp]
    dsimp only
    rw [if_pos hsame, hpast, refreshed_columns]
    refine Program.wp_bind_of (F := fun _ _ => True) (P := fun _ t => Logged s.tick t ∧
      t.data.payments = s.data.payments ∧
      if sub.plan.pk = plan.pk then t.data.audits = s.data.audits
        else ∃ row, row.action = .planChanged ∧ t.data.audits = s.data.audits ++ [row]) ?_ ?_
      (fun _ _ h => h)
    · rw [Program.wp_whenever]
      refine ⟨fun hne => ?_, fun heq => ⟨.refl _, rfl, ?_⟩⟩
      · apply Program.wp_mono audit_logged
        · rintro _ t ⟨hlog, hpay, haud⟩
          rw [if_neg hne]
          exact ⟨hlog, hpay, _, rfl, haud⟩
        · exact fun _ _ _ => trivial
      · rw [if_pos (not_not.mp heq)]
        rfl
    · rintro _ t ⟨hlog, hpay, haud⟩
      refine Program.wp_bind_of (F := fun _ _ => True) (Program.wp_mono recordPaid_ledger
        (fun _ _ h => h) (fun _ _ _ => trivial)) ?_ (fun _ _ h => h)
      rintro _ u ⟨hlog', haud', hrec⟩
      refine ⟨⟨rfl, rfl⟩, (hlog.trans hlog').data, ?_, hpay ▸ hrec⟩
      rw [haud']
      exact haud
  apply Program.wp_mono (Program.wp_and hwrites hrefused)
  · rintro r t ⟨⟨⟨hrow, hadv⟩, hdata, haud, hrec⟩, -⟩
    have hslots : SameSlots sub r.sub := hrow ▸ refreshedColumns_slots
    have hchecks : r.sub.Checks := by
      rw [hrow, ← refreshed_columns]
      exact refreshed_checks (Database.checks hsub) plan
    have hsub' : t.data.sub? = some sub := by
      rw [hdata]
      exact hsub
    apply Program.wp_mono (storeSnapshot_kept hadv hsub' hchecks hslots)
    · rintro _ u ⟨-, hstored, hu⟩
      have hpay : u.data.payments = t.data.payments := by rw [hu]
      have haudits : u.data.audits = t.data.audits := by rw [hu]
      refine ⟨hrow ▸ hstored, by rw [hu, hdata], by rw [hu, hdata], ?_, ?_⟩
      · rw [haudits]
        exact haud
      · rw [hpay]
        exact hrec
    · exact fun _ _ h => h.elim
  · exact fun _ _ h => h.2

/-- The save of a moved row is refused only where another merchant has retired its replacement. -/
theorem storeSnapshot_refused {calls : List Call} {outcome r : Applied}
    (hsub : s.data.sub? = some sub)
    (hslots : SameSlots sub outcome.sub) (hchecks : outcome.sub.Checks)
    (hrow : StatusRow calls outcome r.sub)
    (hperiod : r.advanced = true → ∃ start stop, r.sub.currentPeriodStart = some start ∧
      r.sub.currentPeriodEnd = some stop) :
    Program.wp env (storeSnapshot r status started) (fun _ _ => True)
      (fun e _ => SnapshotRefused env.others sub entity invoices actor e) s := by
  have hrow_checks : r.sub.Checks := by
    rcases hrow with h | ⟨-, -, -, h⟩
    · rw [h]
      exact hchecks
    · exact h.checks hchecks
  unfold storeSnapshot
  rw [Program.wp_bind, wp_saveSubscription]
  refine ⟨fun _ _ => ?_, fun hno => ?_⟩
  · rw [Program.wp_bind, Program.wp_whenever]
    refine ⟨fun hadv => ?_, fun _ => trivial⟩
    obtain ⟨start, stop, hstart, hstop⟩ := hperiod hadv
    have horder : start < stop := hrow_checks.periodOrder start hstart stop hstop
    rw [Program.wp_bind]
    unfold resetUsagePeriod
    rw [Program.wp_query]
    have hs : (stamped r.sub status started).currentPeriodStart = some start := hstart
    have he : (stamped r.sub status started).currentPeriodEnd = some stop := hstop
    simp only [hs, he]
    cases Database.usageFor _ start stop with
    | some record => exact ⟨fun _ _ => trivial, by simp⟩
    | none =>
      dsimp only
      rw [if_pos horder]
      exact ⟨fun _ _ => trivial, by simp⟩
  · rw [hsub] at hno
    rcases hrow with h | ⟨-, -, -, _, target, -, -, -, h⟩
    · have hkept : SameSlots sub (stamped r.sub status started) :=
        (h ▸ hslots : SameSlots sub r.sub).trans (stamped_slots r.sub)
      exact absurd ⟨stamped_checks hrow_checks _ _, hkept.not_clash⟩ hno
    · have hclash : env.others.clash (some sub) (stamped r.sub status started) := by
        by_contra hn
        exact hno ⟨stamped_checks hrow_checks _ _, hn⟩
      rcases hclash with ⟨ref, href, -, hne⟩ | ⟨ref, href, -, -⟩ | ⟨ref, href, hother, -⟩
      · have hpay : r.sub.paymentProviderRef = sub.paymentProviderRef := by
          rw [h]
          exact hslots.payment
        exact absurd (hpay.symm.trans href) hne
      · change r.sub.replacementProviderRef = some ref at href
        rw [h] at href
        cases href
      · change r.sub.retiredProviderRef = some ref at href
        rw [h] at href
        exact .retired ref (hslots.replacement.symm.trans href) hother

theorem holds_becomes {column : Status} (hsub : s.data.sub? = some sub)
    (ha : Accepts env.settings sub entity started plan status)
    (hcell : mapping (tableInput sub entity invoices (env.oracle.clock s.journal.ticks))
      sub.status status = .becomes column) :
    Program.wp env (applySnapshot entity invoices started actor)
      (fun r t => (Cell.becomes column).Holds env.others sub entity invoices plan status started
      r.changed s.data t.data)
      (fun e _ => SnapshotRefused env.others sub entity invoices actor e) s := by
  have hchecks := Database.checks hsub
  obtain ⟨hstatus, hchanged, hadvanced⟩ := statusOutcome_becomes plan hchecks hcell
  rw [wp_applySnapshot hsub ha]
  have hledger : Program.returns env (applyStatus sub entity invoices plan actor status
      (env.oracle.clock s.journal.ticks)) (fun r t => status = "active" →
        r = activeOutcome sub entity invoices plan ∧
        ActiveRecorded env.others sub entity invoices s.data.payments t.data.payments) s.tick := by
    by_cases hactive : status = "active"
    · unfold applyStatus
      rw [if_pos hactive]
      exact Program.returns_mono applyActive_ledger fun _ _ h _ => ⟨h.1, h.2.2⟩
    · exact Program.wp_mono (Program.wp_run _) (fun _ _ _ h => absurd h hactive)
        (fun _ _ _ => trivial)
  refine Program.wp_bind_of
    (Program.wp_and (Program.wp_and applyStatus_spec (applyStatus_refused hchecks))
    hledger) ?_ (fun _ _ h => h.1.2)
  rintro r t ⟨⟨⟨hrow, hresult, hbeside⟩, -⟩, hactive_ledger⟩
  have hsub' : t.data.sub? = some sub := by
    unfold Database.sub?
    rw [hbeside.sub]
    exact hsub
  have hadv : r.advanced = true ↔ column = .active := by
    rw [hresult]
    exact hadvanced
  have hcolumns : r.sub.status = column ∧ r.sub.paymentProviderRef = sub.paymentProviderRef ∧
      r.sub.currentPeriodStart =
        (statusOutcome sub entity invoices plan status
        (env.oracle.clock s.journal.ticks)).sub.currentPeriodStart ∧
      r.sub.currentPeriodEnd =
        (statusOutcome sub entity invoices plan status
        (env.oracle.clock s.journal.ticks)).sub.currentPeriodEnd := by
    rcases hrow with h | ⟨-, -, -, _, _, -, -, -, h⟩
    · rw [h]
      exact ⟨hstatus, (statusOutcome_slots ..).payment, rfl, rfl⟩
    · rw [h]
      exact ⟨hstatus, (statusOutcome_slots ..).payment, rfl, rfl⟩
  have hperiod : r.advanced = true → ∃ start stop, usablePeriod entity = some (start, stop) ∧
      r.sub.currentPeriodStart = some start ∧ r.sub.currentPeriodEnd = some stop := by
    intro h
    rw [hresult] at h
    obtain ⟨-, start, stop, hp, -, -, ho⟩ := statusOutcome_advanced h
    rw [hcolumns.2.2.1, hcolumns.2.2.2, ho]
    exact ⟨start, stop, hp, (activated_period ..).1, (activated_period ..).2.1⟩
  have hbounds : r.advanced = true → ∃ start stop, r.sub.currentPeriodStart = some start ∧
      r.sub.currentPeriodEnd = some stop := by
    intro h
    obtain ⟨start, stop, -, hs⟩ := hperiod h
    exact ⟨start, stop, hs⟩
  apply Program.wp_mono (Program.wp_and (Program.wp_and (storeSnapshot_spec hbounds)
    (storeSnapshot_refused hsub' (statusOutcome_slots ..)
      (statusOutcome_checks hchecks ..) hrow hbounds))
    ((apart_payments.storeSnapshot r _ _).wp env t))
  · rintro result u ⟨⟨⟨rfl, hstored, -, husage⟩, -⟩, hpayments⟩
    refine ⟨r.sub, hstored, hcolumns.1, hcolumns.2.1, by rw [hresult]; exact hchanged, ?_⟩
    split
    · rename_i hactive
      rw [if_pos (hadv.mpr hactive)] at husage
      obtain ⟨start, stop, hp, hs, he⟩ := hperiod (hadv.mpr hactive)
      obtain ⟨start', stop', hs', he', hopen⟩ := husage
      rw [hs] at hs'
      rw [he] at he'
      cases hs'
      cases he'
      rw [hbeside.usage] at hopen
      have hadv' := hadv.mpr hactive
      rw [hresult] at hadv'
      obtain ⟨hstatus', start', stop', hp', -, -, ho⟩ := statusOutcome_advanced hadv'
      rw [hp] at hp'
      cases hp'
      obtain ⟨hr, hrecorded⟩ := hactive_ledger hstatus'
      have hrow' : r.sub = activated sub plan start stop := by
        rw [← ho, hr, statusOutcome, if_pos hstatus']
      refine ⟨start, stop, hp, hrow', hopen, ?_⟩
      rw [hpayments]
      exact hrecorded.usable (by simp [hp])
    · rename_i hactive
      have hstays : r.advanced ≠ true := fun h => hactive (hadv.mp h)
      rw [if_neg hstays] at husage
      have hkept : NotEntitled sub
          (statusOutcome sub entity invoices plan status
              (env.oracle.clock s.journal.ticks)).sub := by
        apply statusOutcome_notEntitled
        rw [hresult] at hstays
        simpa using hstays
      rw [hcolumns.2.2.1, hcolumns.2.2.2]
      exact ⟨hkept.start, hkept.stop, husage.trans hbeside.usage⟩
  · exact fun _ _ h => h.1.2

theorem snapshot_holds (env : Env) (s : State) (sub : Subscription) (entity : Dict)
    (invoices : Option (List Json)) (plan : Plan) (actor : Option ℕ)
    (status : String) (started : Time)
    (hsub : s.data.sub? = some sub) (ha : Accepts env.settings sub entity started plan status) :
    Program.wp env (applySnapshot entity invoices started actor)
      (fun r t =>
        (mapping (tableInput sub entity invoices (env.oracle.clock s.journal.ticks)) sub.status
          status).Holds env.others sub entity invoices plan status started r.changed s.data t.data)
      (fun e _ => SnapshotRefused env.others sub entity invoices actor e) s := by
  cases hcell : mapping (tableInput sub entity invoices (env.oracle.clock s.journal.ticks))
      sub.status status with
  | noChange =>
    exact Program.wp_mono (holds_noChange hsub ha hcell) (fun _ _ h => h) (fun _ _ h => h.elim)
  | refresh => exact holds_refresh hsub ha hcell
  | becomes column => exact holds_becomes hsub ha hcell

/-- The snapshot step does what the table says for the locked row, or raises for one of four reasons
and leaves the data. -/
theorem snapshot_follows_table (env : Env) (s : State) (sub : Subscription) (entity : Dict)
    (invoices : Option (List Json)) (plan : Plan) (actor : Option ℕ)
    (status : String) (started : Time)
    (hsub : s.data.sub? = some sub) (ha : Accepts env.settings sub entity started plan status) :
    Program.wp env (applySnapshot entity invoices started actor)
      (fun r t =>
        (mapping (tableInput sub entity invoices (env.oracle.clock s.journal.ticks)) sub.status
          status).Holds env.others sub entity invoices plan status started r.changed s.data t.data)
      (fun e t => t.data = s.data ∧ SnapshotRefused env.others sub entity invoices actor e) s := by
  have hrestored : Program.wp env (applySnapshot entity invoices started actor) (fun _ _ => True)
      (fun _ t => t.data = s.data) s := Program.savepoint_raises _
  have hholds := snapshot_holds env s sub entity invoices plan actor status started hsub ha
  exact Program.wp_mono (Program.wp_and hrestored hholds) (fun _ _ h => h.2) (fun _ _ h => h)

end Raises

def awaitingSub : Subscription :=
  { plan := starter, status := .incomplete, paymentProviderRef := some refA }

/-- A first subscription that the provider reports active and paid. -/
theorem snapshot_follows_table_activates :
    (mapping (tableInput awaitingSub (entityOf "sub_a" "plan_s" "active" 1000 2000)
      (some [invoiceOf "sub_a" "pay_1" 1000 2000]) (seconds 1500)) .incomplete "active" =
        .becomes .active) ∧
    Program.wp paidEnv
      (applySnapshot (entityOf "sub_a" "plan_s" "active" 1000 2000)
        (some [invoiceOf "sub_a" "pay_1" 1000 2000]) (seconds 1500) none)
      (fun r t => (Cell.becomes .active).Holds paidEnv.others awaitingSub
      (entityOf "sub_a" "plan_s" "active" 1000 2000)
        (some [invoiceOf "sub_a" "pay_1" 1000 2000]) starter "active" (seconds 1500) r.changed
        awaitingPayment t.data)
      (fun e t => t.data = awaitingPayment ∧ SnapshotRefused paidEnv.others awaitingSub
        (entityOf "sub_a" "plan_s" "active" 1000 2000)
        (some [invoiceOf "sub_a" "pay_1" 1000 2000]) none e)
      ⟨awaitingPayment, .empty⟩ := by
  have hcell : mapping (tableInput awaitingSub (entityOf "sub_a" "plan_s" "active" 1000 2000)
      (some [invoiceOf "sub_a" "pay_1" 1000 2000]) (seconds 1500)) .incomplete "active" =
        .becomes .active := by decide
  have h := snapshot_follows_table paidEnv ⟨awaitingPayment, .empty⟩ awaitingSub
    (entityOf "sub_a" "plan_s" "active" 1000 2000)
      (some [invoiceOf "sub_a" "pay_1" 1000 2000]) starter none
    "active" (seconds 1500) rfl ⟨by decide, by decide, rfl, rfl⟩
  have hnow : paidEnv.oracle.clock Journal.empty.ticks = seconds 1500 := rfl
  refine ⟨hcell, Program.wp_mono h ?_ (fun _ _ h => h)⟩
  rw [hnow]
  exact fun _ _ hr => hcell ▸ hr

end ReviewFlow.Billing
