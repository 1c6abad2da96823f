import ReviewFlow.Billing.MappingTable

/-!
# A snapshot applied again

After a snapshot step has committed, its cell of the table is one that changes nothing, or the
refresh of a plan and a payment that are there. So the same snapshot with a later fetch time
writes that time alone, and with no later one nothing.
-/

namespace ReviewFlow.Billing

open Savepoint

section Mapping

variable {x y : TableInput} {column column' : Status} {reported : String}

theorem mapping_noChange (h : mapping x column reported = .noChange) (graceOver : Bool) :
    mapping { x with graceOver := graceOver } column reported = .noChange := by
  unfold mapping at h ⊢
  by_cases ha : reported = "active"
  · rw [if_pos ha] at h ⊢
    exact h
  rw [if_neg ha] at h ⊢
  by_cases hf : reported = "pending" ∨ reported = "halted"
  · rw [if_pos hf] at h ⊢
    exact h
  rw [if_neg hf] at h ⊢
  by_cases ht : reported = "cancelled" ∨ reported = "completed" ∨ reported = "expired"
  · rw [if_pos ht] at h ⊢
    cases column with
    | pastDue => cases h
    | _ => exact h
  · rw [if_neg ht]

theorem mapping_becomes (h : mapping x column reported = .becomes column')
    (hne : column' ≠ .active) :
    mapping y column' reported = .noChange := by
  unfold mapping at h ⊢
  by_cases ha : reported = "active"
  · rw [if_pos ha] at h
    split at h
    · cases h
    · split at h
      · cases h
      · split at h
        · cases h
          exact absurd rfl hne
        · cases h
  rw [if_neg ha] at h ⊢
  by_cases hf : reported = "pending" ∨ reported = "halted"
  · rw [if_pos hf] at h ⊢
    rw [if_neg hne]
  rw [if_neg hf] at h ⊢
  by_cases ht : reported = "cancelled" ∨ reported = "completed" ∨ reported = "expired"
  · rw [if_pos ht] at h ⊢
    have hended : column'.Ended := by
      cases column with
      | active =>
        dsimp only at h
        split at h
        · cases h
        · cases h
          exact Or.inl rfl
      | pastDue =>
        cases h
        split
        · exact Or.inr rfl
        · exact Or.inl rfl
      | _ => cases h
    rcases hended with rfl | rfl <;> rfl
  · rw [if_neg ht] at h
    cases h

theorem mapping_active_reported (h : mapping x column reported = .becomes .active) :
    reported = "active" := by
  unfold mapping at h
  by_contra ha
  rw [if_neg ha] at h
  split at h
  · split at h <;> cases h
  · split at h
    · cases column with
      | active =>
        dsimp only at h
        split at h <;> cases h
      | pastDue =>
        dsimp only at h
        split at h <;> cases h
      | _ => cases h
    · cases h

end Mapping

section Again

variable {env : Env} {s : State} {sub stored : Subscription} {entity : Dict}
    {invoices : Option (List Json)}
  {plan : Plan} {actor : Option ℕ} {status : String} {started : Time}

def resynced (stored : Subscription) (started : Time) : Subscription :=
  { stored with providerSyncedAt := some started }

theorem stamped_again (h : stored.providerStatus = some (takeChars 16 status)) (started : Time) :
    stamped stored status started = resynced stored started := by
  unfold stamped resynced
  rw [← h]

structure OnlyResynced (stored : Subscription) (started : Time) (r : SnapshotResult)
    (db db' : Database) :
    Prop where
  unchanged : r.changed = false
  row : db'.sub? = some (resynced stored started)
  data : db' = { db with subscription := db'.subscription }

theorem again_noChange (hsub : s.data.sub? = some stored)
    (ha : Accepts env.settings stored entity started plan status)
    (hstatus : stored.providerStatus = some (takeChars 16 status))
    (hcell : ∀ now,
      mapping (tableInput stored entity invoices now) stored.status status = .noChange) :
    Program.wp env (applySnapshot entity invoices started actor)
      (fun r t => OnlyResynced stored started r s.data t.data) (fun _ _ => False) s := by
  apply Program.wp_mono (holds_noChange hsub ha (hcell _))
  · rintro r t ⟨hrow, hdata, hchanged⟩
    exact ⟨hchanged, stamped_again hstatus started ▸ hrow, hdata⟩
  · exact fun _ _ h => h

theorem again_refresh {start stop : Time} {wasPastDue : Bool} {before : List PaymentAttempt}
    (hsub : s.data.sub? = some stored)
    (ha : Accepts env.settings stored entity started plan "active")
    (hstatus : stored.providerStatus = some (takeChars 16 "active"))
    (hp : usablePeriod entity = some (start, stop)) (hsame : samePeriod stored start)
    (hplan : stored.plan.pk = plan.pk) (hpending : stored.pendingPlan.map (·.pk) ≠ some plan.pk)
    (hledger : RecordedPaid env.others (currentPeriodPaid entity invoices) wasPastDue before
    s.data.payments) :
    Program.wp env (applySnapshot entity invoices started actor)
      (fun r t => OnlyResynced stored started r s.data t.data) (fun _ _ => False) s := by
  have hrefreshed : refreshed stored plan = stored := by
    unfold refreshed
    dsimp only
    rw [if_neg (not_not.mpr hplan), if_neg hpending]
  have hledger' : RecordedPaid env.others (currentPeriodPaid entity invoices) wasPastDue before
    s.tick.data.payments := hledger
  rw [wp_applySnapshot hsub ha, Program.wp_bind]
  unfold applyStatus applyActive
  rw [if_pos rfl, hp]
  dsimp only
  rw [if_pos hsame, hrefreshed, Program.wp_bind, Program.wp_whenever]
  refine ⟨fun hne => absurd hplan hne, fun _ => ?_⟩
  refine Program.wp_bind_of (recordPaid_again hledger') ?_ (fun _ _ h => h)
  rintro _ _ rfl
  have hsub' : s.tick.data.sub? = some stored := hsub
  apply Program.wp_mono (storeSnapshot_kept rfl hsub' (Database.checks hsub) (.refl stored))
  · rintro _ t ⟨rfl, hrow, hdata⟩
    exact ⟨by simp [hplan, hpending], stamped_again hstatus started ▸ hrow, hdata⟩
  · exact fun _ _ h => h

theorem applySnapshot_dropped (hsub : s.data.sub? = some sub)
    (h : ∀ plan status, ¬ Accepts env.settings sub entity started plan status) :
    Program.wp env (applySnapshot entity invoices started actor)
      (fun r t => r = ⟨false, false⟩ ∧ t.data = s.data) (fun _ _ => False) s := by
  unfold applySnapshot snapshotLocked
  rw [Program.wp_savepoint, Program.wp_bind, wp_lockSubscription]
  refine ⟨fun sub' hsub' => ?_, fun hnone => by rw [hsub] at hnone; cases hnone⟩
  rw [hsub] at hsub'
  cases hsub'
  rw [Program.wp_bind, wp_timezoneNow, Program.wp_bind, Program.wp_ask, Program.wp_ite]
  refine ⟨fun _ => ⟨rfl, rfl⟩, fun hnames => ?_⟩
  rw [Program.wp_ite]
  refine ⟨fun _ => ⟨rfl, rfl⟩, fun hnewer => ?_⟩
  split
  · rename_i plan status hplan hstatus
    refine absurd ⟨?_, ?_, hplan, Json.str?_eq_some.mp hstatus⟩ (h plan status)
    · simpa using hnames
    · simpa using hnewer
  · exact ⟨rfl, rfl⟩

theorem takePlan_settles (sub : Subscription) (plan : Plan) (period : Option (Time × Time)) :
    (takePlan sub plan (sub.pendingPlan.map (·.pk)) period).plan = plan ∧
      (takePlan sub plan (sub.pendingPlan.map (·.pk)) period).pendingPlan.map
      (·.pk) ≠ some plan.pk := by
  have hpending :
    (if sub.pendingPlan.map (·.pk) = some plan.pk then none else sub.pendingPlan).map (·.pk) ≠
      some plan.pk := by
    split
    · simp
    · assumption
  unfold takePlan
  cases period with
  | none => exact ⟨rfl, hpending⟩
  | some _ => exact ⟨rfl, hpending⟩

theorem activated_settles (sub : Subscription) (plan : Plan) (start stop : Time) :
    (activated sub plan start stop).plan = plan ∧
      (activated sub plan start stop).pendingPlan.map (·.pk) ≠ some plan.pk := by
  unfold activated
  split
  · exact takePlan_settles sub plan _
  · split
    · exact takePlan_settles sub plan _
    · exact takePlan_settles sub plan _

theorem refreshedColumns_settles (sub : Subscription) (plan : Plan) :
    (refreshedColumns sub plan).plan.pk = plan.pk ∧
      (refreshedColumns sub plan).pendingPlan.map (·.pk) ≠ some plan.pk := by
  constructor
  · unfold refreshedColumns
    dsimp only
    split
    · assumption
    · rfl
  · unfold refreshedColumns
    dsimp only
    split
    · simp
    · assumption

theorem Accepts.again {settings : Settings} {started' : Time}
    (ha : Accepts settings sub entity started plan status)
    (hpayment : stored.paymentProviderRef = sub.paymentProviderRef)
    (hsynced : stored.providerSyncedAt = some started) (hlater : started < started') :
    Accepts settings stored entity started' plan status := by
  refine ⟨?_, ?_, ha.plan, ha.status⟩
  · have hnames := ha.names
    unfold namesMain at *
    rwa [hpayment]
  · unfold ReviewFlow.Billing.newer
    rw [hsynced]
    exact decide_eq_true hlater

theorem reapplied {env' : Env} {t : State} {started' : Time} {actor' : Option ℕ}
    {changed : Bool} {now : Time}
    (hsettings : env'.settings = env.settings) (hothers : env'.others = env.others)
    (ha : Accepts env.settings sub entity started plan status)
    (hfirst : (mapping (tableInput sub entity invoices now) sub.status status).Holds env.others
    sub entity invoices
      plan status started changed s.data t.data) (hlater : started < started') :
    ∃ stored, t.data.sub? = some stored ∧
      Program.wp env' (applySnapshot entity invoices started' actor')
        (fun r u => OnlyResynced stored started' r t.data u.data) (fun _ _ => False) t := by
  cases hcell : mapping (tableInput sub entity invoices now) sub.status status with
  | noChange =>
    rw [hcell] at hfirst
    obtain ⟨hrow, -, -⟩ := hfirst
    have ha' : Accepts env'.settings (stamped sub status started) entity started' plan status := by
      rw [hsettings]
      exact ha.again rfl rfl hlater
    refine ⟨_, hrow, again_noChange hrow ha' rfl fun now' => ?_⟩
    exact mapping_noChange hcell (tableInput sub entity invoices now').graceOver
  | refresh =>
    obtain ⟨rfl, start, stop, hp, hsame⟩ := mapping_refresh hcell
    rw [hcell] at hfirst
    obtain ⟨hrow, -, -, -, hledger⟩ := hfirst
    obtain ⟨hplan, hpending⟩ := refreshedColumns_settles sub plan
    have ha' : Accepts env'.settings (stamped (refreshedColumns sub plan) "active" started)
      entity started' plan
        "active" := by
      rw [hsettings]
      exact ha.again rfl rfl hlater
    exact ⟨_, hrow, again_refresh hrow ha' rfl hp hsame hplan hpending (hothers ▸ hledger)⟩
  | becomes column =>
    rw [hcell] at hfirst
    obtain ⟨sub', hrow, hstatus, hpayment, -, hrest⟩ := hfirst
    have ha' : Accepts env'.settings (stamped sub' status started) entity started' plan status := by
      rw [hsettings]
      exact ha.again hpayment rfl hlater
    by_cases hactive : column = .active
    · rw [if_pos hactive] at hrest
      obtain ⟨start, stop, hp, rfl, -, hledger⟩ := hrest
      subst hactive
      obtain rfl := mapping_active_reported hcell
      obtain ⟨hplan, hpending⟩ := activated_settles sub plan start stop
      have hsame : samePeriod (activated sub plan start stop) start :=
        ⟨(activated_period ..).2.2, (activated_period ..).1⟩
      exact ⟨_, hrow, again_refresh hrow ha' rfl hp hsame (congrArg Plan.pk hplan) hpending
        (hothers ▸ hledger)⟩
    · refine ⟨_, hrow, again_noChange hrow ha' rfl fun now' => ?_⟩
      have hsettled :=
        mapping_becomes (y := tableInput (stamped sub' status started) entity invoices now') hcell
        hactive
      rw [← hstatus] at hsettled
      exact hsettled

theorem Cell.Holds.synced {others : Others} {changed : Bool} {db db' : Database} {cell : Cell}
    (h : cell.Holds others sub entity invoices plan status started changed db db') :
    ∃ stored, db'.sub? = some stored ∧ stored.providerSyncedAt = some started := by
  cases cell with
  | noChange => exact ⟨_, h.1, rfl⟩
  | refresh => exact ⟨_, h.1, rfl⟩
  | becomes column =>
    obtain ⟨sub', hrow, -⟩ := h
    exact ⟨_, hrow, rfl⟩

theorem newer_mono {started' : Time} (hle : started' ≤ started) (h : newer sub started' = true) :
    newer sub started = true := by
  unfold newer at *
  cases hs : sub.providerSyncedAt with
  | none => rfl
  | some synced =>
    rw [hs] at h
    exact decide_eq_true (lt_of_lt_of_le (of_decide_eq_true h) hle)

/-- A step that returns has found a row, and either let the snapshot through or left everything. -/
theorem applySnapshot_returned {r : SnapshotResult} {t : State}
    (hrun : (applySnapshot entity invoices started actor).run env s = (.ok r, t)) :
    ∃ sub, s.data.sub? = some sub ∧
      ((∃ plan status, Accepts env.settings sub entity started plan status ∧
        (mapping (tableInput sub entity invoices (env.oracle.clock s.journal.ticks))
        sub.status status).Holds
          env.others sub entity invoices plan status started r.changed s.data t.data) ∨
      ((∀ plan status, ¬ Accepts env.settings sub entity started plan status) ∧
        t.data = s.data)) := by
  cases hsub : s.data.sub? with
  | none =>
    have hraises : Program.wp env (applySnapshot entity invoices started actor) (fun _ _ => False)
        (fun _ _ => True) s := by
      unfold applySnapshot
      rw [Program.wp_savepoint, Program.wp_bind, wp_lockSubscription, hsub]
      exact ⟨fun _ h => (nomatch h), fun _ => trivial⟩
    exact (Program.wp_ok hraises hrun).elim
  | some sub =>
    refine ⟨sub, rfl, ?_⟩
    by_cases h : ∃ plan status, Accepts env.settings sub entity started plan status
    · obtain ⟨plan, status, ha⟩ := h
      exact Or.inl ⟨plan, status, ha, Program.wp_ok
        (snapshot_holds env s sub entity invoices plan actor status started hsub ha) hrun⟩
    · rw [not_exists] at h
      have hno : ∀ plan status, ¬ Accepts env.settings sub entity started plan status :=
        fun plan status ha =>
        h plan ⟨status, ha⟩
      exact Or.inr ⟨hno, (Program.wp_ok (applySnapshot_dropped hsub hno) hrun).2⟩

/-- The same snapshot again, with the same plans and the same other merchants: no later fetch time
changes anything, and a later one is stored alone, where the first application was no older than
what the row already held. -/
theorem snapshot_again (env env' : Env) (s t : State) (journal : Journal) (entity : Dict)
    (invoices : Option (List Json)) (actor actor' : Option ℕ) (started started' : Time)
    (r : SnapshotResult)
    (hsettings : env'.settings = env.settings) (hothers : env'.others = env.others)
    (hrun : (applySnapshot entity invoices started actor).run env s = (.ok r, t)) :
    (started' ≤ started → Program.wp env' (applySnapshot entity invoices started' actor')
      (fun r' u => r' = ⟨false, false⟩ ∧ u.data = t.data) (fun _ _ => False) ⟨t.data, journal⟩) ∧
    ((∀ sub, s.data.sub? = some sub → newer sub started = true) → started < started' →
      Program.wp env' (applySnapshot entity invoices started' actor')
        (fun r' u => r'.changed = false ∧ (u.data = t.data ∨
          ∃ stored, t.data.sub? = some stored ∧ OnlyResynced stored started' r' t.data u.data))
        (fun _ _ => False) ⟨t.data, journal⟩) := by
  obtain ⟨sub, hsub, hpost⟩ := applySnapshot_returned hrun
  rcases hpost with ⟨plan, status, ha, hholds⟩ | ⟨hno, hdata⟩
  · constructor
    · intro hle
      obtain ⟨stored, hstored, hsynced⟩ := hholds.synced
      apply applySnapshot_dropped (s := ⟨t.data, journal⟩) hstored
      intro plan' status' ha'
      have hnewer := newer_mono hle ha'.newer
      unfold newer at hnewer
      rw [hsynced] at hnewer
      exact lt_irrefl _ (of_decide_eq_true hnewer)
    · intro _ hlater
      obtain ⟨stored, hstored, hagain⟩ :=
        reapplied (t := ⟨t.data, journal⟩) hsettings hothers ha hholds hlater
      apply Program.wp_mono hagain
      · exact fun _ _ h => ⟨h.unchanged, Or.inr ⟨stored, hstored, h⟩⟩
      · exact fun _ _ h => h
  · have hsub' : t.data.sub? = some sub := by rw [hdata, hsub]
    constructor
    · intro hle
      apply applySnapshot_dropped (s := ⟨t.data, journal⟩) hsub'
      intro plan status ha'
      rw [hsettings] at ha'
      exact hno plan status ⟨ha'.names, newer_mono hle ha'.newer, ha'.plan, ha'.status⟩
    · intro hnewer _
      have hdropped : ∀ plan status, ¬ Accepts env'.settings sub entity started' plan status := by
        intro plan status ha'
        rw [hsettings] at ha'
        exact hno plan status ⟨ha'.names, hnewer sub hsub, ha'.plan, ha'.status⟩
      apply Program.wp_mono (applySnapshot_dropped (s := ⟨t.data, journal⟩) hsub' hdropped)
      · rintro _ u ⟨rfl, hu⟩
        exact ⟨rfl, Or.inl hu⟩
      · exact fun _ _ h => h

end Again

def paidSnapshot : Dict := entityOf "sub_a" "plan_s" "active" 1000 2000

def paidInvoices : Option (List Json) := some [invoiceOf "sub_a" "pay_1" 1000 2000]

def syncedRow : Database :=
  rowless.withRow { awaitingSub with providerSyncedAt := some (seconds 1400) } (by decide)

/-- An application that was too old may be followed by one that is not. -/
theorem snapshot_again_moves :
    ∃ r t u, (applySnapshot paidSnapshot paidInvoices (seconds 1300) none).run paidEnv
    ⟨syncedRow, .empty⟩ =
        (.ok r, t) ∧
      (applySnapshot paidSnapshot paidInvoices (seconds 1500) none).run paidEnv ⟨t.data, .empty⟩ =
        (.ok ⟨true, true⟩, u) := by
  refine ⟨_, _, _, rfl, rfl⟩

/-- A paid snapshot of a first subscription, and the same one with a later fetch time. -/
theorem snapshot_again_activation :
    ∃ r t, (applySnapshot paidSnapshot paidInvoices (seconds 1500) none).run paidEnv
    ⟨awaitingPayment, .empty⟩ =
        (.ok r, t) ∧
      Program.wp paidEnv (applySnapshot paidSnapshot paidInvoices (seconds 1600) none)
        (fun r' u => r'.changed = false ∧ (u.data = t.data ∨
          ∃ stored, t.data.sub? = some stored ∧
            OnlyResynced stored (seconds 1600) r' t.data u.data))
        (fun _ _ => False) ⟨t.data, .empty⟩ := by
  refine ⟨_, _, rfl, ?_⟩
  refine (snapshot_again paidEnv paidEnv ⟨awaitingPayment, .empty⟩ _ .empty paidSnapshot
    paidInvoices none none
    (seconds 1500) (seconds 1600) _ rfl rfl rfl).2 ?_ (by decide)
  intro sub hsub
  cases hsub
  rfl

end ReviewFlow.Billing
