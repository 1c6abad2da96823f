import ReviewFlow.Billing.PaidEntitlement

/-!
# Snapshots that make a row ACTIVE

`Reactivates` is the condition on a locked row and a fetched snapshot under which
`_apply_snapshot` makes the row ACTIVE. A reconcile that does so has read both
answers from the provider, and `PaidAnswer` says which.
-/

namespace ReviewFlow.Billing

open Savepoint

/-- The snapshot moves a row that is not ACTIVE to ACTIVE, on the period it reports. -/
structure Reactivates (settings : Settings) (sub : Subscription) (entity : Dict)
    (invoices : Option (List Json)) (started : Time) (plan : Plan) (start stop : Time) : Prop where
  inactive : sub.status ≠ .active
  names : namesMain sub entity = true
  newer : newer sub started = true
  known : settings.planFor (entity.get "plan_id") = some plan
  status : entity.get "status" = .str "active"
  period : usablePeriod entity = some (start, stop)
  paid : (currentPeriodPaid entity invoices).isSome = true

theorem Snapshotted.reactivates {settings : Settings} {calls : List Call} {entity : Dict}
    {invoices : Option (List Json)} {started : Time} {sub : Subscription} {plan : Plan}
    {status : String} {now : Time} {r : Applied} {db db' : Database}
    (h : Snapshotted settings calls entity invoices started sub plan status now r db db')
    (hna : sub.status ≠ .active) (ha : r.sub.status = .active) :
    ∃ start stop, Reactivates settings sub entity invoices started plan start stop ∧
      status = "active" ∧ r.sub = activated sub plan start stop := by
  cases hadv : (statusOutcome sub entity invoices plan status now).advanced with
  | false =>
    have hno : NoMore sub r.sub := by
      have h₁ := (statusOutcome_notEntitled hadv).noMore
      rcases h.row with hr | ⟨-, -, -, ha⟩
      · exact hr ▸ h₁
      · exact h₁.trans ha.noMore
    exact absurd (hno.status ha) hna
  | true =>
    obtain ⟨hstatus, start, stop, hp, -, hpaid, hact⟩ := statusOutcome_advanced hadv
    refine ⟨start, stop, ⟨hna, h.accepts.names, h.accepts.newer, h.accepts.plan, ?_, hp, hpaid⟩,
      hstatus, ?_⟩
    · exact hstatus ▸ h.accepts.status
    · rcases h.row with hr | ⟨-, hn, -, -⟩
      · rw [hr, hact]
      · rw [hadv] at hn
        cases hn

section Rules

variable {env : Env} {s : State}

structure ReadPost (env : Env) (sub : Subscription) (ref : Ref) (f : Fetched)
    (s t : State) : Prop where
  data : t.data = s.data
  started : f.started = env.oracle.clock s.journal.ticks
  entity : env.oracle.subscription s.journal.calls.length (.fetchSubscription ref) = .ok f.entity
  readable : readable ref f.entity = true
  ticks : t.journal.ticks = s.journal.ticks + 1
  invoices : if invoicesNeeded sub.status sub.currentPeriodStart f.entity = true then
      ∃ invoices, f.invoices = some invoices ∧ t.journal.calls = s.journal.calls ++
          [.subscription (.fetchSubscription ref) (.ok f.entity), .invoices ref (.ok invoices)] ∧
        env.oracle.invoices (s.journal.calls.length + 1) ref = .ok invoices
    else f.invoices = none ∧ t.journal.calls = s.journal.calls ++
      [.subscription (.fetchSubscription ref) (.ok f.entity)]

theorem fetchInvoicesIfNeeded_calls {ref : Ref} {oldStatus : Status} {oldStart : Option Time}
    {entity : Dict} :
    Program.returns env (fetchInvoicesIfNeeded ref oldStatus oldStart entity)
      (fun r t => t.data = s.data ∧ t.journal.ticks = s.journal.ticks ∧
        if invoicesNeeded oldStatus oldStart entity = true then
          ∃ invoices, r = some invoices ∧
            t.journal.calls = s.journal.calls ++ [.invoices ref (.ok invoices)] ∧
            env.oracle.invoices s.journal.calls.length ref = .ok invoices
        else r = none ∧ t.journal.calls = s.journal.calls) s := by
  unfold fetchInvoicesIfNeeded
  split
  · refine Program.returns_bind
      (P := fun invoices t => t = s.called (.invoices ref (.ok invoices)) ∧
      env.oracle.invoices s.journal.calls.length ref = .ok invoices) ?_ ?_
    · exact wp_razorpayInvoices.mpr ⟨fun _ h => ⟨rfl, h⟩, fun _ _ => trivial⟩
    · rintro invoices _ ⟨rfl, h⟩
      exact ⟨rfl, rfl, invoices, rfl, rfl, h⟩
  · exact ⟨rfl, rfl, rfl, rfl⟩

theorem reconcileRead_calls {sub : Subscription} {ref : Ref} :
    Program.returns env (reconcileRead sub ref) (fun f t => ReadPost env sub ref f s t) s := by
  unfold reconcileRead
  rw [Program.returns, Program.wp_bind, wp_timezoneNow]
  refine Program.returns_bind (P := fun entity t =>
    t = s.tick.called (.subscription (.fetchSubscription ref) (.ok entity)) ∧
    env.oracle.subscription s.journal.calls.length (.fetchSubscription ref) = .ok entity ∧
    readable ref entity = true) ?_ ?_
  · unfold fetchProviderEntity
    refine Program.returns_bind (P := fun entity t =>
      t = s.tick.called (.subscription (.fetchSubscription ref) (.ok entity)) ∧
      env.oracle.subscription s.journal.calls.length (.fetchSubscription ref) = .ok entity) ?_ ?_
    · refine Program.returns_of_wp (wp_rejectedIsUnavailable (E := fun _ => True) ?_)
      exact wp_razorpay.mpr ⟨fun _ h => ⟨rfl, h⟩, fun _ _ => trivial⟩
    · rintro entity t ⟨ht, he⟩
      rw [Program.returns, Program.wp_ite]
      exact ⟨fun hr => ⟨ht, he, hr⟩, fun _ => trivial⟩
  rintro entity _ ⟨rfl, he, hr⟩
  refine Program.returns_bind (Program.returns_of_wp (wp_rejectedIsUnavailable
    (E := fun _ => True) fetchInvoicesIfNeeded_calls)) ?_
  rintro invoices u ⟨hu, hticks, hi⟩
  refine ⟨hu, rfl, he, hr, hticks, ?_⟩
  dsimp only
  split
  · rename_i hneeded
    rw [if_pos hneeded] at hi
    obtain ⟨list, rfl, hcalls, hans⟩ := hi
    refine ⟨list, rfl, ?_, by simpa using hans⟩
    rw [hcalls]
    simp
  · rename_i hneeded
    rw [if_neg hneeded] at hi
    exact ⟨hi.1, hi.2⟩

theorem storeSnapshot_journal {r : Applied} {status : String} {started : Time} :
    Program.returns env (storeSnapshot r status started) (fun _ t => t.journal = s.journal) s := by
  unfold storeSnapshot
  refine Program.returns_bind (Program.returns_of_wp (Program.query_journal _)) fun _ t ht => ?_
  refine Program.returns_bind (P := fun _ u => u.journal = s.journal) ?_ fun _ _ h => h
  rw [Program.returns, Program.wp_whenever]
  refine ⟨fun _ => ?_, fun _ => ht⟩
  exact Program.returns_bind (Program.returns_of_wp (Program.query_journal _)) fun _ _ hu =>
    hu.trans ht

theorem applySnapshot_journal {entity : Dict} {invoices : Option (List Json)} {started : Time}
    {actor : Option ℕ} (hstatus : entity.get "status" = .str "active") :
    Program.returns env (applySnapshot entity invoices started actor)
      (fun _ t => t.journal = s.tick.journal) s := by
  unfold applySnapshot
  refine Program.returns_savepoint ?_
  rw [Program.returns, Program.wp_bind, wp_lockSubscription]
  refine ⟨fun sub _ => ?_, fun _ => trivial⟩
  rw [Program.wp_bind, wp_timezoneNow, Program.wp_bind, Program.wp_ask]
  unfold snapshotLocked
  rw [Program.wp_ite]
  refine ⟨fun _ => rfl, fun _ => ?_⟩
  rw [Program.wp_ite]
  refine ⟨fun _ => rfl, fun _ => ?_⟩
  rw [hstatus]
  cases env.settings.planFor (entity.get "plan_id") with
  | none => exact rfl
  | some plan =>
    simp only [Json.str?, applyStatus, ↓reduceIte]
    refine Program.returns_bind (Program.returns_of_wp applyActive_spec) ?_
    rintro r t ⟨-, ht⟩
    exact Program.returns_mono storeSnapshot_journal fun _ _ hu => hu.trans ht.1

/-- The answers with which a reconcile, after `calls` calls and `ticks` readings of the
clock, makes the row ACTIVE. -/
def PaidAnswer (env : Env) (sub : Subscription) (ref : Ref) (calls ticks : ℕ) (plan : Plan)
    (start stop : Time) : Prop :=
  ∃ entity invoices,
    env.oracle.subscription calls (.fetchSubscription ref) = .ok entity ∧
    env.oracle.invoices (calls + 1) ref = .ok invoices ∧
    Reactivates env.settings sub entity (some invoices) (env.oracle.clock ticks) plan start stop

theorem invoicesNeeded_of {sub : Subscription} {entity : Dict} (hna : sub.status ≠ .active)
    (hstatus : entity.get "status" = .str "active") :
    invoicesNeeded sub.status sub.currentPeriodStart entity = true := by
  simp [invoicesNeeded, hstatus, hna]

theorem applySnapshot_ticks {entity : Dict} {invoices : Option (List Json)} {started : Time}
    {actor : Option ℕ} :
    Program.returns env (applySnapshot entity invoices started actor)
      (fun _ t => entity.get "status" = .str "active" → t.journal = s.tick.journal) s := by
  by_cases h : entity.get "status" = .str "active"
  · exact Program.returns_mono (applySnapshot_journal h) fun _ _ ht _ => ht
  · exact Program.returns_mono Program.wp_trivial fun _ _ _ hs => absurd hs h

theorem reconcile_reactivates {sub : Subscription} {ref : Ref} (hsub : s.data.sub? = some sub)
    (hna : sub.status ≠ .active) :
    Program.returns env (reconcile sub ref)
      (fun p t => p.1.status = .active → ∃ plan start stop,
        PaidAnswer env sub ref s.journal.calls.length s.journal.ticks plan start stop ∧
        p.1 = stamped (activated sub plan start stop) "active" (env.oracle.clock s.journal.ticks) ∧
        t.journal.calls.length = s.journal.calls.length + 2 ∧
        t.journal.ticks = s.journal.ticks + 2) s := by
  unfold reconcile
  refine Program.returns_bind reconcileRead_calls fun f t ht => ?_
  have hsub' : t.data.sub? = some sub := by rw [ht.data]; exact hsub
  refine Program.returns_bind
    (Program.returns_of_wp (Program.wp_and applySnapshot_wp applySnapshot_ticks)) ?_
  rintro r u ⟨hu, hj⟩
  rw [Program.returns, Program.wp_bind, Program.wp_savepoint, wp_lockSubscription]
  refine ⟨fun sub' hrow hactive => ?_, fun _ => trivial⟩
  cases hu with
  | dropped sub₁ before _ data _ =>
    rw [data, hsub'] at hrow
    cases hrow
    exact absurd hactive hna
  | applied sub₁ plan status now r₁ done _ =>
    have hsame : sub₁ = sub := by
      have := done.before
      rw [hsub'] at this
      exact (Option.some.inj this).symm
    subst hsame
    have hsub₂ : sub' = stamped r₁.sub status f.started := by
      have := done.after
      rw [hrow] at this
      exact Option.some.inj this
    subst hsub₂
    obtain ⟨start, stop, hre, rfl, hr⟩ := done.reactivates hna hactive
    have hinv := ht.invoices
    rw [if_pos (invoicesNeeded_of hna hre.status)] at hinv
    obtain ⟨list, hlist, hcalls, hans⟩ := hinv
    rw [hlist, ht.started] at hre
    refine ⟨plan, start, stop, ⟨f.entity, list, ht.entity, hans, hre⟩, ?_, ?_, ?_⟩
    · rw [hr, ht.started]
    · rw [hj hre.status, State.tick_calls, hcalls]
      simp
    · rw [hj hre.status]
      exact congrArg (· + 1) ht.ticks

end Rules

end ReviewFlow.Billing
