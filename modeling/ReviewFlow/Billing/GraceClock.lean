import ReviewFlow.Billing.Reapplied

/-!
# The clock of a grace episode

The calls of `advance_dunning` may come late, repeated and out of order. The stage that is stored
is the highest checkpoint due at the latest time seen, and the first call at or after the cutoff
ends the episode, unless a terminal snapshot has done so.
-/

namespace ReviewFlow.Billing

open Savepoint

def retryOwedProviderCancel : Prog Unit := do
  let ref ← owedRead
  match ref with
  | none => pure ()
  | some ref => do
    let entity ← orNone (razorpay (.cancelSubscription ref false))
    match entity.bind fun e => (e.get "status").str? with
    | none => pure ()
    | some status => updateProviderStatus ref status

def advanceDunning : Prog Unit := do
  dunningTransaction
  retryOwedProviderCancel

/-- The tables after one call, with the clock and the provider of `env`. -/
def callDunning (db : Database) (env : Env) : Database :=
  (advanceDunning.run env ⟨db, .empty⟩).2.data

def dunningCalls (db : Database) (calls : List Env) : Database := calls.foldl callDunning db

def snapshotApplied (db : Database) (env : Env) (entity : Dict) (invoices : Option (List Json))
    (started : Time) : Database :=
  ((applySnapshot entity invoices started none).run env ⟨db, .empty⟩).2.data

def callTime (env : Env) : Time := env.oracle.clock 0

def checkpointDue (pastDueAt now : Time) : ℕ :=
  if pastDueAt + days 6 ≤ now then 6 else if pastDueAt + days 3 ≤ now then 3 else 0

def latest (pastDueAt : Time) (calls : List Env) : Time := (calls.map callTime).foldl max pastDueAt

def checkpointRow (stage : ℕ) : AuditRow := ⟨.dunningCheckpoint, none, [("stage", .int stage)]⟩

def expiredRowOf : AuditRow :=
  ⟨.expired, none,
    [("from_status", .str Status.pastDue.value), ("to_status", .str Status.expired.value)]⟩

/-- The row was stored and the audit rows were added, and nothing else was written. -/
structure Wrote (sub' : Subscription) (rows : List AuditRow) (db db' : Database) : Prop where
  row : db'.sub? = some sub'
  rest : db' = { db with subscription := db'.subscription, audits := db.audits ++ rows }

theorem Wrote.refl {sub : Subscription} {db : Database} (h : db.sub? = some sub) :
    Wrote sub [] db db :=
  ⟨h, by simp⟩

theorem Wrote.trans {sub sub' : Subscription} {rows rows' : List AuditRow} {a b c : Database}
    (h : Wrote sub rows a b) (h' : Wrote sub' rows' b c) : Wrote sub' (rows ++ rows') a c := by
  refine ⟨h'.row, ?_⟩
  rw [h'.rest, h.rest]
  simp

theorem Wrote.audits {sub : Subscription} {rows : List AuditRow} {db db' : Database}
    (h : Wrote sub rows db db') : db'.audits = db.audits ++ rows := by
  rw [h.rest]

section Calls

variable {env : Env} {s : State} {sub : Subscription} {pastDueAt : Time} {stage : ℕ}

theorem checkpointDue_mono {a b : Time} (h : a ≤ b) :
    checkpointDue pastDueAt a ≤ checkpointDue pastDueAt b := by
  unfold checkpointDue days seconds
  split_ifs <;> first | omega | (exfalso; linarith)

theorem dunningStages_find (pastDueAt now : Time) :
    (dunningStages.find? fun s => decide (pastDueAt + s.2 ≤ now)).map Prod.fst =
      if checkpointDue pastDueAt now = 0 then none else some (checkpointDue pastDueAt now) := by
  unfold dunningStages checkpointDue
  by_cases h6 : pastDueAt + days 6 ≤ now
  · simp [h6]
  · by_cases h3 : pastDueAt + days 3 ≤ now
    · simp [h6, h3]
    · simp [h6, h3]

theorem saveAudit_spec {sub' : Subscription} {action : AuditAction} {metadata : Dict}
    (hsub : s.data.sub? = some sub) (hchecks : sub'.Checks) (hslots : SameSlots sub sub') :
    Program.wp env (do saveSubscription sub'; audit action none metadata)
      (fun _ t => Wrote sub' [⟨action, none, metadata⟩] s.data t.data) (fun _ _ => False) s := by
  refine Program.wp_bind_of (saveSubscription_total hsub hchecks hslots) ?_ (fun _ _ h => h)
  rintro _ t ⟨hrow, hdata⟩
  rw [wp_audit]
  refine ⟨fun _ => ⟨hrow, ?_⟩, fun h => absurd (fun _ hu => nomatch hu) h⟩
  rw [State.audited, hdata]

theorem atStage_checks (h : sub.Checks) (hpast : sub.pastDueAt = some pastDueAt)
    (hstage : stage = 0 ∨ stage = 3 ∨ stage = 6) : (atStage sub stage).Checks :=
  h.withPeriod rfl h.periodSet h.periodOrder h.pastDueAt (by simp [atStage, hpast])
    (by simpa [atStage] using hstage)

theorem atStage_self (h : sub.dunningStage = some stage) : atStage sub stage = sub := by
  unfold atStage
  rw [← h]

@[simp] theorem atStage_atStage (sub : Subscription) (stage stage' : ℕ) :
    atStage (atStage sub stage) stage' = atStage sub stage' := rfl

@[simp] theorem graceExpired_atStage (sub : Subscription) (stage : ℕ) :
    graceExpired (atStage sub stage) = graceExpired sub := rfl

theorem checkpointDue_stage (pastDueAt now : Time) : checkpointDue pastDueAt now = 0 ∨
    checkpointDue pastDueAt now = 3 ∨ checkpointDue pastDueAt now = 6 := by
  unfold checkpointDue
  split_ifs <;> simp

/-- The stage goes up to the highest checkpoint due, with one audit row when it moves. -/
theorem advanceStage_wrote {now : Time} (hsub : s.data.sub? = some sub)
    (hpast : sub.pastDueAt = some pastDueAt) (hstage : sub.dunningStage = some stage) :
    Program.wp env (advanceStage sub pastDueAt now)
      (fun _ t => Wrote (atStage sub (max stage (checkpointDue pastDueAt now)))
        (if stage < checkpointDue pastDueAt now then [checkpointRow (checkpointDue pastDueAt now)]
        else [])
        s.data t.data) (fun _ _ => False) s := by
  have hfind := dunningStages_find pastDueAt now
  have hdue := checkpointDue_stage pastDueAt now
  generalize checkpointDue pastDueAt now = due at *
  have hkept : due ≤ stage → Wrote (atStage sub (max stage due))
      (if stage < due then [checkpointRow due] else []) s.data s.data := by
    intro hle
    rw [max_eq_left hle, if_neg (by omega), atStage_self hstage]
    exact .refl hsub
  unfold advanceStage
  split
  · next hnone =>
    rw [hnone] at hfind
    have hzero : due = 0 := by
      by_contra hne
      rw [if_neg hne] at hfind
      cases hfind
    exact hkept (by omega)
  · next due' offset hsome =>
    rw [hsome] at hfind
    have heq : due' = due := by
      split at hfind
      · cases hfind
      · exact Option.some.inj hfind
    subst heq
    rw [Program.wp_whenever]
    constructor
    · rintro ⟨n, hn, hlt⟩
      rw [hstage] at hn
      cases hn
      rw [max_eq_right hlt.le, if_pos hlt]
      exact saveAudit_spec hsub (atStage_checks (Database.checks hsub) hpast hdue)
        ⟨rfl, rfl, rfl, rfl⟩
    · intro hno
      refine hkept ?_
      by_contra hlt
      exact hno ⟨stage, hstage, by omega⟩

theorem advancePastDue_wrote (env : Env) (now : Time) (hsub : s.data.sub? = some sub)
    (hstatus : sub.status = .pastDue)
    (hpast : sub.pastDueAt = some pastDueAt) (hstage : sub.dunningStage = some stage) :
    Program.wp env (advancePastDue sub now)
      (fun _ t => if pastDueAt + grace ≤ now then Wrote (graceExpired sub)
      [expiredRowOf] s.data t.data
        else Wrote (atStage sub (max stage (checkpointDue pastDueAt now)))
          (if stage < checkpointDue pastDueAt now then [checkpointRow (checkpointDue pastDueAt now)]
          else [])
          s.data t.data) (fun _ _ => False) s := by
  unfold advancePastDue
  rw [hpast]
  dsimp only
  rw [Program.wp_ite]
  constructor
  · intro hover
    simp only [if_pos hover]
    exact saveAudit_spec hsub (clearGrace_checks (Database.checks hsub) hstatus (by simp))
      ⟨rfl, rfl, rfl, rfl⟩
  · intro hearly
    simp only [if_neg hearly]
    exact advanceStage_wrote hsub hpast hstage

theorem wp_dunningTransaction {Q : State → Prop} (hsub : s.data.sub? = some sub)
    (hgrace : sub.status = .pastDue →
      Program.wp env (advancePastDue sub (env.oracle.clock s.journal.ticks)) (fun _ t => Q t)
      (fun _ _ => False) s.tick)
    (hother : sub.status ≠ .pastDue → Q s.tick) :
    Program.wp env dunningTransaction (fun _ t => Q t) (fun _ _ => False) s := by
  unfold dunningTransaction
  rw [Program.wp_bind, wp_timezoneNow, Program.wp_savepoint, Program.wp_bind, wp_firstSubscription,
    Program.wp_whenever]
  refine ⟨fun _ => ?_, fun hnone => absurd (by rw [State.tick_data, hsub]; rfl) hnone⟩
  unfold dunningLocked
  rw [Program.wp_bind, wp_lockSubscription]
  refine ⟨fun locked hlocked => ?_, fun hnone => ?_⟩
  · obtain rfl : sub = locked := Option.some.inj (hsub.symm.trans hlocked)
    rw [Program.wp_whenever]
    exact ⟨hgrace, hother⟩
  · rw [State.tick_data, hsub] at hnone
    cases hnone

def withProviderStatus (sub : Subscription) (status : Option String) : Subscription :=
  { sub with providerStatus := status }

theorem withProviderStatus_checks (h : sub.Checks) (status : Option String) :
    (withProviderStatus sub status).Checks :=
  h.withPeriod rfl h.periodSet h.periodOrder h.pastDueAt h.dunningEpisode h.dunningStage

/-- The retry of an owed cancel writes a provider status at most, and none unless the row has
ended. -/
theorem retryOwedProviderCancel_spec (hsub : s.data.sub? = some sub) :
    Program.wp env retryOwedProviderCancel
      (fun _ t => ∃ status, (¬ sub.status.Ended → status = sub.providerStatus) ∧
        Wrote (withProviderStatus sub status) [] s.data t.data)
      (fun _ t => ∃ status, (¬ sub.status.Ended → status = sub.providerStatus) ∧
        Wrote (withProviderStatus sub status) [] s.data t.data) s := by
  have hkept : ∀ t : State, t.data = s.data →
    ∃ status, (¬ sub.status.Ended → status = sub.providerStatus) ∧
      Wrote (withProviderStatus sub status) [] s.data t.data := by
    intro t ht
    rw [ht]
    exact ⟨sub.providerStatus, fun _ => rfl, .refl hsub⟩
  unfold retryOwedProviderCancel owedRead
  rw [Program.wp_bind, Program.wp_bind, wp_firstSubscription, Program.wp_pure, hsub]
  cases howed : (some sub).filter owed with
  | none => exact hkept s rfl
  | some sub' =>
    obtain ⟨hsome, howed⟩ := Option.filter_eq_some_iff.mp howed
    cases hsome
    have hended : sub.status.Ended := by
      simp only [owed, Bool.and_eq_true, decide_eq_true_eq] at howed
      exact howed.1.1
    rw [Option.bind_some]
    cases href : sub.paymentProviderRef with
    | none => exact hkept s rfl
    | some ref =>
      dsimp only
      rw [Program.wp_bind, wp_orNone, wp_razorpay]
      refine ⟨fun entity _ => ?_, fun failure _ => ⟨fun _ => hkept _ rfl, fun _ => hkept _ rfl⟩⟩
      rw [Option.bind_some]
      cases hstatus : (entity.get "status").str? with
      | none => exact hkept _ rfl
      | some status =>
        dsimp only
        unfold updateProviderStatus
        rw [Program.wp_savepoint, Program.wp_bind, wp_firstSubscription, State.called_data, hsub]
        dsimp only
        rw [Program.wp_whenever]
        refine ⟨fun _ => ?_, fun _ => hkept _ rfl⟩
        have hchecks :=
          withProviderStatus_checks (Database.checks hsub) (some (takeChars 16 status))
        refine Program.wp_mono (saveSubscription_total hsub hchecks ⟨rfl, rfl, rfl, rfl⟩) ?_
          (fun _ _ h => h.elim)
        rintro _ t ⟨hrow, hdata⟩
        refine ⟨_, fun h => absurd hended h, hrow, ?_⟩
        rw [hdata]
        simp

theorem run_data {α : Type} {m : Prog α} {P : Database → Prop}
    (h : Program.wp env m (fun _ t => P t.data) (fun _ t => P t.data) s) :
    P (m.run env s).2.data := by
  revert h
  unfold Program.wp
  rcases m.run env s with ⟨_ | _, _⟩ <;> exact id

theorem callDunning_of (env : Env) {db : Database} {sub' : Subscription} {rows : List AuditRow}
    (h : Program.wp env dunningTransaction (fun _ t => Wrote sub' rows db t.data) (fun _ _ => False)
      ⟨db, .empty⟩) :
    ∃ status, (¬ sub'.status.Ended → status = sub'.providerStatus) ∧
      Wrote (withProviderStatus sub' status) rows db (callDunning db env) := by
  refine run_data (P := fun db' => ∃ status, (¬ sub'.status.Ended → status = sub'.providerStatus) ∧
    Wrote (withProviderStatus sub' status) rows db db') ?_
  refine Program.wp_bind_of h ?_ (fun _ _ h => h.elim)
  rintro _ t ht
  have hthen : ∀ u : State, (∃ status, (¬ sub'.status.Ended → status = sub'.providerStatus) ∧
      Wrote (withProviderStatus sub' status) [] t.data u.data) →
      ∃ status, (¬ sub'.status.Ended → status = sub'.providerStatus) ∧
        Wrote (withProviderStatus sub' status) rows db u.data := by
    rintro u ⟨status, hstatus, hu⟩
    refine ⟨status, hstatus, ?_⟩
    simpa using ht.trans hu
  exact Program.wp_mono (retryOwedProviderCancel_spec ht.row) (fun _ u => hthen u)
    (fun _ u => hthen u)

variable {db : Database}

theorem callDunning_early (env : Env) (hsub : db.sub? = some sub) (hstatus : sub.status = .pastDue)
    (hpast : sub.pastDueAt = some pastDueAt) (hstage : sub.dunningStage = some stage)
    (hearly : callTime env < pastDueAt + grace) :
    Wrote (atStage sub (max stage (checkpointDue pastDueAt (callTime env))))
      (if stage < checkpointDue pastDueAt (callTime env) then
      [checkpointRow (checkpointDue pastDueAt (callTime env))]
        else []) db (callDunning db env) := by
  have h := advancePastDue_wrote env (callTime env) (s := State.tick ⟨db, .empty⟩)
    hsub hstatus hpast hstage
  simp only [if_neg (not_le.mpr hearly)] at h
  obtain ⟨status, hkept, hwrote⟩ := callDunning_of env
    (wp_dunningTransaction hsub (fun _ => h) fun hne => absurd hstatus hne)
  rw [hkept (by simp [atStage, hstatus, Status.Ended])] at hwrote
  exact hwrote

theorem callDunning_late (env : Env) (hsub : db.sub? = some sub) (hstatus : sub.status = .pastDue)
    (hpast : sub.pastDueAt = some pastDueAt) (hstage : sub.dunningStage = some stage)
    (hlate : pastDueAt + grace ≤ callTime env) :
    ∃ status, Wrote (withProviderStatus (graceExpired sub) status) [expiredRowOf] db
    (callDunning db env) := by
  have h := advancePastDue_wrote env (callTime env) (s := State.tick ⟨db, .empty⟩)
    hsub hstatus hpast hstage
  simp only [if_pos hlate] at h
  obtain ⟨status, -, hwrote⟩ := callDunning_of env
    (wp_dunningTransaction hsub (fun _ => h) fun hne => absurd hstatus hne)
  exact ⟨status, hwrote⟩

theorem callDunning_after (env : Env) (hsub : db.sub? = some sub)
    (hstatus : sub.status ≠ .pastDue) :
    ∃ status, Wrote (withProviderStatus sub status) [] db (callDunning db env) := by
  obtain ⟨status, -, hwrote⟩ := callDunning_of env
    (wp_dunningTransaction (s := ⟨db, .empty⟩) hsub (fun h => absurd h hstatus) fun _ => .refl hsub)
  exact ⟨status, hwrote⟩

end Calls

section Runs

variable {sub : Subscription} {pastDueAt : Time} {db : Database}

theorem latest_append (calls : List Env) (call : Env) :
    latest pastDueAt (calls ++ [call]) = max (latest pastDueAt calls) (callTime call) := by
  simp [latest]

theorem dunningCalls_append (calls : List Env) (call : Env) :
    dunningCalls db (calls ++ [call]) = callDunning (dunningCalls db calls) call := by
  simp [dunningCalls]

theorem checkpointDue_max (a b : Time) : checkpointDue pastDueAt (max a b) =
    max (checkpointDue pastDueAt a) (checkpointDue pastDueAt b) := by
  rcases le_total a b with h | h
  · rw [max_eq_right h, max_eq_right (checkpointDue_mono h)]
  · rw [max_eq_left h, max_eq_left (checkpointDue_mono h)]

/-- While every call is early the row is at the checkpoint due at the latest time. -/
theorem dunningCalls_early (hsub : db.sub? = some sub) (hstatus : sub.status = .pastDue)
    (hpast : sub.pastDueAt = some pastDueAt) (hstage : sub.dunningStage = some 0) (calls : List Env)
    (hearly : ∀ call ∈ calls, callTime call < pastDueAt + grace) :
    (dunningCalls db calls).sub? = some
    (atStage sub (checkpointDue pastDueAt (latest pastDueAt calls))) := by
  induction calls using List.reverseRecOn with
  | nil =>
    have hzero : checkpointDue pastDueAt pastDueAt = 0 := by
      unfold checkpointDue days seconds
      rw [if_neg (by linarith), if_neg (by linarith)]
    change db.sub? = some (atStage sub (checkpointDue pastDueAt pastDueAt))
    rw [hzero, atStage_self hstage]
    exact hsub
  | append_singleton calls call ih =>
    have hbefore := ih fun c hc => hearly c (List.mem_append_left _ hc)
    rw [dunningCalls_append, latest_append, checkpointDue_max]
    exact (callDunning_early call hbefore hstatus hpast rfl (hearly call (by simp))).row

theorem dunningCalls_late (hsub : db.sub? = some sub) (hstatus : sub.status = .pastDue)
    (hpast : sub.pastDueAt = some pastDueAt) (hstage : sub.dunningStage = some 0) (calls : List Env)
    (hlate : ∃ call ∈ calls, pastDueAt + grace ≤ callTime call) :
    ∃ sub', (dunningCalls db calls).sub? = some sub' ∧ sub'.status = .expired := by
  induction calls using List.reverseRecOn with
  | nil => simp at hlate
  | append_singleton calls call ih =>
    rw [dunningCalls_append]
    by_cases hbefore : ∃ c ∈ calls, pastDueAt + grace ≤ callTime c
    · obtain ⟨sub', hsub', hexpired⟩ := ih hbefore
      obtain ⟨status, hwrote⟩ := callDunning_after call hsub' (by simp [hexpired])
      exact ⟨_, hwrote.row, hexpired⟩
    · simp only [not_exists, not_and, not_le] at hbefore
      have hlast : pastDueAt + grace ≤ callTime call := by
        obtain ⟨c, hc, hlate⟩ := hlate
        rcases List.mem_append.mp hc with hc | hc
        · exact absurd hlate (not_le.mpr (hbefore c hc))
        · rwa [List.mem_singleton.mp hc] at hlate
      have hrow := dunningCalls_early hsub hstatus hpast hstage calls hbefore
      obtain ⟨status, hwrote⟩ := callDunning_late call hrow hstatus hpast rfl hlast
      exact ⟨_, hwrote.row, rfl⟩

structure NextCall (sub : Subscription) (pastDueAt : Time) (calls : List Env) (call : Env)
    (before after : Database) : Prop where
  inGrace : (∀ c ∈ calls ++ [call], callTime c < pastDueAt + grace) →
    ∃ stage stage', stage = checkpointDue pastDueAt (latest pastDueAt calls) ∧
      stage' = checkpointDue pastDueAt (latest pastDueAt (calls ++ [call])) ∧ stage ≤ stage' ∧
      before.sub? = some (atStage sub stage) ∧
      Wrote (atStage sub stage')
      (if stage < stage' then [checkpointRow stage'] else []) before after
  atCutoff : (∀ c ∈ calls, callTime c < pastDueAt + grace) → pastDueAt + grace ≤ callTime call →
    ∃ status, Wrote (withProviderStatus (graceExpired sub) status) [expiredRowOf] before after
  afterCutoff : (∃ c ∈ calls, pastDueAt + grace ≤ callTime c) →
    ∃ ended status, before.sub? = some ended ∧ ended.status = .expired ∧
      Wrote (withProviderStatus ended status) [] before after

theorem dunningCalls_next (hsub : db.sub? = some sub) (hstatus : sub.status = .pastDue)
    (hpast : sub.pastDueAt = some pastDueAt) (hstage : sub.dunningStage = some 0) (calls : List Env)
    (call : Env) :
    NextCall sub pastDueAt calls call (dunningCalls db calls)
    (dunningCalls db (calls ++ [call])) := by
  rw [dunningCalls_append]
  constructor
  · intro hearly
    have hrow := dunningCalls_early hsub hstatus hpast hstage calls fun c hc =>
      hearly c (List.mem_append_left _ hc)
    have hwrote := callDunning_early call hrow hstatus hpast rfl (hearly call (by simp))
    refine ⟨_, _, rfl, rfl, ?_, hrow, ?_⟩
    · rw [latest_append]
      exact checkpointDue_mono (le_max_left _ _)
    · rw [latest_append, checkpointDue_max]
      simp only [lt_max_iff, lt_irrefl, false_or]
      generalize checkpointDue pastDueAt (latest pastDueAt calls) = stage at *
      generalize checkpointDue pastDueAt (callTime call) = due at *
      by_cases hlt : stage < due
      · simpa only [if_pos hlt, max_eq_right hlt.le, atStage_atStage] using hwrote
      · simpa only [if_neg hlt, atStage_atStage] using hwrote
  · intro hearly hlate
    have hrow := dunningCalls_early hsub hstatus hpast hstage calls hearly
    simpa using callDunning_late call hrow hstatus hpast rfl hlate
  · intro hlate
    obtain ⟨ended, hended, hexpired⟩ := dunningCalls_late hsub hstatus hpast hstage calls hlate
    obtain ⟨status, hwrote⟩ := callDunning_after call hended (by simp [hexpired])
    exact ⟨ended, status, hended, hexpired, hwrote⟩

end Runs

def Database.expiredRows (db : Database) : List AuditRow :=
  db.audits.filter fun row => row.action = .expired

section ExpiredRows

theorem expiredRows_audit {action : AuditAction} (haction : action ≠ .expired) (actor : Option ℕ)
    (metadata : Dict) : Program.Keeps Database.expiredRows (audit action actor metadata) := by
  refine Program.keeps_query fun env db => ?_
  split
  · simp [Database.expiredRows, haction]
  · rfl

theorem expiredRows_save (sub : Subscription) :
    Program.Keeps Database.expiredRows (saveSubscription sub) := by
  refine Program.keeps_query fun env db => ?_
  split
  · split <;> rfl
  · rfl

theorem expiredRows_refetch (sub : Subscription) :
    Program.Keeps Database.expiredRows (refetchReplacement sub) := by
  have hask : ∀ request, Program.Keeps Database.expiredRows (razorpay request) := by
    intro request env s
    unfold razorpay
    dsimp only
    split <;> rfl
  unfold refetchReplacement
  split
  · exact Program.keeps_raise _
  · refine Program.Keeps.bind ?_ fun _ => Program.keeps_pure _
    refine ((hask _).bind fun _ => Program.keeps_pure _).handle fun e => ?_
    split
    · exact Program.keeps_pure _
    · exact Program.keeps_raise _

theorem expiredRows_abandonAfter (r : Applied) (reason : String) :
    Program.Keeps Database.expiredRows (abandonAfter r reason) := by
  have hretire : ∀ sub entity,
      Program.Keeps Database.expiredRows (retireReplacement sub entity reason none) :=
    fun sub entity => Program.keeps_ask.bind fun _ =>
      Program.Keeps.bind
        (Program.Keeps.bind (fun _ _ => rfl) fun _ => Program.keeps_modify fun _ => rfl)
        fun _ => (expiredRows_audit (by decide) _ _).bind fun _ => Program.keeps_pure _
  have habandon : Program.Keeps Database.expiredRows
      (abandonUnlessActive r.sub reason notActive none) := by
    unfold abandonUnlessActive
    split
    · exact Program.keeps_pure _
    · refine (expiredRows_refetch r.sub).bind fun found => ?_
      split
      · exact Program.keeps_pure _
      · split
        · exact Program.keeps_pure _
        · split
          · exact Program.keeps_pure _
          · exact (hretire _ _).bind fun _ => Program.keeps_pure _
  unfold abandonAfter
  split
  · exact habandon.bind fun _ => Program.keeps_pure _
  · exact Program.keeps_pure _

theorem expiredRows_storeSnapshot (r : Applied) (status : String) (started : Time) :
    Program.Keeps Database.expiredRows (storeSnapshot r status started) := by
  have hreset : ∀ sub, Program.Keeps Database.expiredRows (resetUsagePeriod sub) := by
    intro sub
    refine Program.keeps_query fun env db => ?_
    split
    · split
      · rfl
      · split <;> rfl
    · rfl
  refine (expiredRows_save _).bind fun _ => Program.Keeps.bind ?_ fun _ => Program.keeps_pure _
  exact ((hreset _).bind fun _ => Program.keeps_pure _).whenever

end ExpiredRows

structure ExpiredOnce (db db' : Database) : Prop where
  row : ∃ sub', db'.sub? = some sub' ∧ sub'.status = .expired ∧ sub'.pastDueAt = none ∧
    sub'.dunningStage = none
  audited : db'.expiredRows = db.expiredRows ++ [expiredRowOf]

section Race

variable {env : Env} {s : State} {sub : Subscription} {entity : Dict}
    {invoices : Option (List Json)}
  {started pastDueAt : Time} {plan : Plan} {status : String} {db db' : Database}

theorem ungraced_of_expired (hsub : db.sub? = some sub) (h : sub.status = .expired) :
    sub.pastDueAt = none ∧ sub.dunningStage = none :=
  ungraced (Database.checks hsub) (by simp [h])

theorem applySnapshot_audits (hsub : s.data.sub? = some sub) (hstatus : sub.status = .pastDue)
    (hpast : sub.pastDueAt = some pastDueAt)
    (hover : pastDueAt + grace ≤ env.oracle.clock s.journal.ticks)
    (hterminal : status ∈ terminalProviderStatuses)
    (ha : Accepts env.settings sub entity started plan status) :
    Program.returns env (applySnapshot entity invoices started none)
      (fun _ t => t.data.expiredRows = s.data.expiredRows ++ [expiredRowOf]) s := by
  have hactive : status ≠ "active" := by rintro rfl; simp [terminalProviderStatuses] at hterminal
  have hfailed : status ∉ failedProviderStatuses := by
    intro h
    simp only [failedProviderStatuses, terminalProviderStatuses, List.mem_cons,
      List.not_mem_nil, or_false] at *
    rcases h with rfl | rfl <;> simp at hterminal
  have hcommitted : ¬ committedDowngradeReplacement sub = true := by
    simp [committedDowngradeReplacement, hstatus]
  rw [Program.returns, wp_applySnapshot hsub ha]
  unfold applyStatus
  rw [if_neg hactive, if_neg hfailed, if_pos hterminal, if_neg hcommitted]
  unfold applyTerminal
  rw [hstatus, hpast]
  dsimp only
  have hexpired : graceEnd pastDueAt (env.oracle.clock s.journal.ticks) = .expired := if_pos hover
  rw [hexpired, if_pos rfl]
  have haudit : Program.wp env (audit .expired none [("from_status", .str Status.pastDue.value),
      ("to_status", .str Status.expired.value)])
      (fun _ t => t.data.expiredRows = s.data.expiredRows ++ [expiredRowOf])
          (fun _ _ => False) s.tick := by
    rw [wp_audit]
    refine ⟨fun _ => ?_, fun h => absurd (fun _ hu => by cases hu) h⟩
    simp [State.audited, Database.expiredRows, expiredRowOf]
  refine Program.returns_bind
    (P := fun _ t => t.data.expiredRows = s.data.expiredRows ++ [expiredRowOf]) ?_ ?_
  · refine Program.returns_bind
      (P := fun _ t => t.data.expiredRows = s.data.expiredRows ++ [expiredRowOf])
      (Program.returns_bind (Program.returns_of_wp haudit) fun _ _ h => h) ?_
    rintro r t ht
    exact Program.wp_mono ((expiredRows_abandonAfter r _).wp env t) (fun _ _ h => h.trans ht)
      fun _ _ _ => trivial
  · rintro r t ht
    exact Program.wp_mono ((expiredRows_storeSnapshot r _ _).wp env t) (fun _ _ h => h.trans ht)
      fun _ _ _ => trivial

theorem mapping_terminal_grace (hpast : sub.pastDueAt = some pastDueAt) {now : Time}
    (hover : pastDueAt + grace ≤ now) (hterminal : status ∈ terminalProviderStatuses) :
    mapping (tableInput sub entity invoices now) .pastDue status = .becomes .expired := by
  have hgrace : (tableInput sub entity invoices now).graceOver = true := by
    simp [tableInput, hpast, hover]
  unfold mapping
  rw [terminalProviderStatuses_iff] at hterminal
  rw [if_neg (by rintro rfl; simp at hterminal),
    if_neg (by rintro (rfl | rfl) <;> simp at hterminal),
    if_pos hterminal]
  dsimp only
  rw [if_pos hgrace]

theorem mapping_terminal_expired {x : TableInput} (hterminal : status ∈ terminalProviderStatuses) :
    mapping x .expired status = .noChange := by
  unfold mapping
  rw [terminalProviderStatuses_iff] at hterminal
  rw [if_neg (by rintro rfl; simp at hterminal),
    if_neg (by rintro (rfl | rfl) <;> simp at hterminal),
    if_pos hterminal]

/-- A snapshot of a row in grace at the cutoff ends the episode, or is dropped or refused. -/
theorem snapshotApplied_grace (env : Env) (invoices : Option (List Json)) (started : Time)
    (hsub : db.sub? = some sub) (hstatus : sub.status = .pastDue)
    (hpast : sub.pastDueAt = some pastDueAt) (hover : pastDueAt + grace ≤ callTime env)
    (hreported : (entity.get "status").str? = some status)
    (hterminal : status ∈ terminalProviderStatuses) :
    snapshotApplied db env entity invoices started = db ∨
      ExpiredOnce db (snapshotApplied db env entity invoices started) := by
  refine run_data (P := fun db' => db' = db ∨ ExpiredOnce db db') ?_
  by_cases haccepts : ∃ plan status, Accepts env.settings sub entity started plan status
  · obtain ⟨plan, status', ha⟩ := haccepts
    obtain rfl : status = status' :=
      Option.some.inj (hreported.symm.trans (Json.str?_eq_some.mpr ha.status))
    have hcell : mapping (tableInput sub entity invoices (env.oracle.clock 0)) sub.status status =
        .becomes .expired := by
      rw [hstatus]
      exact mapping_terminal_grace hpast hover hterminal
    refine Program.wp_mono
      (Program.wp_and (Program.wp_and (holds_becomes (s := ⟨db, .empty⟩) hsub ha hcell)
      (applySnapshot_audits hsub hstatus hpast hover hterminal ha)) (Program.savepoint_raises _))
        ?_ ?_
    · rintro _ t ⟨⟨⟨sub', hrow, hexpired, -⟩, haudits⟩, -⟩
      exact Or.inr ⟨⟨_, hrow, hexpired, ungraced_of_expired hrow hexpired⟩, haudits⟩
    · rintro _ t ⟨-, hdata⟩
      exact Or.inl hdata
  · exact Program.wp_mono (applySnapshot_dropped (s := ⟨db, .empty⟩) hsub fun plan status ha =>
      haccepts ⟨plan, status, ha⟩) (fun _ _ h => Or.inl h.2) (fun _ _ h => h.elim)

theorem snapshotApplied_expired (hsub : db.sub? = some sub) (hstatus : sub.status = .expired)
    (hreported : (entity.get "status").str? = some status)
    (hterminal : status ∈ terminalProviderStatuses) :
    ∃ sub', (snapshotApplied db env entity invoices started).sub? = some sub' ∧
    sub'.status = .expired ∧
      (snapshotApplied db env entity invoices started).expiredRows = db.expiredRows := by
  refine run_data (P := fun db' => ∃ sub', db'.sub? = some sub' ∧ sub'.status = .expired ∧
    db'.expiredRows = db.expiredRows) ?_
  have hkept : ∀ t : State, t.data = db → ∃ sub', t.data.sub? = some sub' ∧ sub'.status = .expired ∧
      t.data.expiredRows = db.expiredRows := by
    intro t ht
    rw [ht]
    exact ⟨sub, hsub, hstatus, rfl⟩
  by_cases haccepts : ∃ plan status, Accepts env.settings sub entity started plan status
  · obtain ⟨plan, status', ha⟩ := haccepts
    obtain rfl : status = status' :=
      Option.some.inj (hreported.symm.trans (Json.str?_eq_some.mpr ha.status))
    have hcell : mapping (tableInput sub entity invoices (env.oracle.clock 0)) sub.status status =
        .noChange := by
      rw [hstatus]
      exact mapping_terminal_expired hterminal
    refine Program.wp_mono (holds_noChange (s := ⟨db, .empty⟩) hsub ha hcell) ?_ fun _ _ h => h.elim
    rintro _ t ⟨hrow, hdata, -⟩
    refine ⟨_, hrow, hstatus, ?_⟩
    rw [hdata]
    rfl
  · exact Program.wp_mono (applySnapshot_dropped (s := ⟨db, .empty⟩) hsub fun plan status ha =>
      haccepts ⟨plan, status, ha⟩) (fun _ t h => hkept t h.2) (fun _ _ h => h.elim)

theorem ExpiredOnce.of_wrote {status : Option String}
    (h : Wrote (withProviderStatus (graceExpired sub) status) [expiredRowOf] db db') :
    ExpiredOnce db db' := by
  refine ⟨⟨_, h.row, rfl, rfl, rfl⟩, ?_⟩
  unfold Database.expiredRows
  rw [h.audits, List.filter_append]
  rfl

theorem ExpiredOnce.trans {db'' : Database} (h : ExpiredOnce db db')
    (h' : ∀ sub, db'.sub? = some sub → sub.status = .expired →
      ∃ sub', db''.sub? = some sub' ∧ sub'.status = .expired ∧ db''.expiredRows = db'.expiredRows) :
    ExpiredOnce db db'' := by
  obtain ⟨sub, hsub, hexpired, -⟩ := h.row
  obtain ⟨sub', hsub', hexpired', hrows⟩ := h' sub hsub hexpired
  exact ⟨⟨sub', hsub', hexpired', ungraced_of_expired hsub' hexpired'⟩, hrows.trans h.audited⟩

theorem race_expires {call : Env} (hsub : db.sub? = some sub) (hstatus : sub.status = .pastDue)
    (hpast : sub.pastDueAt = some pastDueAt) (hover : pastDueAt + grace ≤ callTime env)
    (hlate : pastDueAt + grace ≤ callTime call)
    (hreported : (entity.get "status").str? = some status)
    (hterminal : status ∈ terminalProviderStatuses) :
    ExpiredOnce db (callDunning (snapshotApplied db env entity invoices started) call) ∧
      ExpiredOnce db (snapshotApplied (callDunning db call) env entity invoices started) := by
  obtain ⟨stage, hstage⟩ := Option.isSome_iff_exists.mp
    ((Database.checks hsub).dunningEpisode.mpr (by simp [hpast]))
  have hcalled : ExpiredOnce db (callDunning db call) := by
    obtain ⟨status, hwrote⟩ := callDunning_late call hsub hstatus hpast hstage hlate
    exact .of_wrote hwrote
  constructor
  · rcases snapshotApplied_grace env invoices started hsub hstatus hpast hover hreported
      hterminal with hkept | hended
    · rw [hkept]
      exact hcalled
    · refine hended.trans fun sub' hsub' hexpired => ?_
      obtain ⟨status, hwrote⟩ := callDunning_after call hsub' (by simp [hexpired])
      refine ⟨_, hwrote.row, hexpired, ?_⟩
      unfold Database.expiredRows
      rw [hwrote.audits, List.append_nil]
  · exact hcalled.trans fun sub' hsub' hexpired =>
      snapshotApplied_expired hsub' hexpired hreported hterminal

end Race

/-- The dunning clock of an episode that begins at `pastDueAt`, over all calls, and its race with
a terminal snapshot at the cutoff. -/
theorem dunning_clock {db : Database} {sub : Subscription} {pastDueAt : Time}
    (hsub : db.sub? = some sub)
    (hstatus : sub.status = .pastDue) (hpast : sub.pastDueAt = some pastDueAt) :
    (sub.dunningStage = some 0 → ∀ calls call,
      NextCall sub pastDueAt calls call (dunningCalls db calls)
      (dunningCalls db (calls ++ [call]))) ∧
    ∀ env call entity invoices started status, (entity.get "status").str? = some status →
      status ∈ terminalProviderStatuses → pastDueAt + grace ≤ callTime env →
        pastDueAt + grace ≤ callTime call →
      ExpiredOnce db (callDunning (snapshotApplied db env entity invoices started) call) ∧
        ExpiredOnce db (snapshotApplied (callDunning db call) env entity invoices started) :=
  ⟨fun hstage => dunningCalls_next hsub hstatus hpast hstage,
      fun _ _ _ _ _ _ hreported hterminal hover hlate =>
    race_expires hsub hstatus hpast hover hlate hreported hterminal⟩

def haltedSub : Subscription where
  plan := starter
  status := .pastDue
  currentPeriodStart := some (seconds 500)
  currentPeriodEnd := some (seconds 2000)
  paymentProviderRef := some refA
  pastDueAt := some (seconds 1000)
  dunningStage := some 0
  providerStatus := some "halted"

def inGrace : Database := rowless.withRow haltedSub (by decide)

def unreached (now : ℤ) : Env := ({} : Answers).at now

def takesCancel (now : ℤ) : Env := ({ cancel := .ok (entityA "cancelled" 0 0) } : Answers).at now

theorem dunning_clock_halted :
    NextCall haltedSub (seconds 1000) [unreached 400000] (unreached 300000)
        (dunningCalls inGrace [unreached 400000])
        (dunningCalls inGrace [unreached 400000, unreached 300000]) ∧
      ExpiredOnce inGrace (callDunning
        (snapshotApplied inGrace (unreached 700000) (entityA "cancelled" 0 0) none 0)
        (unreached 700000)) := by
  have h := @dunning_clock inGrace haltedSub (seconds 1000) rfl rfl rfl
  exact ⟨h.1 rfl [unreached 400000] (unreached 300000),
    (h.2 (unreached 700000) (unreached 700000) (entityA "cancelled" 0 0) none 0
    "cancelled" rfl (by decide)
      (by decide) (by decide)).1⟩

/-- The first late call expires the row, and the next one stores what the provider says of the
owed cancel. -/
theorem expired_row_written :
    seconds 1000 + grace ≤ callTime (unreached 700000) ∧
      ((dunningCalls inGrace [unreached 700000]).sub?.map (·.status)) = some .expired ∧
      (dunningCalls inGrace [unreached 700000, takesCancel 700001]).sub? ≠
        (dunningCalls inGrace [unreached 700000]).sub? := by
  refine ⟨by decide, by decide, by decide⟩

end ReviewFlow.Billing
