import ReviewFlow.Billing.Snapshot

/-!
# Applying a fetched replacement

A replacement that the provider reports `active` and proven paid takes over the
row (`switched`); a failed or lapsed one is abandoned. A committed downgrade
replacement is given up only when the provider reports that it failed.
-/

namespace ReviewFlow.Billing

open Savepoint

/-- `sub.replacement_provider_ref == entity.get("id")`, for an id that is not empty. -/
def namesReplacement (sub : Subscription) (entity : Dict) : Bool :=
  match sub.replacementProviderRef with
  | some ref => (entity.get "id").isStr ref.val
  | none => false

def clearFailedCommitted (sub : Subscription) : Prog SnapshotResult := do
  let entity ← refetchReplacement sub
  match entity with
  | none => pure ⟨false, false⟩
  | some entity =>
    if statusIn replacementFailed entity = false then pure ⟨false, false⟩
    else if sub.retiredProviderRef ≠ none then pure ⟨false, false⟩
    else do
      let sub ← retireReplacement sub entity "committed_replacement_failed" none
      saveSubscription sub
      pure ⟨true, true⟩

def effectiveSwitch (sub : Subscription) (plan : Plan) : String :=
  if plan.monthlyPrice < sub.plan.monthlyPrice then "REPLACEMENT_SCHEDULED"
  else "REPLACEMENT_IMMEDIATE"

/-- The row after a switch, from the row that `_apply_active` left. -/
def switched (sub : Subscription) (departing : Option Ref) (status : String) (started : Time) :
    Subscription :=
  { sub with
    retiredProviderRef := departing
    retiredKind := some .switchedOld
    paymentProviderRef := sub.replacementProviderRef
    replacementProviderRef := none
    replacementPlan := none
    replacementExpiresAt := none
    replacementCommittedAt := none
    replacementCancelConfirmedAt := none
    pendingPlan := none
    cancelAtPeriodEnd := false
    providerStatus := some (takeChars 16 status)
    providerSyncedAt := some started }

def storeSwitch (sub : Subscription) (departing : Option Ref) : Prog SnapshotResult := do
  saveSubscription sub
  let _ ← resetUsagePeriod sub
  Program.whenever (departing.isSome = true) (markEventsProcessed departing)
  pure ⟨true, true⟩

def switchToReplacement (sub : Subscription) (entity : Dict) (invoices : Option (List Json))
    (plan : Plan) (status : String) (started : Time) : Prog SnapshotResult :=
  match fromUnix (entity.get "current_start") with
  | none => pure ⟨false, false⟩
  | some start =>
    if sub.currentPeriodStart = some start then pure ⟨false, false⟩
    else if sub.retiredProviderRef ≠ none then pure ⟨false, false⟩
    else do
      let r ← applyActive sub entity invoices plan none (some (effectiveSwitch sub plan))
      if r.advanced = false then pure ⟨false, false⟩
      else storeSwitch (switched r.sub sub.paymentProviderRef status started) sub.paymentProviderRef

def auditPaidAfterEnd (sub : Subscription) (plan : Plan) : Prog Unit := do
  let db ← Program.get
  Program.whenever (∀ row ∈ db.audits, row.action ≠ .replacementPaidAfterEnd)
    (audit .replacementPaidAfterEnd none
      [("row_status", .str sub.status.value), ("plan_name", .str plan.name)])

def replacementActive (sub : Subscription) (entity : Dict) (invoices : Option (List Json))
    (status : String) (started : Time) (settings : Settings) : Prog SnapshotResult :=
  if (currentPeriodPaid entity invoices).isNone then pure ⟨false, false⟩
  else match settings.planFor (entity.get "plan_id") with
    | none => pure ⟨false, false⟩
    | some plan =>
      if sub.status.Ended then do
        auditPaidAfterEnd sub plan
        pure ⟨false, true⟩
      else if sub.status ≠ .active ∧ sub.status ≠ .pastDue then pure ⟨false, false⟩
      else switchToReplacement sub entity invoices plan status started

def abandonIfWanted (sub : Subscription) (reason : String) (abandonable : Dict → Bool)
    (wanted : Bool) : Prog SnapshotResult :=
  if wanted = false then pure ⟨false, true⟩
  else do
    let a ← abandonUnlessActive sub reason abandonable none
    if a.abandoned = false then pure ⟨false, false⟩
    else do
      saveSubscription a.sub
      pure ⟨true, true⟩

def replacementInactive (sub : Subscription) (entity : Dict) (status : String) :
    Prog SnapshotResult :=
  if sub.status ≠ .active then
    abandonIfWanted sub (if sub.status = .pastDue then "past_due" else "row_ended") notActive
      (decide (status ∈ replacementNotActive))
  else do
    let now ← timezoneNow
    abandonIfWanted sub
      (if status ∈ replacementFailed then "provider_failed" else "deadline_passed")
      (failedOrLapsed now sub.replacementExpiresAt)
      (failedOrLapsed now sub.replacementExpiresAt entity)

/-- `_apply_replacement_snapshot` on the locked row. -/
def replacementLocked (sub : Subscription) (entity : Dict) (invoices : Option (List Json))
    (started : Time) (settings : Settings) : Prog SnapshotResult :=
  match (entity.get "status").str? with
  | none => pure ⟨false, false⟩
  | some status =>
    if namesReplacement sub entity = false then pure ⟨false, false⟩
    else if status = "active" then replacementActive sub entity invoices status started settings
    else if sub.replacementCommittedAt ≠ none then
      if status ∈ replacementFailed then clearFailedCommitted sub else pure ⟨false, true⟩
    else replacementInactive sub entity status

def applyReplacementSnapshot (entity : Dict) (invoices : Option (List Json)) (started : Time) :
    Prog SnapshotResult :=
  Program.savepoint do
    let sub ← lockSubscription
    let env ← Program.ask
    replacementLocked sub entity invoices started env.settings

structure Retires (calls : List Call) (sub sub' : Subscription) (db db' : Database) : Prop where
  before : db.sub? = some sub
  row : Abandons calls sub sub'
  after : db'.sub? = some sub'
  usage : db'.usage = db.usage
  events : Marked (fun e => sub.replacementProviderRef = some e.providerRef) db.events db'.events

structure Switched (settings : Settings) (entity : Dict) (invoices : Option (List Json))
    (started : Time) (sub : Subscription) (plan : Plan) (status : String) (start stop : Time)
    (db db' : Database) : Prop where
  before : db.sub? = some sub
  names : namesReplacement sub entity = true
  entitled : sub.status = .active ∨ sub.status = .pastDue
  free : sub.retiredProviderRef = none
  known : settings.planFor (entity.get "plan_id") = some plan
  period : usablePeriod entity = some (start, stop)
  moved : sub.currentPeriodStart ≠ some start
  paid : (currentPeriodPaid entity invoices).isSome = true
  after : db'.sub? =
    some (switched (activated sub plan start stop) sub.paymentProviderRef status started)
  usage : Opened db.usage db'.usage start stop
  events : Marked (fun e => sub.paymentProviderRef = some e.providerRef) db.events db'.events

structure Untouched (db db' : Database) : Prop where
  sub : db'.subscription = db.subscription
  usage : db'.usage = db.usage
  events : db'.events = db.events

theorem Untouched.refl (db : Database) : Untouched db db := ⟨rfl, rfl, rfl⟩

theorem Untouched.of_eq {db db' : Database} (h : db' = db) : Untouched db db' := h ▸ .refl db

theorem Untouched.sub? {db db' : Database} (h : Untouched db db') : db'.sub? = db.sub? := by
  unfold Database.sub?
  rw [h.sub]

theorem LogsOnly.untouched {s t : State} (h : LogsOnly s t) : Untouched s.data t.data := by
  rw [h.2]
  exact ⟨rfl, rfl, rfl⟩

inductive ReplacementPost (settings : Settings) (entity : Dict) (invoices : Option (List Json))
    (started : Time) (s t : State) : Prop
  | kept (same : Untouched s.data t.data)
  | abandoned (sub sub' : Subscription) (uncommitted : sub.replacementCommittedAt = none)
      (done : Retires t.journal.calls sub sub' s.data t.data)
  | failed (sub sub' : Subscription) (entity : Dict)
      (read : ReRead t.journal.calls sub entity) (fails : statusIn replacementFailed entity = true)
      (done : Retires t.journal.calls sub sub' s.data t.data)
  | switched (sub : Subscription) (plan : Plan) (status : String) (start stop : Time)
      (done : Switched settings entity invoices started sub plan status start stop s.data t.data)

theorem ReplacementPost.of_data {settings : Settings} {entity : Dict}
    {invoices : Option (List Json)} {started : Time} {s s' t : State}
    (h : ReplacementPost settings entity invoices started s' t) (hs : s'.data = s.data) :
    ReplacementPost settings entity invoices started s t := by
  cases h with
  | kept same => exact .kept (hs ▸ same)
  | abandoned a b hu hd => exact .abandoned a b hu (hs ▸ hd)
  | failed a b e hr hf hd => exact .failed a b e hr hf (hs ▸ hd)
  | switched a p st x y hd => exact .switched a p st x y (hs ▸ hd)

section Rules

variable {env : Env} {s : State}

theorem saveSubscription_spec {sub : Subscription} :
    Program.returns env (saveSubscription sub)
      (fun _ t => t.journal = s.journal ∧ t.data.sub? = some sub ∧
        t.data = { s.data with subscription := t.data.subscription }) s := by
  rw [Program.returns, wp_saveSubscription]
  exact ⟨fun _ _ => ⟨rfl, rfl, rfl⟩, fun _ => trivial⟩

theorem Retires.of_saved {calls : List Call} {sub sub' : Subscription} {s t u : State}
    (hsub : s.data.sub? = some sub)
    (hb : Beside (fun e => sub.replacementProviderRef = some e.providerRef) s t)
    (hrow : Abandons calls sub sub') (hs : u.data.sub? = some sub')
    (hu : u.data = { t.data with subscription := u.data.subscription }) :
    Retires calls sub sub' s.data u.data :=
  ⟨hsub, hrow, hs, by rw [hu]; exact hb.usage, by rw [hu]; exact hb.events⟩

theorem clearFailedCommitted_spec {sub : Subscription} {settings : Settings} {entity : Dict}
    {invoices : Option (List Json)} {started : Time} (hsub : s.data.sub? = some sub) :
    Program.returns env (clearFailedCommitted sub)
      (fun _ t => ReplacementPost settings entity invoices started s t) s := by
  unfold clearFailedCommitted
  refine Program.returns_bind refetchReplacement_spec ?_
  rintro r t ⟨ht, hr⟩
  cases r with
  | none => exact .kept (.of_eq ht)
  | some e =>
    simp only [Program.returns, Program.wp_ite]
    refine ⟨fun _ => .kept (.of_eq ht), fun hf => ⟨fun _ => .kept (.of_eq ht), fun hfree => ?_⟩⟩
    refine Program.returns_bind (Program.returns_of_wp (Program.wp_grows retireReplacement_spec)) ?_
    rintro sub' u ⟨⟨⟨target, rfl⟩, hu⟩, hg⟩
    refine Program.returns_bind saveSubscription_spec ?_
    rintro _ v ⟨hj, hv, hd⟩
    have hread : ReRead v.journal.calls sub e := hj ▸ (hr e rfl).mono hg
    have hfail : statusIn replacementFailed e = true := by simpa using hf
    refine .failed sub _ e hread hfail (.of_saved hsub ((Beside.of_data ht).trans hu) ?_ hv hd)
    exact ⟨e, target, hread, statusIn_mono (List.subset_append_right _ _) hfail,
      by simpa using hfree, rfl⟩

theorem abandonIfWanted_spec {sub : Subscription} {reason : String} {abandonable : Dict → Bool}
    {wanted : Bool} {settings : Settings} {entity : Dict} {invoices : Option (List Json)}
    {started : Time} (hsub : s.data.sub? = some sub)
    (hna : ∀ e, abandonable e = true → notActive e = true) :
    Program.returns env (abandonIfWanted sub reason abandonable wanted)
      (fun _ t => ReplacementPost settings entity invoices started s t) s := by
  unfold abandonIfWanted
  rw [Program.returns, Program.wp_ite]
  refine ⟨fun _ => .kept (.refl _), fun _ => ?_⟩
  refine Program.returns_bind (abandonUnlessActive_spec (by simp)) fun a t ht => ?_
  rw [Program.returns, Program.wp_ite]
  refine ⟨fun ha => .kept (.of_eq (ht.kept ha).2), fun ha => ?_⟩
  rw [Bool.not_eq_false] at ha
  refine Program.returns_bind saveSubscription_spec ?_
  rintro _ u ⟨hj, hu, hd⟩
  obtain ⟨-, -, -, -, hn, -, -⟩ := ht.moved ha
  refine .abandoned sub a.sub hn (.of_saved hsub (ht.beside.mono fun _ _ h => h.2) ?_ hu hd)
  rw [hj]
  exact ht.abandons hna ha

theorem replacementInactive_spec {sub : Subscription} {entity : Dict} {status : String}
    {settings : Settings} {invoices : Option (List Json)} {started : Time}
    (hsub : s.data.sub? = some sub) :
    Program.returns env (replacementInactive sub entity status)
      (fun _ t => ReplacementPost settings entity invoices started s t) s := by
  unfold replacementInactive
  rw [Program.returns, Program.wp_ite]
  refine ⟨fun _ => abandonIfWanted_spec hsub fun _ h => h, fun _ => ?_⟩
  rw [Program.wp_bind, wp_timezoneNow]
  generalize env.oracle.clock s.journal.ticks = now
  have h : Program.returns env (abandonIfWanted sub
      (if status ∈ replacementFailed then "provider_failed" else "deadline_passed")
      (failedOrLapsed now sub.replacementExpiresAt)
      (failedOrLapsed now sub.replacementExpiresAt entity))
      (fun _ t => ReplacementPost settings entity invoices started s.tick t) s.tick :=
    abandonIfWanted_spec hsub fun _ => failedOrLapsed_notActive
  exact Program.returns_mono h fun _ _ ht => ht.of_data rfl

theorem switchToReplacement_spec {sub : Subscription} {entity : Dict}
    {invoices : Option (List Json)} {plan : Plan} {status : String} {started : Time}
    {settings : Settings} (hsub : s.data.sub? = some sub)
    (hnames : namesReplacement sub entity = true)
    (hstatus : sub.status = .active ∨ sub.status = .pastDue)
    (hplan : settings.planFor (entity.get "plan_id") = some plan) :
    Program.returns env (switchToReplacement sub entity invoices plan status started)
      (fun _ t => ReplacementPost settings entity invoices started s t) s := by
  unfold switchToReplacement
  cases hstart : fromUnix (entity.get "current_start") with
  | none => exact .kept (.refl _)
  | some start =>
    simp only [Program.returns, Program.wp_ite]
    refine ⟨fun _ => .kept (.refl _), fun hmoved => ⟨fun _ => .kept (.refl _), fun hfree => ?_⟩⟩
    refine Program.returns_bind (Program.returns_of_wp applyActive_spec) ?_
    rintro r t ⟨rfl, ht⟩
    rw [Program.returns, Program.wp_ite]
    refine ⟨fun _ => .kept ht.untouched, fun hadv => ?_⟩
    rw [Bool.not_eq_false] at hadv
    obtain ⟨start', stop, hp, hns, hpaid, ho⟩ := activeOutcome_advanced hadv
    obtain rfl : start' = start :=
      Option.some.inj ((usablePeriod_eq_some.mp hp).1.symm.trans hstart)
    rw [ho]
    unfold storeSwitch
    refine Program.returns_bind saveSubscription_spec ?_
    rintro _ u ⟨-, hu, hd⟩
    have hs : (switched (activated sub plan start' stop) sub.paymentProviderRef status started
      ).currentPeriodStart = some start' := (activated_period ..).1
    have he : (switched (activated sub plan start' stop) sub.paymentProviderRef status started
      ).currentPeriodEnd = some stop := (activated_period ..).2.1
    refine Program.returns_bind (Program.returns_of_wp (resetUsagePeriod_spec hs he)) ?_
    rintro _ v ⟨-, hopen, hdv⟩
    refine Program.returns_bind (P := fun _ w =>
      Beside (fun e => sub.paymentProviderRef = some e.providerRef) v w) ?_ ?_
    · rw [Program.returns, Program.wp_whenever]
      exact ⟨fun _ => markEventsProcessed_spec, fun _ => Beside.refl _ v⟩
    · intro _ w hw
      have husage : u.data.usage = s.data.usage := by rw [hd]; exact ht.usage
      have hevents : v.data.events = s.data.events := by rw [hdv, hd]; exact ht.events
      refine .switched sub plan status start' stop ⟨hsub, hnames, hstatus, by simpa using hfree,
        hplan, hp, hmoved, hpaid, ?_, ?_, ?_⟩
      · rw [hw.sub?]
        rw [Database.sub?, hdv]
        exact hu
      · rw [hw.usage, ← husage]
        exact hopen
      · rw [← hevents]
        exact hw.events

theorem applyReplacementSnapshot_spec {entity : Dict} {invoices : Option (List Json)}
    {started : Time} :
    Program.returns env (applyReplacementSnapshot entity invoices started)
      (fun _ t => ReplacementPost env.settings entity invoices started s t) s := by
  unfold applyReplacementSnapshot
  refine Program.returns_savepoint ?_
  rw [Program.returns, Program.wp_bind, wp_lockSubscription]
  refine ⟨fun sub hsub => ?_, fun _ => trivial⟩
  rw [Program.wp_bind, Program.wp_ask]
  unfold replacementLocked
  cases (entity.get "status").str? with
  | none => exact .kept (.refl _)
  | some status =>
    simp only [Program.wp_ite]
    refine ⟨fun _ => .kept (.refl _),
      fun hnames => ⟨fun _ => ?_, fun _ => ⟨fun _ => ?_, fun _ => ?_⟩⟩⟩
    · unfold replacementActive
      rw [Program.wp_ite]
      refine ⟨fun _ => .kept (.refl _), fun _ => ?_⟩
      cases hplan : env.settings.planFor (entity.get "plan_id") with
      | none => exact .kept (.refl _)
      | some plan =>
        simp only [Program.wp_ite]
        refine ⟨fun _ => ?_, fun _ => ⟨fun _ => .kept (.refl _), fun hst => ?_⟩⟩
        · unfold auditPaidAfterEnd
          rw [Program.wp_bind, Program.wp_bind, Program.wp_get, Program.wp_whenever]
          refine ⟨fun _ => ?_, fun _ => .kept (.refl _)⟩
          exact Program.returns_mono (Program.returns_of_wp audit_spec) fun _ _ h =>
            .kept h.untouched
        · rw [not_and_or, not_not, not_not] at hst
          exact switchToReplacement_spec hsub (by simpa using hnames) hst hplan
    · exact ⟨fun _ => clearFailedCommitted_spec hsub, fun _ => .kept (.refl _)⟩
    · exact replacementInactive_spec hsub

end Rules

end ReviewFlow.Billing
