import ReviewFlow.Billing.Replacement

/-!
# The downgrade commit point and the retired slot

T1 verifies the re-read replacement and stores the commit mark; the provider
cancel of the old subscription follows outside any transaction; T2 stores its
outcome. `reissueRead` and `reissueConfirm` are the two transactions of the
sweep's retry of an unconfirmed cancel.
-/

namespace ReviewFlow.Billing

open Savepoint

inductive ReplacementKind where
  | upgrade
  | downgrade
  deriving DecidableEq

def replacementEnabled (settings : Settings) (kind : ReplacementKind) : Bool :=
  match kind with
  | .upgrade => match settings.replacementUpgradeEnabled with | .bool b => b | _ => false
  | .downgrade => match settings.replacementDowngradeEnabled with | .bool b => b | _ => false

def replacementWindow (settings : Settings) (kind : ReplacementKind) : Option Time :=
  let value := match kind with
    | .upgrade => settings.replacementUpgradeAuthWindow
    | .downgrade => settings.replacementDowngradeExpireMargin
  (value.int?.filter fun n => decide (0 < n)).map seconds

def isDowngrade (sub : Subscription) : Bool :=
  match sub.replacementPlan with
  | some target => decide (target.monthlyPrice < sub.plan.monthlyPrice)
  | none => false

/-- `entity.get("plan_id") == target.provider_plan_id`. -/
def isPlanId (value : Json) (providerPlanId : Option String) : Bool :=
  match value, providerPlanId with
  | .str id, some planId => id == planId
  | .null, none => true
  | _, _ => false

/-- `_downgrade_verified`. An ACTIVE row has a period end, and a row with a replacement
has its deadline. -/
def downgradeVerified (settings : Settings) (sub : Subscription) (entity : Dict)
    (now : Time) : Bool :=
  match settings.downgradeStartField, settings.downgradeExpiryField,
    replacementWindow settings .downgrade, sub.replacementPlan with
  | some startField, some expiryField, some margin, some target =>
    match (entity.get startField).int?, (entity.get expiryField).int?, sub.currentPeriodEnd,
      sub.replacementExpiresAt with
    | some start, some expiry, some stop, some deadline =>
      statusIn ["authenticated"] entity && isPlanId (entity.get "plan_id") target.providerPlanId &&
        decide (start = toUnix stop) && decide (expiry = toUnix deadline) &&
        decide (now < seconds expiry) && decide (now < stop - margin)
    | _, _, _, _ => false
  | _, _, _, _ => false

def commitCandidate (sub : Subscription) : Bool :=
  decide (sub.status = .active) && sub.replacementProviderRef.isSome &&
    sub.replacementCommittedAt.isNone

structure CommitRefs where
  oldRef : Option Ref
  replRef : Ref
  deriving DecidableEq

def commitRefs (sub : Subscription) : Option CommitRefs :=
  sub.replacementProviderRef.map fun ref => ⟨sub.paymentProviderRef, ref⟩

def storeCommit (sub : Subscription) (entity : Dict) (now : Time) (verified : Bool) :
    Prog (Option CommitRefs) :=
  if verified = false then do
    let a ← abandonUnlessActive sub "verification_failed" notActive (some entity)
    Program.whenever (a.abandoned = true) (saveSubscription a.sub)
    pure none
  else do
    saveSubscription { sub with replacementCommittedAt := some now }
    audit .replacementCommitted none
      [("from_plan", .str sub.plan.name),
        ("to_plan", (sub.replacementPlan.map fun p => Json.str p.name).getD .null),
        ("effective", .str "REPLACEMENT_SCHEDULED")]
    pure (commitRefs sub)

def verifyCommit (sub : Subscription) (entity : Option Dict) : Prog (Option CommitRefs) :=
  match entity with
  | none => pure none
  | some entity =>
    if statusIn ["authenticated"] entity = false then pure none
    else do
      let now ← timezoneNow
      let env ← Program.ask
      storeCommit sub entity now (downgradeVerified env.settings sub entity now)

def commitLocked (sub : Subscription) : Prog (Option CommitRefs) :=
  if commitCandidate sub = false ∨ isDowngrade sub = false then pure none
  else do
    let entity ← refetchReplacement sub
    verifyCommit sub entity

/-- T1 of `commit_downgrade_replacement`: the references to cancel and to confirm, or
none when nothing was committed. -/
def commitT1 : Prog (Option CommitRefs) :=
  Program.savepoint do
    let row ← firstSubscription
    if row.any commitCandidate = false then pure none
    else do
      let sub ← lockSubscription
      commitLocked sub

def stillCommitted (sub : Subscription) (refs : CommitRefs) : Bool :=
  decide (sub.paymentProviderRef = refs.oldRef) &&
    decide (sub.replacementProviderRef = some refs.replRef) && sub.replacementCommittedAt.isSome

def storeConfirmed (sub : Subscription) : Prog Unit := do
  let now ← timezoneNow
  saveSubscription { sub with replacementCancelConfirmedAt := some now }

def commitT2 (refs : CommitRefs) (refused : Bool) : Prog Bool :=
  Program.savepoint do
    let sub ← lockSubscription
    if stillCommitted sub refs = false then pure false
    else if refused = false then do
      storeConfirmed sub
      pure true
    else do
      -- The old plan is unchanged, so the intent is cleared and the replacement abandoned.
      let a ← abandonUnlessActive { sub with replacementCommittedAt := none } "cancel_refused"
        notActive none
      saveSubscription a.sub
      pure false

/-- The row `_reissue_committed_cancel` looks for. -/
def unconfirmed (sub : Subscription) : Bool :=
  decide (sub.status = .active) && sub.replacementProviderRef.isSome &&
    sub.replacementCommittedAt.isSome && sub.replacementCancelConfirmedAt.isNone

/-- The unlocked read of `_reissue_committed_cancel`. -/
def reissueRead : Prog (Option CommitRefs) := do
  let row ← firstSubscription
  pure ((row.filter unconfirmed).bind commitRefs)

/-- The last transaction of `_reissue_committed_cancel`. -/
def reissueConfirm (refs : CommitRefs) : Prog Unit :=
  Program.savepoint do
    let sub ← lockSubscription
    Program.whenever (stillCommitted sub refs = true ∧ sub.replacementCancelConfirmedAt = none)
      (storeConfirmed sub)

def retiredMayBeCancelled (kind : Option RetiredKind) (status : String) : Bool :=
  if status ∈ terminalProviderStatuses then false
  else match kind with
    | some .switchedOld => true
    | _ => decide (status ∈ ["created", "authenticated"])

def clearRetired (ref : Ref) : Prog Unit :=
  Program.savepoint do
    let sub ← lockSubscription
    Program.whenever (sub.retiredProviderRef = some ref) do
      saveSubscription { sub with retiredProviderRef := none, retiredKind := none }
      markEventsProcessed (some ref)

structure Stored (sub sub' : Subscription) (db db' : Database) : Prop where
  before : db.sub? = some sub
  after : db'.sub? = some sub'
  usage : db'.usage = db.usage
  events : db'.events = db.events

inductive CommitPost (result : Option CommitRefs) (s t : State) : Prop
  | kept (none : result = none) (same : Untouched s.data t.data)
  | abandoned (sub sub' : Subscription) (none : result = none)
      (uncommitted : sub.replacementCommittedAt = .none)
      (done : Retires t.journal.calls sub sub' s.data t.data)
  | committed (sub : Subscription) (now : Time) (refs : CommitRefs) (result : result = some refs)
      (candidate : commitCandidate sub = true) (refs : commitRefs sub = some refs)
      (done : Stored sub { sub with replacementCommittedAt := some now } s.data t.data)

inductive OutcomePost (env : Env) (refs : CommitRefs) (refused : Bool) (s t : State) : Prop
  | kept (same : Untouched s.data t.data)
  | confirmed (sub : Subscription) (now : Time) (accepted : refused = false)
      (still : stillCommitted sub refs = true)
      (done : Stored sub { sub with replacementCancelConfirmedAt := some now } s.data t.data)
  | cleared (sub : Subscription) (refused : refused = true)
      (still : stillCommitted sub refs = true)
      (kept : ¬ Abandonable env sub s.journal.calls.length)
      (done : Stored sub { sub with replacementCommittedAt := none } s.data t.data)
  | undone (sub sub' : Subscription) (refused : refused = true)
      (still : stillCommitted sub refs = true) (before : s.data.sub? = some sub)
      (row : Abandons t.journal.calls { sub with replacementCommittedAt := none } sub')
      (after : t.data.sub? = some sub') (usage : t.data.usage = s.data.usage)
      (events : Marked (fun e => sub.replacementProviderRef = some e.providerRef) s.data.events
        t.data.events)

section Rules

variable {env : Env} {s : State}

theorem Stored.of_save {sub sub' : Subscription} {s t u : State} (hsub : s.data.sub? = some sub)
    (ht : Untouched s.data t.data) (hu : u.data.sub? = some sub')
    (hd : u.data = { t.data with subscription := u.data.subscription }) :
    Stored sub sub' s.data u.data :=
  ⟨hsub, hu, by rw [hd]; exact ht.usage, by rw [hd]; exact ht.events⟩

theorem Stored.logs {sub sub' : Subscription} {db : Database} {t u : State}
    (h : Stored sub sub' db t.data) (hu : LogsOnly t u) : Stored sub sub' db u.data :=
  ⟨h.before, hu.sub?.trans h.after, hu.usage.trans h.usage, hu.events.trans h.events⟩

theorem storeCommit_spec {sub : Subscription} {entity : Dict} {now : Time} {verified : Bool}
    (hsub : s.data.sub? = some sub) (hcand : commitCandidate sub = true)
    (hread : ReRead s.journal.calls sub entity) :
    Program.returns env (storeCommit sub entity now verified)
      (fun r t => CommitPost r s t) s := by
  unfold storeCommit
  rw [Program.returns, Program.wp_ite]
  refine ⟨fun _ => ?_, fun _ => ?_⟩
  · refine Program.returns_bind (abandonUnlessActive_spec (by rintro _ ⟨⟩; exact hread)) ?_
    intro a t ht
    rw [Program.returns, Program.wp_bind, Program.wp_whenever]
    refine ⟨fun ha => ?_, fun ha => .kept rfl (.of_eq (ht.kept (by simpa using ha)).2)⟩
    refine Program.returns_mono saveSubscription_spec ?_
    rintro _ u ⟨hj, hu, hd⟩
    obtain ⟨-, -, -, -, hn, -, -⟩ := ht.moved ha
    refine .abandoned sub a.sub rfl hn (.of_saved hsub (ht.beside.mono fun _ _ h => h.2) ?_ hu hd)
    rw [hj]
    exact ht.abandons (fun _ h => h) ha
  · refine Program.returns_bind saveSubscription_spec ?_
    rintro _ t ⟨-, ht, hd⟩
    refine Program.returns_bind (Program.returns_of_wp audit_spec) fun _ u hu => ?_
    have hrefs : ∃ refs, commitRefs sub = some refs := by
      unfold commitCandidate at hcand
      rw [Bool.and_eq_true, Bool.and_eq_true] at hcand
      obtain ⟨ref, href⟩ := Option.isSome_iff_exists.mp hcand.1.2
      exact ⟨⟨sub.paymentProviderRef, ref⟩, by rw [commitRefs, href]; rfl⟩
    obtain ⟨refs, hrefs⟩ := hrefs
    exact .committed sub now refs hrefs hcand hrefs
      ((Stored.of_save hsub (.refl _) ht hd).logs hu)

theorem commitT1_spec : Program.returns env commitT1 (fun r t => CommitPost r s t) s := by
  unfold commitT1
  refine Program.returns_savepoint ?_
  rw [Program.returns, Program.wp_bind, wp_firstSubscription, Program.wp_ite]
  refine ⟨fun _ => .kept rfl (.refl _), fun _ => ?_⟩
  rw [Program.wp_bind, wp_lockSubscription]
  refine ⟨fun sub hsub => ?_, fun _ => trivial⟩
  unfold commitLocked
  rw [Program.wp_ite]
  refine ⟨fun _ => .kept rfl (.refl _), fun hc => ?_⟩
  rw [not_or, Bool.not_eq_false] at hc
  refine Program.returns_bind refetchReplacement_spec ?_
  rintro r t ⟨ht, hr⟩
  have kept : CommitPost none s t := .kept rfl (.of_eq ht)
  unfold verifyCommit
  cases r with
  | none => exact kept
  | some entity =>
    simp only [Program.returns, Program.wp_ite]
    refine ⟨fun _ => kept, fun _ => ?_⟩
    rw [Program.wp_bind, wp_timezoneNow, Program.wp_bind, Program.wp_ask]
    have hsub' : (State.tick t).data.sub? = some sub := by rw [State.tick_data, ht]; exact hsub
    refine Program.returns_mono (storeCommit_spec hsub' hc.1 (hr entity rfl)) fun r u hu => ?_
    have hts : (State.tick t).data = s.data := ht
    cases hu with
    | kept hn same => exact .kept hn (hts ▸ same)
    | abandoned a b hn huc hd => exact .abandoned a b hn huc (hts ▸ hd)
    | committed a now refs hres hcand hrefs hd =>
      exact .committed a now refs hres hcand hrefs (hts ▸ hd)

theorem storeConfirmed_spec {sub : Subscription} (hsub : s.data.sub? = some sub) :
    Program.returns env (storeConfirmed sub)
      (fun _ t => ∃ now, Stored sub { sub with replacementCancelConfirmedAt := some now } s.data
        t.data) s := by
  unfold storeConfirmed
  rw [Program.returns, Program.wp_bind, wp_timezoneNow]
  refine Program.returns_mono saveSubscription_spec ?_
  rintro _ t ⟨-, ht, hd⟩
  exact ⟨_, Stored.of_save (t := s.tick) hsub (.refl _) ht hd⟩

theorem commitT2_spec {refs : CommitRefs} {refused : Bool} :
    Program.returns env (commitT2 refs refused)
    (fun _ t => OutcomePost env refs refused s t) s := by
  unfold commitT2
  refine Program.returns_savepoint ?_
  rw [Program.returns, Program.wp_bind, wp_lockSubscription]
  refine ⟨fun sub hsub => ?_, fun _ => trivial⟩
  rw [Program.wp_ite]
  refine ⟨fun _ => .kept (.refl _), fun hstill => ?_⟩
  rw [Bool.not_eq_false] at hstill
  rw [Program.wp_ite]
  refine ⟨fun hr => ?_, fun hr => ?_⟩
  · refine Program.returns_bind (storeConfirmed_spec hsub) ?_
    rintro _ t ⟨now, ht⟩
    exact .confirmed sub now hr hstill ht
  · rw [Bool.not_eq_false] at hr
    have hab : Program.returns env (abandonUnlessActive { sub with replacementCommittedAt := none }
        "cancel_refused" notActive none)
        (fun r _ => r.abandoned = true ↔
          GivenUp env { sub with replacementCommittedAt := none } s.journal.calls.length) s :=
      Program.returns_of_wp abandonUnlessActive_iff
    refine Program.returns_bind (Program.returns_of_wp (Program.wp_and
      (abandonUnlessActive_spec (by simp)) hab)) ?_
    rintro a t ⟨ht, hab⟩
    refine Program.returns_bind saveSubscription_spec ?_
    rintro _ u ⟨hj, hu, hd⟩
    cases ha : a.abandoned with
    | false =>
      obtain ⟨hs, hdt⟩ := ht.kept ha
      refine .cleared sub hr hstill (fun h => ?_) (.of_save hsub (.of_eq hdt) (hs ▸ hu) hd)
      rw [hab.mpr ⟨rfl, h⟩] at ha
      cases ha
    | true =>
      refine .undone sub a.sub hr hstill hsub ?_ hu ?_ ?_
      · rw [hj]
        exact ht.abandons (fun _ h => h) ha
      · rw [hd]
        exact ht.beside.usage
      · rw [hd]
        exact ht.beside.events.mono fun _ _ h => h.2

theorem reissueConfirm_spec {refs : CommitRefs} :
    Program.returns env (reissueConfirm refs)
      (fun _ t => Untouched s.data t.data ∨ ∃ sub now, stillCommitted sub refs = true ∧
        Stored sub { sub with replacementCancelConfirmedAt := some now } s.data t.data) s := by
  unfold reissueConfirm
  refine Program.returns_savepoint ?_
  rw [Program.returns, Program.wp_bind, wp_lockSubscription]
  refine ⟨fun sub hsub => ?_, fun _ => trivial⟩
  rw [Program.wp_whenever]
  refine ⟨fun hc => ?_, fun _ => Or.inl (.refl _)⟩
  refine Program.returns_mono (storeConfirmed_spec hsub) ?_
  rintro _ t ⟨now, ht⟩
  exact Or.inr ⟨sub, now, hc.1, ht⟩

structure RetiredCleared (ref : Ref) (sub : Subscription) (db db' : Database) : Prop where
  before : db.sub? = some sub
  held : sub.retiredProviderRef = some ref
  after : db'.sub? = some { sub with retiredProviderRef := none, retiredKind := none }
  usage : db'.usage = db.usage
  events : Marked (fun e => ref = e.providerRef) db.events db'.events

theorem clearRetired_spec {ref : Ref} :
    Program.returns env (clearRetired ref)
      (fun _ t => Untouched s.data t.data ∨ ∃ sub, RetiredCleared ref sub s.data t.data) s := by
  unfold clearRetired
  refine Program.returns_savepoint ?_
  rw [Program.returns, Program.wp_bind, wp_lockSubscription]
  refine ⟨fun sub hsub => ?_, fun _ => trivial⟩
  rw [Program.wp_whenever]
  refine ⟨fun hr => ?_, fun _ => Or.inl (.refl _)⟩
  refine Program.returns_bind saveSubscription_spec ?_
  rintro _ t ⟨-, ht, hd⟩
  refine Program.returns_mono markEventsProcessed_spec fun _ u hu =>
    Or.inr ⟨sub, hsub, hr, ?_, ?_, ?_⟩
  · exact hu.sub?.trans ht
  · rw [hu.usage, hd]
  · have he : t.data.events = s.data.events := by rw [hd]
    rw [← he]
    exact hu.events.mono fun _ _ h => Option.some.inj h

end Rules

end ReviewFlow.Billing
