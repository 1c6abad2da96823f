import ReviewFlow.Billing.Commit

/-!
# Dunning checkpoints, grace expiry and the owed provider cancel

`advance_dunning` is a transaction under the row lock, an unlocked read, a
provider call, and a conditional update that names the reference it cancelled.
-/

namespace ReviewFlow.Billing

open Savepoint

def dunningStages : List (ℕ × Time) := [(6, days 6), (3, days 3)]

def graceExpired (sub : Subscription) : Subscription :=
  clearGrace { sub with status := .expired }

def atStage (sub : Subscription) (stage : ℕ) : Subscription :=
  { sub with dunningStage := some stage }

def advanceStage (sub : Subscription) (pastDueAt now : Time) : Prog Unit :=
  match dunningStages.find? fun s => decide (pastDueAt + s.2 ≤ now) with
  | none => pure ()
  | some (stage, _) =>
    Program.whenever (∃ n ∈ sub.dunningStage, n < stage) do
      saveSubscription (atStage sub stage)
      audit .dunningCheckpoint none [("stage", .int stage)]

def advancePastDue (sub : Subscription) (now : Time) : Prog Unit :=
  match sub.pastDueAt with
  | none => Program.raise .typeError
  | some pastDueAt =>
    if pastDueAt + grace ≤ now then do
      saveSubscription (graceExpired sub)
      audit .expired none [("from_status", .str Status.pastDue.value),
        ("to_status", .str Status.expired.value)]
    else advanceStage sub pastDueAt now

def dunningLocked (now : Time) : Prog Unit := do
  let sub ← lockSubscription
  Program.whenever (sub.status = .pastDue) (advancePastDue sub now)

def dunningTransaction : Prog Unit := do
  let now ← timezoneNow
  Program.savepoint do
    let row ← firstSubscription
    Program.whenever (row.isSome = true) (dunningLocked now)

def owed (sub : Subscription) : Bool :=
  decide sub.status.Ended && sub.paymentProviderRef.isSome &&
    providerMayBeCancelled sub.providerStatus

/-- The unlocked read of `_retry_owed_provider_cancel`. -/
def owedRead : Prog (Option Ref) := do
  let row ← firstSubscription
  pure ((row.filter owed).bind (·.paymentProviderRef))

/-- `filter(pk=pk, payment_provider_ref=ref).update(provider_status=status[:16])`. -/
def updateProviderStatus (ref : Ref) (status : String) : Prog Unit :=
  Program.savepoint do
    let row ← firstSubscription
    match row with
    | none => pure ()
    | some sub =>
      Program.whenever (sub.paymentProviderRef = some ref)
        (saveSubscription { sub with providerStatus := some (takeChars 16 status) })

structure Plain (sub sub' : Subscription) (db db' : Database) : Prop extends
    Stored sub sub' db db' where
  slots : SameSlots sub sub'
  entitlement : NotEntitled sub sub'

def ProviderStatusStored (sub : Subscription) (db db' : Database) : Prop :=
  ∃ status, Stored sub { sub with providerStatus := status } db db'

theorem ProviderStatusStored.plain {sub : Subscription} {db db' : Database}
    (h : ProviderStatusStored sub db db') : ∃ sub', Plain sub sub' db db' := by
  obtain ⟨status, done⟩ := h
  exact ⟨_, done, ⟨rfl, rfl, rfl, rfl⟩, rfl, rfl, Or.inl rfl⟩

section Rules

variable {env : Env} {s : State}

theorem advancePastDue_spec {sub : Subscription} {now : Time} (hsub : s.data.sub? = some sub)
    (hst : sub.status = .pastDue) :
    Program.returns env (advancePastDue sub now)
      (fun _ t => Untouched s.data t.data ∨ ∃ sub', Plain sub sub' s.data t.data) s := by
  unfold advancePastDue
  cases sub.pastDueAt with
  | none => trivial
  | some pastDueAt =>
    simp only [Program.returns, Program.wp_ite]
    refine ⟨fun _ => ?_, fun _ => ?_⟩
    · refine Program.returns_bind saveSubscription_spec ?_
      rintro _ t ⟨-, ht, hd⟩
      refine Program.returns_mono (Program.returns_of_wp audit_spec) fun _ u hu =>
        Or.inr ⟨graceExpired sub, ?_⟩
      refine ⟨(Stored.of_save hsub (.refl _) ht hd).logs hu, ⟨rfl, rfl, rfl, rfl⟩, rfl, rfl, ?_⟩
      exact Or.inr ⟨by simp [graceExpired, clearGrace], by rw [hst]; decide⟩
    · unfold advanceStage
      split
      · exact Or.inl (.refl _)
      · rename_i stage _ _
        rw [Program.wp_whenever]
        refine ⟨fun _ => ?_, fun _ => Or.inl (.refl _)⟩
        refine Program.returns_bind saveSubscription_spec ?_
        rintro _ t ⟨-, ht, hd⟩
        refine Program.returns_mono (Program.returns_of_wp audit_spec) fun _ u hu =>
          Or.inr ⟨atStage sub stage, ?_⟩
        exact ⟨(Stored.of_save hsub (.refl _) ht hd).logs hu, ⟨rfl, rfl, rfl, rfl⟩, rfl, rfl,
          Or.inl rfl⟩

theorem dunningTransaction_spec : Program.returns env dunningTransaction
    (fun _ t => Untouched s.data t.data ∨ ∃ sub sub', Plain sub sub' s.data t.data) s := by
  unfold dunningTransaction
  rw [Program.returns, Program.wp_bind, wp_timezoneNow]
  refine Program.returns_savepoint ?_
  rw [Program.returns, Program.wp_bind, wp_firstSubscription, Program.wp_whenever]
  refine ⟨fun _ => ?_, fun _ => Or.inl (.refl _)⟩
  unfold dunningLocked
  rw [Program.wp_bind, wp_lockSubscription]
  refine ⟨fun sub hsub => ?_, fun _ => trivial⟩
  rw [Program.wp_whenever]
  refine ⟨fun hst => ?_, fun _ => Or.inl (.refl _)⟩
  exact Program.returns_mono (advancePastDue_spec hsub hst) fun _ _ h =>
    h.imp_right fun h => ⟨sub, h⟩

theorem updateProviderStatus_spec {ref : Ref} {status : String} :
    Program.wp env (updateProviderStatus ref status)
      (fun _ t => t.data = s.data ∨ ∃ sub, ProviderStatusStored sub s.data t.data)
      (fun _ t => t.data = s.data) s := by
  unfold updateProviderStatus
  refine Program.wp_of_savepoint ?_
  rw [Program.returns, Program.wp_bind, wp_firstSubscription]
  cases hsub : s.data.sub? with
  | none => exact Or.inl rfl
  | some sub =>
    dsimp only
    rw [Program.wp_whenever]
    refine ⟨fun _ => ?_, fun _ => Or.inl rfl⟩
    refine Program.returns_mono saveSubscription_spec ?_
    rintro _ t ⟨-, ht, hd⟩
    exact Or.inr ⟨sub, _, Stored.of_save hsub (.refl _) ht hd⟩

end Rules

end ReviewFlow.Billing
