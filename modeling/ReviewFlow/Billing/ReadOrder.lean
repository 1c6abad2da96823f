import ReviewFlow.Billing.SlotDiscipline

/-!
# The order of the applied snapshots

An applied snapshot stamps the row with the start of its fetch, and a snapshot is
accepted only if its fetch started later than the stamp. So the snapshots of one
reference are applied in the order in which their fetches started. Of two reads that
overlap, the one that observed the provider earlier may be applied last.
-/

namespace ReviewFlow.Billing

open Savepoint Interleaving Succession

def Database.syncedAt? (db : Database) : Option Time := db.sub?.bind (·.providerSyncedAt)

/-- The reference and the start of the fetch of the snapshot that a step leaves applied. -/
def Transition.applied? (t : Transition) : Option (Ref × Time) :=
  match t.after.db.payment?, t.after.db.syncedAt? with
  | some ref, some started =>
    if t.before.db.payment? = some ref ∧ t.before.db.syncedAt? = some started then none
    else some (ref, started)
  | _, _ => none

/-- One read of the provider: when it began, the instant it shows, and when it returned. -/
structure Read where
  started : Time
  observed : Time
  returned : Time
  began : started ≤ observed
  ended : observed ≤ returned

def Read.Overlaps (r r' : Read) : Prop := r.started < r'.returned ∧ r'.started < r.returned

def StampGrows (a b : Option Time) : Prop := ∀ s ∈ a, ∃ s' ∈ b, s ≤ s'

theorem StampGrows.refl (a : Option Time) : StampGrows a a := fun s hs => ⟨s, hs, le_refl s⟩

theorem StampGrows.trans {a b c : Option Time} (h : StampGrows a b) (h' : StampGrows b c) :
    StampGrows a c := by
  intro s hs
  obtain ⟨s', hs', hle⟩ := h s hs
  obtain ⟨s'', hs'', hle'⟩ := h' s' hs'
  exact ⟨s'', hs'', le_trans hle hle'⟩

theorem Transition.applied?_eq {t : Transition} {ref : Ref} {started : Time}
    (h : t.applied? = some (ref, started)) : t.after.db.payment? = some ref ∧
      t.after.db.syncedAt? = some started ∧
      ¬ (t.before.db.payment? = some ref ∧ t.before.db.syncedAt? = some started) := by
  unfold Transition.applied? at h
  split at h
  · rename_i ref₁ started₁ hpay hstamp
    split at h
    · cases h
    · rename_i hmoved
      cases h
      exact ⟨hpay, hstamp, hmoved⟩
  · cases h

section Stamps

theorem newer_iff {sub : Subscription} {started : Time} :
    newer sub started = true ↔ ∀ s ∈ sub.providerSyncedAt, s < started := by
  unfold newer
  cases sub.providerSyncedAt with
  | none => simp
  | some synced => simp

theorem Save.stamp {calls : List Call} {sub sub' : Subscription} (h : Save calls sub sub') :
    StampGrows sub.providerSyncedAt sub'.providerSyncedAt := by
  have abandons : ∀ {a b : Subscription}, Abandons calls a b →
      b.providerSyncedAt = a.providerSyncedAt := by
    rintro a b ⟨_, _, -, -, -, rfl⟩
    rfl
  cases h with
  | @snapshot settings _ row entity invoices started now plan status accepts _ _ _ =>
    exact fun s hs => ⟨started, rfl, (newer_iff.mp accepts.newer s hs).le⟩
  | retires row => exact (abandons row) ▸ .refl _
  | undone row =>
    have hrow : sub'.providerSyncedAt = sub.providerSyncedAt := abandons row
    exact hrow ▸ .refl _
  | graceExpired | pastDueCancelled => exact .refl _
  | _ => exact .refl _

theorem SavePath.stamp {calls : List Call} {sub sub' : Subscription} (h : SavePath calls sub sub') :
    StampGrows sub.providerSyncedAt sub'.providerSyncedAt := by
  induction h with
  | refl => exact .refl _
  | tail _ hs ih => exact ih.trans hs.stamp

theorem StepSaves.stamp {sys : System} {choice : Choice} (h : StepSaves sys choice) {ref : Ref}
    (hbefore : sys.db.payment? = some ref) (hafter : (sys.step choice).db.payment? = some ref)
    (hnext : sys.db.replacement? ≠ some ref) (hnew : ref ∉ createdRefs (sys.calls choice)) :
    StampGrows sys.db.syncedAt? (sys.step choice).db.syncedAt? := by
  have stamp : ∀ {db : Database} {sub : Subscription}, db.sub? = some sub →
      db.syncedAt? = sub.providerSyncedAt := fun hsub => by rw [Database.syncedAt?, hsub]; rfl
  have saves : ∀ {a b : Database}, Saves (sys.calls choice) a b →
      StampGrows a.syncedAt? b.syncedAt? := by
    rintro a b (hab | ⟨sub, sub', hsub, hsub', hp⟩)
    · rw [Database.syncedAt?, Database.syncedAt?, hab]
      exact .refl _
    · rw [stamp hsub, stamp hsub']
      exact SavePath.stamp hp
  cases h with
  | saves h => exact saves h
  | checkout label ends =>
    cases ends with
    | saves h => exact saves h
    | first absent fresh after =>
      rw [Database.payment?, absent] at hbefore
      cases hbefore
    | creates mid hs row creation after =>
      refine (saves hs).trans ?_
      rw [stamp row, stamp after]
      cases creation with
      | stored _ _ fresh =>
        -- the new reference is not the one that the row holds
        rw [Database.payment?, after] at hafter
        obtain rfl := Option.some.inj hafter
        exact absurd fresh.mem hnew
      | started => exact .refl _
  | odd label stands saved =>
    obtain ⟨sub, sub', hsub, hsub', ho⟩ := saved
    rw [stamp hsub, stamp hsub']
    unfold Task.Odd at ho
    split at ho
    · obtain ⟨plan, start, stop, hs, rfl⟩ := ho
      rw [Database.payment?, hsub'] at hafter
      have hr : sub.replacementProviderRef = some ref :=
        (activated_slots sub plan start stop).replacement.symm.trans hafter
      rw [Database.replacement?, hsub] at hnext
      exact absurd hr hnext
    · obtain ⟨-, -, rfl⟩ := ho
      exact .refl _
    · obtain ⟨-, rfl⟩ := ho
      exact .refl _
    · exact ho.elim

end Stamps

structure Stamped (h : List Transition) (sys : System) : Prop extends Custody h sys where
  held : ∀ u ∈ h, ∀ p ∈ u.applied?, Held Slots.current (turns h) sys.db.slots p.1
  bound : ∀ u ∈ h, ∀ p ∈ u.applied?, sys.db.payment? = some p.1 →
    ∃ s ∈ sys.db.syncedAt?, p.2 ≤ s

structure ReadOrder (h : List Transition) (t : Transition) : Prop where
  later : ∀ ref started, t.applied? = some (ref, started) →
    ∀ u ∈ h, ∀ earlier, u.applied? = some (ref, earlier) → earlier < started
  observed : ∀ ref (r r' : Read), t.applied? = some (ref, r.started) →
    ∀ u ∈ h, u.applied? = some (ref, r'.started) → ¬ r.Overlaps r' → r'.observed ≤ r.observed
  /-- Also of the snapshots that a step applies on its way. -/
  accepted : ∀ sub ∈ t.before.db.sub?, ∀ stored, SavePath t.calls sub stored →
    ∀ settings entity started plan status,
      Accepts settings stored entity started plan status → ∀ ref ∈ stored.paymentProviderRef,
        (∀ s ∈ sub.providerSyncedAt, s < started) ∧
          ∀ u ∈ h, ∀ earlier, u.applied? = some (ref, earlier) → earlier < started

theorem Read.observed_le {r r' : Read} (h : r'.started < r.started) (hno : ¬ r.Overlaps r') :
    r'.observed ≤ r.observed := by
  rcases not_and_or.mp hno with hsep | hsep
  · calc r'.observed ≤ r'.returned := r'.ended
      _ ≤ r.started := not_lt.mp hsep
      _ ≤ r.observed := r.began
  · -- a read that began later did not return before
    have hreturned : r.started ≤ r.returned := le_trans r.began r.ended
    exact absurd (lt_of_lt_of_le h hreturned) hsep

/-- An applied snapshot of what the step leaves as the payment reference was one before it, and the
stamp has only grown since. -/
theorem Stamped.grown {h : List Transition} {sys : System} (hs : Stamped h sys) {choice : Choice}
    (hf : FreshIds h (transition System.step sys choice)) {u : Transition} (hu : u ∈ h)
    {p : Ref × Time} (hp : p ∈ u.applied?) (hpay : (sys.step choice).db.payment? = some p.1) :
    sys.db.payment? = some p.1 ∧ ∃ s ∈ sys.db.syncedAt?, p.2 ≤ s ∧
      ∃ s' ∈ (sys.step choice).db.syncedAt?, s ≤ s' := by
  have hheld := hs.held u hu p hp
  have hsaves := System.step_saves hs.sound choice
  have hbefore : sys.db.payment? = some p.1 :=
    (hs.successive.becomes_current hsaves.turn hf hpay).resolve_right fun hno => hno hheld
  obtain ⟨s, hsync, hle⟩ := hs.bound u hu p hp hbefore
  have hnext : sys.db.replacement? ≠ some p.1 := fun hr => (hs.successive.next p.1 hr).2 hheld
  have hnew : p.1 ∉ createdRefs (sys.calls choice) := fun hr => (hf p.1 hr).current hheld
  exact ⟨hbefore, s, hsync, hle, hsaves.stamp hbefore hpay hnext hnew s hsync⟩

theorem Stamped.later {h : List Transition} {sys : System} (hs : Stamped h sys) {choice : Choice}
    (hf : FreshIds h (transition System.step sys choice)) {ref : Ref} {started : Time}
    (ha : Transition.applied? (transition System.step sys choice) = some (ref, started))
    {u : Transition} (hu : u ∈ h) {earlier : Time} (hua : u.applied? = some (ref, earlier)) :
    earlier < started := by
  obtain ⟨hpay, hstamp, hmoved⟩ := Transition.applied?_eq ha
  obtain ⟨hbefore, s, hsync, hle, s', hs', hle'⟩ := hs.grown hf hu hua hpay
  obtain rfl : s' = started := Option.some.inj (hs'.symm.trans hstamp)
  have hne : s ≠ s' := fun he => hmoved ⟨hbefore, he ▸ hsync⟩
  exact lt_of_le_of_lt hle (lt_of_le_of_ne hle' hne)

theorem Stamped.step {h : List Transition} {sys : System} (hs : Stamped h sys) (choice : Choice)
    (hf : FreshIds h (transition System.step sys choice)) :
    Stamped (h ++ [transition System.step sys choice]) (sys.step choice) := by
  have grows : ∀ {ref}, Held Slots.current (turns h) sys.db.slots ref →
      Held Slots.current (turns (h ++ [transition System.step sys choice]))
        (sys.step choice).db.slots ref := by
    intro ref hr
    rw [turns_snoc]
    exact held_snoc.mpr (Or.inl hr)
  refine ⟨hs.toCustody.step choice hf, fun u hu p hp => ?_, fun u hu p hp hpay => ?_⟩
  · rcases List.mem_append.mp hu with hu | hu
    · exact grows (hs.held u hu p hp)
    · obtain rfl := List.mem_singleton.mp hu
      exact Or.inl (Transition.applied?_eq hp).1
  · rcases List.mem_append.mp hu with hu | hu
    · obtain ⟨-, s, -, hle, s', hs', hle'⟩ := hs.grown hf hu hp hpay
      exact ⟨s', hs', le_trans hle hle'⟩
    · obtain rfl := List.mem_singleton.mp hu
      exact ⟨p.2, (Transition.applied?_eq hp).2.1, le_refl _⟩

/-- In every run snapshots are applied in the order in which their fetches started. -/
theorem snapshots_in_order {db : Database} (hdb : db.slots.Apart) {choices : List Choice}
    (hfresh : Meets FreshIds (runFrom db choices)) : Meets ReadOrder (runFrom db choices) := by
  refine MeetsFrom.of_invariant (P := Stamped) (D := ReadOrder)
    ⟨Custody.start hdb, by simp, by simp⟩ ?_ hfresh
  intro h sys choice hs hf
  refine ⟨hs.step choice hf, fun ref started ha u hu earlier hua => hs.later hf ha hu hua,
    fun ref r r' ha u hu hua hno => Read.observed_le (hs.later hf ha hu hua) hno, ?_⟩
  intro sub hsub stored hp settings entity started plan status hacc ref href
  have hbound : ∀ s ∈ sub.providerSyncedAt, s < started := by
    intro s hsync
    obtain ⟨s', hs', hle⟩ := SavePath.stamp hp s hsync
    exact lt_of_le_of_lt hle (newer_iff.mp hacc.newer s' hs')
  refine ⟨hbound, fun u hu earlier hua => ?_⟩
  have hpay : sys.db.payment? = some ref := by
    rw [Database.payment?_of (show sys.db.sub? = some sub from hsub), ← SavePath.payment hp]
    exact href
  obtain ⟨s, hsync, hle⟩ := hs.bound u hu _ hua hpay
  rw [Database.syncedAt?, show sys.db.sub? = some sub from hsub] at hsync
  exact lt_of_le_of_lt hle (hbound s hsync)

section Overlap

def ObservedInOrder (observed : Time → Time) (h : List Transition) (t : Transition) : Prop :=
  ∀ p ∈ t.applied?, ∀ u ∈ h, ∀ p' ∈ u.applied?, p'.1 = p.1 → observed p'.2 ≤ observed p.2

instance (observed : Time → Time) : DecidableRel (ObservedInOrder observed) := fun h t =>
  inferInstanceAs (Decidable (∀ p ∈ t.applied?, ∀ u ∈ h, ∀ p' ∈ u.applied?,
    p'.1 = p.1 → observed p'.2 ≤ observed p.2))

/-- The provider's state over time: a renewal that fails, and is paid at 1640. -/
def providerAt (now : ℤ) : Dict :=
  entityA (if 1600 ≤ now ∧ now < 1640 then "pending" else "active") 1000 2000

/-- A read that begins at `started` and shows the provider at `observed`. -/
def readAt (started observed : ℤ) : Env :=
  let answers : Answers := { fetch := onlyA (providerAt observed) }
  answers.at started

def overlappingReads : List Choice :=
  subscribed ++ [.spawn .sync, .spawn .sync] ++
    List.replicate 2 (.advance 1 (readAt 1600 1650)) ++
    List.replicate 2 (.advance 2 (readAt 1600 1620)) ++
    [.advance 1 (readAt 1600 1650), .advance 2 (readAt 1610 1620),
      .advance 2 (readAt 1625 1625), .advance 1 (readAt 1655 1655),
      .advance 1 (readAt 1660 1660), .advance 2 (readAt 1670 1670)]

/-- The instants that the reads of `overlappingReads` show, by their begin. -/
def observedAt (started : Time) : Time :=
  if started = seconds 1600 then seconds 1650
  else if started = seconds 1610 then seconds 1620
  else started

theorem overlappingReads_fresh : Meets FreshIds (runFrom rowless overlappingReads) := by
  decide +kernel

theorem overlappingReads_overtaken :
    Meets FreshIds (runFrom rowless overlappingReads) ∧
      (∀ started, started ≤ observedAt started) ∧
      ((runFrom rowless overlappingReads).filterMap (·.applied?)) =
        [(refA, seconds 1500), (refA, seconds 1600), (refA, seconds 1610)] ∧
      ¬ Meets (ObservedInOrder observedAt) (runFrom rowless overlappingReads) ∧
      ((runFrom rowless overlappingReads).map (·.after.db.sub?.map (·.status))).getLast? =
        some (some .pastDue) := by
  refine ⟨overlappingReads_fresh, fun started => ?_, by decide +kernel, by decide +kernel,
    by decide +kernel⟩
  unfold observedAt
  split
  · subst_vars
    decide
  · split
    · subst_vars
      decide
    · exact le_refl _

end Overlap

theorem snapshots_in_order_overlapping :
    Meets ReadOrder (runFrom rowless overlappingReads) ∧
      ((runFrom rowless overlappingReads).filterMap (·.applied?)).length = 3 :=
  ⟨snapshots_in_order Database.apart_rowless overlappingReads_fresh, by decide +kernel⟩

end ReviewFlow.Billing
