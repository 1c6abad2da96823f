import ReviewFlow.Succession
import ReviewFlow.Billing.References
import ReviewFlow.Billing.RetiredTrail

/-!
# The slots of a row

The payment reference, the plan-change replacement and the retired reference are a
succession: each step of a run is one turn of it, if the provider gives no id twice.
So the replacement and the retired slot are never both set, and the branches for an
occupied retired slot are never taken.
-/

namespace ReviewFlow.Billing

open Savepoint Interleaving Succession

def Subscription.slots (sub : Subscription) : Slots Ref :=
  ⟨sub.paymentProviderRef, sub.replacementProviderRef, sub.retiredProviderRef⟩

def Database.retired? (db : Database) : Option Ref := db.sub?.bind (·.retiredProviderRef)

def Database.slots (db : Database) : Slots Ref := ⟨db.payment?, db.replacement?, db.retired?⟩

theorem Database.slots_of {db : Database} {sub : Subscription} (h : db.sub? = some sub) :
    db.slots = sub.slots := by
  simp [Database.slots, Database.payment?, Database.replacement?, Database.retired?, h,
    Subscription.slots]

theorem Database.slots_none {db : Database} (h : db.sub? = none) :
    db.slots = ⟨none, none, none⟩ := by
  simp [Database.slots, Database.payment?, Database.replacement?, Database.retired?, h]

theorem Database.slots_eq {db db' : Database} (h : db'.sub? = db.sub?) : db'.slots = db.slots := by
  simp [Database.slots, Database.payment?, Database.replacement?, Database.retired?, h]

inductive Shifts (sub sub' : Subscription) : Prop
  | same (same : sub'.slots = sub.slots)
  | retired {ref : Ref} (held : sub.replacementProviderRef = some ref)
      (free : sub.retiredProviderRef = none)
      (after : sub'.slots = ⟨sub.paymentProviderRef, none, some ref⟩)

theorem SameSlots.slots {sub sub' : Subscription} (h : SameSlots sub sub') :
    sub'.slots = sub.slots := by
  unfold Subscription.slots
  rw [h.payment, h.replacement, h.retired]

theorem Abandons.shifts {calls : List Call} {sub sub' : Subscription}
    (h : Abandons calls sub sub') : Shifts sub sub' := by
  obtain ⟨_, _, ⟨ref, href, -⟩, -, hfree, rfl⟩ := h
  exact .retired href hfree (by rw [← href]; rfl)

theorem Shifts.of_slots {a b c d : Subscription} (h' : Shifts a c) (h : a.slots = b.slots)
    (hd : d.slots = c.slots) : Shifts b d := by
  obtain ⟨hp, hr, ht⟩ := Slots.mk.inj h
  cases h' with
  | same same => exact .same (hd.trans (same.trans h))
  | retired held free after => exact .retired (hr ▸ held) (ht ▸ free) (hp ▸ hd.trans after)

theorem Save.shifts {calls : List Call} {sub sub' : Subscription} (h : Save calls sub sub') :
    Shifts sub sub' := by
  cases h with
  | @snapshot settings _ row entity invoices started now plan status _ _ _ hrow =>
    have ho := statusOutcome_slots sub entity invoices plan status now
    rcases hrow with rfl | ⟨-, -, -, ha⟩
    · exact .same ho.slots
    · exact ha.shifts.of_slots ho.slots rfl
  | retires row => exact row.shifts
  | undone row =>
    have hslots : ({ sub with replacementCommittedAt := none } : Subscription).slots = sub.slots :=
      rfl
    exact row.shifts.of_slots hslots rfl
  | _ => exact .same rfl

theorem SavePath.shifts {calls : List Call} {sub sub' : Subscription}
    (h : SavePath calls sub sub') : Shifts sub sub' := by
  induction h with
  | refl => exact .same rfl
  | @tail mid last _ hs ih =>
    cases ih with
    | same same => exact hs.shifts.of_slots same rfl
    | retired held free after =>
      -- the replacement is gone, so it is not abandoned again
      cases hs.shifts with
      | same same => exact .retired held free (same.trans after)
      | retired held' free' after' =>
        have := (Slots.mk.inj after).2.1
        rw [this] at held'
        cases held'

theorem Shifts.turn {new : Ref → Prop} {sub sub' : Subscription} (h : Shifts sub sub') :
    Turn new sub.slots sub'.slots := by
  cases h with
  | same same => exact same ▸ .keep _
  | retired held free after =>
    rw [after, Subscription.slots, held, free]
    exact .leave

theorem Task.Odd.turn {new : Ref → Prop} {env : Env} {made : ℕ} {task : Task}
    {sub sub' : Subscription} (h : task.Odd env made sub sub') : Turn new sub.slots sub'.slots := by
  unfold Task.Odd at h
  split at h
  · rename_i started _ _
    obtain ⟨plan, start, stop, hs, rfl⟩ := h
    have hn := hs.names
    unfold namesReplacement at hn
    split at hn
    · rename_i ref href
      have hr : (activated sub plan start stop).replacementProviderRef = some ref :=
        (activated_slots sub plan start stop).replacement.trans href
      have hs' : (switched (activated sub plan start stop) sub.paymentProviderRef "active"
          started).slots = ⟨some ref, none, sub.paymentProviderRef⟩ := by rw [← hr]; rfl
      rw [hs', Subscription.slots, href, hs.free]
      exact .take
    · cases hn
  · obtain ⟨-, -, rfl⟩ := h
    exact .keep _
  · obtain ⟨hheld, rfl⟩ := h
    rw [Subscription.slots, hheld]
    exact .clear
  · exact h.elim

def Call.createdRef? : Call → Option Ref
  | .subscription (.createSubscription _ _ _) (.ok entity) => Ref.ofJson? (entity.get "id")
  | _ => none

def createdRefs (calls : List Call) : List Ref := calls.filterMap Call.createdRef?

theorem CreatedBy.mem {calls : List Call} {created : Created} (h : CreatedBy calls created) :
    created.ref ∈ createdRefs calls := by
  obtain ⟨hid, plan, startAt, expireBy, hc⟩ := h
  exact List.mem_filterMap.mpr ⟨_, hc, Ref.ofJson?_eq_some.mpr hid⟩

theorem Ends.turn {calls : List Call} {db db' : Database} (h : Ends calls db db') :
    Turn (· ∈ createdRefs calls) db.slots db'.slots := by
  have saves : ∀ {a b : Database}, Saves calls a b →
      Turn (· ∈ createdRefs calls) a.slots b.slots := by
    rintro a b (hab | ⟨sub, sub', hsub, hsub', hp⟩)
    · rw [Database.slots_eq hab]
      exact .keep _
    · rw [Database.slots_of hsub, Database.slots_of hsub']
      exact hp.shifts.turn
  cases h with
  | saves h => exact saves h
  | @first plan created absent fresh after =>
    rw [Database.slots_of after, Database.slots_none absent]
    exact .start fresh.mem
  | @creates mid sub' db₁ hs row creation after =>
    obtain ⟨sub, hsub, hp⟩ := hs.path row
    rw [Database.slots_of hsub, Database.slots_of after]
    cases creation with
    | @stored plan created inactive free fresh =>
      cases hp.shifts with
      | same same =>
        obtain ⟨-, hr, ht⟩ := Slots.mk.inj same
        have : (newlyStored mid plan created).slots =
            ⟨some created.ref, none, sub.retiredProviderRef⟩ := by rw [← ht, ← free]; rfl
        rw [this, Subscription.slots, ← hr, free]
        exact .start fresh.mem
      | @retired ref held free' after' =>
        obtain ⟨-, hr, ht⟩ := Slots.mk.inj after'
        have : (newlyStored mid plan created).slots =
            ⟨some created.ref, none, some ref⟩ := by rw [← ht, ← free]; rfl
        rw [this, Subscription.slots, held, free']
        exact .restart fresh.mem
    | @started plan kind created expiresAt active going paid free fresh apart =>
      cases hp.shifts with
      | same same =>
        obtain ⟨hpay, hr, ht⟩ := Slots.mk.inj same
        have : (withReplacement mid plan kind created.ref expiresAt).slots =
            ⟨sub.paymentProviderRef, some created.ref, none⟩ := by rw [← hpay, ← free]; rfl
        rw [this, Subscription.slots, ← ht, free]
        exact .enter fresh.mem
      | retired held free' after' =>
        have := (Slots.mk.inj after').2.2
        rw [free] at this
        cases this

theorem StepSaves.turn {sys : System} {choice : Choice} (h : StepSaves sys choice) :
    Turn (· ∈ createdRefs (sys.calls choice)) sys.db.slots (sys.step choice).db.slots := by
  cases h with
  | saves saves => exact (Ends.saves saves).turn
  | checkout label ends => exact ends.turn
  | odd label stands saved =>
    obtain ⟨sub, sub', hsub, hsub', ho⟩ := saved
    rw [Database.slots_of hsub, Database.slots_of hsub']
    exact ho.turn

def turns (h : List Transition) : History Ref :=
  h.map fun t => (t.before.db.slots, t.after.db.slots)

/-- The provider gives no id twice: what it creates was in no slot of any state before. -/
def FreshIds (h : List Transition) (t : Transition) : Prop :=
  ∀ ref ∈ createdRefs t.calls, New (turns h) t.before.db.slots ref

instance : DecidableRel FreshIds := fun h t =>
  inferInstanceAs (Decidable (∀ ref ∈ createdRefs t.calls, New (turns h) t.before.db.slots ref))

structure Custody (h : List Transition) (sys : System) : Prop where
  sound : sys.Sound
  ordered : sys.Ordered
  successive : Successive (turns h) sys.db.slots

theorem turns_snoc (h : List Transition) (t : Transition) :
    turns (h ++ [t]) = turns h ++ [(t.before.db.slots, t.after.db.slots)] := by
  simp [turns]

theorem Custody.start {db : Database} (h : db.slots.Apart) : Custody [] ⟨db, []⟩ :=
  ⟨by simp [System.Sound], by simp [System.Ordered], h.successive⟩

theorem Custody.step {h : List Transition} {sys : System} (hc : Custody h sys) (choice : Choice)
    (hfresh : FreshIds h (transition System.step sys choice)) :
    Custody (h ++ [transition System.step sys choice]) (sys.step choice) := by
  refine ⟨System.step_sound hc.sound choice, System.step_ordered hc.ordered choice, ?_⟩
  rw [turns_snoc]
  exact hc.successive.turn (System.step_saves hc.sound choice).turn hfresh

section Unblocked

/-- `_abandon_unless_active` without its look at the retired slot. -/
def abandonUnlessActiveFree (sub : Subscription) (reason : String) (abandonable : Dict → Bool)
    (entity : Option Dict) : Prog Abandonment :=
  if sub.replacementProviderRef = none ∨ sub.replacementCommittedAt ≠ none then
    pure ⟨sub, false, none⟩
  else do
    let entity ← entityOrRefetch sub entity
    match entity with
    | none => pure ⟨sub, false, none⟩
    | some entity =>
      if abandonable entity = false then pure ⟨sub, false, some entity⟩
      else do
        let sub ← retireReplacement sub entity reason none
        pure ⟨sub, true, some entity⟩

/-- `_clear_failed_committed` without its look at the retired slot. -/
def clearFailedCommittedFree (sub : Subscription) : Prog SnapshotResult := do
  let entity ← refetchReplacement sub
  match entity with
  | none => pure ⟨false, false⟩
  | some entity =>
    if statusIn replacementFailed entity = false then pure ⟨false, false⟩
    else do
      let sub ← retireReplacement sub entity "committed_replacement_failed" none
      saveSubscription sub
      pure ⟨true, true⟩

/-- `switch_to_replacement` without its look at the retired slot. -/
def switchToReplacementFree (sub : Subscription) (entity : Dict) (invoices : Option (List Json))
    (plan : Plan) (status : String) (started : Time) : Prog SnapshotResult :=
  match fromUnix (entity.get "current_start") with
  | none => pure ⟨false, false⟩
  | some start =>
    if sub.currentPeriodStart = some start then pure ⟨false, false⟩
    else do
      let r ← applyActive sub entity invoices plan none (some (effectiveSwitch sub plan))
      if r.advanced = false then pure ⟨false, false⟩
      else storeSwitch (switched r.sub sub.paymentProviderRef status started) sub.paymentProviderRef

/-- The checks of `_cancel_and_retire_replacement` without its look at the retired slot. -/
def cancelAndRetireErrorFree (entity : Dict) : Option Error :=
  if statusIn ["active"] entity = true then some .replacementActivating
  else if notActive entity = false then some .providerStateUnsupported
  else none

/-- On this row no look at the retired slot decides anything. A switch is asked for on a
row that holds the replacement, and so is the merchant's cancel of it. -/
structure Subscription.Unblocked (sub : Subscription) : Prop where
  abandon : ∀ reason abandonable entity, abandonUnlessActive sub reason abandonable entity =
    abandonUnlessActiveFree sub reason abandonable entity
  clear : clearFailedCommitted sub = clearFailedCommittedFree sub
  switch : ∀ entity invoices plan status started, namesReplacement sub entity = true →
    switchToReplacement sub entity invoices plan status started =
      switchToReplacementFree sub entity invoices plan status started
  cancel : sub.replacementProviderRef.isSome = true → ∀ entity,
    cancelAndRetireError sub entity = cancelAndRetireErrorFree entity

theorem Subscription.unblocked {sub : Subscription}
    (h : sub.replacementProviderRef = none ∨ sub.retiredProviderRef = none) : sub.Unblocked := by
  by_cases hfree : sub.retiredProviderRef = none
  · refine ⟨fun _ _ _ => ?_, ?_, fun _ _ _ _ _ _ => ?_, fun _ _ => ?_⟩
    · unfold abandonUnlessActive abandonUnlessActiveFree
      split
      · rfl
      · refine bind_congr fun entity => ?_
        cases entity with
        | none => rfl
        | some entity => simp only [hfree, ne_eq, not_true_eq_false, if_false]
    · unfold clearFailedCommitted clearFailedCommittedFree
      refine bind_congr fun entity => ?_
      cases entity with
      | none => rfl
      | some entity => simp only [hfree, ne_eq, not_true_eq_false, if_false]
    · unfold switchToReplacement switchToReplacementFree
      cases fromUnix _ with
      | none => rfl
      | some start => simp only [hfree, ne_eq, not_true_eq_false, if_false]
    · simp only [cancelAndRetireError, cancelAndRetireErrorFree, hfree, ne_eq, not_true_eq_false,
        or_false]
  · have hnone := h.resolve_right hfree
    refine ⟨fun _ _ _ => ?_, ?_, fun entity _ _ _ _ hn => ?_, fun hs => ?_⟩
    · unfold abandonUnlessActive abandonUnlessActiveFree
      rw [if_pos (Or.inl hnone), if_pos (Or.inl hnone)]
    · unfold clearFailedCommitted clearFailedCommittedFree refetchReplacement
      rw [hnone]
      rfl
    · rw [namesReplacement, hnone] at hn
      cases hn
    · rw [hnone] at hs
      cases hs

end Unblocked

structure SlotDiscipline (h : List Transition) (t : Transition) : Prop where
  apart : t.after.db.replacement? = none ∨ t.after.db.retired? = none
  kept : ∀ ref, t.before.db.retired? = some ref → t.after.db.retired? = some ref ∨
    (t.after.db.retired? = none ∧ ∃ i env thread, t.label = .advance i env ∧
      t.before.threads[i]? = some thread ∧ thread.todo.head? = some (.retiredClear ref) ∧
      LastTerminal thread.journal.calls ref)
  once : ∀ ref, t.after.db.retired? = some ref → t.before.db.retired? ≠ some ref →
    ∀ u ∈ h, u.before.db.retired? ≠ some ref
  /-- Each row that the step stores on its way, and what it makes of it before a save. -/
  unblocked : ∀ sub ∈ t.before.db.sub?, ∀ stored, SavePath t.calls sub stored →
    ∀ row : Subscription, row.slots = stored.slots → row.Unblocked

theorem Shifts.free {sub sub' : Subscription} (h : Shifts sub sub')
    (hs : sub.replacementProviderRef = none ∨ sub.retiredProviderRef = none) :
    sub'.replacementProviderRef = none ∨ sub'.retiredProviderRef = none := by
  cases h with
  | same same =>
    obtain ⟨-, hr, ht⟩ := Slots.mk.inj same
    rwa [hr, ht]
  | retired held free after => exact Or.inl (Slots.mk.inj after).2.1

theorem StepSaves.retired {sys : System} {choice : Choice} (h : StepSaves sys choice) {ref : Ref}
    (hr : sys.db.retired? = some ref) : (sys.step choice).db.retired? = some ref ∨
      ((sys.step choice).db.retired? = none ∧ ∃ i env, choice = .advance i env ∧
        sys.taskAt i = some (.retiredClear ref)) := by
  have ends : ∀ {db'}, Ends (sys.calls choice) sys.db db' → db'.retired? = some ref := by
    intro db' he
    -- a path of saves finds the slot taken, and leaves it
    have path : ∀ {a b : Subscription}, SavePath (sys.calls choice) a b →
        a.retiredProviderRef = some ref → b.retiredProviderRef = some ref := by
      intro a b hp ha
      cases hp.shifts with
      | same same => exact (Slots.mk.inj same).2.2.trans ha
      | retired held free after =>
        rw [free] at ha
        cases ha
    obtain ⟨sub, hsub, hsubr⟩ := Option.bind_eq_some_iff.mp hr
    cases he with
    | saves saves =>
      rcases saves with hs | ⟨a, b, ha, hb, hp⟩
      · rw [Database.retired?, hs]
        exact hr
      · rw [hsub] at ha
        cases ha
        rw [Database.retired?, hb]
        exact path hp hsubr
    | first absent fresh after =>
      rw [absent] at hsub
      cases hsub
    | creates mid saves row creation after =>
      have hm := path (saves.path_of hsub row) hsubr
      rw [Database.retired?, after]
      cases creation with
      | stored => exact hm
      | started _ _ _ free => exact hm
  cases h with
  | saves saves => exact Or.inl (ends (.saves saves))
  | checkout label he => exact Or.inl (ends he)
  | @odd i env task label stands saved =>
    obtain ⟨sub, sub', hsub, hsub', ho⟩ := saved
    have hsubr : sub.retiredProviderRef = some ref := by
      rw [Database.retired?, hsub] at hr
      exact hr
    rw [Database.retired?, hsub']
    unfold Task.Odd at ho
    split at ho
    · obtain ⟨plan, start, stop, hs, -⟩ := ho
      rw [hs.free] at hsubr
      cases hsubr
    · obtain ⟨-, -, rfl⟩ := ho
      exact Or.inl hsubr
    · rename_i r
      obtain ⟨hheld, rfl⟩ := ho
      obtain rfl : r = ref := Option.some.inj (hheld.symm.trans hsubr)
      exact Or.inr ⟨rfl, i, env, label, stands⟩
    · exact ho.elim

theorem StepSaves.kept {sys : System} {choice : Choice} {old : Ref → Prop}
    (h : StepSaves sys choice) (htrail : sys.Trailed old) {ref : Ref}
    (hr : sys.db.retired? = some ref) : (sys.step choice).db.retired? = some ref ∨
      ((sys.step choice).db.retired? = none ∧ ∃ i env thread, choice = .advance i env ∧
        sys.threads[i]? = some thread ∧ thread.todo.head? = some (.retiredClear ref) ∧
        LastTerminal thread.journal.calls ref) := by
  refine (h.retired hr).imp_right fun ⟨hnone, i, env, hlabel, htask⟩ => ?_
  obtain ⟨thread, hi, hhead⟩ := Option.bind_eq_some_iff.mp htask
  refine ⟨hnone, i, env, thread, hlabel, hi, hhead, ?_⟩
  exact htrail thread (List.mem_of_getElem? hi) _ (List.mem_of_mem_head? hhead)

/-- In every run the slots are a succession, if the provider gives no id twice. -/
theorem slot_discipline {db : Database} (hdb : db.slots.Apart) {choices : List Choice}
    (hfresh : Meets FreshIds (runFrom db choices)) :
    Meets SlotDiscipline (runFrom db choices) := by
  refine MeetsFrom.of_invariant (P := fun h sys => Custody h sys ∧ sys.Trailed fun _ => True)
    (D := SlotDiscipline) ⟨Custody.start hdb, by simp [System.Trailed]⟩ ?_ hfresh
  rintro h sys choice ⟨hc, htrail⟩ hf
  have hsaves := System.step_saves hc.sound choice
  have hc' := hc.step choice hf
  have hknown : ∀ sub ∈ sys.db.sub?, sub.Known fun _ => True :=
    fun _ _ => ⟨fun _ _ => trivial, fun _ _ _ => trivial⟩
  refine ⟨⟨hc', System.step_trailed hc.ordered htrail hknown choice⟩, hc'.successive.free,
    fun _ => hsaves.kept htrail, ?_, ?_⟩
  · intro ref hr hno u hu hur
    refine hc.successive.leaving_once hsaves.turn hr hno (Or.inr ?_)
    exact ⟨_, List.mem_map.mpr ⟨u, hu, rfl⟩, hur⟩
  · intro sub hsub stored hp row hrow
    have hapart : sub.replacementProviderRef = none ∨ sub.retiredProviderRef = none := by
      have hfree := hc.successive.free
      rwa [Database.slots_of (show sys.db.sub? = some sub from hsub)] at hfree
    have hstored := hp.shifts.free hapart
    obtain ⟨-, hr, ht⟩ := Slots.mk.inj hrow
    exact Subscription.unblocked (by rwa [hr, ht])

theorem Database.apart_rowless : rowless.slots.Apart :=
  ⟨Or.inl rfl, by simp [Database.slots, Database.payment?, rowless, Database.sub?],
    by simp [Database.slots, Database.replacement?, rowless, Database.sub?]⟩

/-- A change of plan that the merchant takes back, and the sync that clears the slot. -/
def takenBack : List Choice :=
  let onlyB (status : String) : Answers :=
    { fetch := fun ref => if ref = refB then .ok (entityOf "sub_b" "plan_g" status 0 0)
        else .error .unavailable
      cancel := .ok (entityOf "sub_b" "plan_g" "cancelled" 0 0) }
  subscribed ++ upgradeStarted ++
    [.request (.cancelReplacement 7) ((onlyB "created").at 1610) true, .spawn .sync] ++
    List.replicate 6 (.advance 1 ((onlyB "cancelled").at 1620))

theorem slot_discipline_takenBack :
    Meets SlotDiscipline (runFrom rowless takenBack) ∧
      some refB ∈ (runFrom rowless takenBack).map (·.after.db.retired?) ∧
      ((runFrom rowless takenBack).map (·.after.db.retired?)).getLast? = some none :=
  ⟨slot_discipline Database.apart_rowless (by decide +kernel), by decide +kernel, by decide +kernel⟩

end ReviewFlow.Billing
