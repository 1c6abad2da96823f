import Mathlib.Data.List.Basic

/-!
# One thing in use, its successor, and the one that leaves

Three slots hold references: the current one, the next one, and one that is
leaving. `Turn` lists how they may change; a reference that enters is new, in that
no slot has held it. `Successive` is the invariant of the slots with their history:
nothing that left comes back, and what was both next and current was taken over.
-/

namespace ReviewFlow.Succession

structure Slots (α : Type) where
  current : Option α
  next : Option α
  leaving : Option α

variable {α : Type}

def Slots.Holds (s : Slots α) (r : α) : Prop :=
  s.current = some r ∨ s.next = some r ∨ s.leaving = some r

/-- How the slots may change, where `new` holds of what may enter. -/
inductive Turn (new : α → Prop) : Slots α → Slots α → Prop
  | keep (s : Slots α) : Turn new s s
  | leave {c : Option α} {r : α} : Turn new ⟨c, some r, none⟩ ⟨c, none, some r⟩
  | take {c : Option α} {r : α} : Turn new ⟨c, some r, none⟩ ⟨some r, none, c⟩
  | clear {c n : Option α} {r : α} : Turn new ⟨c, n, some r⟩ ⟨c, n, none⟩
  | enter {c n : Option α} {r : α} (hnew : new r) : Turn new ⟨c, n, none⟩ ⟨c, some r, none⟩
  | start {c l : Option α} {r : α} (hnew : new r) : Turn new ⟨c, none, l⟩ ⟨some r, none, l⟩
  | restart {c : Option α} {n r : α} (hnew : new r) :
      Turn new ⟨c, some n, none⟩ ⟨some r, none, some n⟩

abbrev History (α : Type) := List (Slots α × Slots α)

def Held (slot : Slots α → Option α) (h : History α) (s : Slots α) (r : α) : Prop :=
  slot s = some r ∨ ∃ p ∈ h, slot p.1 = some r

instance [DecidableEq α] (slot : Slots α → Option α) (h : History α) (s : Slots α) (r : α) :
    Decidable (Held slot h s r) :=
  inferInstanceAs (Decidable (_ ∨ _))

structure New (h : History α) (s : Slots α) (r : α) : Prop where
  current : ¬ Held Slots.current h s r
  next : ¬ Held Slots.next h s r
  leaving : ¬ Held Slots.leaving h s r

instance [DecidableEq α] (h : History α) (s : Slots α) (r : α) : Decidable (New h s r) :=
  decidable_of_iff (_ ∧ _ ∧ _) ⟨fun ⟨a, b, c⟩ => ⟨a, b, c⟩, fun ⟨a, b, c⟩ => ⟨a, b, c⟩⟩

def Taken (h : History α) (r : α) : Prop := ∃ p ∈ h, p.1.next = some r ∧ p.2.current = some r

structure Slots.Apart (s : Slots α) : Prop where
  free : s.next = none ∨ s.leaving = none
  current_leaving : ∀ r, s.current = some r → s.leaving ≠ some r
  next_current : ∀ r, s.next = some r → s.current ≠ some r

structure Successive (h : History α) (s : Slots α) : Prop where
  free : s.next = none ∨ s.leaving = none
  current : ∀ r, s.current = some r → ¬ Held Slots.leaving h s r
  next : ∀ r, s.next = some r → ¬ Held Slots.leaving h s r ∧ ¬ Held Slots.current h s r
  taken : ∀ r, Held Slots.current h s r → Held Slots.next h s r → Taken h r

variable {h : History α} {s s' : Slots α} {new : α → Prop}

theorem Turn.holds (ht : Turn new s s') {r : α} (hr : s'.Holds r) : s.Holds r ∨ new r := by
  rcases hr with h | h | h <;> cases ht
  case inl.keep | inl.leave | inl.clear | inl.enter => exact Or.inl (Or.inl h)
  case inl.take => exact Or.inl (Or.inr (Or.inl h))
  case inl.start hnew | inl.restart hnew => exact Or.inr (Option.some.inj h ▸ hnew)
  case inr.inl.keep | inr.inl.clear => exact Or.inl (Or.inr (Or.inl h))
  case inr.inl.enter hnew => exact Or.inr (Option.some.inj h ▸ hnew)
  case inr.inr.keep | inr.inr.start => exact Or.inl (Or.inr (Or.inr h))
  case inr.inr.leave | inr.inr.restart => exact Or.inl (Or.inr (Or.inl h))
  case inr.inr.take => exact Or.inl (Or.inl h)
  all_goals cases h

theorem Slots.Apart.successive (hs : s.Apart) : Successive [] s := by
  have held : ∀ {slot : Slots α → Option α} {r}, Held slot [] s r ↔ slot s = some r := by
    intro slot r
    simp [Held]
  refine ⟨hs.free, fun r hr => ?_, fun r hr => ?_, fun r hc hn => ?_⟩
  · rw [held]
    exact hs.current_leaving r hr
  · rw [held, held]
    refine ⟨fun hl => ?_, hs.next_current r hr⟩
    rcases hs.free with hf | hf
    · rw [hf] at hr
      cases hr
    · rw [hf] at hl
      cases hl
  · exact absurd (held.mp hc) (hs.next_current r (held.mp hn))

theorem held_snoc {slot : Slots α → Option α} {r : α} :
    Held slot (h ++ [(s, s')]) s' r ↔ Held slot h s r ∨ slot s' = some r := by
  simp only [Held, List.mem_append, List.mem_singleton]
  constructor
  · rintro (hr | ⟨p, hp | rfl, hr⟩)
    · exact Or.inr hr
    · exact Or.inl (Or.inr ⟨p, hp, hr⟩)
    · exact Or.inl (Or.inl hr)
  · rintro ((hr | ⟨p, hp, hr⟩) | hr)
    · exact Or.inr ⟨_, Or.inr rfl, hr⟩
    · exact Or.inr ⟨p, Or.inl hp, hr⟩
    · exact Or.inl hr

theorem Taken.snoc {r : α} (ht : Taken h r) (p : Slots α × Slots α) : Taken (h ++ [p]) r :=
  ht.imp fun _ ⟨hp, hr⟩ => ⟨List.mem_append_left _ hp, hr⟩

theorem Successive.snoc (ho : Successive h s) (hfree : s'.next = none ∨ s'.leaving = none)
    (hcurrent : ∀ r, s'.current = some r → ¬ Held Slots.leaving h s r ∧ s'.leaving ≠ some r)
    (hnext : ∀ r, s'.next = some r → (¬ Held Slots.leaving h s r ∧ ¬ Held Slots.current h s r) ∧
      s'.leaving ≠ some r ∧ s'.current ≠ some r)
    (htaken : ∀ r, s'.current = some r → Held Slots.next h s r → Taken (h ++ [(s, s')]) r) :
    Successive (h ++ [(s, s')]) s' := by
  refine ⟨hfree, fun r hr => ?_, fun r hr => ?_, fun r hc hn => ?_⟩
  · rw [held_snoc, not_or]
    exact hcurrent r hr
  · rw [held_snoc, held_snoc, not_or, not_or]
    exact ⟨⟨(hnext r hr).1.1, (hnext r hr).2.1⟩, (hnext r hr).1.2, (hnext r hr).2.2⟩
  · rw [held_snoc] at hc hn
    rcases hc with hc | hc
    · rcases hn with hn | hn
      · exact (ho.taken r hc hn).snoc _
      · exact absurd hc (hnext r hn).1.2
    · rcases hn with hn | hn
      · exact htaken r hc hn
      · exact absurd hc (hnext r hn).2.2

theorem Successive.turn (ho : Successive h s) (ht : Turn new s s') (hnew : ∀ r, new r → New h s r) :
    Successive (h ++ [(s, s')]) s' := by
  cases ht with
  | keep =>
    refine ho.snoc ho.free (fun r hr => ⟨ho.current r hr, fun hl => ho.current r hr (Or.inl hl)⟩)
      (fun r hr => ⟨ho.next r hr, fun hl => (ho.next r hr).1 (Or.inl hl),
        fun hc => (ho.next r hr).2 (Or.inl hc)⟩)
      fun r hr hn => (ho.taken r (Or.inl hr) hn).snoc _
  | @leave c n =>
    have hn := ho.next n rfl
    refine ho.snoc (Or.inl rfl) (fun r hr => ⟨ho.current r hr, ?_⟩) (fun _ hr => by cases hr)
      fun r hr hr' => (ho.taken r (Or.inl hr) hr').snoc _
    rintro ⟨⟩
    exact hn.2 (Or.inl hr)
  | @take c n =>
    have hn := ho.next n rfl
    refine ho.snoc (Or.inl rfl) ?_ (fun _ hr => by cases hr) ?_
    · rintro r ⟨⟩
      exact ⟨hn.1, fun hl => hn.2 (Or.inl hl)⟩
    · rintro r ⟨⟩ -
      exact ⟨_, List.mem_append_right _ List.mem_cons_self, rfl, rfl⟩
  | clear =>
    refine ho.snoc (Or.inr rfl) (fun r hr => ⟨ho.current r hr, by simp⟩)
      (fun r hr => ⟨ho.next r hr, by simp, fun hc => (ho.next r hr).2 (Or.inl hc)⟩)
      fun r hr hn => (ho.taken r (Or.inl hr) hn).snoc _
  | @enter c n x hx =>
    have hx' := hnew x hx
    refine ho.snoc (Or.inr rfl) (fun r hr => ⟨ho.current r hr, by simp⟩) ?_
      fun r hr hn => (ho.taken r (Or.inl hr) hn).snoc _
    rintro r ⟨⟩
    exact ⟨⟨hx'.leaving, hx'.current⟩, by simp, fun hc => hx'.current (Or.inl hc)⟩
  | @start c l x hx =>
    have hx' := hnew x hx
    refine ho.snoc (Or.inl rfl) ?_ (fun _ hr => by cases hr) ?_
    · rintro r ⟨⟩
      exact ⟨hx'.leaving, fun hl => hx'.leaving (Or.inl hl)⟩
    · rintro r ⟨⟩ hn
      exact absurd hn hx'.next
  | @restart c n x hx =>
    have hx' := hnew x hx
    refine ho.snoc (Or.inl rfl) ?_ (fun _ hr => by cases hr) ?_
    · rintro r ⟨⟩
      refine ⟨hx'.leaving, ?_⟩
      rintro ⟨⟩
      exact hx'.next (Or.inl rfl)
    · rintro r ⟨⟩ hn
      exact absurd hn hx'.next

theorem Successive.leaving_once (ho : Successive h s) (ht : Turn new s s') {r : α}
    (hr : s'.leaving = some r) (hno : s.leaving ≠ some r) : ¬ Held Slots.leaving h s r := by
  cases ht with
  | keep => exact absurd hr hno
  | leave =>
    cases hr
    exact (ho.next r rfl).1
  | take => exact ho.current r hr
  | clear => cases hr
  | enter => cases hr
  | start => exact absurd hr hno
  | restart =>
    cases hr
    exact (ho.next r rfl).1

theorem Successive.becomes_current (ho : Successive h s) (ht : Turn new s s')
    (hnew : ∀ r, new r → New h s r) {r : α} (hr : s'.current = some r) :
    s.current = some r ∨ ¬ Held Slots.current h s r := by
  cases ht with
  | keep | leave | clear | enter => exact Or.inl hr
  | take =>
    cases hr
    exact Or.inr (ho.next r rfl).2
  | start hx | restart hx =>
    cases hr
    exact Or.inr (hnew r hx).current

theorem Turn.leaving (ht : Turn new s s') {r : α} (hr : s.leaving = some r) :
    s'.leaving = some r ∨ (s'.leaving = none ∧ s'.current = s.current ∧ s'.next = s.next) := by
  cases ht with
  | keep => exact Or.inl hr
  | clear => exact Or.inr ⟨rfl, rfl, rfl⟩
  | start => exact Or.inl hr
  | _ => cases hr

end ReviewFlow.Succession
