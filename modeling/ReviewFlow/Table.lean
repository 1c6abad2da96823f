import Mathlib.Data.List.Pairwise

/-!
# Tables with unique constraints

`R a b` says that two rows violate a unique constraint together. A table holds no two
such rows, so an insert that would break the constraint gives none, and an update or a
delete comes with no check where it cannot make two rows clash.
-/

namespace ReviewFlow.Tables

structure Table (α : Type) (R : α → α → Prop) where
  rows : List α
  unique : rows.Pairwise fun a b => ¬ R a b

variable {α : Type} {R : α → α → Prop}

namespace Table

instance : Membership α (Table α R) := ⟨fun t a => a ∈ t.rows⟩

theorem mem_def {t : Table α R} {a : α} : a ∈ t ↔ a ∈ t.rows := Iff.rfl

@[ext] theorem ext {t u : Table α R} (h : t.rows = u.rows) : t = u := by
  cases t
  cases u
  cases h
  rfl

def empty : Table α R := ⟨[], .nil⟩

/-- `INSERT`, with none for an `IntegrityError`. -/
def insert? [DecidableRel R] (t : Table α R) (a : α) : Option (Table α R) :=
  if h : ∀ b ∈ t.rows, ¬ R b a then
    some ⟨t.rows ++ [a], List.pairwise_append.mpr ⟨t.unique, List.pairwise_singleton _ _,
      fun b hb _ hc => List.mem_singleton.mp hc ▸ h b hb⟩⟩
  else none

/-- `INSERT ... ON CONFLICT DO UPDATE` of all other columns. -/
def upsert [DecidableRel R] (t : Table α R) (a : α) : Table α R :=
  ⟨t.rows.filter (fun b => ¬ R b a) ++ [a], List.pairwise_append.mpr ⟨t.unique.filter _,
    List.pairwise_singleton _ _,
      fun b hb _ hc => List.mem_singleton.mp hc ▸ by simpa using (List.mem_filter.mp hb).2⟩⟩

/-- `UPDATE` of columns that are in no constraint. -/
def update (t : Table α R) (f : α → α) (h : ∀ a b, R (f a) (f b) → R a b) : Table α R :=
  ⟨t.rows.map f, List.pairwise_map.mpr (t.unique.imp fun hn hr => hn (h _ _ hr))⟩

def delete (t : Table α R) (p : α → Bool) : Table α R :=
  ⟨t.rows.filter fun a => !p a, t.unique.filter _⟩

def find? (t : Table α R) (p : α → Bool) : Option α := t.rows.find? p

variable {t u : Table α R} {a b : α} {p : α → Bool}

theorem insert?_eq_some [DecidableRel R] :
    t.insert? a = some u ↔ (∀ b ∈ t, ¬ R b a) ∧ u.rows = t.rows ++ [a] := by
  unfold insert?
  split
  case isTrue h =>
    rw [Option.some.injEq]
    constructor
    · rintro rfl
      exact ⟨h, rfl⟩
    · rintro ⟨-, hu⟩
      exact ext hu.symm
  case isFalse h =>
    simp only [reduceCtorEq, false_iff, not_and]
    exact fun hn => absurd hn h

theorem insert?_eq_none [DecidableRel R] : t.insert? a = none ↔ ∃ b ∈ t, R b a := by
  unfold insert?
  split
  case isTrue h =>
    simp only [reduceCtorEq, false_iff, not_exists, not_and]
    exact h
  case isFalse h =>
    simp only [true_iff]
    by_contra hn
    exact h fun b hb hr => hn ⟨b, hb, hr⟩

theorem mem_insert? [DecidableRel R] (h : t.insert? a = some u) : b ∈ u ↔ b ∈ t ∨ b = a := by
  rw [mem_def, (insert?_eq_some.mp h).2, List.mem_append, List.mem_singleton]
  rfl

theorem mem_upsert [DecidableRel R] : b ∈ t.upsert a ↔ (b ∈ t ∧ ¬ R b a) ∨ b = a := by
  rw [mem_def, upsert, List.mem_append, List.mem_filter, List.mem_singleton, decide_eq_true_eq]
  rfl

theorem mem_update {f : α → α} {h : ∀ a b, R (f a) (f b) → R a b} :
    b ∈ t.update f h ↔ ∃ a ∈ t, f a = b := List.mem_map

theorem mem_delete : b ∈ t.delete p ↔ b ∈ t ∧ p b = false := by
  rw [mem_def, delete, List.mem_filter, Bool.not_eq_true']
  rfl

theorem mem_of_find? (h : t.find? p = some a) : a ∈ t ∧ p a = true :=
  ⟨List.mem_of_find?_eq_some h, List.find?_some h⟩

theorem find?_eq_none : t.find? p = none ↔ ∀ a ∈ t, p a = false := by
  simp [find?, mem_def]

theorem pairwise_eq_of_clash {rows : List α} (symm : ∀ a b, R a b → R b a)
    (hu : rows.Pairwise fun a b => ¬ R a b) (ha : a ∈ rows) (hb : b ∈ rows)
    (h : R a b) : a = b := by
  induction hu with
  | nil => cases ha
  | cons hr _ ih =>
    rcases List.mem_cons.mp ha with rfl | ha' <;> rcases List.mem_cons.mp hb with rfl | hb'
    · rfl
    · exact absurd h (hr b hb')
    · exact absurd (symm a b h) (hr a ha')
    · exact ih ha' hb'

theorem eq_of_clash (symm : ∀ a b, R a b → R b a) (ha : a ∈ t) (hb : b ∈ t) (h : R a b) : a = b :=
  pairwise_eq_of_clash symm t.unique ha hb h

theorem find?_insert? [DecidableRel R] (h : t.insert? a = some u) :
    u.find? p = (t.find? p).or (if p a then some a else none) := by
  rw [find?, (insert?_eq_some.mp h).2, List.find?_append, List.find?_singleton]
  rfl

theorem find?_update {f : α → α} {h : ∀ a b, R (f a) (f b) → R a b} :
    (t.update f h).find? p = (t.find? (p ∘ f)).map f := List.find?_map

theorem find?_delete {q : α → Bool} :
    (t.delete q).find? p = t.find? fun a => !q a && p a := by
  rw [find?, delete, List.find?_filter]
  simp only [Bool.not_eq_true', Bool.decide_and, Bool.decide_eq_true, Bool.decide_eq_false]
  rfl

theorem find?_eq_some_of_mem (symm : ∀ a b, R a b → R b a) (ha : a ∈ t) (hp : p a = true)
    (key : ∀ a b, p a = true → p b = true → R a b) : t.find? p = some a := by
  cases h : t.find? p with
  | none => rw [find?_eq_none.mp h a ha] at hp; cases hp
  | some b =>
    obtain ⟨hb, hpb⟩ := mem_of_find? h
    rw [eq_of_clash symm hb ha (key b a hpb hp)]

end Table

theorem le_foldr_max {x : ℕ} {l : List ℕ} (h : x ∈ l) : x ≤ l.foldr max 0 := by
  induction l with
  | nil => cases h
  | cons y l ih =>
    rcases List.mem_cons.mp h with rfl | h
    · exact Nat.le_max_left _ _
    · exact Nat.le_trans (ih h) (Nat.le_max_right _ _)

end ReviewFlow.Tables
