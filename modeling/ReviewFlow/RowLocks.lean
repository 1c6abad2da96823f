import Mathlib.Data.List.Basic
import Mathlib.Algebra.Order.Ring.Nat

/-!
# Exclusive locks held by transactions

The state of a transaction says which locks it holds, and it keeps them until it
ends. A lock is only taken while no other transaction holds it, so no two
transactions ever hold the same one.
-/

namespace ReviewFlow.RowLocks

variable {τ κ : Type} (holds : τ → κ → Bool)

/-- No transaction other than the one at `i` holds the lock. -/
def free (txs : List τ) (i : ℕ) (k : κ) : Bool :=
  txs.zipIdx.all fun p => decide (p.2 = i) || !holds p.1 k

def Exclusive (txs : List τ) : Prop :=
  ∀ (i j : ℕ) (a b : τ) (k : κ), txs[i]? = some a → txs[j]? = some b → holds a k = true →
    holds b k = true → i = j

variable {holds}

theorem free_iff {txs : List τ} {i : ℕ} {k : κ} :
    free holds txs i k = true ↔
      ∀ (j : ℕ) (a : τ), txs[j]? = some a → j ≠ i → holds a k = false := by
  simp only [free, List.all_eq_true, Bool.or_eq_true, decide_eq_true_eq, Bool.not_eq_true']
  constructor
  · intro h j a ha hne
    exact (h (a, j) (List.mk_mem_zipIdx_iff_getElem?.mpr ha)).resolve_left hne
  · rintro h ⟨a, j⟩ hp
    exact Classical.or_iff_not_imp_left.mpr fun hne =>
      h j a (List.mk_mem_zipIdx_iff_getElem?.mp hp) hne

theorem exists_holder {txs : List τ} {i : ℕ} {k : κ} (h : free holds txs i k = false) :
    ∃ (j : ℕ) (a : τ), txs[j]? = some a ∧ holds a k = true := by
  by_contra hno
  refine Bool.false_ne_true (h.symm.trans (free_iff.mpr fun j a ha _ => ?_))
  exact Bool.eq_false_iff.mpr fun hk => hno ⟨j, a, ha, hk⟩

theorem Exclusive.nil : Exclusive holds ([] : List τ) := by
  intro i j a b k ha
  simp at ha

theorem getElem?_append_singleton {txs : List τ} {tx a : τ} {i : ℕ}
    (h : (txs ++ [tx])[i]? = some a) : txs[i]? = some a ∨ a = tx := by
  rw [List.getElem?_append] at h
  split at h
  · exact Or.inl h
  · exact Or.inr (List.mem_singleton.mp (List.mem_of_getElem? h))

theorem Exclusive.append {txs : List τ} {tx : τ} (h : Exclusive holds txs)
    (hnew : ∀ k, holds tx k = false) : Exclusive holds (txs ++ [tx]) := by
  intro i j a b k ha hb hak hbk
  have old : ∀ {i : ℕ} {a : τ}, (txs ++ [tx])[i]? = some a → holds a k = true →
      txs[i]? = some a := by
    intro i a ha hak
    refine (getElem?_append_singleton ha).resolve_right ?_
    rintro rfl
    rw [hnew] at hak
    cases hak
  exact h i j a b k (old ha hak) (old hb hbk) hak hbk

theorem getElem?_set_cases {txs : List τ} {i j : ℕ} {new a : τ} (h : (txs.set i new)[j]? = some a) :
    (j = i ∧ a = new) ∨ (j ≠ i ∧ txs[j]? = some a) := by
  by_cases hj : j = i
  · subst hj
    rw [List.getElem?_set] at h
    simp only [↓reduceIte] at h
    split at h
    · exact Or.inl ⟨rfl, (Option.some.inj h).symm⟩
    · cases h
  · rw [List.getElem?_set_ne (Ne.symm hj)] at h
    exact Or.inr ⟨hj, h⟩

/-- A transaction moves on: it keeps some of its locks, and takes others only while free. -/
theorem Exclusive.set {txs : List τ} {i : ℕ} {old new : τ} (h : Exclusive holds txs)
    (hi : txs[i]? = some old)
    (hnew : ∀ k, holds new k = true → holds old k = true ∨ free holds txs i k = true) :
    Exclusive holds (txs.set i new) := by
  have alone : ∀ {j : ℕ} {b : τ} {k : κ}, holds new k = true → txs[j]? = some b →
      holds b k = true → j = i := by
    intro j b k hk hb hbk
    rcases hnew k hk with hold | hfree
    · exact h j i b old k hb hi hbk hold
    · by_contra hne
      rw [free_iff.mp hfree j b hb hne] at hbk
      cases hbk
  intro j l a b k ha hb hak hbk
  rcases getElem?_set_cases ha with ⟨rfl, rfl⟩ | ⟨-, ha'⟩
  · rcases getElem?_set_cases hb with ⟨rfl, rfl⟩ | ⟨-, hb'⟩
    · rfl
    · exact (alone hak hb' hbk).symm
  · rcases getElem?_set_cases hb with ⟨rfl, rfl⟩ | ⟨-, hb'⟩
    · exact alone hbk ha' hak
    · exact h j l a b k ha' hb' hak hbk

theorem sum_map_set_lt {f : τ → ℕ} {txs : List τ} {i : ℕ} {old new : τ} (hi : txs[i]? = some old)
    (h : f new < f old) : ((txs.set i new).map f).sum < (txs.map f).sum := by
  induction txs generalizing i with
  | nil => cases hi
  | cons tx txs ih =>
    cases i with
    | zero =>
      obtain rfl := Option.some.inj hi
      exact Nat.add_lt_add_right h _
    | succ i =>
      have hrest := ih (i := i) hi
      exact Nat.add_lt_add_left hrest _

end ReviewFlow.RowLocks
