import Mathlib.Data.List.Basic

/-!
# Texts with a separator in them

When the parts of `l ++ x :: t`, and the pairs of a joined text, can be read back from it.
-/

namespace ReviewFlow.Separators

variable {α : Type} {x : α} {k k' l t v v' : List α}

theorem split_at_first (hk : x ∉ k) (hk' : x ∉ k') (h : k ++ x :: v = k' ++ x :: v') :
    k = k' ∧ v = v' := by
  induction k generalizing k' with
  | nil =>
    cases k' with
    | nil => exact ⟨rfl, (List.cons.inj h).2⟩
    | cons a k' =>
      have ha : x = a := (List.cons.inj h).1
      exact absurd (ha ▸ List.mem_cons_self) hk'
  | cons a k ih =>
    cases k' with
    | nil =>
      have ha : a = x := (List.cons.inj h).1
      exact absurd (ha ▸ List.mem_cons_self) hk
    | cons b k' =>
      obtain ⟨rfl, htail⟩ := List.cons.inj h
      obtain ⟨rfl, hv⟩ := ih (fun hm => hk (List.mem_cons_of_mem _ hm))
        (fun hm => hk' (List.mem_cons_of_mem _ hm)) htail
      exact ⟨rfl, hv⟩

def Unambiguous (x : α) (l t : List α) : Prop := x ∉ l ∧ x ∉ t.dropLast

theorem Unambiguous.unique (h : Unambiguous x l t) {l' t' : List α} (ht' : t' ≠ [])
    (heq : l' ++ x :: t' = l ++ x :: t) : l' = l ∧ t' = t := by
  rcases List.append_eq_append_iff.mp heq with ⟨m, rfl, hm⟩ | ⟨m, rfl, hm⟩
  · cases m with
    | nil => exact ⟨by simp, (List.cons.inj hm).2⟩
    | cons a m =>
      obtain ⟨rfl, rfl⟩ := List.cons.inj hm
      exact absurd (List.mem_append_right _ List.mem_cons_self) h.1
  · cases m with
    | nil => exact ⟨by simp, (List.cons.inj hm).2.symm⟩
    | cons a m =>
      obtain rfl : t = m ++ x :: t' := (List.cons.inj hm).2
      refine absurd ?_ h.2
      have hne : x :: t' ≠ [] := List.cons_ne_nil _ _
      rw [List.dropLast_append_of_ne_nil hne, List.dropLast_cons_of_ne_nil ht']
      exact List.mem_append_right _ List.mem_cons_self

theorem exists_other (h : ¬ Unambiguous x l t) (ht : t ≠ []) :
    ∃ l' t', t' ≠ [] ∧ l' ++ x :: t' = l ++ x :: t ∧ l' ≠ l := by
  by_cases hl : x ∈ l
  · obtain ⟨a, b, rfl⟩ := List.append_of_mem hl
    exact ⟨a, b ++ x :: t, by simp, by simp, by simp⟩
  · have hx : x ∈ t.dropLast := by
      by_contra hx
      exact h ⟨hl, hx⟩
    obtain ⟨a, b, hab⟩ := List.append_of_mem hx
    have hsplit : t = a ++ x :: (b ++ [t.getLast ht]) := by
      calc t = t.dropLast ++ [t.getLast ht] := (List.dropLast_append_getLast ht).symm
        _ = a ++ x :: (b ++ [t.getLast ht]) := by rw [hab]; simp
    refine ⟨l ++ x :: a, b ++ [t.getLast ht], by simp, ?_, by simp⟩
    conv_rhs => rw [hsplit]
    simp

section Joined

variable {pairSep valueSep : α} {pairs pairs' : List (List α × List α)}

def writePair (valueSep : α) (p : List α × List α) : List α := p.1 ++ valueSep :: p.2

/-- `pairSep.join(name + valueSep + value ...)`. -/
def joinPairs (pairSep valueSep : α) (pairs : List (List α × List α)) : List α :=
  [pairSep].intercalate (pairs.map (writePair valueSep))

def Plain (pairSep valueSep : α) (p : List α × List α) : Prop :=
  valueSep ∉ p.1 ∧ pairSep ∉ p.1 ∧ pairSep ∉ p.2

theorem writePair_inj {p q : List α × List α} (hp : valueSep ∉ p.1) (hq : valueSep ∉ q.1)
    (h : writePair valueSep p = writePair valueSep q) : p = q := by
  obtain ⟨hname, hvalue⟩ := split_at_first hp hq h
  exact Prod.ext hname hvalue

theorem splitOn_joinPairs [DecidableEq α] (hne : pairSep ≠ valueSep) (hpairs : pairs ≠ [])
    (h : ∀ p ∈ pairs, Plain pairSep valueSep p) :
    (joinPairs pairSep valueSep pairs).splitOn pairSep = pairs.map (writePair valueSep) := by
  apply List.splitOn_intercalate
  · intro w hw
    obtain ⟨p, hp, rfl⟩ := List.mem_map.mp hw
    obtain ⟨-, hname, hvalue⟩ := h p hp
    simp [writePair, hname, hvalue, hne]
  · simpa using hpairs

theorem joinPairs_ne_nil (hpairs : pairs ≠ []) : joinPairs pairSep valueSep pairs ≠ [] := by
  obtain ⟨p, rest, rfl⟩ := List.exists_cons_of_ne_nil hpairs
  cases rest with
  | nil => simp [joinPairs, writePair]
  | cons q rest => simp [joinPairs, writePair]

theorem writePairs_inj (h : ∀ p ∈ pairs, valueSep ∉ p.1) (h' : ∀ p ∈ pairs', valueSep ∉ p.1)
    (heq : pairs.map (writePair valueSep) = pairs'.map (writePair valueSep)) : pairs = pairs' := by
  induction pairs generalizing pairs' with
  | nil => exact (List.map_eq_nil_iff.mp heq.symm).symm
  | cons p pairs ih =>
    cases pairs' with
    | nil => cases heq
    | cons q pairs' =>
      obtain ⟨hpq, hrest⟩ := List.cons.inj heq
      obtain rfl := writePair_inj (h p List.mem_cons_self) (h' q List.mem_cons_self) hpq
      rw [ih (fun r hr => h r (List.mem_cons_of_mem _ hr))
        (fun r hr => h' r (List.mem_cons_of_mem _ hr)) hrest]

theorem joinPairs_inj [DecidableEq α] (hne : pairSep ≠ valueSep)
    (h : ∀ p ∈ pairs, Plain pairSep valueSep p)
    (h' : ∀ p ∈ pairs', Plain pairSep valueSep p)
    (heq : joinPairs pairSep valueSep pairs = joinPairs pairSep valueSep pairs') :
    pairs = pairs' := by
  by_cases hpairs : pairs = []
  · by_cases hpairs' : pairs' = []
    · rw [hpairs, hpairs']
    · subst hpairs
      exact absurd heq.symm (joinPairs_ne_nil hpairs')
  · by_cases hpairs' : pairs' = []
    · subst hpairs'
      exact absurd heq (joinPairs_ne_nil hpairs)
    · apply writePairs_inj (fun p hp => (h p hp).1) (fun p hp => (h' p hp).1)
      rw [← splitOn_joinPairs hne hpairs h, heq, splitOn_joinPairs hne hpairs' h']

end Joined

end ReviewFlow.Separators
