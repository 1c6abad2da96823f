import Mathlib.Data.List.Nodup

/-!
# The first of each key

Entries are taken one after another, and one whose key is known is passed over. Taking a part of
the entries again, from the front, changes nothing.
-/

namespace ReviewFlow.FirstWins

variable {κ α : Type} [DecidableEq κ]

def firsts (known : List κ) : List (κ × α) → List (κ × α)
  | [] => []
  | entry :: entries =>
    if entry.1 ∈ known then firsts known entries else entry :: firsts (known ++ [entry.1]) entries

variable {known : List κ} {entries entries' : List (κ × α)} {key : κ} {a : α}

theorem firsts_append : firsts known (entries ++ entries') =
    firsts known entries ++ firsts (known ++ (firsts known entries).map Prod.fst) entries' := by
  induction entries generalizing known with
  | nil => simp [firsts]
  | cons entry entries ih =>
    by_cases hkey : entry.1 ∈ known
    · simp [firsts, hkey, ih]
    · simp [firsts, hkey, ih]

theorem firsts_known (h : ∀ entry ∈ entries, entry.1 ∈ known) : firsts known entries = [] := by
  induction entries with
  | nil => rfl
  | cons entry entries ih =>
    rw [firsts, if_pos (h entry List.mem_cons_self)]
    exact ih fun e he => h e (List.mem_cons_of_mem _ he)

theorem known_after {entry : κ × α} (h : entry ∈ entries) :
    entry.1 ∈ known ++ (firsts known entries).map Prod.fst := by
  induction entries generalizing known with
  | nil => cases h
  | cons first entries ih =>
    by_cases hkey : first.1 ∈ known
    · rw [firsts, if_pos hkey]
      rcases List.mem_cons.mp h with rfl | h
      · exact List.mem_append_left _ hkey
      · exact ih h
    · rw [firsts, if_neg hkey, List.map_cons, List.append_cons]
      rcases List.mem_cons.mp h with rfl | h
      · simp
      · exact ih h

/-- The entry that is taken for a key is the first with it, unless the key was known. -/
theorem mem_firsts : (key, a) ∈ firsts known entries ↔
    key ∉ known ∧ entries.find? (fun entry => decide (entry.1 = key)) = some (key, a) := by
  induction entries generalizing known with
  | nil => simp [firsts]
  | cons entry entries ih =>
    by_cases hentry : entry.1 = key
    · subst hentry
      by_cases hkey : entry.1 ∈ known
      · simp [firsts, hkey, ih]
      · simp [firsts, hkey, ih, Prod.ext_iff, eq_comm]
    · have hne : ¬ key = entry.1 := fun h => hentry h.symm
      by_cases hkey : entry.1 ∈ known
      · simp [firsts, hkey, ih, hentry]
      · simp [firsts, hkey, ih, hentry, hne, Prod.ext_iff]

theorem firsts_nodup : ((firsts known entries).map Prod.fst).Nodup := by
  induction entries generalizing known with
  | nil => exact List.nodup_nil
  | cons entry entries ih =>
    rw [firsts]
    split
    · exact ih
    · rw [List.map_cons, List.nodup_cons]
      refine ⟨fun hmem => ?_, ih⟩
      obtain ⟨⟨key, a⟩, htaken, rfl⟩ := List.mem_map.mp hmem
      exact (mem_firsts.mp htaken).1 (by simp)

theorem firsts_congr {known' : List κ} (h : ∀ k, k ∈ known ↔ k ∈ known') :
    firsts known entries = firsts known' entries := by
  induction entries generalizing known known' with
  | nil => rfl
  | cons entry entries ih =>
    have hnext : ∀ k, k ∈ known ++ [entry.1] ↔ k ∈ known' ++ [entry.1] := by
      intro k
      rw [List.mem_append, List.mem_append, h k]
    simp only [firsts, h entry.1, ih h, ih hnext]

theorem firsts_map {β : Type} (g : α → β) :
    firsts known (entries.map fun entry => (entry.1, g entry.2)) =
      (firsts known entries).map fun entry => (entry.1, g entry.2) := by
  induction entries generalizing known with
  | nil => rfl
  | cons entry entries ih =>
    by_cases hkey : entry.1 ∈ known
    · simp [firsts, hkey, ih]
    · simp [firsts, hkey, ih]

theorem mem_of_mem_firsts {entry : κ × α} (h : entry ∈ firsts known entries) : entry ∈ entries :=
  List.mem_of_find?_eq_some (mem_firsts.mp h).2

theorem firsts_resume :
    firsts known entries ++
      firsts (known ++ (firsts known entries).map Prod.fst) (entries ++ entries') =
      firsts known (entries ++ entries') := by
  have hagain : firsts (known ++ (firsts known entries).map Prod.fst) entries = [] :=
    firsts_known fun _ => known_after
  simp [firsts_append, hagain]

theorem firsts_again :
    firsts (known ++ (firsts known (entries ++ entries')).map Prod.fst) entries = [] :=
  firsts_known fun _ he => known_after (List.mem_append_left _ he)

end ReviewFlow.FirstWins
