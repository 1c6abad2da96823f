import Mathlib.Data.List.Basic

/-!
# Traces of a deterministic labelled system

A label is one choice of the scheduler together with what the outside answers to
it, so a step is a function and a run is a list of labels. `trace` keeps each
transition with the states around it. The rules are for invariants of states and
for invariants of a state with its history, both under an assumption on the
transitions taken.
-/

namespace ReviewFlow.Interleaving

structure Transition (σ ℓ : Type) where
  before : σ
  label : ℓ
  after : σ

variable {σ ℓ : Type}

def transition (step : σ → ℓ → σ) (s : σ) (l : ℓ) : Transition σ ℓ := ⟨s, l, step s l⟩

def run (step : σ → ℓ → σ) : σ → List ℓ → σ
  | s, [] => s
  | s, l :: ls => run step (step s l) ls

def trace (step : σ → ℓ → σ) : σ → List ℓ → List (Transition σ ℓ)
  | _, [] => []
  | s, l :: ls => transition step s l :: trace step (step s l) ls

/-- Each transition meets `C`, given the transitions before it. -/
def MeetsFrom (C : List (Transition σ ℓ) → Transition σ ℓ → Prop) :
    List (Transition σ ℓ) → List (Transition σ ℓ) → Prop
  | _, [] => True
  | h, t :: ts => C h t ∧ MeetsFrom C (h ++ [t]) ts

def Meets (C : List (Transition σ ℓ) → Transition σ ℓ → Prop) (ts : List (Transition σ ℓ)) : Prop :=
  MeetsFrom C [] ts

instance MeetsFrom.decidable {C : List (Transition σ ℓ) → Transition σ ℓ → Prop}
    [∀ h t, Decidable (C h t)] : ∀ h ts, Decidable (MeetsFrom C h ts)
  | _, [] => isTrue trivial
  | h, t :: ts => @instDecidableAnd _ _ _ (MeetsFrom.decidable (h ++ [t]) ts)

instance {C : List (Transition σ ℓ) → Transition σ ℓ → Prop} [∀ h t, Decidable (C h t)]
    (ts : List (Transition σ ℓ)) : Decidable (Meets C ts) :=
  MeetsFrom.decidable [] ts

variable {step : σ → ℓ → σ} {s : σ} {ls : List ℓ}

theorem run_append (step : σ → ℓ → σ) (s : σ) (ls ls' : List ℓ) :
    run step s (ls ++ ls') = run step (run step s ls) ls' := by
  induction ls generalizing s with
  | nil => rfl
  | cons l ls ih => exact ih (step s l)

theorem trace_step {t : Transition σ ℓ} (h : t ∈ trace step s ls) :
    t = transition step t.before t.label := by
  induction ls generalizing s with
  | nil => cases h
  | cons l ls ih =>
    rcases List.mem_cons.mp h with rfl | h
    · rfl
    · exact ih h

theorem trace_split {t : Transition σ ℓ} (h : t ∈ trace step s ls) :
    ∃ ls₁ ls₂, ls = ls₁ ++ t.label :: ls₂ ∧ t.before = run step s ls₁ := by
  induction ls generalizing s with
  | nil => cases h
  | cons l ls ih =>
    rcases List.mem_cons.mp h with rfl | h
    · exact ⟨[], ls, rfl, rfl⟩
    · obtain ⟨ls₁, ls₂, rfl, hbefore⟩ := ih h
      exact ⟨l :: ls₁, ls₂, rfl, hbefore⟩

theorem trace_invariant {I : σ → Prop} {C : Transition σ ℓ → Prop} (hinit : I s)
    (hstep : ∀ s l, I s → C (transition step s l) → I (step s l))
    (hc : ∀ t ∈ trace step s ls, C t) : ∀ t ∈ trace step s ls, I t.before := by
  induction ls generalizing s with
  | nil => simp [trace]
  | cons l ls ih =>
    intro t ht
    rcases List.mem_cons.mp ht with rfl | ht
    · exact hinit
    · exact ih (hstep s l hinit (hc _ List.mem_cons_self))
        (fun u hu => hc u (List.mem_cons_of_mem _ hu)) t ht

theorem reachable_invariant {I : σ → Prop} (hinit : I s)
    (hstep : ∀ s l, I s → I (step s l)) : ∀ t ∈ trace step s ls, I t.before :=
  trace_invariant (C := fun _ => True) hinit (fun s l h _ => hstep s l h) (fun _ _ => trivial)

theorem trace_invariant_iff {I J : σ → Prop} {C : Transition σ ℓ → Prop} (hI : I s) (hJ : J s)
    (hinv : ∀ s l, I s → I (step s l))
    (hstep : ∀ s l, I s → J s → (J (step s l) ↔ C (transition step s l))) :
    (∀ t ∈ trace step s ls, J t.after) ↔ ∀ t ∈ trace step s ls, C t := by
  induction ls generalizing s with
  | nil => simp [trace]
  | cons l ls ih =>
    rw [trace, List.forall_mem_cons, List.forall_mem_cons]
    constructor
    · intro ⟨hl, hrest⟩
      exact ⟨(hstep s l hI hJ).mp hl, (ih (hinv s l hI) hl).mp hrest⟩
    · intro ⟨hl, hrest⟩
      have hJ' : J (step s l) := (hstep s l hI hJ).mpr hl
      exact ⟨hJ', (ih (hinv s l hI) hJ').mpr hrest⟩

/-- Some step of the run was taken as `P` says, of the state before it and its label. -/
def Earlier (step : σ → ℓ → σ) (s : σ) (ls : List ℓ) (P : σ → ℓ → Prop) : Prop :=
  ∃ ls₁ l ls₂, ls = ls₁ ++ l :: ls₂ ∧ P (run step s ls₁) l

theorem Earlier.append {P : σ → ℓ → Prop} (h : Earlier step s ls P) (ls' : List ℓ) :
    Earlier step s (ls ++ ls') P := by
  obtain ⟨ls₁, l, ls₂, rfl, hP⟩ := h
  exact ⟨ls₁, l, ls₂ ++ ls', by simp, hP⟩

theorem Earlier.last {P : σ → ℓ → Prop} {l : ℓ} (h : P (run step s ls) l) :
    Earlier step s (ls ++ [l]) P := ⟨ls, l, [], rfl, h⟩

theorem Earlier.mono {P Q : σ → ℓ → Prop} (h : Earlier step s ls P) (hPQ : ∀ s l, P s l → Q s l) :
    Earlier step s ls Q := by
  obtain ⟨ls₁, l, ls₂, rfl, hP⟩ := h
  exact ⟨ls₁, l, ls₂, rfl, hPQ _ _ hP⟩

theorem run_snoc (step : σ → ℓ → σ) (s : σ) (ls : List ℓ) (l : ℓ) :
    run step s (ls ++ [l]) = step (run step s ls) l := run_append step s ls [l]

theorem run_history {P : List ℓ → σ → Prop} (hinit : P [] s)
    (hstep : ∀ h s l, P h s → P (h ++ [l]) (step s l)) : P ls (run step s ls) := by
  have hfrom : ∀ (h : List ℓ) (s : σ), P h s → P (h ++ ls) (run step s ls) := by
    induction ls with
    | nil =>
      intro h s hs
      rwa [List.append_nil]
    | cons l ls ih =>
      intro h s hs
      have := ih (h ++ [l]) (step s l) (hstep h s l hs)
      rwa [List.append_assoc] at this
  exact hfrom [] s hinit

theorem trace_of_run {J : σ → Prop} (hback : ∀ s l, J (step s l) → J s)
    (hfinal : J (run step s ls)) : ∀ t ∈ trace step s ls, J t.after := by
  induction ls generalizing s with
  | nil => simp [trace]
  | cons l ls ih =>
    have hrest := ih hfinal
    rw [trace, List.forall_mem_cons]
    refine ⟨?_, hrest⟩
    cases ls with
    | nil => exact hfinal
    | cons l' ls => exact hback _ l' (hrest _ List.mem_cons_self)

theorem run_of_trace {J : σ → Prop} (hinit : J s) (h : ∀ t ∈ trace step s ls, J t.after) :
    J (run step s ls) := by
  induction ls generalizing s with
  | nil => exact hinit
  | cons l ls ih =>
    rw [trace, List.forall_mem_cons] at h
    exact ih h.1 h.2

theorem length_le_of_decreasing {μ : σ → ℕ} (h : ∀ t ∈ trace step s ls, μ t.after < μ t.before) :
    ls.length ≤ μ s := by
  induction ls generalizing s with
  | nil => exact Nat.zero_le _
  | cons l ls ih =>
    rw [trace, List.forall_mem_cons] at h
    exact Nat.succ_le_of_lt (Nat.lt_of_le_of_lt (ih h.2) h.1)

theorem trace_history {P : List (Transition σ ℓ) → σ → Prop}
    {C : List (Transition σ ℓ) → Transition σ ℓ → Prop} {h : List (Transition σ ℓ)}
    (hinit : P h s)
    (hstep : ∀ h s l, P h s → C h (transition step s l) →
      P (h ++ [transition step s l]) (step s l))
    (hc : MeetsFrom C h (trace step s ls)) : P (h ++ trace step s ls) (run step s ls) := by
  induction ls generalizing s h with
  | nil => simpa [trace, run] using hinit
  | cons l ls ih =>
    obtain ⟨hl, hrest⟩ := hc
    have := ih (hstep h s l hinit hl) hrest
    rwa [List.append_assoc] at this

theorem MeetsFrom.of_invariant {P : List (Transition σ ℓ) → σ → Prop}
    {C D : List (Transition σ ℓ) → Transition σ ℓ → Prop} {h : List (Transition σ ℓ)}
    (hinit : P h s)
    (hstep : ∀ h s l, P h s → C h (transition step s l) →
      P (h ++ [transition step s l]) (step s l) ∧ D h (transition step s l))
    (hc : MeetsFrom C h (trace step s ls)) : MeetsFrom D h (trace step s ls) := by
  induction ls generalizing s h with
  | nil => trivial
  | cons l ls ih =>
    obtain ⟨hl, hrest⟩ := hc
    obtain ⟨hp, hd⟩ := hstep h s l hinit hl
    exact ⟨hd, ih hp hrest⟩

theorem MeetsFrom.and {C D : List (Transition σ ℓ) → Transition σ ℓ → Prop}
    {h ts : List (Transition σ ℓ)} (hC : MeetsFrom C h ts) (hD : MeetsFrom D h ts) :
    MeetsFrom (fun h t => C h t ∧ D h t) h ts := by
  induction ts generalizing h with
  | nil => trivial
  | cons t ts ih => exact ⟨⟨hC.1, hD.1⟩, ih hC.2 hD.2⟩

theorem MeetsFrom.mono {C D : List (Transition σ ℓ) → Transition σ ℓ → Prop}
    {h ts : List (Transition σ ℓ)} (hC : MeetsFrom C h ts) (hCD : ∀ h t, C h t → D h t) :
    MeetsFrom D h ts := by
  induction ts generalizing h with
  | nil => trivial
  | cons t ts ih => exact ⟨hCD h t hC.1, ih hC.2⟩

theorem MeetsFrom.of_forall {C : Transition σ ℓ → Prop} {ts : List (Transition σ ℓ)}
    (hC : ∀ t ∈ ts, C t) (h : List (Transition σ ℓ)) : MeetsFrom (fun _ t => C t) h ts := by
  induction ts generalizing h with
  | nil => trivial
  | cons t ts ih =>
    exact ⟨hC t List.mem_cons_self, ih (fun u hu => hC u (List.mem_cons_of_mem _ hu)) _⟩

theorem MeetsFrom.of_history {C : Transition σ ℓ → Prop} {h ts : List (Transition σ ℓ)}
    (hC : ∀ t ∈ h ++ ts, C t) : MeetsFrom (fun h _ => ∀ u ∈ h, C u) h ts := by
  induction ts generalizing h with
  | nil => trivial
  | cons t ts ih =>
    refine ⟨fun u hu => hC u (List.mem_append_left _ hu), ih ?_⟩
    rwa [List.append_assoc]

theorem MeetsFrom.split {D : List (Transition σ ℓ) → Transition σ ℓ → Prop}
    {h before after : List (Transition σ ℓ)}
    {t : Transition σ ℓ} (hD : MeetsFrom D h (before ++ t :: after)) : D (h ++ before) t := by
  induction before generalizing h with
  | nil =>
    rw [List.append_nil]
    exact hD.1
  | cons u before ih =>
    have := ih hD.2
    rwa [List.append_assoc] at this

section Since

/-- The transitions after the last one that `p` selects. -/
def Since {α : Type} (p : α → Prop) (h rest : List α) : Prop :=
  ∃ h₁ r, h = h₁ ++ r :: rest ∧ p r ∧ ∀ u ∈ rest, ¬ p u

variable {α : Type} {p : α → Prop} {h rest rest' : List α} {t : α}

theorem Since.of_last (ht : p t) : Since p (h ++ [t]) [] := ⟨h, t, rfl, ht, fun _ hu => nomatch hu⟩

theorem Since.snoc (hs : Since p h rest) (ht : ¬ p t) : Since p (h ++ [t]) (rest ++ [t]) := by
  obtain ⟨h₁, r, rfl, hr, hno⟩ := hs
  refine ⟨h₁, r, by simp, hr, fun u hu => ?_⟩
  rcases List.mem_append.mp hu with hu | hu
  · exact hno u hu
  · exact List.mem_singleton.mp hu ▸ ht

theorem Since.unique (hs : Since p h rest) (hs' : Since p h rest') : rest = rest' := by
  obtain ⟨h₁, r, rfl, hr, hno⟩ := hs
  obtain ⟨h₂, r', heq, hr', hno'⟩ := hs'
  -- the longer of the two rests would contain the other selected transition
  rcases List.append_eq_append_iff.mp heq with ⟨as, -, hrest⟩ | ⟨as, -, hrest⟩
  · cases as with
    | nil => exact (List.cons.inj hrest).2
    | cons a as =>
      have hmem : r' ∈ rest := (List.cons.inj hrest).2 ▸ List.mem_append_right _ List.mem_cons_self
      exact absurd hr' (hno r' hmem)
  · cases as with
    | nil => exact ((List.cons.inj hrest).2).symm
    | cons a as =>
      have hmem : r ∈ rest' := (List.cons.inj hrest).2 ▸ List.mem_append_right _ List.mem_cons_self
      exact absurd hr (hno' r hmem)

end Since

end ReviewFlow.Interleaving
