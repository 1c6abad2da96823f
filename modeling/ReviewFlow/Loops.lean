import Mathlib.Data.Set.Finite.Basic

/-!
# Loops that may never end

A loop is at a place, or it has ended. A turn leads from a place to the next one and may depend
on what is met at that time, so a loop that goes on for ever is a sequence of places.
-/

namespace ReviewFlow.Loops

inductive Place (α ρ : Type) where
  | running (a : α)
  | ended (result : ρ)

variable {α ρ : Type}

/-- Where the loop is after `n` turns. -/
def place (turn : ℕ → α → Place α ρ) (start : Place α ρ) : ℕ → Place α ρ
  | 0 => start
  | n + 1 => match place turn start n with
    | .running a => turn n a
    | .ended result => .ended result

def Ends (turn : ℕ → α → Place α ρ) (start : Place α ρ) : Prop :=
  ∃ n result, place turn start n = .ended result

variable {turn : ℕ → α → Place α ρ} {start : Place α ρ} {n m : ℕ} {result : ρ}

theorem place_succ {a : α} (h : place turn start n = .running a) :
    place turn start (n + 1) = turn n a := by
  rw [place, h]

theorem ended_stays (h : place turn start n = .ended result) (hm : n ≤ m) :
    place turn start m = .ended result := by
  induction hm with
  | refl => exact h
  | step _ ih => rw [place, ih]

theorem not_ends_iff : ¬ Ends turn start ↔
    ∃ f : ℕ → α, start = .running (f 0) ∧ ∀ n, turn n (f n) = .running (f (n + 1)) := by
  constructor
  · intro h
    have running : ∀ n, ∃ a, place turn start n = .running a := by
      intro n
      cases hn : place turn start n with
      | running a => exact ⟨a, rfl⟩
      | ended result => exact absurd ⟨n, result, hn⟩ h
    choose f hf using running
    refine ⟨f, hf 0, fun n => ?_⟩
    rw [← place_succ (hf n), hf (n + 1)]
  · rintro ⟨f, hstart, hf⟩ ⟨n, result, hn⟩
    have running : ∀ n, place turn start n = .running (f n) := by
      intro n
      induction n with
      | zero => exact hstart
      | succ n ih => rw [place_succ ih, hf]
    rw [running n] at hn
    cases hn

theorem Ends.finite (h : Ends turn start) (p : α → Prop) :
    {n | ∃ a, place turn start n = .running a ∧ p a}.Finite := by
  obtain ⟨m, result, hm⟩ := h
  refine (Set.finite_lt_nat m).subset ?_
  rintro n ⟨a, ha, -⟩
  by_contra hn
  rw [ended_stays hm (Nat.le_of_not_lt hn)] at ha
  cases ha

end ReviewFlow.Loops
