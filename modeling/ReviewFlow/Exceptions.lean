/-!
# What a computation raises

Computations in `Except`: the result of a sequence, the exceptions that it may end with, and a loop
that appends what it reads of each item.
-/

namespace ReviewFlow.Exceptions

universe u

variable {ε : Type u} {α β : Type} {P : ε → Prop} {x : Except ε α} {f : α → Except ε β} {b : β}

theorem bind_eq_ok : x >>= f = .ok b ↔ ∃ a, x = .ok a ∧ f a = .ok b := by
  cases x with
  | ok a =>
    constructor
    · exact fun h => ⟨a, rfl, h⟩
    · intro h
      obtain ⟨a', ha, h⟩ := h
      cases ha
      exact h
  | error e =>
    constructor
    · intro h
      cases h
    · intro h
      obtain ⟨a, ha, -⟩ := h
      cases ha

def Only (P : ε → Prop) (x : Except ε α) : Prop := ∀ e, x = .error e → P e

theorem only_ok (a : α) : Only P (.ok a : Except ε α) := by
  intro e h
  cases h

theorem only_error {e : ε} : Only P (.error e : Except ε α) ↔ P e := by
  constructor
  · exact fun h => h e rfl
  · intro h e' he
    cases he
    exact h

theorem only_bind : Only P (x >>= f) ↔ Only P x ∧ ∀ a, x = .ok a → Only P (f a) := by
  cases x with
  | ok a =>
    constructor
    · intro h
      refine ⟨only_ok a, fun b hb => ?_⟩
      cases hb
      exact h
    · exact fun h => h.2 a rfl
  | error e =>
    constructor
    · intro h
      refine ⟨only_error.mpr (h e rfl), fun b hb => ?_⟩
      cases hb
    · exact fun h => only_error.mpr (only_error.mp h.1)

theorem only_map (h : ∀ a, ∃ b, f a = .ok b) : Only P (x >>= f) ↔ Only P x := by
  refine only_bind.trans ⟨And.left, fun hx => ⟨hx, fun a _ => ?_⟩⟩
  obtain ⟨b, hb⟩ := h a
  rw [hb]
  exact only_ok b

theorem foldlM_append {step : List α → β → Except ε (List α)} {g : β → List α} {bs : List β}
    (h : ∀ b ∈ bs, ∀ out, step out b = .ok (out ++ g b)) (out : List α) :
    bs.foldlM step out = .ok (out ++ bs.flatMap g) := by
  induction bs generalizing out with
  | nil => simp [pure, Except.pure]
  | cons b bs ih =>
    have hfirst := h b List.mem_cons_self out
    have hrest := ih (fun c hc => h c (List.mem_cons_of_mem b hc)) (out ++ g b)
    rw [List.foldlM_cons, hfirst, List.flatMap_cons, ← List.append_assoc]
    exact hrest

end ReviewFlow.Exceptions
