import ReviewFlow.Interleaving

/-!
# Facts that are granted and withdrawn

A fact that some transitions grant and others withdraw holds if and only if it was granted, or held
at first, and has not been withdrawn since.
-/

namespace ReviewFlow.Interleaving

variable {σ ℓ : Type} {p q : Transition σ ℓ → Prop} {h : List (Transition σ ℓ)} {t : Transition σ ℓ}

/-- What `p` grants and `q` withdraws, at the end of `h`. -/
def InForce (first : Prop) (p q : Transition σ ℓ → Prop) (h : List (Transition σ ℓ)) : Prop :=
  (first ∧ ∀ u ∈ h, ¬ q u) ∨ ∃ h₁ t h₂, h = h₁ ++ t :: h₂ ∧ p t ∧ ∀ u ∈ h₂, ¬ q u

theorem inForce_nil {first : Prop} : InForce first p q [] ↔ first := by
  constructor
  · rintro (⟨hfirst, -⟩ | ⟨h₁, t, h₂, hnil, -⟩)
    · exact hfirst
    · simp at hnil
  · exact fun hfirst => .inl ⟨hfirst, fun u hu => nomatch hu⟩

theorem inForce_snoc {first : Prop} :
    InForce first p q (h ++ [t]) ↔ p t ∨ InForce first p q h ∧ ¬ q t := by
  constructor
  · rintro (⟨hfirst, hno⟩ | ⟨h₁, u, h₂, heq, hu, hno⟩)
    · right
      exact ⟨.inl ⟨hfirst, fun u hu => hno u (List.mem_append_left _ hu)⟩, hno t (by simp)⟩
    · -- the grant is the last transition, or an earlier one
      rcases List.eq_nil_or_concat' h₂ with rfl | ⟨h₃, v, rfl⟩
      · obtain ⟨-, htu⟩ := List.append_inj' heq rfl
        cases htu
        exact .inl hu
      · right
        have heq' : h ++ [t] = (h₁ ++ u :: h₃) ++ [v] := by simpa using heq
        obtain ⟨rfl, htv⟩ := List.append_inj' heq' rfl
        cases htv
        refine ⟨.inr ⟨h₁, u, h₃, rfl, hu, fun w hw => hno w ?_⟩, hno t (by simp)⟩
        exact List.mem_append_left _ hw
  · have keeps : ∀ {l : List (Transition σ ℓ)}, (∀ u ∈ l, ¬ q u) → ¬ q t →
        ∀ u ∈ l ++ [t], ¬ q u := by
      intro l hl ht u hu
      rcases List.mem_append.mp hu with hu | hu
      · exact hl u hu
      · exact List.mem_singleton.mp hu ▸ ht
    rintro (hp | ⟨⟨hfirst, hno⟩ | ⟨h₁, u, h₂, rfl, hu, hno⟩, ht⟩)
    · exact .inr ⟨h, t, [], rfl, hp, fun u hu => nomatch hu⟩
    · exact .inl ⟨hfirst, keeps hno ht⟩
    · exact .inr ⟨h₁, u, h₂ ++ [t], by simp, hu, keeps hno ht⟩

theorem run_inForce {step : σ → ℓ → σ} {s : σ} {ls : List ℓ} {I J : σ → Prop} (hinit : I s)
    (hI : ∀ s l, I s → I (step s l))
    (hstep : ∀ s l, I s →
      (J (step s l) ↔ p (transition step s l) ∨ J s ∧ ¬ q (transition step s l))) :
    J (run step s ls) ↔ InForce (J s) p q (trace step s ls) := by
  have hrun : I (run step s ls) ∧ (J (run step s ls) ↔ InForce (J s) p q ([] ++ trace step s ls)) :=
    trace_history (P := fun h u => I u ∧ (J u ↔ InForce (J s) p q h)) (C := fun _ _ => True)
    ⟨hinit, inForce_nil.symm⟩
    (fun h u l hu _ => ⟨hI u l hu.1, by rw [hstep u l hu.1, inForce_snoc, hu.2]⟩)
    (MeetsFrom.of_forall (fun _ _ => trivial) _)
  exact hrun.2

end ReviewFlow.Interleaving
