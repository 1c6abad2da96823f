import ReviewFlow.Savepoint

/-!
# Failed runs that change nothing

`Restores` selects errors: a run that raises one of them leaves the data as it
found them. A savepoint does so for every error, and what preserves the data may stand before it;
after it, nothing may raise a selected error.
-/

namespace ReviewFlow.Savepoint.Program

variable {ρ ε δ κ α β φ : Type} [Preorder κ]

def Preserves (m : Program ρ ε δ κ α) : Prop :=
  ∀ x s, wp x m (fun _ t => t.data = s.data) (fun _ t => t.data = s.data) s

/-- An error that `E` selects leaves the data. -/
def Restores (E : ε → Prop) (m : Program ρ ε δ κ α) : Prop :=
  ∀ x s, wp x m (fun _ _ => True) (fun e t => E e → t.data = s.data) s

/-- No error that `E` selects is raised. -/
def Avoids (E : ε → Prop) (m : Program ρ ε δ κ α) : Prop :=
  ∀ x s, wp x m (fun _ _ => True) (fun e _ => ¬ E e) s

theorem preserves_pure (a : α) : Preserves (pure a : Program ρ ε δ κ α) := fun _ _ => rfl

theorem preserves_raise (e : ε) : Preserves (raise e : Program ρ ε δ κ α) := fun _ _ => rfl

theorem preserves_ask : Preserves (ask : Program ρ ε δ κ ρ) := fun _ _ => rfl

theorem Preserves.bind {m : Program ρ ε δ κ α} {f : α → Program ρ ε δ κ β} (hm : Preserves m)
    (hf : ∀ a, Preserves (f a)) : Preserves (m >>= f) := by
  intro x s
  apply wp_bind_of (hm x s)
  · intro a t ht
    exact wp_mono (hf a x t) (fun _ _ h => h.trans ht) (fun _ _ h => h.trans ht)
  · exact fun _ _ h => h

theorem Preserves.handle {m : Program ρ ε δ κ α} {f : ε → Program ρ ε δ κ α} (hm : Preserves m)
    (hf : ∀ e, Preserves (f e)) : Preserves (handle m f) := by
  intro x s
  rw [wp_handle]
  apply wp_mono (hm x s) (fun _ _ h => h)
  intro e t ht
  exact wp_mono (hf e x t) (fun _ _ h => h.trans ht) (fun _ _ h => h.trans ht)

variable {E : ε → Prop}

theorem Preserves.restores {m : Program ρ ε δ κ α} (hm : Preserves m) : Restores E m :=
  fun x s => wp_mono (hm x s) (fun _ _ _ => trivial) (fun _ _ h _ => h)

theorem restores_pure (a : α) : Restores E (pure a : Program ρ ε δ κ α) := fun _ _ => trivial

theorem restores_raise (e : ε) : Restores E (raise e : Program ρ ε δ κ α) :=
  (preserves_raise e).restores

theorem restores_savepoint (m : Program ρ ε δ κ α) : Restores E (savepoint m) :=
  fun x _ => wp_mono (savepoint_raises (x := x) m) (fun _ _ h => h) (fun _ _ h _ => h)

theorem Preserves.restores_bind {m : Program ρ ε δ κ α} {f : α → Program ρ ε δ κ β}
    (hm : Preserves m)
    (hf : ∀ a, Restores E (f a)) : Restores E (m >>= f) := by
  intro x s
  apply wp_bind_of (hm x s)
  · intro a t ht
    exact wp_mono (hf a x t) (fun _ _ h => h) (fun _ _ h he => (h he).trans ht)
  · exact fun _ _ h _ => h

theorem Restores.bind {m : Program ρ ε δ κ α} {f : α → Program ρ ε δ κ β} (hm : Restores E m)
    (hf : ∀ a, Avoids E (f a)) : Restores E (m >>= f) := by
  intro x s
  apply wp_bind_of (hm x s)
  · intro a t _
    exact wp_mono (hf a x t) (fun _ _ h => h) (fun _ _ h he => absurd he h)
  · exact fun _ _ h => h

theorem avoids_pure (a : α) : Avoids E (pure a : Program ρ ε δ κ α) := fun _ _ => trivial

theorem Avoids.bind {m : Program ρ ε δ κ α} {f : α → Program ρ ε δ κ β} (hm : Avoids E m)
    (hf : ∀ a, Avoids E (f a)) : Avoids E (m >>= f) :=
  fun x s => wp_bind_of (hm x s) (fun a t _ => hf a x t) (fun _ _ h => h)

theorem avoids_whenever {c : Prop} [Decidable c] {m : Program ρ ε δ κ Unit} (hm : Avoids E m) :
    Avoids E (whenever c m) :=
  fun x s => (wp_whenever m).mpr ⟨fun _ => hm x s, fun _ => trivial⟩

section Keeps

def Keeps (f : δ → φ) (m : Program ρ ε δ κ α) : Prop := ∀ x s, f (m.run x s).2.data = f s.data

variable {f : δ → φ}

theorem Keeps.wp {m : Program ρ ε δ κ α} (h : Keeps f m) (x : ρ) (s : Store δ κ) :
    wp x m (fun _ t => f t.data = f s.data) (fun _ t => f t.data = f s.data) s := by
  have hk := h x s
  revert hk
  unfold Program.wp
  rcases m.run x s with ⟨_ | _, _⟩ <;> exact id

theorem keeps_pure (a : α) : Keeps f (pure a : Program ρ ε δ κ α) := fun _ _ => rfl

theorem keeps_raise (e : ε) : Keeps f (raise e : Program ρ ε δ κ α) := fun _ _ => rfl

theorem keeps_ask : Keeps f (ask : Program ρ ε δ κ ρ) := fun _ _ => rfl

theorem keeps_get : Keeps f (get : Program ρ ε δ κ δ) := fun _ _ => rfl

theorem keeps_query {g : ρ → δ → Except ε α × δ} (h : ∀ x d, f (g x d).2 = f d) :
    Keeps f (query g : Program ρ ε δ κ α) := fun x s => h x s.data

theorem keeps_modify {g : δ → δ} (h : ∀ d, f (g d) = f d) :
    Keeps f (modify g : Program ρ ε δ κ Unit) := fun _ s => h s.data

theorem Keeps.bind {m : Program ρ ε δ κ α} {g : α → Program ρ ε δ κ β} (hm : Keeps f m)
    (hg : ∀ a, Keeps f (g a)) : Keeps f (m >>= g) := by
  intro x s
  change f ((Program.bind m g).run x s).2.data = f s.data
  have h := hm x s
  rcases hrun : m.run x s with ⟨_ | a, t⟩ <;> simp only [hrun, Program.bind] at h ⊢
  · exact h
  · exact (hg a x t).trans h

theorem Keeps.handle {m : Program ρ ε δ κ α} {g : ε → Program ρ ε δ κ α} (hm : Keeps f m)
    (hg : ∀ e, Keeps f (g e)) : Keeps f (handle m g) := by
  intro x s
  have h := hm x s
  rcases hrun : m.run x s with ⟨e | _, t⟩ <;> simp only [hrun, Program.handle] at h ⊢
  · exact (hg e x t).trans h
  · exact h

theorem Keeps.savepoint {m : Program ρ ε δ κ α} (hm : Keeps f m) : Keeps f (savepoint m) := by
  intro x s
  have h := hm x s
  rcases hrun : m.run x s with ⟨_ | _, _⟩ <;> simp only [hrun, Program.savepoint] at h ⊢
  exact h

theorem Keeps.whenever {c : Prop} [Decidable c] {m : Program ρ ε δ κ Unit} (hm : Keeps f m) :
    Keeps f (whenever c m) := by
  unfold Program.whenever
  split
  · exact hm
  · exact keeps_pure ()

end Keeps

theorem wp_raises {x : ρ} {s : Store δ κ} {F : ε → Store δ κ → Prop} {m : Program ρ ε δ κ α}
    (h : wp x m (fun _ _ => False) F s) : ∃ e t, m.run x s = (.error e, t) ∧ F e t := by
  rcases hrun : m.run x s with ⟨e | a, t⟩
  · exact ⟨e, t, rfl, wp_error h hrun⟩
  · exact (wp_ok h hrun).elim

end ReviewFlow.Savepoint.Program
