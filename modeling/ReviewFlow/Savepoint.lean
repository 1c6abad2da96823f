import Mathlib.Order.Basic

/-!
# Programs over a store with savepoints

A program reads an environment, and changes a store of two parts: the data,
which a savepoint restores when its body raises, and the journal, which
records what cannot be taken back (calls made, clock readings used) and so only
grows. Running a
program always gives a store, also when it raises: what an exception undoes is
decided by the savepoints it passes, not by the exception.

`wp` is the weakest precondition of a program for one postcondition on a
returned value and one on a raised error.
-/

namespace ReviewFlow.Savepoint

instance (priority := high) unitJournal : Preorder Unit where
  le _ _ := True
  lt _ _ := False
  le_refl _ := trivial
  le_trans _ _ _ _ _ := trivial
  lt_iff_le_not_ge _ _ := iff_of_false id fun h => h.2 trivial

structure Store (δ κ : Type) where
  data : δ
  journal : κ

/-- A program with the proof that it only adds to the journal, also when it raises. -/
structure Program (ρ ε δ κ : Type) [Preorder κ] (α : Type) where
  run : ρ → Store δ κ → Except ε α × Store δ κ
  grows : ∀ x s, s.journal ≤ (run x s).2.journal

namespace Program

variable {ρ ε δ κ α β : Type} [Preorder κ]

protected def pure (a : α) : Program ρ ε δ κ α := ⟨fun _ s => (.ok a, s), fun _ _ => le_refl _⟩

protected def bind (m : Program ρ ε δ κ α) (f : α → Program ρ ε δ κ β) : Program ρ ε δ κ β where
  run x s := match m.run x s with
    | (.ok a, t) => (f a).run x t
    | (.error e, t) => (.error e, t)
  grows x s := by
    have h := m.grows x s
    revert h
    rcases m.run x s with ⟨_ | a, t⟩ <;> intro h
    · exact h
    · exact le_trans h ((f a).grows x t)

instance : Monad (Program ρ ε δ κ) where
  pure := Program.pure
  bind := Program.bind

def raise (e : ε) : Program ρ ε δ κ α := ⟨fun _ s => (.error e, s), fun _ _ => le_refl _⟩

/-- The handler sees the store the body left: only a savepoint restores data. -/
def handle (m : Program ρ ε δ κ α) (h : ε → Program ρ ε δ κ α) : Program ρ ε δ κ α where
  run x s := match m.run x s with
    | (.ok a, t) => (.ok a, t)
    | (.error e, t) => (h e).run x t
  grows x s := by
    have hg := m.grows x s
    revert hg
    rcases m.run x s with ⟨e | _, t⟩ <;> intro hg
    · exact le_trans hg ((h e).grows x t)
    · exact hg

def savepoint (m : Program ρ ε δ κ α) : Program ρ ε δ κ α where
  run x s := match m.run x s with
    | (.ok a, t) => (.ok a, t)
    | (.error e, t) => (.error e, ⟨s.data, t.journal⟩)
  grows x s := by
    have h := m.grows x s
    revert h
    rcases m.run x s with ⟨_ | _, _⟩ <;> exact id

def ask : Program ρ ε δ κ ρ := ⟨fun x s => (.ok x, s), fun _ _ => le_refl _⟩

def query (f : ρ → δ → Except ε α × δ) : Program ρ ε δ κ α where
  run x s := ((f x s.data).1, ⟨(f x s.data).2, s.journal⟩)
  grows _ _ := le_refl _

def get : Program ρ ε δ κ δ := query fun _ d => (.ok d, d)

def modify (f : δ → δ) : Program ρ ε δ κ Unit := query fun _ d => (.ok (), f d)

/-- `if c: m`. -/
def whenever (c : Prop) [Decidable c] (m : Program ρ ε δ κ Unit) : Program ρ ε δ κ Unit :=
  if c then m else pure ()

def wp (x : ρ) (m : Program ρ ε δ κ α) (Q : α → Store δ κ → Prop) (E : ε → Store δ κ → Prop)
    (s : Store δ κ) : Prop :=
  match m.run x s with
  | (.ok a, t) => Q a t
  | (.error e, t) => E e t

variable {x : ρ} {Q Q' : α → Store δ κ → Prop} {E F : ε → Store δ κ → Prop} {s : Store δ κ}

@[simp] theorem wp_pure (a : α) : wp x (pure a : Program ρ ε δ κ α) Q E s ↔ Q a s := Iff.rfl

@[simp] theorem wp_raise (e : ε) : wp x (raise e : Program ρ ε δ κ α) Q E s ↔ E e s := Iff.rfl

theorem wp_bind (m : Program ρ ε δ κ β) (f : β → Program ρ ε δ κ α) :
    wp x (m >>= f) Q E s ↔ wp x m (fun b t => wp x (f b) Q E t) E s := by
  change wp x (Program.bind m f) Q E s ↔ _
  unfold wp Program.bind
  rcases h : m.run x s with ⟨_ | _, _⟩ <;> simp only [h]

theorem wp_handle (m : Program ρ ε δ κ α) (h : ε → Program ρ ε δ κ α) :
    wp x (handle m h) Q E s ↔ wp x m Q (fun e t => wp x (h e) Q E t) s := by
  unfold wp handle
  rcases h' : m.run x s with ⟨_ | _, _⟩ <;> simp only [h']

theorem wp_savepoint (m : Program ρ ε δ κ α) :
    wp x (savepoint m) Q E s ↔ wp x m Q (fun e t => E e ⟨s.data, t.journal⟩) s := by
  unfold wp savepoint
  rcases h : m.run x s with ⟨_ | _, _⟩ <;> simp only [h]

@[simp] theorem wp_ask {Q : ρ → Store δ κ → Prop} :
    wp x (ask : Program ρ ε δ κ ρ) Q E s ↔ Q x s := Iff.rfl

@[simp] theorem wp_get {Q : δ → Store δ κ → Prop} :
    wp x (get : Program ρ ε δ κ δ) Q E s ↔ Q s.data s := Iff.rfl

@[simp] theorem wp_modify {Q : Unit → Store δ κ → Prop} (f : δ → δ) :
    wp x (modify f : Program ρ ε δ κ Unit) Q E s ↔ Q () ⟨f s.data, s.journal⟩ := Iff.rfl

theorem wp_query (f : ρ → δ → Except ε α × δ) :
    wp x (query f : Program ρ ε δ κ α) Q E s ↔
      (∀ a, (f x s.data).1 = .ok a → Q a ⟨(f x s.data).2, s.journal⟩) ∧
      (∀ e, (f x s.data).1 = .error e → E e ⟨(f x s.data).2, s.journal⟩) := by
  unfold wp query
  rcases h : (f x s.data).1 with _ | _ <;> simp only [h] <;> simp

theorem query_journal (f : ρ → δ → Except ε α × δ) :
    wp x (query f : Program ρ ε δ κ α) (fun _ t => t.journal = s.journal)
      (fun _ t => t.journal = s.journal) s :=
  (wp_query f).mpr ⟨fun _ _ => rfl, fun _ _ => rfl⟩

theorem wp_ite {c : Prop} [Decidable c] (m n : Program ρ ε δ κ α) :
    wp x (if c then m else n) Q E s ↔ (c → wp x m Q E s) ∧ (¬c → wp x n Q E s) := by
  by_cases h : c <;> simp [h]

theorem wp_whenever {c : Prop} [Decidable c] {Q : Unit → Store δ κ → Prop}
    (m : Program ρ ε δ κ Unit) :
    wp x (whenever c m) Q E s ↔ (c → wp x m Q E s) ∧ (¬c → Q () s) := by
  unfold whenever
  rw [wp_ite]
  rfl

theorem wp_mono {m : Program ρ ε δ κ α} (h : wp x m Q E s) (hQ : ∀ a t, Q a t → Q' a t)
    (hE : ∀ e t, E e t → F e t) : wp x m Q' F s := by
  revert h
  unfold wp
  rcases m.run x s with ⟨_ | _, _⟩
  · exact hE _ _
  · exact hQ _ _

theorem wp_bind_of {m : Program ρ ε δ κ β} {f : β → Program ρ ε δ κ α}
    {P : β → Store δ κ → Prop} (h : wp x m P F s)
    (hf : ∀ b t, P b t → wp x (f b) Q E t) (hE : ∀ e t, F e t → E e t) :
    wp x (m >>= f) Q E s := by
  rw [wp_bind]
  exact wp_mono h hf hE

theorem wp_and {m : Program ρ ε δ κ α} (h : wp x m Q E s) (h' : wp x m Q' F s) :
    wp x m (fun a t => Q a t ∧ Q' a t) (fun e t => E e t ∧ F e t) s := by
  revert h h'
  unfold wp
  rcases m.run x s with ⟨_ | _, _⟩ <;> exact And.intro

/-- `Q` holds of every value returned. What holds of an error is left open. -/
abbrev returns (x : ρ) (m : Program ρ ε δ κ α) (Q : α → Store δ κ → Prop) (s : Store δ κ) : Prop :=
  wp x m Q (fun _ _ => True) s

theorem returns_of_wp {m : Program ρ ε δ κ α} (h : wp x m Q E s) : returns x m Q s :=
  wp_mono h (fun _ _ hq => hq) (fun _ _ _ => trivial)

theorem returns_mono {m : Program ρ ε δ κ α} (h : returns x m Q s)
    (hQ : ∀ a t, Q a t → Q' a t) : returns x m Q' s :=
  wp_mono h hQ (fun _ _ _ => trivial)

theorem returns_bind {m : Program ρ ε δ κ β} {f : β → Program ρ ε δ κ α}
    {P : β → Store δ κ → Prop} (h : returns x m P s) (hf : ∀ b t, P b t → returns x (f b) Q t) :
    returns x (m >>= f) Q s :=
  wp_bind_of h hf (fun _ _ _ => trivial)

theorem returns_savepoint {m : Program ρ ε δ κ α} (h : returns x m Q s) :
    returns x (savepoint m) Q s :=
  (wp_savepoint m).mpr h

theorem savepoint_raises (m : Program ρ ε δ κ α) :
    wp x (savepoint m) (fun _ _ => True) (fun _ t => t.data = s.data) s := by
  rw [wp_savepoint]
  unfold wp
  rcases m.run x s with ⟨_ | _, _⟩ <;> trivial

theorem wp_of_savepoint {m : Program ρ ε δ κ α} (h : returns x m Q s) :
    wp x (savepoint m) Q (fun _ t => t.data = s.data) s :=
  wp_mono (wp_and (returns_savepoint h) (savepoint_raises m)) (fun _ _ h => h.1) (fun _ _ h => h.2)

/-- An atomic block does what its body does, or raises with the data as they were. -/
theorem wp_atomic {m : Program ρ ε δ κ α} {E : ε → Prop} (h : wp x m Q (fun e _ => E e) s) :
    wp x (savepoint m) Q (fun e t => t.data = s.data ∧ E e) s :=
  wp_mono (wp_and ((wp_savepoint (E := fun e _ => E e) m).mpr h) (savepoint_raises m))
    (fun _ _ h => h.1) (fun _ _ h => ⟨h.2, h.1⟩)

theorem wp_run (m : Program ρ ε δ κ α) :
    wp x m (fun a t => m.run x s = (.ok a, t)) (fun e t => m.run x s = (.error e, t)) s := by
  unfold wp
  rcases m.run x s with ⟨_ | _, _⟩ <;> rfl

theorem wp_iff_run (m : Program ρ ε δ κ α) :
    wp x m Q E s ↔
      (∀ a t, m.run x s = (.ok a, t) → Q a t) ∧ ∀ e t, m.run x s = (.error e, t) → E e t := by
  unfold wp
  rcases m.run x s with ⟨_ | _, _⟩ <;> simp

theorem wp_ok {m : Program ρ ε δ κ α} {a : α} {t : Store δ κ} (h : wp x m Q E s)
    (hrun : m.run x s = (.ok a, t)) : Q a t :=
  ((wp_iff_run m).mp h).1 a t hrun

theorem wp_error {m : Program ρ ε δ κ α} {e : ε} {t : Store δ κ} (h : wp x m Q E s)
    (hrun : m.run x s = (.error e, t)) : E e t :=
  ((wp_iff_run m).mp h).2 e t hrun

theorem wp_trivial {m : Program ρ ε δ κ α} : wp x m (fun _ _ => True) (fun _ _ => True) s :=
  wp_mono (wp_run m) (fun _ _ _ => trivial) fun _ _ _ => trivial

theorem savepoint_run {P : δ → Prop} {m : Program ρ ε δ κ α}
    (h : returns x (savepoint m) (fun _ t => P t.data) s) :
    ((∃ a t, (savepoint m).run x s = (.ok a, t)) ∧ P ((savepoint m).run x s).2.data) ∨
      ((¬ ∃ a t, (savepoint m).run x s = (.ok a, t)) ∧
        ((savepoint m).run x s).2.data = s.data) := by
  rcases hrun : (savepoint m).run x s with ⟨e | a, t⟩
  · refine Or.inr ⟨?_, wp_error (savepoint_raises m) hrun⟩
    rintro ⟨a, u, heq⟩
    cases heq
  · exact Or.inl ⟨⟨a, t, rfl⟩, wp_ok h hrun⟩

theorem wp_total {m : Program ρ ε δ κ α} (h : wp x m Q (fun _ _ => False) s) :
    ∃ a t, m.run x s = (.ok a, t) ∧ Q a t := by
  rcases hrun : m.run x s with ⟨e | a, t⟩
  · exact (wp_error h hrun).elim
  · exact ⟨a, t, rfl, wp_ok h hrun⟩

theorem wp_grows {m : Program ρ ε δ κ α} (h : wp x m Q E s) :
    wp x m (fun a t => Q a t ∧ s.journal ≤ t.journal)
      (fun e t => E e t ∧ s.journal ≤ t.journal) s := by
  have hg := m.grows x s
  revert h hg
  unfold wp
  rcases m.run x s with ⟨_ | _, _⟩ <;> exact And.intro

section Records

/-- The journals before and after a run are related by `R`, whatever the run does. -/
def Records (R : κ → κ → Prop) (m : Program ρ ε δ κ α) : Prop :=
  ∀ x s, R s.journal (m.run x s).2.journal

variable {R : κ → κ → Prop}

theorem Records.wp {m : Program ρ ε δ κ α} (h : Records R m) :
    wp x m (fun _ t => R s.journal t.journal) (fun _ t => R s.journal t.journal) s := by
  have hr := h x s
  revert hr
  unfold Program.wp
  rcases m.run x s with ⟨_ | _, _⟩ <;> exact id

variable [IsPreorder κ R]

@[simp] theorem records_pure (a : α) : Records R (pure a : Program ρ ε δ κ α) := fun _ _ => refl _

@[simp] theorem records_raise (e : ε) : Records R (raise e : Program ρ ε δ κ α) := fun _ _ => refl _

@[simp] theorem records_ask : Records R (ask : Program ρ ε δ κ ρ) := fun _ _ => refl _

@[simp] theorem records_query (f : ρ → δ → Except ε α × δ) :
    Records R (query f : Program ρ ε δ κ α) := fun _ _ => refl _

@[simp] theorem records_get : Records R (get : Program ρ ε δ κ δ) := fun _ _ => refl _

@[simp] theorem records_modify (f : δ → δ) :
    Records R (modify f : Program ρ ε δ κ Unit) := fun _ _ => refl _

@[simp] theorem records_bind {m : Program ρ ε δ κ α} {f : α → Program ρ ε δ κ β}
    (hm : Records R m) (hf : ∀ a, Records R (f a)) : Records R (m >>= f) := by
  intro x s
  change R s.journal ((Program.bind m f).run x s).2.journal
  have h := hm x s
  rcases hrun : m.run x s with ⟨_ | a, t⟩ <;> simp only [hrun, Program.bind] at h ⊢
  · exact h
  · exact IsTrans.trans _ _ _ h (hf a x t)

@[simp] theorem records_handle {m : Program ρ ε δ κ α} {f : ε → Program ρ ε δ κ α}
    (hm : Records R m) (hf : ∀ e, Records R (f e)) : Records R (handle m f) := by
  intro x s
  have h := hm x s
  rcases hrun : m.run x s with ⟨e | _, t⟩ <;> simp only [hrun, handle] at h ⊢
  · exact IsTrans.trans _ _ _ h (hf e x t)
  · exact h

omit [IsPreorder κ R] in
@[simp] theorem records_savepoint {m : Program ρ ε δ κ α} (hm : Records R m) :
    Records R (savepoint m) := by
  intro x s
  have h := hm x s
  rcases hrun : m.run x s with ⟨_ | _, _⟩ <;> simp only [hrun, savepoint] at h ⊢ <;> exact h

@[simp] theorem records_whenever {c : Prop} [Decidable c] {m : Program ρ ε δ κ Unit}
    (hm : Records R m) : Records R (whenever c m) := by
  unfold whenever
  split
  · exact hm
  · exact records_pure ()

end Records

end Program

end ReviewFlow.Savepoint
