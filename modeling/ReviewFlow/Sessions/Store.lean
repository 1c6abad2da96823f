import Mathlib.Data.Nat.Notation
import Mathlib.Logic.Function.Basic

/-!
# Sessions of a backend

A request works on a copy of its session and says what is to become of it, and the backend stores
that when the request has ended. What is relied on of a backend is that it makes up no data.
-/

namespace ReviewFlow.SessionStore

/-- The session of a request: none is the key of one that is not stored. -/
structure Copy (δ : Type) where
  key : Option ℕ
  data : δ

/-- What a request does to its session. `renew` deletes it and stores the data under a new key,
whether the data are kept or not. -/
inductive Change (δ : Type) where
  | keep
  | save (data : δ)
  | renew (data : δ)
  | delete

/-- The change of a request whose session was deleted before it was handled. -/
def Change.flushed : Change δ → Change δ
  | .save data | .renew data => .renew data
  | _ => .delete

/-- A backend with the states `σ`, by the data that it holds under its keys. -/
structure Backend (σ δ : Type) where
  empty : σ
  stored : σ → ℕ → Option δ
  load : σ → Option ℕ → Copy δ
  settle : σ → Option ℕ → Change δ → σ

variable {σ δ : Type}

def Change.data : Change δ → Option δ
  | .save data | .renew data => some data
  | _ => none

theorem Change.flushed_data (change : Change δ) : change.flushed.data = change.data := by
  cases change <;> rfl

/-- A session that is loaded is stored or new, and what is stored was stored before or is what a
request has stored. -/
structure Backend.Keeps (b : Backend σ δ) (new : δ) : Prop where
  empty : ∀ key, b.stored b.empty key = none
  load : ∀ s cookie, (b.load s cookie).data = new ∨
    ∃ key, b.stored s key = some (b.load s cookie).data
  settle : ∀ s key change k data, b.stored (b.settle s key change) k = some data →
    b.stored s k = some data ∨ change.data = some data

section Rows

/-- The rows of `django_session`, and how many keys were given out. -/
structure Rows (δ : Type) where
  rows : ℕ → Option δ
  next : ℕ

def Rows.load (new : δ) (s : Rows δ) (cookie : Option ℕ) : Copy δ :=
  match cookie.bind fun key => (s.rows key).map fun data => Copy.mk (some key) data with
  | some copy => copy
  | none => ⟨none, new⟩

def Rows.create (s : Rows δ) (data : δ) : Rows δ :=
  ⟨Function.update s.rows s.next (some data), s.next + 1⟩

def Rows.update (s : Rows δ) (key : ℕ) (data : δ) : Rows δ :=
  { s with rows := fun k => if k = key then (s.rows k).map fun _ => data else s.rows k }

def Rows.delete (s : Rows δ) : Option ℕ → Rows δ
  | none => s
  | some key => { s with rows := Function.update s.rows key none }

def Rows.settle (s : Rows δ) (key : Option ℕ) : Change δ → Rows δ
  | .keep => s
  | .save data => key.elim (s.create data) fun key => s.update key data
  | .renew data => (s.delete key).create data
  | .delete => s.delete key

def Rows.backend (new : δ) : Backend (Rows δ) δ := ⟨⟨fun _ => none, 0⟩, rows, load new, settle⟩

variable {s : Rows δ} {key : Option ℕ} {k : ℕ} {new data : δ}

theorem Rows.load_data (cookie : Option ℕ) : (s.load new cookie).data = new ∨
    ∃ key, s.rows key = some (s.load new cookie).data := by
  unfold Rows.load
  cases cookie with
  | none => exact .inl rfl
  | some key =>
    cases hk : s.rows key with
    | none =>
      rw [Option.bind_some, hk]
      exact .inl rfl
    | some data =>
      rw [Option.bind_some, hk]
      exact .inr ⟨key, hk⟩

theorem Rows.delete_rows (h : (s.delete key).rows k = some data) : s.rows k = some data := by
  cases key with
  | none => exact h
  | some key =>
    simp only [Rows.delete, Function.update_apply] at h
    split at h
    · cases h
    · exact h

theorem Rows.create_rows {stored : δ} (h : (s.create stored).rows k = some data) :
    s.rows k = some data ∨ stored = data := by
  simp only [Rows.create, Function.update_apply] at h
  split at h
  · exact .inr (Option.some.inj h)
  · exact .inl h

theorem Rows.settle_rows {change : Change δ} (h : (s.settle key change).rows k = some data) :
    s.rows k = some data ∨ change.data = some data := by
  cases change with
  | keep => exact .inl h
  | save stored =>
    cases key with
    | none => exact (create_rows h).imp_right (congrArg some)
    | some key =>
      simp only [Rows.settle, Option.elim_some, Rows.update] at h
      split at h
      · obtain ⟨old, -, hold⟩ := Option.map_eq_some_iff.mp h
        exact .inr (congrArg some hold)
      · exact .inl h
  | renew stored => exact (create_rows h).imp delete_rows (congrArg some)
  | delete => exact .inl (delete_rows h)

theorem Rows.backend_keeps (new : δ) : (Rows.backend new).Keeps new where
  empty _ := rfl
  load _ := load_data
  settle _ _ _ _ _ := settle_rows

end Rows

end ReviewFlow.SessionStore
