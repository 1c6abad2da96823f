import Mathlib.Tactic

/-!
# JSON values and instants

What `json.loads` returns, with the tests the services make on it, and
`datetime` values as microseconds since the epoch. A missing key and a null
value are the same to `dict.get`.
-/

namespace ReviewFlow

inductive Json where
  | null
  | bool (b : Bool)
  | int (z : ℤ)
  | float (literal : String)
  | str (s : String)
  | arr (items : List Json)
  | obj (fields : List (String × Json))

abbrev Dict := List (String × Json)

def Dict.get (d : Dict) (key : String) : Json := (d.lookup key).getD .null

namespace Json

/-- `value == text` for a `str` on the right. -/
def isStr (text : String) : Json → Bool
  | .str s => s == text
  | _ => false

def int? : Json → Option ℤ
  | .int z => some z
  | _ => none

def str? : Json → Option String
  | .str s => some s
  | _ => none

def dict? : Json → Option Dict
  | .obj d => some d
  | _ => none

theorem isStr_iff {text : String} {j : Json} : j.isStr text = true ↔ j = .str text := by
  cases j <;> simp [isStr]

@[simp] theorem isStr_str (s text : String) : (Json.str s).isStr text = (s == text) := rfl

theorem int?_eq_some {j : Json} {z : ℤ} : j.int? = some z ↔ j = .int z := by
  cases j <;> simp [int?]

theorem str?_eq_some {j : Json} {s : String} : j.str? = some s ↔ j = .str s := by
  cases j <;> simp [str?]

end Json

/-- `text[:n]`. -/
def takeChars (n : ℕ) (text : String) : String := String.ofList (text.toList.take n)

abbrev Time := ℤ

def seconds (n : ℤ) : ℤ := n * 1000000

def days (n : ℤ) : ℤ := seconds (n * 86400)

/-- The unix seconds of the years `datetime` can hold, 1 to 9999. -/
def minUnix : ℤ := -62135596800
def maxUnix : ℤ := 253402300799

def fromUnix (value : Json) : Option Time :=
  match value.int? with
  | none => none
  | some z => if minUnix ≤ z ∧ z ≤ maxUnix then some (seconds z) else none

def toUnix (t : Time) : ℤ := t.tdiv 1000000

theorem fromUnix_eq_some {value : Json} {t : Time} :
    fromUnix value = some t ↔ ∃ z, value = .int z ∧ minUnix ≤ z ∧ z ≤ maxUnix ∧ t = seconds z := by
  unfold fromUnix
  cases h : value.int? with
  | none =>
    refine ⟨by simp, ?_⟩
    rintro ⟨z, hz, -⟩
    simp [hz, Json.int?] at h
  | some z =>
    obtain rfl := Json.int?_eq_some.mp h
    by_cases hr : minUnix ≤ z ∧ z ≤ maxUnix
    · simp only [hr, and_self, ↓reduceIte, Option.some.injEq, Json.int.injEq]
      constructor
      · rintro rfl
        exact ⟨z, rfl, hr.1, hr.2, rfl⟩
      · rintro ⟨_, rfl, -, -, rfl⟩
        rfl
    · simp only [hr, ↓reduceIte, reduceCtorEq, Json.int.injEq, false_iff]
      rintro ⟨_, rfl, h₁, h₂, -⟩
      exact hr ⟨h₁, h₂⟩

theorem seconds_le_seconds {a b : ℤ} : seconds a ≤ seconds b ↔ a ≤ b := by
  unfold seconds
  omega

theorem seconds_lt_seconds {a b : ℤ} : seconds a < seconds b ↔ a < b := by
  unfold seconds
  omega

end ReviewFlow
