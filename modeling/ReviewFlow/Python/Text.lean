import Mathlib.Data.List.DropRight
import Mathlib.Data.Nat.Notation
import Mathlib.Tactic.IntervalCases

/-!
# Python strings as lists of code points

A `str` may hold lone surrogates, which have no UTF-8 encoding. White space is that of
`str.isspace`, and decimal digits are the characters of the category Nd of Unicode 15, to which
`\d`, `int` and `Decimal` agree.
-/

namespace ReviewFlow.Python

abbrev Str := List ℕ

def text (s : String) : Str := s.toList.map Char.toNat

def isSpace (c : ℕ) : Bool :=
  (9 ≤ c && c ≤ 13) || (28 ≤ c && c ≤ 32) || (0x2000 ≤ c && c ≤ 0x200a) ||
    [0x85, 0xa0, 0x1680, 0x2028, 0x2029, 0x202f, 0x205f, 0x3000].contains c

def strip (s : Str) : Str := (s.dropWhile isSpace).rdropWhile isSpace

def lstripChar (c : ℕ) (s : Str) : Str := s.dropWhile (· == c)

/-- The zeros of the scripts. The other nine digits of a script follow its zero. -/
def zeros : List ℕ :=
  [0x30, 0x660, 0x6f0, 0x7c0, 0x966, 0x9e6, 0xa66, 0xae6, 0xb66, 0xbe6, 0xc66, 0xce6, 0xd66,
    0xde6, 0xe50, 0xed0,
   0xf20, 0x1040, 0x1090, 0x17e0, 0x1810, 0x1946, 0x19d0, 0x1a80, 0x1a90, 0x1b50, 0x1bb0,
   0x1c40, 0x1c50, 0xa620,
   0xa8d0, 0xa900, 0xa9d0, 0xa9f0, 0xaa50, 0xabf0, 0xff10, 0x104a0, 0x10d30, 0x11066,
   0x110f0, 0x11136, 0x111d0,
   0x112f0, 0x11450, 0x114d0, 0x11650, 0x116c0, 0x11730, 0x118e0, 0x11950, 0x11c50,
   0x11d50, 0x11da0, 0x11f50,
   0x16a60, 0x16ac0, 0x16b50, 0x1d7ce, 0x1d7d8, 0x1d7e2, 0x1d7ec, 0x1d7f6, 0x1e140,
   0x1e2f0, 0x1e4f0, 0x1e950,
   0x1fbf0]

def decimal? (c : ℕ) : Option ℕ := (zeros.find? fun z => z ≤ c && c ≤ z + 9).map (c - ·)

def isDecimal (c : ℕ) : Bool := (decimal? c).isSome

def isAsciiDigit (c : ℕ) : Bool := 48 ≤ c && c ≤ 57

/-- A decimal digit of any script as an ASCII digit. -/
def asciiDigit (c : ℕ) : ℕ := ((decimal? c).map (48 + ·)).getD c

/-- What `$` leaves to the pattern before it: it also matches before one newline that ends the
text. -/
def beforeEnd (s : Str) : Str := if s.getLast? = some 10 then s.dropLast else s

def Encodable (s : Str) : Prop := ∀ c ∈ s, ¬ (0xd800 ≤ c ∧ c ≤ 0xdfff)

instance (s : Str) : Decidable (Encodable s) := inferInstanceAs (Decidable (∀ c ∈ s, _))

def grouped? : Str → Option (List ℕ)
  | [] => none
  | [c] => (decimal? c).map fun d => [d]
  | c :: 95 :: rest => do return (← decimal? c) :: (← grouped? rest)
  | c :: rest => do return (← decimal? c) :: (← grouped? rest)

def intMaxStrDigits : ℕ := 4300

/-- `int` of a text. None is its ValueError. -/
def int? (s : Str) : Option ℤ :=
  let natural (s : Str) : Option ℤ := do
    let digits ← grouped? s
    if intMaxStrDigits < digits.length then none
    else some (digits.foldl (fun n d => 10 * n + d) 0 : ℕ)
  match strip s with
  | 43 :: s => natural s
  | 45 :: s => (natural s).map (- ·)
  | s => natural s

section Spaces

variable {c : ℕ} {s : Str}

theorem mem_of_mem_strip (h : c ∈ strip s) : c ∈ s :=
  (List.dropWhile_suffix isSpace).subset ((List.rdropWhile_prefix isSpace _).subset h)

theorem mem_dropWhile (p : ℕ → Bool) (h : c ∈ s) (hc : p c = false) : c ∈ s.dropWhile p := by
  induction s with
  | nil => cases h
  | cons b s ih =>
    rw [List.dropWhile_cons]
    split
    case isTrue hb =>
      rcases List.mem_cons.mp h with rfl | h
      · rw [hc] at hb
        cases hb
      · exact ih h
    case isFalse => exact h

theorem mem_strip (h : c ∈ s) (hc : isSpace c = false) : c ∈ strip s := by
  unfold strip List.rdropWhile
  apply List.mem_reverse.mpr
  apply mem_dropWhile isSpace _ hc
  apply List.mem_reverse.mpr
  exact mem_dropWhile isSpace h hc

theorem strip_getLast? (h : (strip s).getLast? = some c) : isSpace c = false := by
  have hne : strip s ≠ [] := by
    intro hnil
    rw [hnil] at h
    cases h
  have hlast := List.rdropWhile_last_not isSpace (s.dropWhile isSpace) hne
  rw [List.getLast?_eq_some_getLast hne] at h
  rw [← Option.some.inj h]
  exact Bool.eq_false_iff.mpr hlast

theorem encodable_strip (h : Encodable s) : Encodable (strip s) :=
  fun c hc => h c (mem_of_mem_strip hc)

theorem encodable_append {a b : Str} : Encodable (a ++ b) ↔ Encodable a ∧ Encodable b := by
  simp only [Encodable, List.mem_append, or_imp, forall_and]

theorem encodable_text (s : String) : Encodable (text s) := by
  intro c hc
  obtain ⟨ch, -, rfl⟩ := List.mem_map.mp hc
  have hvalid : ch.toNat.isValidChar := ch.valid
  rcases hvalid with h | ⟨h, -⟩ <;> omega

end Spaces

section Digits

variable {c d : ℕ} {s : Str}

theorem decimal?_eq_some (h : decimal? c = some d) : ∃ z ∈ zeros, c = z + d ∧ d < 10 := by
  obtain ⟨z, hz, rfl⟩ := Option.map_eq_some_iff.mp h
  have hmem := List.mem_of_find?_eq_some hz
  have hin := List.find?_some hz
  simp only [Bool.and_eq_true, decide_eq_true_eq] at hin
  exact ⟨z, hmem, by omega, by omega⟩

theorem decimal?_ascii (h : d < 10) : decimal? (48 + d) = some d := by
  interval_cases d <;> rfl

theorem isAsciiDigit_iff : isAsciiDigit c = true ↔ ∃ d < 10, c = 48 + d := by
  simp only [isAsciiDigit, Bool.and_eq_true, decide_eq_true_eq]
  constructor
  · intro h
    exact ⟨c - 48, by omega, by omega⟩
  · rintro ⟨d, hd, rfl⟩
    omega

theorem isDecimal_of_ascii (h : isAsciiDigit c = true) : isDecimal c = true := by
  obtain ⟨d, hd, rfl⟩ := isAsciiDigit_iff.mp h
  rw [isDecimal, decimal?_ascii hd]
  rfl

theorem zeros_ascii : ∀ z ∈ zeros, z < 128 → z = 48 := by decide

theorem zeros_notSpace : ∀ z ∈ zeros, ∀ d < 10, isSpace (z + d) = false := by decide

theorem isAsciiDigit_of_decimal (h : isDecimal c = true) (hc : c < 128) :
    isAsciiDigit c = true := by
  obtain ⟨d, hd⟩ := Option.isSome_iff_exists.mp h
  obtain ⟨z, hz, rfl, hlt⟩ := decimal?_eq_some hd
  have hz48 := zeros_ascii z hz (by omega)
  exact isAsciiDigit_iff.mpr ⟨d, hlt, by rw [hz48]⟩

theorem isSpace_of_decimal (h : isDecimal c = true) : isSpace c = false := by
  obtain ⟨d, hd⟩ := Option.isSome_iff_exists.mp h
  obtain ⟨z, hz, rfl, hlt⟩ := decimal?_eq_some hd
  exact zeros_notSpace z hz d hlt

theorem beforeEnd_eq_self (h : s.getLast? ≠ some 10) : beforeEnd s = s := if_neg h

end Digits

end ReviewFlow.Python
