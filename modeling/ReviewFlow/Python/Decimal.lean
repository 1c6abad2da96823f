import Mathlib.Data.Nat.Log
import Mathlib.Data.Rat.Defs
import Mathlib.Algebra.Order.Field.Rat
import Mathlib.Algebra.Order.Group.Unbundled.Int
import Mathlib.Tactic.Positivity
import Mathlib.Tactic.Push
import Mathlib.Tactic.NormNum
import ReviewFlow.Python.Text

/-!
# `decimal.Decimal`

A value as its text gives it: the conversion is exact, and a text whose value has no exact
representation within the limits of the module is refused.
-/

namespace ReviewFlow.Python

inductive Decimal where
  | finite (negative : Bool) (coefficient : ℕ) (exponent : ℤ)
  | infinity (negative : Bool)
  | nan
  deriving DecidableEq

def maxEmax : ℤ := 999999999999999999
def minEtiny : ℤ := -1999999999999999997

def lower (c : ℕ) : ℕ := if 65 ≤ c && c ≤ 90 then c + 32 else c

def digitsValue (s : Str) : ℕ := s.foldl (fun n c => 10 * n + (c - 48)) 0

/-- `len(digits)` of `as_tuple`: a zero has the one digit 0. -/
def numDigits (n : ℕ) : ℕ := Nat.log 10 n + 1

namespace Decimal

def special? (negative : Bool) (s : Str) : Option Decimal :=
  let s := s.map lower
  if s = text "inf" ∨ s = text "infinity" then some (.infinity negative)
  else
    let s := if s.head? = some 115 then s.tail else s
    if s.take 3 = text "nan" ∧ (s.drop 3).all isAsciiDigit then some .nan else none

/-- The part of a number from its `e`. -/
def exponent? : Str → Option ℤ
  | [] => some 0
  | e :: s =>
    let natural (s : Str) : Option ℤ :=
      if s ≠ [] ∧ s.all isAsciiDigit then some (digitsValue s) else none
    if lower e ≠ 101 then none
    else match s with
      | 43 :: s => natural s
      | 45 :: s => (natural s).map (- ·)
      | s => natural s

def number? (negative : Bool) (s : Str) : Option Decimal := do
  let (whole, s) := s.span isAsciiDigit
  let (fraction, s) := match s with
    | 46 :: s => s.span isAsciiDigit
    | s => ([], s)
  if whole = [] ∧ fraction = [] then none
  let exponent := (← exponent? s) - fraction.length
  let coefficient := digitsValue (whole ++ fraction)
  if maxEmax < exponent + numDigits coefficient - 1 ∨ exponent < minEtiny then none
  else some (.finite negative coefficient exponent)

/-- `Decimal` of a text. None is its InvalidOperation. -/
def ofStr? (s : Str) : Option Decimal :=
  let s := ((strip s).filter (· != 95)).map asciiDigit
  let (negative, s) := match s with
    | 45 :: s => (true, s)
    | 43 :: s => (false, s)
    | s => (false, s)
  (special? negative s).or (number? negative s)

def value : Decimal → Option ℚ
  | .finite negative coefficient exponent =>
    some ((if negative then -1 else 1) * coefficient * 10 ^ exponent)
  | _ => none

/-- `< 0`, which a NaN does not support. -/
def ltZero? : Decimal → Option Bool
  | .finite negative coefficient _ => some (negative && coefficient != 0)
  | .infinity negative => some negative
  | .nan => none

end Decimal

example : Decimal.ofStr? (text " 1_2.50 ") = some (.finite false 1250 (-2)) := by decide

section Values

theorem lt_pow_numDigits (n : ℕ) : n < 10 ^ numDigits n := Nat.lt_pow_succ_log_self (by omega) n

end Values

end ReviewFlow.Python
