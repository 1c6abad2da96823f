import Mathlib.Data.List.Infix
import Mathlib.Data.List.TakeWhile
import Mathlib.Tactic

/-!
# Texts with placeholders

A placeholder is a name between two opening and two closing marks. A text is scanned from left to
right, and what was scanned reads as the text again. Where the rest of a text has no two opening
marks side by side, the text can be read in one way only.
-/

namespace ReviewFlow.Placeholders

variable {α : Type}

inductive Token (α : Type) where
  | char (a : α)
  | hole (name : List α)
  deriving DecidableEq

/-- The marks, and the characters of a name, of which the marks are none. -/
structure Marks (α : Type) where
  left : α
  right : α
  word : α → Bool
  left_word : word left = false
  right_word : word right = false

def holes (ts : List (Token α)) : List (List α) :=
  ts.filterMap fun t => match t with
    | .char _ => none
    | .hole name => some name

/-- The text without its placeholders. -/
def texts (ts : List (Token α)) : List α :=
  ts.filterMap fun t => match t with
    | .char a => some a
    | .hole _ => none

section Tokens

variable {t : Token α} {ts : List (Token α)} {a : α} {name : List α}

@[simp] theorem holes_char : holes (.char a :: ts) = holes ts := rfl

@[simp] theorem holes_hole : holes (.hole name :: ts) = name :: holes ts := rfl

@[simp] theorem texts_char : texts (.char a :: ts) = a :: texts ts := rfl

@[simp] theorem texts_hole : texts (.hole name :: ts) = texts ts := rfl

end Tokens

namespace Marks

variable (k : Marks α)

def render : List (Token α) → List α
  | [] => []
  | .char a :: ts => a :: render ts
  | .hole name :: ts => k.left :: k.left :: (name ++ k.right :: k.right :: render ts)

/-- A name has a character, and only those of names. -/
def IsName (name : List α) : Prop := name ≠ [] ∧ ∀ a ∈ name, k.word a = true

/-- Its names are names, and without them it has no two opening marks side by side. -/
structure Plain (ts : List (Token α)) : Prop where
  names : ∀ name ∈ holes ts, k.IsName name
  marks : ¬ [k.left, k.left] <:+: texts ts

theorem Plain.rest {k : Marks α} {ts : List (Token α)} {t : Token α}
    (h : k.Plain (t :: ts)) : k.Plain ts := by
  cases t with
  | char a =>
    exact ⟨h.names, fun hmarks => h.marks (hmarks.trans (List.infix_cons (List.infix_refl _)))⟩
  | hole name => exact ⟨fun other hother => h.names other (List.mem_cons_of_mem _ hother), h.marks⟩

variable [DecidableEq α]

/-- The placeholder at the front of a text, and what follows it. -/
def hole? (s : List α) : Option (List α × List α) :=
  match s with
  | a :: b :: rest =>
    match rest.takeWhile k.word, rest.dropWhile k.word with
    | x :: name, c :: d :: tail =>
      if a = k.left ∧ b = k.left ∧ c = k.right ∧ d = k.right then some (x :: name, tail) else none
    | _, _ => none
  | _ => none

def scanFrom : ℕ → List α → List (Token α)
  | 0, _ => []
  | _ + 1, [] => []
  | n + 1, a :: s => match k.hole? (a :: s) with
    | some (name, tail) => .hole name :: scanFrom n tail
    | none => .char a :: scanFrom n s

/-- The placeholders from left to right, each at the first place after the one before. -/
def scan (s : List α) : List (Token α) := k.scanFrom s.length s

variable {k} {s tail : List α} {name : List α} {ts : List (Token α)}

theorem hole?_eq_some : k.hole? s = some (name, tail) ↔
    k.IsName name ∧ s = k.left :: k.left :: (name ++ k.right :: k.right :: tail) := by
  constructor
  · intro h
    unfold hole? at h
    split at h
    case h_2 => cases h
    case h_1 a b rest =>
      split at h
      case h_2 => cases h
      case h_1 x found c d after htake hdrop =>
        split at h
        case isFalse => cases h
        case isTrue hmarks =>
          obtain ⟨rfl, rfl, rfl, rfl⟩ := hmarks
          cases h
          have hrest := List.takeWhile_append_dropWhile (p := k.word) (l := rest)
          rw [htake, hdrop] at hrest
          refine ⟨⟨List.cons_ne_nil _ _, fun a ha => ?_⟩, by rw [hrest]⟩
          exact List.mem_takeWhile_imp (htake ▸ ha)
  · rintro ⟨⟨hne, hword⟩, rfl⟩
    have htake : (name ++ k.right :: k.right :: tail).takeWhile k.word = name := by
      rw [List.takeWhile_append_of_pos hword, List.takeWhile_cons_of_neg (by simp [k.right_word]),
        List.append_nil]
    have hdrop : (name ++ k.right :: k.right :: tail).dropWhile k.word =
        k.right :: k.right :: tail := by
      rw [List.dropWhile_append_of_pos hword, List.dropWhile_cons_of_neg (by simp [k.right_word])]
    obtain ⟨x, found, rfl⟩ := List.exists_cons_of_ne_nil hne
    simp only [hole?, htake, hdrop, and_self, if_true]

theorem hole?_length (h : k.hole? s = some (name, tail)) : tail.length < s.length := by
  obtain ⟨-, rfl⟩ := hole?_eq_some.mp h
  simp only [List.length_cons, List.length_append]
  omega

/-- What was scanned reads as the text. -/
theorem render_scanFrom {n : ℕ} (h : s.length ≤ n) : k.render (k.scanFrom n s) = s := by
  induction n generalizing s with
  | zero =>
    obtain rfl := List.length_eq_zero_iff.mp (Nat.le_zero.mp h)
    rfl
  | succ n ih =>
    cases s with
    | nil => rfl
    | cons a s =>
      unfold scanFrom
      split
      case h_1 name tail hhole =>
        have hlength := hole?_length hhole
        rw [render, ih (by simp at h hlength; omega)]
        exact (hole?_eq_some.mp hhole).2.symm
      case h_2 =>
        rw [render, ih (by simpa using h)]

theorem render_scan (s : List α) : k.render (k.scan s) = s := render_scanFrom (le_refl _)

theorem scanFrom_names {n : ℕ} (h : name ∈ holes (k.scanFrom n s)) : k.IsName name := by
  induction n generalizing s with
  | zero => cases h
  | succ n ih =>
    cases s with
    | nil => cases h
    | cons a s =>
      unfold scanFrom at h
      split at h
      case h_1 found tail hhole =>
        rcases List.mem_cons.mp h with rfl | h
        · exact (hole?_eq_some.mp hhole).1
        · exact ih h
      case h_2 => exact ih h

/-- A single character in front of a text that reads plainly opens no placeholder. -/
theorem hole?_char {a : α} (h : k.Plain (.char a :: ts)) : k.hole? (a :: k.render ts) = none := by
  rw [Option.eq_none_iff_forall_ne_some]
  rintro ⟨name, tail⟩ hhole
  obtain ⟨⟨hne, hword⟩, heq⟩ := hole?_eq_some.mp hhole
  obtain ⟨x, name, rfl⟩ := List.exists_cons_of_ne_nil hne
  obtain ⟨hleft, hrest⟩ := List.cons.inj heq
  subst hleft
  cases ts with
  | nil => cases hrest
  | cons t ts =>
    cases t with
    | char b =>
      obtain ⟨hnext, -⟩ := List.cons.inj hrest
      subst hnext
      exact h.marks ⟨[], texts ts, rfl⟩
    | hole other =>
      -- after its first mark comes the second one, which is in no name
      obtain ⟨hx, -⟩ := List.cons.inj (List.cons.inj hrest).2
      have hmark := hword x List.mem_cons_self
      rw [← hx, k.left_word] at hmark
      cases hmark

theorem scanFrom_render {n : ℕ} (h : k.Plain ts) (hn : (k.render ts).length ≤ n) :
    k.scanFrom n (k.render ts) = ts := by
  induction ts generalizing n with
  | nil => cases n <;> rfl
  | cons t ts ih =>
    cases t with
    | char a =>
      obtain ⟨n, rfl⟩ : ∃ m, n = m + 1 := ⟨n - 1, by simp [render] at hn; omega⟩
      rw [render, scanFrom, hole?_char h]
      simp only
      rw [ih h.rest (by simpa [render] using hn)]
    | hole name =>
      obtain ⟨n, rfl⟩ : ∃ m, n = m + 1 := ⟨n - 1, by simp [render] at hn; omega⟩
      have hhole : k.hole? (k.left :: k.left :: (name ++ k.right :: k.right :: k.render ts)) =
          some (name, k.render ts) := hole?_eq_some.mpr ⟨h.names name List.mem_cons_self, rfl⟩
      rw [render, scanFrom, hhole]
      simp only
      rw [ih h.rest (by simp [render] at hn; omega)]

/-- A text that reads plainly is scanned as it reads. -/
theorem scan_render (h : k.Plain ts) : k.scan (k.render ts) = ts := scanFrom_render h (le_refl _)

/-- The scan is the only plain reading of a text, if there is one. -/
theorem plain_iff : k.Plain ts ∧ k.render ts = s ↔
    ts = k.scan s ∧ ¬ [k.left, k.left] <:+: texts (k.scan s) := by
  constructor
  · rintro ⟨hplain, rfl⟩
    rw [scan_render hplain]
    exact ⟨rfl, hplain.marks⟩
  · rintro ⟨rfl, hmarks⟩
    exact ⟨⟨fun name => scanFrom_names, hmarks⟩, render_scan s⟩

end Marks

end ReviewFlow.Placeholders
