import ReviewFlow.Integrations.Schemas
import Mathlib.Logic.Relation

/-!
# Inside a JSON value

What occurs in a value at any depth, and what a value becomes when items are inserted into its
lists. A place is the path to a part of it that says of a list item only that it is one.
-/

namespace ReviewFlow.Integrations

open Python

/-- `x` is the value or a part of it. -/
inductive Json.Within (x : Json) : Json → Prop
  | self : Within x x
  | item {y : Json} {items : List Json} (mem : y ∈ items) (within : Within x y) :
    Within x (.list items)
  | field {p : Str × Json} {fields : Dict} (mem : p ∈ fields) (within : Within x p.2) :
    Within x (.dict fields)

/-- What `json.loads` returns: it raises ValueError at an integer of more digits. -/
def Json.Loaded (v : Json) : Prop := ∀ n, Json.Within (.int n) v → n.natAbs < 10 ^ intMaxStrDigits

inductive Step where
  | item
  | key (name : Str)
  deriving DecidableEq

abbrev Place := List Step

/-- One item is inserted into a list of the value. What may be inserted depends on the place and on
the items before it. -/
inductive Json.Grown (allowed : Place → List Json → Json → Prop) : Place → Json → Json → Prop
  | insert {place : Place} {before after : List Json} {x : Json}
    (fits : allowed (place ++ [.item]) before x) :
      Grown allowed place (.list (before ++ after)) (.list (before ++ x :: after))
  | item {place : Place} {before after : List Json} {x y : Json}
    (inside : Grown allowed (place ++ [.item]) x y) :
      Grown allowed place (.list (before ++ x :: after)) (.list (before ++ y :: after))
  | field {place : Place} {before after : Dict} {name : Str} {x y : Json}
      (inside : Grown allowed (place ++ [.key name]) x y) :
      Grown allowed place (.dict (before ++ (name, x) :: after))
      (.dict (before ++ (name, y) :: after))

def Json.Kept (allowed : Place → List Json → Json → Prop) (place : Place) (x y : Json) : Prop :=
  x = y ∨ x.Grown allowed place y

/-- `value.get(key)` if the value is a dict. -/
def Json.field (v : Json) (key : String) : Json :=
  match v with
  | .dict fields => Dict.get fields (text key)
  | _ => .null

def Json.items : Json → List Json
  | .list items => items
  | _ => []

def Json.string? : Json → Option Str
  | .str s => some s
  | _ => none

section Loaded

variable {v : Json} {key : String}

theorem within_trans {x y z : Json} (hxy : x.Within y) (hyz : y.Within z) : x.Within z := by
  induction hyz with
  | self => exact hxy
  | item hmem _ ih => exact .item hmem ih
  | field hmem _ ih => exact .field hmem ih

theorem Json.Loaded.part {x : Json} (h : v.Loaded) (hx : x.Within v) : x.Loaded :=
  fun n hn => h n (within_trans hn hx)

theorem loaded_null : Json.null.Loaded := by
  intro n hn
  cases hn

theorem loaded_bool (b : Bool) : (Json.bool b).Loaded := by
  intro n hn
  cases hn

theorem loaded_int {n : ℤ} (h : n.natAbs < 10) : (Json.int n).Loaded := by
  intro m hm
  cases hm
  have hdigits : 10 ^ 1 ≤ 10 ^ intMaxStrDigits := Nat.pow_le_pow_right (by decide) (by decide)
  omega

theorem loaded_str (s : Str) : (Json.str s).Loaded := by
  intro n hn
  cases hn

theorem loaded_list {items : List Json} (h : ∀ x ∈ items, x.Loaded) : (Json.list items).Loaded := by
  intro n hn
  cases hn with
  | item hmem hn => exact h _ hmem n hn

theorem loaded_dict {fields : Dict} (h : ∀ p ∈ fields, p.2.Loaded) : (Json.dict fields).Loaded := by
  intro n hn
  cases hn with
  | field hmem hn => exact h _ hmem n hn

theorem Json.Loaded.get {fields : Dict} (h : (Json.dict fields).Loaded) (name : Str) :
    (fields.get name).Loaded := by
  unfold Dict.get
  cases hfound : fields.find? fun p => p.1 == name with
  | none => exact loaded_null
  | some p => exact h.part (.field (List.mem_of_find?_eq_some hfound) .self)

theorem Json.Loaded.field (h : v.Loaded) (key : String) : (v.field key).Loaded := by
  cases v with
  | dict fields => exact h.get (text key)
  | _ => exact loaded_null

theorem Json.Loaded.items (h : v.Loaded) : ∀ x ∈ v.items, x.Loaded := by
  intro x hx
  cases v with
  | list items => exact h.part (.item hx .self)
  | _ => cases hx

end Loaded

theorem field_of_no_dict {v : Json} (h : ∀ fields, v ≠ .dict fields) (key : String) :
    v.field key = .null := by
  cases v with
  | dict fields => exact absurd rfl (h fields)
  | _ => rfl

section Growth

variable {allowed : Place → List Json → Json → Prop} {place : Place} {x y : Json}

theorem get_cons (p : Str × Json) (fields : Dict) (key : Str) :
    Dict.get (p :: fields) key = if p.1 = key then p.2 else Dict.get fields key := by
  by_cases hkey : p.1 = key
  · simp [Dict.get, hkey]
  · simp [Dict.get, hkey]

theorem get_of_set (before after : Dict) (name key : Str) (v w : Json) :
    Dict.get (before ++ (name, v) :: after) key = Dict.get (before ++ (name, w) :: after) key ∨
      name = key ∧ Dict.get (before ++ (name, v) :: after) key = v ∧
        Dict.get (before ++ (name, w) :: after) key = w := by
  induction before with
  | nil =>
    simp only [List.nil_append, get_cons]
    by_cases hkey : name = key
    · exact .inr ⟨hkey, if_pos hkey, if_pos hkey⟩
    · exact .inl ((if_neg hkey).trans (if_neg hkey).symm)
  | cons p before ih =>
    simp only [List.cons_append, get_cons]
    by_cases hkey : p.1 = key
    · exact .inl ((if_pos hkey).trans (if_pos hkey).symm)
    · simpa only [if_neg hkey] using ih

/-- A value that grows stays a list or a dict: what is read of a value by its type and by nothing
inside it stays. -/
theorem Json.Kept.opaque_eq {α : Type} {f : Json → α} (hlist : ∀ xs ys, f (.list xs) = f (.list ys))
    (hdict : ∀ xs ys, f (.dict xs) = f (.dict ys)) (h : x.Kept allowed place y) : f x = f y := by
  rcases h with rfl | h
  · rfl
  · cases h with
    | insert => exact hlist _ _
    | item => exact hlist _ _
    | field => exact hdict _ _

theorem Json.Kept.field (h : x.Kept allowed place y) (key : String) :
    (x.field key).Kept allowed (place ++ [.key (text key)]) (y.field key) := by
  rcases h with rfl | h
  · exact .inl rfl
  cases h with
  | insert => exact .inl rfl
  | item => exact .inl rfl
  | @field _ before after name v w inside =>
    rcases get_of_set before after name (text key) v w with hsame | ⟨rfl, hv, hw⟩
    · exact .inl hsame
    · apply Or.inr
      simp only [Json.field, hv, hw]
      exact inside

/-- What is read of a list item by item stays, if it stays for each item and nothing is read of an
item inserted. -/
theorem Json.Kept.flatMap_items {α : Type} {f : Json → List α} (h : x.Kept allowed place y)
    (hnew : ∀ before z, allowed (place ++ [.item]) before z → f z = [])
    (hold : ∀ z w, Json.Kept allowed (place ++ [.item]) z w → f z = f w) :
    x.items.flatMap f = y.items.flatMap f := by
  rcases h with rfl | h
  · rfl
  cases h with
  | insert fits =>
    simp only [Json.items, List.flatMap_append, List.flatMap_cons, hnew _ _ fits, List.nil_append]
  | item inside =>
    simp only [Json.items, List.flatMap_append, List.flatMap_cons, hold _ _ (.inr inside)]
  | field => rfl

end Growth

end ReviewFlow.Integrations
