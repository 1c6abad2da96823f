import Mathlib.Data.List.Basic

/-!
# Permissive row policies

A policy is for one command. A row is readable, or may be written, where some policy of the
command says so: policies are permissive, and an expression that is NULL does not say so.
`UPDATE` takes the rows that one policy lets it use and stores the rows that any policy, not
only that one, lets it store. A statement that reads columns is bound by the `SELECT` policies
as well. What breaks a policy or a constraint fails as a whole.
-/

namespace ReviewFlow.RowSecurity

inductive Command where
  | select
  | insert
  | update
  | delete
  deriving DecidableEq

/-- `CREATE POLICY name FOR command USING (..) WITH CHECK (..)`, of rows `α` under settings `σ`. -/
structure Policy (σ α : Type) where
  name : String
  command : Command
  using? : Option (σ → α → Bool)
  check? : Option (σ → α → Bool)

variable {σ α : Type}

def permits (ps : List (Policy σ α)) (c : Command) (s : σ) (a : α) : Bool :=
  ps.any fun p => decide (p.command = c) && p.using?.any fun u => u s a

def allows (ps : List (Policy σ α)) (c : Command) (s : σ) (a : α) : Bool :=
  ps.any fun p => decide (p.command = c) && p.check?.any fun u => u s a

def visible (ps : List (Policy σ α)) (s : σ) (a : α) : Bool := permits ps .select s a

/-- `reads` is a statement that has a column of the table in its `WHERE` or on a right-hand side. -/
inductive Statement (α : Type) where
  | insert (a : α)
  | update (reads : Bool) (where? : α → Bool) (set : α → α)
  | delete (reads : Bool) (where? : α → Bool)

abbrev Rows (ok : List α → Prop) := { rows : List α // ok rows }

variable {ok : List α → Prop} [DecidablePred ok]

def stored (ok : List α → Prop) [DecidablePred ok] (rows : List α) : Option (Rows ok) :=
  if h : ok rows then some ⟨rows, h⟩ else none

def takes (ps : List (Policy σ α)) (s : σ) (c : Command) (reads : Bool)
    (where? : α → Bool) (a : α) : Bool :=
  where? a && permits ps c s a && (!reads || visible ps s a)

def Statement.execute (ps : List (Policy σ α)) (s : σ) (rows : Rows ok) :
    Statement α → Option (Rows ok)
  | .insert a => if allows ps .insert s a then stored ok (rows.1 ++ [a]) else none
  | .update reads where? set =>
    if rows.1.all fun a => !takes ps s .update reads where? a ||
        allows ps .update s (set a) && (!reads || visible ps s (set a)) then
      stored ok (rows.1.map fun a => if takes ps s .update reads where? a then set a else a)
    else none
  | .delete reads where? => stored ok (rows.1.filter fun a => !takes ps s .delete reads where? a)

def Statement.admitted (ps : List (Policy σ α)) (s : σ) (rows : List α) : Statement α → Bool
  | .insert a => allows ps .insert s a
  | .update reads where? set => rows.all fun a => !takes ps s .update reads where? a ||
      allows ps .update s (set a) && (!reads || visible ps s (set a))
  | .delete _ _ => true

def Statement.result (ps : List (Policy σ α)) (s : σ) (rows : List α) : Statement α → List α
  | .insert a => rows ++ [a]
  | .update reads where? set =>
    rows.map fun a => if takes ps s .update reads where? a then set a else a
  | .delete reads where? => rows.filter fun a => !takes ps s .delete reads where? a

theorem Statement.execute_eq (ps : List (Policy σ α)) (s : σ) (rows : Rows ok) (st : Statement α) :
    st.execute ps s rows =
      if st.admitted ps s rows.1 then stored ok (st.result ps s rows.1) else none := by
  cases st <;> rfl

/-- The statements of a transaction. One that fails fails the transaction. -/
def transact (ps : List (Policy σ α)) (s : σ) : Rows ok → List (Statement α) → Option (Rows ok)
  | rows, [] => some rows
  | rows, st :: sts => (st.execute ps s rows).bind fun rows => transact ps s rows sts

section Frame

variable {ps : List (Policy σ α)} {s : σ} {rows rows' : Rows ok}

theorem stored_eq {l : List α} (h : stored ok l = some rows') : rows'.1 = l := by
  unfold stored at h
  split at h
  · cases h
    rfl
  · cases h

structure Foreign (ps : List (Policy σ α)) (s : σ) (F : α → Bool) : Prop where
  insert : ∀ a, F a = true → allows ps .insert s a = false
  taken : ∀ a, F a = true → permits ps .update s a = false
  given : ∀ a, F a = true → allows ps .update s a = false
  delete : ∀ a, F a = true → permits ps .delete s a = false

theorem filter_map_of_fixed {F : α → Bool} {f : α → α} {l : List α}
    (h : ∀ a ∈ l, f a = a ∨ F a = false ∧ F (f a) = false) : (l.map f).filter F = l.filter F := by
  induction l with
  | nil => rfl
  | cons a l ih =>
    rw [List.map_cons, List.filter_cons, List.filter_cons,
      ih fun b hb => h b (List.mem_cons_of_mem _ hb)]
    rcases h a List.mem_cons_self with ha | ⟨ha, hfa⟩
    · rw [ha]
    · rw [ha, hfa]
      rfl

/-- The rows that can be inserted but not updated, from or to them, nor deleted. -/
structure Settled (ps : List (Policy σ α)) (s : σ) (F : α → Bool) : Prop where
  taken : ∀ a, F a = true → permits ps .update s a = false
  given : ∀ a, F a = true → allows ps .update s a = false
  delete : ∀ a, F a = true → permits ps .delete s a = false

theorem Foreign.settled {F : α → Bool} (hF : Foreign ps s F) : Settled ps s F :=
  ⟨hF.taken, hF.given, hF.delete⟩

theorem Settled.execute_update {F : α → Bool} (hF : Settled ps s F) {reads : Bool}
    {where? : α → Bool} {set : α → α}
    (h : (Statement.update reads where? set).execute ps s rows = some rows') :
    rows'.1.filter F = rows.1.filter F := by
  simp only [Statement.execute] at h
  split at h
  case isTrue hall =>
    rw [stored_eq h]
    apply filter_map_of_fixed
    intro a ha
    cases ht : takes ps s .update reads where? a with
    | false => exact .inl (by simp)
    | true =>
      right
      have hchecked := List.all_eq_true.mp hall a ha
      simp only [ht, Bool.not_true, Bool.false_or, Bool.and_eq_true] at hchecked
      have hpermits : permits ps .update s a = true := by
        simp only [takes, Bool.and_eq_true] at ht
        exact ht.1.2
      constructor
      · by_contra hFa
        rw [hF.taken a (by simpa using hFa)] at hpermits
        cases hpermits
      · by_contra hFa
        rw [hF.given (set a) (by simpa using hFa)] at hchecked
        exact absurd hchecked.1 (by simp)
  · cases h

theorem Settled.execute_delete {F : α → Bool} (hF : Settled ps s F) {reads : Bool}
    {where? : α → Bool} (h : (Statement.delete reads where?).execute ps s rows = some rows') :
    rows'.1.filter F = rows.1.filter F := by
  simp only [Statement.execute] at h
  rw [stored_eq h, List.filter_filter]
  apply List.filter_congr
  intro a _
  cases hFa : F a with
  | false => simp
  | true =>
    have hno := hF.delete a hFa
    simp [takes, hno]

theorem Settled.execute {F : α → Bool} (hF : Settled ps s F) (st : Statement α)
    (h : st.execute ps s rows = some rows') : rows.1.filter F <+: rows'.1.filter F := by
  cases st with
  | insert a =>
    simp only [Statement.execute] at h
    split at h
    · rw [stored_eq h, List.filter_append]
      exact List.prefix_append _ _
    · cases h
  | update reads where? set => exact (hF.execute_update h).symm ▸ List.prefix_refl _
  | delete reads where? => exact (hF.execute_delete h).symm ▸ List.prefix_refl _

theorem Foreign.execute {F : α → Bool} (hF : Foreign ps s F) (st : Statement α)
    (h : st.execute ps s rows = some rows') : rows'.1.filter F = rows.1.filter F := by
  cases st with
  | insert a =>
    simp only [Statement.execute] at h
    split at h
    case isTrue ha =>
      rw [stored_eq h, List.filter_append, List.filter_singleton]
      cases hFa : F a with
      | true => rw [hF.insert a hFa] at ha; cases ha
      | false => simp
    · cases h
  | update reads where? set => exact hF.settled.execute_update h
  | delete reads where? => exact hF.settled.execute_delete h

theorem Foreign.transact {F : α → Bool} (hF : Foreign ps s F) {sts : List (Statement α)}
    (h : transact ps s rows sts = some rows') : rows'.1.filter F = rows.1.filter F := by
  induction sts generalizing rows with
  | nil =>
    cases h
    rfl
  | cons st sts ih =>
    obtain ⟨middle, hm, hrest⟩ := Option.bind_eq_some_iff.mp h
    exact (ih hrest).trans (hF.execute st hm)

/-- Rows of a kind that cannot be deleted, or updated to another kind, do not all go. -/
theorem execute_keeps {F : α → Bool} (hdel : ∀ a, F a = true → permits ps .delete s a = false)
    (hupd : ∀ a b, F a = true → permits ps .update s a = true →
      allows ps .update s b = true → F b = true)
    (st : Statement α) (h : st.execute ps s rows = some rows') (hex : ∃ a ∈ rows.1, F a = true) :
    ∃ a ∈ rows'.1, F a = true := by
  obtain ⟨a, ha, hFa⟩ := hex
  cases st with
  | insert b =>
    simp only [Statement.execute] at h
    split at h
    · exact ⟨a, by rw [stored_eq h]; exact List.mem_append_left _ ha, hFa⟩
    · cases h
  | update reads where? set =>
    simp only [Statement.execute] at h
    split at h
    case isTrue hall =>
      rw [stored_eq h]
      refine ⟨_, List.mem_map_of_mem ha, ?_⟩
      cases ht : takes ps s .update reads where? a with
      | false => simpa using hFa
      | true =>
        have hchecked := List.all_eq_true.mp hall a ha
        simp only [ht, Bool.not_true, Bool.false_or, Bool.and_eq_true] at hchecked
        simp only [takes, Bool.and_eq_true] at ht
        simpa using hupd a (set a) hFa ht.1.2 hchecked.1
    · cases h
  | delete reads where? =>
    simp only [Statement.execute] at h
    rw [stored_eq h]
    exact ⟨a, List.mem_filter.mpr ⟨ha, by simp [takes, hdel a hFa]⟩, hFa⟩

theorem transact_keeps {F : α → Bool} (hdel : ∀ a, F a = true → permits ps .delete s a = false)
    (hupd : ∀ a b, F a = true → permits ps .update s a = true →
      allows ps .update s b = true → F b = true)
    {sts : List (Statement α)} (h : transact ps s rows sts = some rows')
    (hex : ∃ a ∈ rows.1, F a = true) :
    ∃ a ∈ rows'.1, F a = true := by
  induction sts generalizing rows with
  | nil =>
    cases h
    exact hex
  | cons st sts ih =>
    obtain ⟨middle, hm, hrest⟩ := Option.bind_eq_some_iff.mp h
    exact ih hrest (execute_keeps hdel hupd st hm hex)

end Frame

section Projection

variable {ps : List (Policy σ α)} {s s' : σ} {F : α → Bool}

/-- Two settings that judge the rows outside `F` alike. -/
structure Alike (ps : List (Policy σ α)) (s s' : σ) (F : α → Bool) : Prop where
  permits : ∀ c a, F a = false → permits ps c s a = permits ps c s' a
  allows : ∀ c a, F a = false → allows ps c s a = allows ps c s' a

theorem Foreign.of_allows (hF : Foreign ps s F) {a : α} (h : allows ps .insert s a = true) :
    F a = false := by
  cases hFa : F a with
  | false => rfl
  | true =>
    rw [hF.insert a hFa] at h
    cases h

theorem Foreign.of_given (hF : Foreign ps s F) {a : α} (h : allows ps .update s a = true) :
    F a = false := by
  cases hFa : F a with
  | false => rfl
  | true =>
    rw [hF.given a hFa] at h
    cases h

theorem Alike.takes (hs : Alike ps s s' F) (c : Command) (reads : Bool) (where? : α → Bool)
    {a : α} (ha : F a = false) : takes ps s c reads where? a = takes ps s' c reads where? a := by
  simp only [RowSecurity.takes, visible, hs.permits c a ha, hs.permits .select a ha]

theorem Foreign.not_taken_update (hF : Foreign ps s F) (reads : Bool) (where? : α → Bool) {a : α}
    (ha : F a = true) : takes ps s .update reads where? a = false := by
  simp [RowSecurity.takes, hF.taken a ha]

theorem Foreign.admitted_project (hF : Foreign ps s F)
    (hpermits : ∀ c a, permits ps c s a = permits ps c s' a)
    (hallows : ∀ c a, allows ps c s a = allows ps c s' a) {rows alone : List α}
    (halone : alone = rows.filter fun a => !F a) (st : Statement α) :
    st.admitted ps s' alone = st.admitted ps s rows := by
  cases st with
  | insert a => exact (hallows .insert a).symm
  | update reads where? set =>
    have htakes : ∀ a, RowSecurity.takes ps s' .update reads where? a =
        RowSecurity.takes ps s .update reads where? a := by
      intro a
      simp only [RowSecurity.takes, visible, hpermits]
    simp only [Statement.admitted, halone, List.all_filter, htakes, visible, ← hpermits, ← hallows]
    refine List.all_congr rfl fun a => ?_
    cases hFa : F a with
    | false => simp
    | true => simp [hF.not_taken_update reads where? hFa]
  | delete reads where? => rfl

theorem filter_map_project {f g : α → α} {l : List α}
    (hsame : ∀ a ∈ l, F a = false → f a = g a ∧ F (f a) = false)
    (hfixed : ∀ a ∈ l, F a = true → f a = a) :
    (l.map f).filter (fun a => !F a) = (l.filter fun a => !F a).map g := by
  induction l with
  | nil => rfl
  | cons a l ih =>
    have hrest := ih (fun b hb => hsame b (List.mem_cons_of_mem a hb))
      fun b hb => hfixed b (List.mem_cons_of_mem a hb)
    rw [List.map_cons, List.filter_cons, List.filter_cons, hrest]
    cases hFa : F a with
    | true =>
      rw [hfixed a List.mem_cons_self hFa, hFa]
      rfl
    | false =>
      obtain ⟨hfg, hFf⟩ := hsame a List.mem_cons_self hFa
      rw [hFf, hfg]
      rfl

theorem stored_of_sublist (hok : ∀ l l' : List α, l'.Sublist l → ok l → ok l') {l l' : List α}
    {rows : Rows ok} (hl : l'.Sublist l) (h : stored ok l = some rows) :
    ∃ alone, stored ok l' = some alone ∧ alone.1 = l' := by
  have hrows : ok l := stored_eq h ▸ rows.2
  exact ⟨⟨l', hok l l' hl hrows⟩, dif_pos _, rfl⟩

/-- A statement that goes through among foreign rows goes through without them, and does the same
to the other rows. -/
theorem Foreign.execute_project (hok : ∀ l l' : List α, l'.Sublist l → ok l → ok l')
    (hF : Foreign ps s F) (hs : Alike ps s s' F) {rows rows' alone : Rows ok} {st : Statement α}
    (halone : alone.1 = rows.1.filter fun a => !F a) (h : st.execute ps s rows = some rows') :
    ∃ alone', st.execute ps s' alone = some alone' ∧
      alone'.1 = rows'.1.filter fun a => !F a := by
  cases st with
  | insert a =>
    simp only [Statement.execute] at h ⊢
    split at h
    case isTrue ha =>
      have hFa := hF.of_allows ha
      have hlist : alone.1 ++ [a] = (rows.1 ++ [a]).filter fun b => !F b := by
        rw [List.filter_append, List.filter_singleton, hFa, halone]
        rfl
      rw [← hs.allows .insert a hFa, if_pos ha, stored_eq h, ← hlist]
      apply stored_of_sublist hok ?_ h
      rw [hlist]
      exact List.filter_sublist
    · cases h
  | update reads where? set =>
    simp only [Statement.execute] at h ⊢
    split at h
    case isTrue hall =>
      have hchecked : ∀ a ∈ rows.1, takes ps s .update reads where? a = true →
          allows ps .update s (set a) = true ∧
            (reads = true → visible ps s (set a) = true) := by
        intro a ha ht
        have := List.all_eq_true.mp hall a ha
        rw [ht] at this
        cases reads <;> simpa using this
      have hmap : (rows.1.map fun a =>
            if takes ps s .update reads where? a then set a else a).filter (fun a => !F a) =
          alone.1.map fun a => if takes ps s' .update reads where? a then set a else a := by
        rw [halone]
        apply filter_map_project
        · intro a ha hFa
          rw [← hs.takes .update reads where? hFa]
          refine ⟨rfl, ?_⟩
          split
          case isTrue ht => exact hF.of_given (hchecked a ha ht).1
          case isFalse => exact hFa
        · intro a _ hFa
          simp [hF.not_taken_update reads where? hFa]
      have hall' : alone.1.all (fun a => !takes ps s' .update reads where? a ||
          allows ps .update s' (set a) && (!reads || visible ps s' (set a))) = true := by
        apply List.all_eq_true.mpr
        intro a ha
        rw [halone, List.mem_filter] at ha
        have hFa : F a = false := by simpa using ha.2
        rw [← hs.takes .update reads where? hFa]
        cases ht : takes ps s .update reads where? a with
        | false => rfl
        | true =>
          obtain ⟨hallowed, hread⟩ := hchecked a ha.1 ht
          have hset := hF.of_given hallowed
          rw [← hs.allows .update _ hset, hallowed]
          cases reads with
          | false => rfl
          | true =>
            have hv := hread rfl
            rw [visible, hs.permits .select _ hset] at hv
            simp [visible, hv]
      rw [if_pos hall', stored_eq h, hmap]
      apply stored_of_sublist hok ?_ h
      rw [← hmap]
      exact List.filter_sublist
    · cases h
  | delete reads where? =>
    simp only [Statement.execute] at h ⊢
    have hfilter : (rows.1.filter fun a => !takes ps s .delete reads where? a).filter
          (fun a => !F a) =
        alone.1.filter fun a => !takes ps s' .delete reads where? a := by
      rw [halone, List.filter_filter, List.filter_filter]
      apply List.filter_congr
      intro a _
      cases hFa : F a with
      | true => simp
      | false => simp [hs.takes .delete reads where? hFa]
    rw [stored_eq h, hfilter]
    apply stored_of_sublist hok ?_ h
    rw [← hfilter]
    exact List.filter_sublist

end Projection

end ReviewFlow.RowSecurity
