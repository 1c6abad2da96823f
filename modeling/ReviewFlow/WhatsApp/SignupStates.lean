import ReviewFlow.Interleaving
import ReviewFlow.Python.Text
import ReviewFlow.Table
import ReviewFlow.Values

/-!
# The states of Embedded Signup

`issue_signup_state` and `consume_signup_state` in any order. A state is stored as a hash, and it is
consumed by the DELETE of its row, so what a call answers is decided by the calls before it.
-/

namespace ReviewFlow.WhatsApp.SignupStates

open Python Tables Interleaving

abbrev Uuid := ℕ

structure SignupState where
  merchantId : Uuid
  userId : Uuid
  stateHash : Str
  expiresAt : Time
  deriving DecidableEq

def SignupState.Clash (a b : SignupState) : Prop := a.stateHash = b.stateHash

instance : DecidableRel SignupState.Clash := fun _ _ => inferInstanceAs (Decidable (_ = _))

abbrev Store := Table SignupState SignupState.Clash

structure Settings where
  sha256 : Str → Str
  maxAge : Time

variable (settings : Settings)

/-- The call of a user in the tenant of a merchant, with the state that is drawn or given. -/
structure Call where
  merchantId : Uuid
  userId : Uuid
  state : Str
  now : Time

def Call.hash (c : Call) : Str := settings.sha256 c.state

def Call.row (c : Call) : SignupState :=
  ⟨c.merchantId, c.userId, c.hash settings, c.now + settings.maxAge⟩

def Call.purges (c : Call) (r : SignupState) : Bool :=
  r.merchantId == c.merchantId && decide (r.expiresAt ≤ c.now)

def issue (s : Store) (c : Call) : Option Store := (s.delete c.purges).insert? (c.row settings)

def Call.selects (c : Call) (r : SignupState) : Bool :=
  r.merchantId == c.merchantId && r.stateHash == c.hash settings && r.userId == c.userId &&
    decide (c.now < r.expiresAt)

def consumes (s : Store) (c : Call) : Bool := (s.rows.filter (c.selects settings)).length == 1

/-- `begin_embedded_signup` with the settings as they are, and `consume_signup_state`. -/
inductive Label where
  | issue (configured : Bool) (c : Call)
  | consume (c : Call)

def Label.call : Label → Call
  | .issue _ c => c
  | .consume c => c

def step (s : Store) : Label → Store
  | .issue configured c => if configured then (issue settings s c).getD s else s
  | .consume c => s.delete (c.selects settings)

section Rows

variable {settings : Settings} {s : Store} {c : Call} {r a : SignupState}

theorem eq_of_hash (hr : r ∈ s) (ha : a ∈ s) (h : r.stateHash = a.stateHash) : r = a :=
  Table.eq_of_clash (fun _ _ => Eq.symm) hr ha h

theorem selects_iff : c.selects settings r = true ↔ r.merchantId = c.merchantId ∧
    r.stateHash = c.hash settings ∧ r.userId = c.userId ∧ c.now < r.expiresAt := by
  simp [Call.selects, and_assoc]

theorem consumes_iff : consumes settings s c = true ↔ ∃ r ∈ s, c.selects settings r = true := by
  have hunique : (s.rows.filter (c.selects settings)).Pairwise fun _ _ => False := by
    apply (s.unique.filter _).imp_of_mem
    intro a b ha hb hne
    have hhash : a.stateHash = b.stateHash :=
      (selects_iff.mp (List.mem_filter.mp ha).2).2.1.trans
        (selects_iff.mp (List.mem_filter.mp hb).2).2.1.symm
    exact hne hhash
  rw [consumes, beq_iff_eq, List.length_eq_one_iff]
  constructor
  · intro ⟨r, hr⟩
    have hmem : r ∈ s.rows.filter (c.selects settings) := by rw [hr]; exact List.mem_cons_self
    exact ⟨r, List.mem_filter.mp hmem⟩
  · intro ⟨r, hr, hselects⟩
    have hmem : r ∈ s.rows.filter (c.selects settings) := List.mem_filter.mpr ⟨hr, hselects⟩
    match hrows : s.rows.filter (c.selects settings), hmem with
    | [a], _ => exact ⟨a, rfl⟩
    | a :: b :: rest, _ =>
      rw [hrows] at hunique
      exact absurd List.mem_cons_self ((List.pairwise_cons.mp hunique).1 b)

theorem mem_issue {s' : Store} (h : issue settings s c = some s') :
    r ∈ s' ↔ (r ∈ s ∧ c.purges r = false) ∨ r = c.row settings := by
  rw [Table.mem_insert? h, Table.mem_delete]

end Rows

section Runs

variable (settings : Settings)

def Issues (r : SignupState) (s : Store) (l : Label) : Prop :=
  ∃ c s', l = .issue true c ∧ issue settings s c = some s' ∧ r = c.row settings

def Consumes (h : Str) (s : Store) (l : Label) : Prop :=
  ∃ c, l = .consume c ∧ c.hash settings = h ∧ consumes settings s c = true

/-- No step of a run from the state consumes a state with this hash. -/
def Untouched (h : Str) (s : Store) (ls : List Label) : Prop :=
  ∀ ls₁ l ls₂, ls = ls₁ ++ l :: ls₂ →
    ¬ Consumes settings h (run (step settings) s ls₁) l

def IssuedUntouched (r : SignupState) (ls : List Label) : Prop :=
  ∃ ls₁ l ls₂, ls = ls₁ ++ l :: ls₂ ∧
    Issues settings r (run (step settings) .empty ls₁) l ∧
    Untouched settings r.stateHash (run (step settings) .empty (ls₁ ++ [l])) ls₂

variable {settings} {s : Store} {ls : List Label} {l : Label} {c : Call} {r : SignupState} {h : Str}

theorem untouched_snoc :
    Untouched settings h s (ls ++ [l]) ↔ Untouched settings h s ls ∧
      ¬ Consumes settings h (run (step settings) s ls) l := by
  constructor
  · intro hall
    refine ⟨fun ls₁ l' ls₂ heq => hall ls₁ l' (ls₂ ++ [l]) (by simp [heq]), hall ls l [] rfl⟩
  · intro ⟨hinit, hlast⟩ ls₁ l' ls₂ heq
    rcases List.eq_nil_or_concat ls₂ with rfl | ⟨ls₃, b, rfl⟩
    · obtain ⟨rfl, hl⟩ := List.append_inj' heq rfl
      cases hl
      exact hlast
    · have heq' : ls ++ [l] = (ls₁ ++ l' :: ls₃) ++ [b] := by simpa using heq
      exact hinit ls₁ l' ls₃ (List.append_inj' heq' rfl).1

/-- A row of the table after a step is new, or was there and its state is not consumed. -/
theorem step_row (hr : r ∈ step settings s l) :
    Issues settings r s l ∨
      (r ∈ s ∧ ¬ Consumes settings r.stateHash s l) := by
  cases l with
  | issue configured c =>
    have hno : ¬ Consumes settings r.stateHash s (.issue configured c) := by
      intro ⟨_, hl, _⟩
      cases hl
    cases configured with
    | false => exact .inr ⟨hr, hno⟩
    | true =>
      cases hissue : issue settings s c with
      | none =>
        simp only [step, hissue, if_true, Option.getD_none] at hr
        exact .inr ⟨hr, hno⟩
      | some s' =>
        simp only [step, hissue, if_true, Option.getD_some] at hr
        rcases (mem_issue hissue).mp hr with ⟨hr, -⟩ | hr
        · exact .inr ⟨hr, hno⟩
        · exact .inl ⟨c, s', rfl, hissue, hr⟩
  | consume c =>
    obtain ⟨hmem, hselects⟩ := Table.mem_delete.mp hr
    refine .inr ⟨hmem, fun ⟨c', hl, hhash, hconsumes⟩ => ?_⟩
    cases hl
    obtain ⟨a, ha, haselects⟩ := consumes_iff.mp hconsumes
    have heq : r = a := eq_of_hash hmem ha (hhash.symm.trans (selects_iff.mp haselects).2.1.symm)
    rw [heq, haselects] at hselects
    cases hselects

theorem row_issued (ls : List Label) (hr : r ∈ run (step settings) .empty ls) :
    IssuedUntouched settings r ls := by
  induction ls using List.reverseRecOn with
  | nil => cases hr
  | append_singleton ls l ih =>
    rw [run_snoc] at hr
    rcases step_row hr with hissues | ⟨hr, hno⟩
    · refine ⟨ls, l, [], rfl, hissues, fun ls₁ l' ls₂ heq => ?_⟩
      simp at heq
    · obtain ⟨ls₁, l', ls₂, rfl, hissues, huntouched⟩ := ih hr
      refine ⟨ls₁, l', ls₂ ++ [l], by simp, hissues, untouched_snoc.mpr ⟨huntouched, ?_⟩⟩
      rwa [← run_append, List.append_assoc, List.singleton_append]

theorem untouched_cons (h' : Untouched settings h s (l :: ls)) :
    ¬ Consumes settings h s l ∧ Untouched settings h (step settings s l) ls :=
  ⟨h' [] l ls rfl, fun ls₁ l' ls₂ heq => h' (l :: ls₁) l' ls₂ (by rw [heq]; rfl)⟩

theorem step_keeps (hr : r ∈ s) (hno : ¬ Consumes settings r.stateHash s l)
    (hnow : l.call.now < r.expiresAt) : r ∈ step settings s l := by
  cases l with
  | issue configured c =>
    cases configured with
    | false => exact hr
    | true =>
      cases hissue : issue settings s c with
      | none => simpa only [step, hissue, if_true, Option.getD_none] using hr
      | some s' =>
        have hpurges : c.purges r = false := by
          have hlate : ¬ r.expiresAt ≤ c.now := Int.not_le.mpr hnow
          simp [Call.purges, hlate]
        simp only [step, hissue, if_true, Option.getD_some]
        exact (mem_issue hissue).mpr (.inl ⟨hr, hpurges⟩)
  | consume c =>
    apply Table.mem_delete.mpr
    refine ⟨hr, ?_⟩
    by_contra hselects
    have hselects : c.selects settings r = true := by simpa using hselects
    apply hno
    exact ⟨c, rfl, (selects_iff.mp hselects).2.1.symm, consumes_iff.mpr ⟨r, hr, hselects⟩⟩

theorem run_keeps (hr : r ∈ s) (h : Untouched settings r.stateHash s ls)
    (hnow : ∀ l ∈ ls, l.call.now < r.expiresAt) : r ∈ run (step settings) s ls := by
  induction ls generalizing s with
  | nil => exact hr
  | cons l ls ih =>
    obtain ⟨hno, hrest⟩ := untouched_cons h
    have hstep := step_keeps hr hno (hnow l List.mem_cons_self)
    exact ih hstep hrest fun l' hl => hnow l' (List.mem_cons_of_mem l hl)

/-- A call consumes a state if and only if it was issued to the same user in the same merchant less
than the maximum age ago and nobody has consumed it since. -/
theorem consumed_iff (settings : Settings) (ls : List Label) (c : Call)
    (hclock : ∀ l ∈ ls, l.call.now ≤ c.now) :
    consumes settings (run (step settings) .empty ls) c = true ↔
      ∃ ls₁ a ls₂, ls = ls₁ ++ .issue true a :: ls₂ ∧
        (issue settings (run (step settings) .empty ls₁) a).isSome = true ∧
        a.merchantId = c.merchantId ∧ a.userId = c.userId ∧ a.hash settings = c.hash settings ∧
        c.now < a.now + settings.maxAge ∧
        Untouched settings (c.hash settings)
          (run (step settings) .empty (ls₁ ++ [.issue true a])) ls₂ := by
  rw [consumes_iff]
  constructor
  · intro ⟨r, hr, hselects⟩
    obtain ⟨hm, hhash, hu, hnow⟩ := selects_iff.mp hselects
    obtain ⟨ls₁, l, ls₂, hls, ⟨a, s', rfl, hissue, rfl⟩, huntouched⟩ := row_issued ls hr
    have huntouched : Untouched settings (c.hash settings)
        (run (step settings) .empty (ls₁ ++ [.issue true a])) ls₂ := hhash ▸ huntouched
    exact ⟨ls₁, a, ls₂, hls, by rw [hissue]; rfl, hm, hu, hhash, hnow, huntouched⟩
  · intro ⟨ls₁, a, ls₂, hls, hissued, hm, hu, hhash, hnow, huntouched⟩
    obtain ⟨s', hissue⟩ := Option.isSome_iff_exists.mp hissued
    have hnew : a.row settings ∈ run (step settings) .empty (ls₁ ++ [.issue true a]) := by
      rw [run_snoc]
      simp only [step, hissue, if_true, Option.getD_some]
      exact (mem_issue hissue).mpr (.inr rfl)
    have hkept : a.row settings ∈ run (step settings) .empty ls := by
      rw [hls, ← List.singleton_append, ← List.append_assoc, run_append]
      apply run_keeps hnew
      · rw [show (a.row settings).stateHash = c.hash settings from hhash]
        exact huntouched
      · intro l hl
        have hmem : l ∈ ls := hls ▸ List.mem_append_right ls₁ (List.mem_cons_of_mem _ hl)
        exact Int.lt_of_le_of_lt (hclock l hmem) hnow
    exact ⟨a.row settings, hkept, selects_iff.mpr ⟨hm, hhash, hu, hnow⟩⟩

def tenMinutes : Settings := ⟨id, 600000000⟩

/-- The second issue purges the first state, and another user tries the second one. -/
def issuedTwice : List Label :=
  [.issue true ⟨1, 2, text "old", 0⟩, .issue true ⟨1, 2, text "state", 700000000⟩,
    .consume ⟨1, 3, text "state", 700000001⟩]

def completion (now : Time) : Call := ⟨1, 2, text "state", now⟩

/-- What was issued is consumed once. -/
theorem consumed_iff_once :
    consumes tenMinutes (run (step tenMinutes) .empty issuedTwice) (completion 700000002) = true ∧
    ¬ ∃ ls₁ a ls₂, issuedTwice ++ [.consume (completion 700000002)] =
          ls₁ ++ .issue true a :: ls₂ ∧
        (issue tenMinutes (run (step tenMinutes) .empty ls₁) a).isSome = true ∧
        a.merchantId = 1 ∧ a.userId = 2 ∧ a.hash tenMinutes = text "state" ∧
        700000003 < a.now + tenMinutes.maxAge ∧
        Untouched tenMinutes (text "state")
          (run (step tenMinutes) .empty (ls₁ ++ [.issue true a])) ls₂ := by
  refine ⟨by decide, fun hissued => ?_⟩
  have hclock : ∀ l ∈ issuedTwice ++ [.consume (completion 700000002)],
      l.call.now ≤ (completion 700000003).now := by decide
  have hagain := (consumed_iff tenMinutes _ (completion 700000003) hclock).mpr hissued
  exact absurd hagain (by decide)

end Runs

end ReviewFlow.WhatsApp.SignupStates
