import ReviewFlow.WhatsApp.HeldMappings

/-!
# Requests for the sender of a location go on

Each step brings a request nearer to its end, and a request that waits does so for one that moves
on.
-/

namespace ReviewFlow.Senders

open Tables Interleaving RowLocks

/-- A request that is there takes its next step, with no call and no failure from outside. -/
def StoreChoice.Proceeds : StoreChoice → Prop
  | .advance _ | .commit _ _ => True
  | _ => False

def Store.Idle (s : Store) : Prop := ∀ choice : StoreChoice, choice.Proceeds → s.step choice = s

def Tx.rank : Tx → ℕ
  | .setSender _ _ => 7
  | .setLocked _ _ none => 6
  | .setLocked _ _ (some _) => 5
  | .setUnmapped _ _ => 4
  | .setConflict _ _ none | .clearSender _ none | .disconnect _ | .activate _ => 3
  | .setConflict _ _ (some _) | .clearSender _ (some _) | .disconnectLocked _
  | .activateCalling _ => 2
  | .setCreated _ _ | .setMapped _ _ _ | .clearMapped _ _ | .disconnectUnused _
  | .activateAnswered _ _ => 1
  | .done _ => 0

def Store.work (s : Store) : ℕ := (s.txs.map Tx.rank).sum

section Progress

variable {s : Store} {i : ℕ} {tx new : Tx} {choice : StoreChoice} {location : Uuid}

theorem set_ne (hi : s.txs[i]? = some tx) (h : new ≠ tx) {db : Database} :
    (⟨db, s.txs.set i new⟩ : Store) ≠ s := by
  intro heq
  have hlt := (List.getElem?_eq_some_iff.mp hi).1
  have hnew : (s.txs.set i new)[i]? = s.txs[i]? := congrArg (fun s => s.txs[i]?) heq
  rw [List.getElem?_set_self hlt, hi] at hnew
  exact h (Option.some.inj hnew)

def Store.Moves (s : Store) : Prop := ∃ choice : StoreChoice, choice.Proceeds ∧ s.step choice ≠ s

theorem moves_advance (hi : s.txs[i]? = some tx) (h : s.next i tx ≠ tx) : s.Moves := by
  refine ⟨.advance i, trivial, ?_⟩
  rw [Store.step]
  simp only [hi]
  exact set_ne hi h

theorem moves_commit {db : Database} (hi : s.txs[i]? = some tx) (hwaits : s.waits i tx = false)
    (hc : s.db.commit 0 tx = some db) : s.Moves := by
  refine ⟨.commit i 0, trivial, ?_⟩
  rw [Store.step]
  simp only [hi, hwaits, Bool.false_eq_true, if_false, hc]
  refine set_ne hi fun heq => ?_
  rw [← heq] at hc
  cases hc

theorem moves_of_holder (h : s.Held) (hi : s.txs[i]? = some tx)
    (hl : tx.holds (.mapping location) = true) : s.Moves := by
  cases tx with
  | setCreated l a =>
    have hnone : s.db.mapping l = none := (h.knows i _ hi).2
    cases hins : s.db.mappings.insert? ⟨l, a.id⟩ with
    | none =>
      obtain ⟨m, hm, hml⟩ := Table.insert?_eq_none.mp hins
      have hno := Table.find?_eq_none.mp hnone m hm
      rw [beq_eq_false_iff_ne] at hno
      exact absurd hml hno
    | some mappings => exact moves_commit hi rfl (by rw [Database.commit, hins, Option.map_some])
  | setMapped l a row =>
    by_cases hsame : row.mapping.account = a.id
    · exact moves_commit hi rfl (by rw [Database.commit, if_pos hsame])
    · exact moves_commit hi rfl (by rw [Database.commit, if_neg hsame])
  | clearMapped l row => exact moves_commit hi rfl (by rw [Database.commit])
  | setSender l a => cases hl
  | setLocked l a waiting => cases hl
  | setUnmapped l a => cases hl
  | setConflict l a waiting => cases hl
  | clearSender l waiting => cases hl
  | disconnect k => cases hl
  | disconnectLocked a => cases hl
  | disconnectUnused a => cases hl
  | activate k => cases hl
  | activateCalling a => cases hl
  | activateAnswered a failed => cases hl
  | done result => cases hl

theorem moves_of_blocked (h : s.Held) (hfree : s.free i (.mapping location) = false) :
    s.Moves := by
  obtain ⟨j, other, hj, hl⟩ := exists_holder hfree
  exact moves_of_holder h hj hl

theorem moves_of_select {waiting : Option Row} {wait some : Row → Tx} {none : Tx} (h : s.Held)
    (hi : s.txs[i]? = .some tx)
    (hnext : s.next i tx = s.lockedMapping i location waiting wait none some) (hnone : none ≠ tx)
    (hsome : ∀ row, some row ≠ tx) : s.Moves := by
  by_cases hmoves : s.next i tx = tx
  · rw [hnext] at hmoves
    refine lockedMapping_rule (P := fun new => new = tx → s.Moves)
      (fun hsame => absurd hsame hnone) ?_ ?_ hmoves
    · exact fun _ _ hfree _ => moves_of_blocked h hfree
    · exact fun row _ _ _ hsame => absurd hsame (hsome row)
  · exact moves_advance hi hmoves

theorem moves_of_locked (h : s.Held) (hi : s.txs[i]? = some tx) (hsets : tx.sets.isSome = true)
    (hlocked : ∀ location a, tx ≠ .setSender location a) : s.Moves := by
  cases tx with
  | setSender l a => exact absurd rfl (hlocked l a)
  | setLocked l a waiting => exact moves_of_select h hi rfl (by simp) (by simp)
  | setConflict l a waiting => exact moves_of_select h hi rfl (by simp) (by simp)
  | setUnmapped l a =>
    cases hfree : s.free i (.mapping l) with
    | false => exact moves_of_blocked h hfree
    | true =>
      refine moves_advance hi ?_
      rw [Store.next]
      split
      · simp
      · simp
  | setCreated l a => exact moves_of_holder h hi (beq_self_eq_true l)
  | setMapped l a row => exact moves_of_holder h hi (beq_self_eq_true l)
  | clearSender l waiting => cases hsets
  | clearMapped l row => cases hsets
  | disconnect k => cases hsets
  | disconnectLocked a => cases hsets
  | disconnectUnused a => cases hsets
  | activate k => cases hsets
  | activateCalling a => cases hsets
  | activateAnswered a failed => cases hsets
  | done result => cases hsets

/-- A `set_location_sender` that waits for an account waits for one that moves on, or that waits
for a mapping. -/
theorem moves_of_sets (h : s.Held) (hi : s.txs[i]? = some tx) (hsets : tx.sets.isSome = true) :
    s.Moves := by
  by_cases hlocked : ∀ location a, tx ≠ .setSender location a
  · exact moves_of_locked h hi hsets hlocked
  simp only [ne_eq, not_forall, not_not] at hlocked
  obtain ⟨l, a, rfl⟩ := hlocked
  cases hwaits : a.own && !s.free i (.account a.id) with
  | false =>
    refine moves_advance hi ?_
    rw [Store.next, Store.lockActiveAccount, hwaits, if_neg Bool.false_ne_true]
    split
    · simp
    · split <;> simp
  | true =>
    rw [Bool.and_eq_true, Bool.not_eq_true'] at hwaits
    obtain ⟨j, other, hj, hl⟩ := exists_holder hwaits.2
    cases other with
    | setLocked => exact moves_of_locked h hj rfl (by simp)
    | setUnmapped => exact moves_of_locked h hj rfl (by simp)
    | setConflict => exact moves_of_locked h hj rfl (by simp)
    | setCreated => exact moves_of_locked h hj rfl (by simp)
    | setMapped => exact moves_of_locked h hj rfl (by simp)
    | disconnectLocked b =>
      refine moves_advance hj ?_
      rw [Store.next]
      split
      · simp
      · split <;> simp
    | disconnectUnused b => exact moves_commit hj rfl (by rw [Database.commit])
    | setSender => cases hl
    | clearSender => cases hl
    | clearMapped => cases hl
    | disconnect => cases hl
    | activate => cases hl
    | activateCalling => cases hl
    | activateAnswered => cases hl
    | done => cases hl

theorem lockedMapping_rank (place : Option Row → Tx) (s : Store) (i : ℕ) (location : Uuid)
    {none : Tx} {some : Row → Tx} (hnone : ∀ waiting, none.rank < (place waiting).rank)
    (hsome : ∀ row waiting, (some row).rank < (place waiting).rank)
    (hwait : ∀ row, (place (.some row)).rank < (place .none).rank) (waiting : Option Row) :
    s.lockedMapping i location waiting (fun row => place (.some row)) none some = place waiting ∨
      (s.lockedMapping i location waiting (fun row => place (.some row)) none some).rank <
        (place waiting).rank := by
  refine lockedMapping_rule (P := fun new => new = place waiting ∨ new.rank < (place waiting).rank)
    (.inr (hnone waiting)) (fun row hrow _ => ?_) fun row _ _ _ => .inr (hsome row waiting)
  cases waiting with
  | none => exact .inr (hwait row)
  | some old =>
    obtain rfl : old = row := Option.some.inj hrow
    exact .inl rfl

theorem next_rank (s : Store) (i : ℕ) (tx : Tx) :
    s.next i tx = tx ∨ (s.next i tx).rank < tx.rank := by
  cases tx with
  | setSender l a =>
    rw [Store.next, Store.lockActiveAccount]
    split
    · exact .inl rfl
    split
    · exact .inr (by simp [Tx.rank])
    · split <;> exact .inr (by simp [Tx.rank])
  | setLocked l a waiting =>
    refine lockedMapping_rank (Tx.setLocked l a) s i l (fun waiting => ?_) (fun row waiting => ?_)
      (fun row => ?_) waiting
    · cases waiting <;> simp [Tx.rank]
    · cases waiting <;> simp [Tx.rank]
    · simp [Tx.rank]
  | setConflict l a waiting =>
    refine lockedMapping_rank (Tx.setConflict l a) s i l (fun waiting => ?_)
      (fun row waiting => ?_) (fun row => ?_) waiting
    · cases waiting <;> simp [Tx.rank]
    · cases waiting <;> simp [Tx.rank]
    · simp [Tx.rank]
  | clearSender l waiting =>
    refine lockedMapping_rank (Tx.clearSender l) s i l (fun waiting => ?_)
      (fun row waiting => ?_) (fun row => ?_) waiting
    · cases waiting <;> simp [Tx.rank]
    · cases waiting <;> simp [Tx.rank]
    · simp [Tx.rank]
  | setUnmapped l a =>
    rw [Store.next]
    split
    · exact .inr (by simp [Tx.rank])
    · split
      · exact .inr (by simp [Tx.rank])
      · exact .inl rfl
  | disconnect k =>
    rw [Store.next]
    split
    · exact .inr (by simp [Tx.rank])
    · split
      · exact .inr (by simp [Tx.rank])
      · exact .inl rfl
  | disconnectLocked a =>
    rw [Store.next]
    split
    · exact .inr (by simp [Tx.rank])
    · split <;> exact .inr (by simp [Tx.rank])
  | activate k =>
    rw [Store.next]
    split <;> exact .inr (by simp [Tx.rank])
  | setCreated l a => exact .inl rfl
  | setMapped l a row => exact .inl rfl
  | clearMapped l row => exact .inl rfl
  | disconnectUnused a => exact .inl rfl
  | activateCalling a => exact .inl rfl
  | activateAnswered a failed => exact .inl rfl
  | done result => exact .inl rfl

theorem commit_rank {db db' : Database} {now : Time} (hc : db.commit now tx = some db') :
    0 < tx.rank := by
  cases tx with
  | setLocked l a waiting => cases hc
  | setConflict l a waiting => cases hc
  | clearSender l waiting => cases hc
  | done result => cases hc
  | _ => exact Nat.succ_pos _

theorem step_work (hchoice : choice.Proceeds) (h : s.step choice ≠ s) :
    (s.step choice).work < s.work := by
  generalize hs' : s.step choice = s' at h ⊢
  cases step_cases hs' with
  | @advance i tx hi =>
    rcases next_rank s i tx with hsame | hlt
    · obtain ⟨hlt, rfl⟩ := List.getElem?_eq_some_iff.mp hi
      rw [hsame, List.set_getElem_self] at h
      exact absurd rfl h
    · exact sum_map_set_lt hi hlt
  | commit hi hc => exact sum_map_set_lt hi (commit_rank hc)
  | nothing => exact absurd rfl h
  | setLocationSender => cases hchoice
  | clearLocationSender => cases hchoice
  | disconnectOwnNumber => cases hchoice
  | activateOwnNumber => cases hchoice
  | answer => cases hchoice
  | rollback => cases hchoice
  | addAccount => cases hchoice

end Progress

end ReviewFlow.Senders
