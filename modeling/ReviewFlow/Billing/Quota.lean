import ReviewFlow.RowLocks
import ReviewFlow.Billing.Threads
import ReviewFlow.Billing.Usage

/-!
# Quota reservations under row locks

Here a transaction takes its locks one by one, as PostgreSQL does at READ COMMITTED.
A transition locks the subscription row, then the usage record of the row's period,
and commits. A reservation reads the row without a lock, locks the usage record of the
period it read, and looks at the row again. What a transition writes is what its whole
program writes, run on the row that it has locked; the locks it takes later only delay
it, and are left out.
-/

namespace ReviewFlow.Billing

open Savepoint Interleaving RowLocks

inductive ReservationResult where
  | reserved
  | quotaExhausted
  | notEntitled
  deriving DecidableEq

def entitledNow (sub : Subscription) (now : Time) : Bool :=
  decide (sub.status = .active) && sub.currentPeriodEnd.any fun stop => decide (now < stop)

def Subscription.period? (sub : Subscription) : Option Period :=
  sub.currentPeriodStart.bind fun start => sub.currentPeriodEnd.map fun stop => (start, stop)

def Database.period? (db : Database) : Option Period := db.sub?.bind Subscription.period?

/-- The first part of `reserve_quota_unit`: the period whose record it locks next. -/
def reserveRead (row : Option Subscription) (now : Time) : Option Period :=
  (row.filter (entitledNow · now)).bind Subscription.period?

/-- The second part of `reserve_quota_unit`, under the lock of the record. -/
def reserveRecheck (sub : Subscription) (now : Time) (p : Period) (used : ℕ) : ReservationResult :=
  if ¬ entitledNow sub now = true ∨ sub.period? ≠ some p then .notEntitled
  else if sub.plan.quotaRequests ≤ used then .quotaExhausted
  else .reserved

/-- `update(requests_used=F("requests_used") + 1)`. -/
def incremented (usage : List UsageRecord) (p : Period) : List UsageRecord :=
  usage.map fun u => if u.period = p then { u with requestsUsed := u.requestsUsed + 1 } else u

/-- The tasks whose transaction begins with `_lock_subscription`. -/
def Task.locks : Task → Bool
  | .replacementApply _ _ _ _ | .commitFirst | .commitSecond _ _ | .reissueConfirm _
  | .mainApply _ _ _ _ | .retiredClear _ | .dunning => true
  | _ => false

/-- A step of a task, with what was answered to it before, or a whole request. -/
inductive Operation where
  | task (task : Task) (journal : Journal) (sound : task.Sound journal.calls)
  | request (request : OwnerRequest)

/-- An update without `_lock_subscription` locks the row it changes. -/
def Operation.locksRow : Operation → Bool
  | .task (.owedStore _ _) _ _ => true
  | .task t _ _ => t.locks
  | .request _ => true

def Operation.locksUsage : Operation → Bool
  | .task t _ _ => t.locks
  | .request _ => true

def Operation.run (op : Operation) (db : Database) (env : Env) : Database :=
  match op with
  | .task t journal _ => (t.step.run env ⟨db, journal⟩).2.data
  | .request owner => (owner.run db env).2.data

inductive Lock where
  | subscription
  | usage (p : Period)

inductive Tx where
  | opened (op : Operation)
  | rowLocked (op : Operation)
  | ready (op : Operation) (usage : Option Period)
  | reserving
  | waiting (p : Period)
  | locked (p : Period) (used : ℕ)
  | returned (held : Option Period) (result : ReservationResult)
  | closed

def Tx.holds : Tx → Lock → Bool
  | .rowLocked _, .subscription => true
  | .ready op _, .subscription => op.locksRow
  | .ready _ usage, .usage p => decide (usage = some p)
  | .locked q _, .usage p => decide (q = p)
  | .returned held _, .usage p => decide (held = some p)
  | _, _ => false

structure Store where
  db : Database
  txs : List Tx

inductive StoreChoice where
  | begin (op : Operation)
  | reserve
  | advance (i : ℕ) (now : Time)
  | commit (i : ℕ) (env : Env)
  | rollback (i : ℕ)

def Store.free (s : Store) (i : ℕ) (lock : Lock) : Bool := RowLocks.free Tx.holds s.txs i lock

def Store.record (s : Store) (p : Period) : Option UsageRecord :=
  s.db.usage.find? fun u => decide (u.period = p)

def Store.next (s : Store) (i : ℕ) (now : Time) : Tx → Tx
  | .opened op =>
    if op.locksRow = false then .ready op none
    else if s.free i .subscription = true then .rowLocked op
    else .opened op
  | .rowLocked op =>
    if op.locksUsage = false then .ready op none
    else match s.db.period?.bind s.record with
      | none => .ready op none
      | some u => if s.free i (.usage u.period) = true then .ready op (some u.period)
      else .rowLocked op
  | .reserving => match reserveRead s.db.sub? now with
    | none => .returned none .notEntitled
    | some p => .waiting p
  | .waiting p => match s.record p with
    | none => .returned none .notEntitled
    | some u => if s.free i (.usage p) = true then .locked p u.requestsUsed else .waiting p
  | .locked p used => match s.db.sub? with
    | none => .closed
    | some sub => .returned (some p) (reserveRecheck sub now p used)
  | tx => tx

def Tx.committed (tx : Tx) (db : Database) (env : Env) : Option Database :=
  match tx with
  | .ready op _ => some (op.run db env)
  | .returned (some p) .reserved => some { db with usage := incremented db.usage p }
  | .returned _ _ => some db
  | _ => none

def Store.step (s : Store) : StoreChoice → Store
  | .begin op => { s with txs := s.txs ++ [.opened op] }
  | .reserve => { s with txs := s.txs ++ [.reserving] }
  | .advance i now => match s.txs[i]? with
    | some tx => { s with txs := s.txs.set i (s.next i now tx) }
    | none => s
  | .commit i env => match s.txs[i]?.bind fun tx => tx.committed s.db env with
    | some db => ⟨db, s.txs.set i .closed⟩
    | none => s
  | .rollback i => { s with txs := s.txs.set i .closed }

abbrev StoreTransition := Interleaving.Transition Store StoreChoice

def storeRun (db : Database) (choices : List StoreChoice) : List StoreTransition :=
  trace Store.step ⟨db, []⟩ choices

def StoreTransition.reserves (t : StoreTransition) (p : Period) : Bool :=
  match t.label with
  | .commit i _ => match t.before.txs[i]? with
    | some (.returned (some q) .reserved) => decide (q = p)
    | _ => false
  | _ => false

def reservedOn (ts : List StoreTransition) (p : Period) : ℕ :=
  ts.countP (StoreTransition.reserves · p)

def Database.At (db : Database) (p : Period) : Prop :=
  ∃ sub, db.sub? = some sub ∧ sub.status = .active ∧ sub.period? = some p

/-- The second look of a call that returns RESERVED: the stored row and the stored record at
that instant entitle it. -/
def StoreTransition.Entitles (t : StoreTransition) (i : ℕ) (p : Period) : Prop :=
  ∃ now sub, t.label = .advance i now ∧ t.before.db.sub? = some sub ∧ sub.status = .active ∧
    sub.period? = some p ∧ now < p.2 ∧ ∃ u ∈ t.before.db.usage, u.period = p ∧
      u.requestsUsed < sub.plan.quotaRequests

/-- The transaction at `i` looked twice, and the row has been ACTIVE on the period since. -/
def Justified (h : List StoreTransition) (i : ℕ) (p : Period) : Prop :=
  ∃ before look after, h = before ++ look :: after ∧ StoreTransition.Entitles look i p ∧
    ∀ t ∈ look :: after, t.after.db.At p

section Operations

variable {db : Database} {env : Env} {op : Operation} {p : Period}

theorem Operation.locksRow_of (h : op.locksUsage = true) : op.locksRow = true := by
  cases op with
  | request owner => rfl
  | task t journal sound => cases t <;> first | rfl | exact h

theorem Operation.task_post (db : Database) (env : Env) (t : Task) (journal : Journal)
    (sound : t.Sound journal.calls) :
    (∃ next u, t.Post env ⟨db, journal⟩ next u ∧ journal ≤ u.journal ∧
      (Operation.task t journal sound).run db env = u.data) ∨
      (Operation.task t journal sound).run db env = db := by
  have hgrows := t.step.grows env ⟨db, journal⟩
  have hrun : (Operation.task t journal sound).run db env = (t.step.run env ⟨db, journal⟩).2.data :=
    rfl
  rw [hrun]
  rcases hr : t.step.run env ⟨db, journal⟩ with ⟨r, u⟩
  rw [hr] at hgrows
  cases r with
  | ok next => exact Or.inl ⟨next, u, Program.wp_ok (Task.step_spec t) hr, hgrows, rfl⟩
  | error e => exact Or.inr (Program.wp_error (Task.step_spec t) hr)

theorem Operation.extends (op : Operation) (db : Database) (env : Env) :
    Extends db.usage (op.run db env).usage := by
  cases op with
  | request owner => exact (owner.run_spec db env).extends
  | task t journal sound =>
    rcases Operation.task_post db env t journal sound with ⟨next, u, hp, hg, hu⟩ | hu
    · rw [hu]
      exact (hp.tended sound hg).extends
    · rw [hu]
      exact .refl _

theorem Operation.unlocked (db : Database) (env : Env) (h : op.locksRow = false) :
    (op.run db env).sub? = db.sub? ∧ (op.run db env).usage = db.usage := by
  cases op with
  | request owner => cases h
  | task t journal sound =>
    rcases Operation.task_post db env t journal sound with ⟨next, u, hp, hg, hu⟩ | hu
    · rw [hu]
      have same : ∀ {P : Prop}, u.data = db ∧ P → u.data.sub? = db.sub? ∧ u.data.usage = db.usage :=
        fun h => by rw [h.1]; exact ⟨rfl, rfl⟩
      cases t with
      | webhookInsert ref eventId eventType => exact ⟨hp.2.toInbox.sub?, hp.2.usage⟩
      | replacementApply | commitFirst | commitSecond | reissueConfirm | mainApply | retiredClear
      | dunning | owedStore => cases h
      | _ => exact same hp
    · rw [hu]
      exact ⟨rfl, rfl⟩

theorem Database.At.of_sub? {db' : Database} (h : db.At p)
    (hs : db'.sub? = db.sub?) : db'.At p := by
  obtain ⟨sub, hsub, hat⟩ := h
  exact ⟨sub, hs.trans hsub, hat⟩

theorem Operation.keepsAt (h : op.locksUsage = false) (hat : db.At p) : (op.run db env).At p := by
  cases hrow : op.locksRow with
  | false => exact hat.of_sub? (Operation.unlocked db env hrow).1
  | true =>
    cases op with
    | request owner => cases h
    | task t journal sound =>
      rcases Operation.task_post db env t journal sound with ⟨next, u, hp, -, hu⟩ | hu
      · rw [hu]
        cases t with
        | owedStore ref status =>
          obtain ⟨-, same | ⟨sub, status, done⟩⟩ := hp
          · exact same ▸ hat
          · obtain ⟨x, hx, hactive, hperiod⟩ := hat
            rw [done.before] at hx
            cases hx
            exact ⟨_, done.after, hactive, hperiod⟩
        | replacementApply | commitFirst | commitSecond | reissueConfirm | mainApply | retiredClear
        | dunning => cases h
        | _ => cases hrow
      · rw [hu]
        exact hat

end Operations

section Increment

variable {usage : List UsageRecord} {p q : Period}

theorem mem_incremented {u : UsageRecord} (h : u ∈ incremented usage p) :
    ∃ v ∈ usage, v.period = u.period ∧ (u.period ≠ p → u = v) := by
  obtain ⟨v, hv, rfl⟩ := List.mem_map.mp h
  refine ⟨v, hv, ?_, fun hne => ?_⟩
  · split <;> rfl
  · split at hne
    · exact absurd ‹v.period = p› hne
    · rw [if_neg ‹_›]

theorem mem_incremented_of {u : UsageRecord} (h : u ∈ usage) :
    ∃ v ∈ incremented usage p, v.period = u.period ∧ u.requestsUsed ≤ v.requestsUsed ∧
      (u.period ≠ p → v = u) := by
  refine ⟨_, List.mem_map_of_mem h, ?_, ?_, fun hne => if_neg hne⟩
  · split <;> rfl
  · split
    · exact Nat.le_succ _
    · exact le_rfl

theorem incremented_unique (h : UniquePeriods usage) : UniquePeriods (incremented usage p) := by
  have : (incremented usage p).map UsageRecord.period = usage.map UsageRecord.period := by
    rw [incremented, List.map_map]
    refine List.map_congr_left fun u _ => ?_
    dsimp only [Function.comp]
    split <;> rfl
  rwa [UniquePeriods, this]

theorem find?_incremented : (incremented usage p).find? (fun u => decide (u.period = q)) =
    (usage.find? fun u => decide (u.period = q)).map fun u =>
      if u.period = p then { u with requestsUsed := u.requestsUsed + 1 } else u := by
  have hcomp : ((fun u : UsageRecord => decide (u.period = q)) ∘ fun u =>
      if u.period = p then { u with requestsUsed := u.requestsUsed + 1 } else u) =
      fun u => decide (u.period = q) := by
    funext u
    dsimp only [Function.comp]
    split <;> rfl
  unfold incremented
  rw [List.find?_map, hcomp]

theorem usedOn_incremented (h : ∃ u ∈ usage, u.period = p) :
    usedOn (incremented usage p) q = usedOn usage q + if p = q then 1 else 0 := by
  unfold usedOn
  rw [find?_incremented]
  cases hf : usage.find? fun u => decide (u.period = q) with
  | none =>
    obtain ⟨u, hu, rfl⟩ := h
    rw [if_neg fun he => List.find?_eq_none.mp hf u hu (decide_eq_true he)]
    rfl
  | some v =>
    have hv := List.find?_some hf
    replace hv := of_decide_eq_true hv
    simp only [Option.map_some, Option.getD_some]
    rw [← hv]
    by_cases hp : v.period = p
    · rw [if_pos hp, if_pos hp.symm]
    · rw [if_neg hp, if_neg (Ne.symm hp), Nat.add_zero]

end Increment

def Tx.Sound (db : Database) (h : List StoreTransition) (i : ℕ) : Tx → Prop
  | .ready op held => op.locksUsage = true → ∀ u ∈ db.usage, db.period? = some u.period →
      held = some u.period
  | .locked p used => ∃ u ∈ db.usage, u.period = p ∧ u.requestsUsed = used
  | .returned (some p) .reserved => (∃ u ∈ db.usage, u.period = p) ∧ db.At p ∧ Justified h i p
  | _ => True

structure Store.Safe (base : List UsageRecord) (h : List StoreTransition) (s : Store) : Prop where
  exclusive : Exclusive Tx.holds s.txs
  unique : UniquePeriods s.db.usage
  used : ∀ p, usedOn s.db.usage p = usedOn base p + reservedOn h p
  sound : ∀ (i : ℕ) (tx : Tx), s.txs[i]? = some tx → tx.Sound s.db h i

section Steps

variable {base : List UsageRecord} {h : List StoreTransition} {s : Store} {i : ℕ} {p : Period}

theorem Justified.snoc {t : StoreTransition} (hj : Justified h i p) (hat : t.after.db.At p) :
    Justified (h ++ [t]) i p := by
  obtain ⟨before, look, after, rfl, hlook, hafter⟩ := hj
  refine ⟨before, look, after ++ [t], by simp, hlook, fun u hu => ?_⟩
  rw [← List.cons_append, List.mem_append] at hu
  rcases hu with hu | hu
  · exact hafter u hu
  · obtain rfl := List.mem_singleton.mp hu
    exact hat

theorem Tx.Sound.snoc {db : Database} {tx : Tx} {t : StoreTransition} (hs : tx.Sound db h i)
    (ht : t.after.db = db) : tx.Sound db (h ++ [t]) i := by
  unfold Tx.Sound at *
  split at hs
  · exact hs
  · exact hs
  · exact ⟨hs.1, hs.2.1, hs.2.2.snoc (ht ▸ hs.2.1)⟩
  · trivial

theorem reservedOn_snoc {t : StoreTransition} :
    reservedOn (h ++ [t]) p = reservedOn h p + if t.reserves p = true then 1 else 0 := by
  rw [reservedOn, List.countP_append, List.countP_singleton, reservedOn]

theorem Store.Safe.idle {s' : Store} {t : StoreTransition} (hs : s.Safe base h)
    (hdb : s'.db = s.db) (ht : t.after.db = s.db) (hno : ∀ p, t.reserves p = false)
    (hexclusive : Exclusive Tx.holds s'.txs)
    (htxs : ∀ (j : ℕ) (tx : Tx), s'.txs[j]? = some tx →
      s.txs[j]? = some tx ∨ tx.Sound s.db (h ++ [t]) j) : s'.Safe base (h ++ [t]) := by
  refine ⟨hexclusive, hdb ▸ hs.unique, fun p => ?_, fun j tx hj => ?_⟩
  · rw [hdb, reservedOn_snoc, hno p, hs.used p]
    rfl
  · rw [hdb]
    exact (htxs j tx hj).elim (fun hold => (hs.sound j tx hold).snoc ht) id

theorem Store.next_holds {now : Time} {tx : Tx} {k : Lock} (hk : (s.next i now tx).holds k = true) :
    tx.holds k = true ∨ s.free i k = true := by
  unfold Store.next at hk
  split at hk
  · split at hk
    · cases k <;> simp_all [Tx.holds]
    · split at hk
      · cases k with
        | subscription => exact Or.inr ‹_›
        | usage q => cases hk
      · exact Or.inl hk
  · split at hk
    · cases k <;> simp_all [Tx.holds]
    · split at hk
      · cases k <;> simp_all [Tx.holds]
      · split at hk
        · cases k with
          | subscription => exact Or.inl rfl
          | usage q =>
            obtain rfl := Option.some.inj (of_decide_eq_true hk)
            exact Or.inr ‹_›
        · exact Or.inl hk
  · split at hk <;> cases k <;> simp_all [Tx.holds]
  · split at hk
    · cases k <;> simp_all [Tx.holds]
    · split at hk
      · cases k with
        | subscription => cases hk
        | usage q =>
          obtain rfl := of_decide_eq_true hk
          exact Or.inr ‹_›
      · exact Or.inl hk
  · split at hk
    · cases k <;> cases hk
    · cases k with
      | subscription => cases hk
      | usage q => exact Or.inl (decide_eq_true (Option.some.inj (of_decide_eq_true hk)))
  · exact Or.inl hk

theorem Store.record_some {u : UsageRecord} (hr : s.record p = some u) :
    u ∈ s.db.usage ∧ u.period = p := by
  have hp := List.find?_some hr
  exact ⟨List.mem_of_find?_eq_some hr, of_decide_eq_true hp⟩

theorem Store.record_isSome {u : UsageRecord} (hu : u ∈ s.db.usage) : s.record u.period ≠ none :=
  fun hn => List.find?_eq_none.mp hn u hu (decide_eq_true rfl)

theorem reserveRecheck_reserved {sub : Subscription} {now : Time} {used : ℕ}
    (hr : reserveRecheck sub now p used = .reserved) :
    sub.status = .active ∧ sub.period? = some p ∧ now < p.2 ∧ used < sub.plan.quotaRequests := by
  unfold reserveRecheck at hr
  split at hr
  · cases hr
  · rename_i hok
    rw [not_or, not_not, not_not] at hok
    obtain ⟨hentitled, hperiod⟩ := hok
    split at hr
    · cases hr
    · rename_i hquota
      rw [entitledNow, Bool.and_eq_true, decide_eq_true_eq] at hentitled
      obtain ⟨hactive, hnow⟩ := hentitled
      refine ⟨hactive, hperiod, ?_, by omega⟩
      obtain ⟨start, -, hbounds⟩ := Option.bind_eq_some_iff.mp hperiod
      obtain ⟨stop, hstop, rfl⟩ := Option.map_eq_some_iff.mp hbounds
      rw [hstop] at hnow
      exact of_decide_eq_true hnow

theorem Store.next_sound {now : Time} {tx : Tx} (hs : tx.Sound s.db h i)
    (hi : s.txs[i]? = some tx) :
    (s.next i now tx).Sound s.db (h ++ [transition Store.step s (.advance i now)]) i := by
  have hafter : (transition Store.step s (.advance i now)).after.db = s.db := by
    simp only [transition, Store.step, hi]
  unfold Store.next
  split
  · split
    · rename_i op hrow
      intro husage
      rw [Operation.locksRow_of husage] at hrow
      cases hrow
    · split <;> trivial
  · split
    · rename_i op husage'
      intro husage
      rw [husage] at husage'
      cases husage'
    · split
      · rename_i hnone
        intro _ u hu hperiod
        rw [hperiod] at hnone
        exact absurd hnone (Store.record_isSome hu)
      · rename_i v hsome
        split
        · intro _ u hu hperiod
          rw [hperiod] at hsome
          rw [(Store.record_some hsome).2]
        · trivial
  · split <;> trivial
  · split
    · trivial
    · rename_i u hrecord
      split
      · exact ⟨u, (Store.record_some hrecord).1, (Store.record_some hrecord).2, rfl⟩
      · trivial
  · rename_i p used
    obtain ⟨u, hu, hup, hused⟩ := hs
    split
    · trivial
    · rename_i sub hsub
      cases hr : reserveRecheck sub now p used with
      | quotaExhausted => trivial
      | notEntitled => trivial
      | reserved =>
        obtain ⟨hactive, hperiod, hnow, hquota⟩ := reserveRecheck_reserved hr
        have hat : s.db.At p := ⟨sub, hsub, hactive, hperiod⟩
        refine ⟨⟨u, hu, hup⟩, hat, h, _, [], rfl,
          ⟨now, sub, rfl, hsub, hactive, hperiod, hnow, u, hu,
          hup, hused ▸ hquota⟩, ?_⟩
        intro t ht
        obtain rfl := List.mem_singleton.mp ht
        rwa [hafter]
  · exact hs.snoc hafter

theorem Tx.Sound.of_periods {db db' : Database} {op : Operation} {held : Option Period}
    (hs : (Tx.ready op held).Sound db h i) (hsub : db'.sub? = db.sub?)
    (hu : ∀ u ∈ db'.usage, ∃ v ∈ db.usage, v.period = u.period) (h' : List StoreTransition) :
    (Tx.ready op held).Sound db' h' i := by
  intro husage u huu hperiod
  obtain ⟨v, hv, hvp⟩ := hu u huu
  rw [← hvp]
  refine hs husage v hv ?_
  rw [hvp, ← hperiod, Database.period?, Database.period?, hsub]

theorem Tx.closed_holds (k : Lock) : Tx.closed.holds k = false := by
  cases k <;> rfl

theorem Store.Safe.closed {tx : Tx} (hs : s.Safe base h) (hi : s.txs[i]? = some tx) :
    Exclusive Tx.holds (s.txs.set i .closed) :=
  hs.exclusive.set hi fun k hk => by simp [Tx.closed_holds] at hk

/-- A transition commits. Every other transaction that has locked a record the row is leaving,
or has looked at the row twice, holds a lock that the transition needs. -/
theorem Store.Safe.commit_operation {op : Operation} {held : Option Period} {env : Env}
    (hs : s.Safe base h) (hi : s.txs[i]? = some (.ready op held)) :
    (⟨op.run s.db env, s.txs.set i .closed⟩ : Store).Safe base
      (h ++ [⟨s, .commit i env, ⟨op.run s.db env, s.txs.set i .closed⟩⟩]) := by
  have hext := op.extends s.db env
  refine ⟨hs.closed hi, hext.unique hs.unique, ?_, ?_⟩
  · intro p
    rw [hext.usedOn p, reservedOn_snoc, hs.used p]
    simp [StoreTransition.reserves, hi]
  · intro j tx hj
    rcases getElem?_set_cases hj with ⟨rfl, rfl⟩ | ⟨hji, hj⟩
    · trivial
    have htx := hs.sound j tx hj
    -- two transactions with one lock are the same
    have apart : ∀ k, tx.holds k = true → ¬ (Tx.ready op held).holds k = true := fun k hk hk' =>
      hji (hs.exclusive j i tx _ k hj hi hk hk')
    cases tx with
    | ready op' held' =>
      intro husage
      have hrow : op.locksRow = false := by
        have := apart .subscription (Operation.locksRow_of husage)
        simpa [Tx.holds] using this
      obtain ⟨hsub, hsame⟩ := Operation.unlocked s.db env hrow
      exact Tx.Sound.of_periods htx hsub (fun u hu => ⟨u, hsame ▸ hu, rfl⟩)
        (h ++ [⟨s, .commit i env, ⟨op.run s.db env, s.txs.set i .closed⟩⟩]) husage
    | locked q used =>
      obtain ⟨u, hu, hup⟩ := htx
      exact ⟨u, hext.mem hu, hup⟩
    | returned key result =>
      cases key with
      | none => trivial
      | some q =>
        cases result with
        | quotaExhausted => trivial
        | notEntitled => trivial
        | reserved =>
          obtain ⟨⟨u, hu, hup⟩, hat, hj⟩ := htx
          have hat' : (op.run s.db env).At q := by
            cases husage : op.locksUsage with
            | false => exact Operation.keepsAt husage hat
            | true =>
              obtain ⟨sub, hsub, -, hperiod⟩ := hat
              have hheld := hs.sound i _ hi husage u hu (by
                rw [Database.period?, hsub, hup]
                exact hperiod)
              refine absurd ?_ (apart (.usage q) (decide_eq_true rfl))
              rw [hheld, hup]
              exact decide_eq_true rfl
          exact ⟨⟨u, hext.mem hu, hup⟩, hat', hj.snoc hat'⟩
    | _ => trivial

theorem Store.Safe.commit_reserved {q : Period} {env : Env} (hs : s.Safe base h)
    (hi : s.txs[i]? = some (.returned (some q) .reserved)) :
    (⟨{ s.db with usage := incremented s.db.usage q }, s.txs.set i .closed⟩ : Store).Safe base
      (h ++ [⟨s, .commit i env, ⟨{ s.db with usage := incremented s.db.usage q },
        s.txs.set i .closed⟩⟩]) := by
  refine ⟨hs.closed hi, incremented_unique hs.unique,
    ?_, ?_⟩
  · intro p
    rw [usedOn_incremented (hs.sound i _ hi).1, reservedOn_snoc, hs.used p, Nat.add_assoc]
    simp [StoreTransition.reserves, hi]
  · intro j tx hj
    rcases getElem?_set_cases hj with ⟨rfl, rfl⟩ | ⟨hji, hj⟩
    · trivial
    have htx := hs.sound j tx hj
    cases tx with
    | ready op held =>
      refine Tx.Sound.of_periods htx ?_ (fun u hu => ?_) _
      · rfl
      · obtain ⟨v, hv, hvp, -⟩ := mem_incremented hu
        exact ⟨v, hv, hvp⟩
    | locked p used =>
      obtain ⟨u, hu, hup, hused⟩ := htx
      have hne : u.period ≠ q := fun he => hji (hs.exclusive j i _ _ (.usage q) hj hi
        (decide_eq_true (hup.symm.trans he)) (decide_eq_true rfl))
      obtain ⟨v, hv, -, -, heq⟩ := mem_incremented_of (p := q) hu
      rw [heq hne] at hv
      exact ⟨u, hv, hup, hused⟩
    | returned key result =>
      cases key with
      | none => trivial
      | some p =>
        cases result with
        | quotaExhausted => trivial
        | notEntitled => trivial
        | reserved =>
          obtain ⟨⟨u, hu, hup⟩, hat, hj⟩ := htx
          obtain ⟨v, hv, hvp, -⟩ := mem_incremented_of (p := q) hu
          have hat' : Database.At { s.db with usage := incremented s.db.usage q } p :=
            hat.of_sub? rfl
          exact ⟨⟨v, hv, hvp.trans hup⟩, hat', hj.snoc hat'⟩
    | _ => trivial

theorem Tx.committed_cases {tx : Tx} {db db' : Database} {env : Env}
    (hc : tx.committed db env = some db') :
    (∃ op held, tx = .ready op held ∧ db' = op.run db env) ∨
      (∃ q, tx = .returned (some q) .reserved ∧
        db' = { db with usage := incremented db.usage q }) ∨
      (db' = db ∧ ∀ q, tx ≠ .returned (some q) .reserved) := by
  unfold Tx.committed at hc
  split at hc
  · exact Or.inl ⟨_, _, rfl, (Option.some.inj hc).symm⟩
  · exact Or.inr (Or.inl ⟨_, rfl, (Option.some.inj hc).symm⟩)
  · rename_i hne
    refine Or.inr (Or.inr ⟨(Option.some.inj hc).symm, fun q he => ?_⟩)
    cases he
    exact hne q rfl rfl
  · cases hc

theorem Store.Safe.moves {tx : Tx} {c : StoreChoice} (hs : s.Safe base h)
    (hstep : s.step c = { s with txs := s.txs.set i tx })
    (hno : ∀ p, StoreTransition.reserves (transition Store.step s c) p = false)
    (hexclusive : Exclusive Tx.holds (s.txs.set i tx))
    (htx : tx.Sound s.db (h ++ [transition Store.step s c]) i) :
    (s.step c).Safe base (h ++ [transition Store.step s c]) := by
  refine hs.idle (by rw [hstep]) (by rw [transition, hstep]) hno (by rwa [hstep]) fun j tx' hj => ?_
  rw [hstep] at hj
  rcases getElem?_set_cases hj with ⟨rfl, rfl⟩ | ⟨-, hj⟩
  · exact Or.inr htx
  · exact Or.inl hj

theorem Store.Safe.stays {c : StoreChoice} (hs : s.Safe base h) (hstep : s.step c = s)
    (hno : ∀ p, StoreTransition.reserves (transition Store.step s c) p = false) :
    (s.step c).Safe base (h ++ [transition Store.step s c]) := by
  refine hs.idle (by rw [hstep]) (by rw [transition, hstep]) hno (by rw [hstep]; exact hs.exclusive)
    fun j tx hj => Or.inl ?_
  rwa [hstep] at hj

theorem Store.Safe.begins {tx : Tx} {c : StoreChoice} (hs : s.Safe base h)
    (hstep : s.step c = { s with txs := s.txs ++ [tx] })
    (hno : ∀ p, StoreTransition.reserves (transition Store.step s c) p = false)
    (hfree : ∀ k, tx.holds k = false) (htx : ∀ h i, tx.Sound s.db h i) :
    (s.step c).Safe base (h ++ [transition Store.step s c]) := by
  refine hs.idle (by rw [hstep]) (by rw [transition, hstep]) hno ?_ fun j tx' hj => ?_
  · rw [hstep]
    exact hs.exclusive.append hfree
  · rw [hstep] at hj
    rcases getElem?_append_singleton hj with hj | rfl
    · exact Or.inl hj
    · exact Or.inr (htx _ j)

theorem Store.Safe.commit {env : Env} (hs : s.Safe base h) :
    (s.step (.commit i env)).Safe base (h ++ [transition Store.step s (.commit i env)]) := by
  cases hc : s.txs[i]?.bind fun tx => tx.committed s.db env with
  | none =>
    refine hs.stays (by simp only [Store.step, hc]) fun p => ?_
    unfold StoreTransition.reserves
    dsimp only [transition]
    split
    · rename_i heq
      rw [heq] at hc
      cases hc
    · rfl
  | some db =>
    obtain ⟨tx, hi, hcommitted⟩ := Option.bind_eq_some_iff.mp hc
    have hstep : s.step (.commit i env) = ⟨db, s.txs.set i .closed⟩ := by
      simp only [Store.step, hc]
    rcases Tx.committed_cases hcommitted with ⟨op, held, rfl, rfl⟩ | ⟨q, rfl, rfl⟩ | ⟨rfl, hne⟩
    · rw [transition, hstep]
      exact hs.commit_operation hi
    · rw [transition, hstep]
      exact hs.commit_reserved hi
    · refine hs.moves hstep (fun p => ?_) (hs.closed hi) trivial
      unfold StoreTransition.reserves
      dsimp only [transition]
      split
      · rename_i heq
        rw [hi] at heq
        exact absurd (Option.some.inj heq) (hne _)
      · rfl

theorem Store.Safe.step (hs : s.Safe base h) (c : StoreChoice) :
    (s.step c).Safe base (h ++ [transition Store.step s c]) := by
  cases c with
  | begin op => exact hs.begins rfl (fun _ => rfl) (fun k => by cases k <;> rfl) fun _ _ => trivial
  | reserve => exact hs.begins rfl (fun _ => rfl) (fun k => by cases k <;> rfl) fun _ _ => trivial
  | commit i env => exact hs.commit
  | rollback i =>
    cases hi : s.txs[i]? with
    | none =>
      refine hs.stays ?_ fun _ => rfl
      rw [Store.step, List.set_eq_of_length_le (List.getElem?_eq_none_iff.mp hi)]
    | some tx => exact hs.moves rfl (fun _ => rfl) (hs.closed hi) trivial
  | advance i now =>
    cases hi : s.txs[i]? with
    | none => exact hs.stays (by simp only [Store.step, hi]) fun _ => rfl
    | some tx =>
      exact hs.moves (by simp only [Store.step, hi]) (fun _ => rfl)
        (hs.exclusive.set hi fun k hk => Store.next_holds hk)
          (Store.next_sound (hs.sound i tx hi) hi)

theorem Store.step_usage (s : Store) (c : StoreChoice) {u : UsageRecord} (hu : u ∈ s.db.usage) :
    ∃ v ∈ (s.step c).db.usage, v.period = u.period ∧ u.requestsUsed ≤ v.requestsUsed := by
  cases c with
  | commit i env =>
    cases hc : s.txs[i]?.bind fun tx => tx.committed s.db env with
    | none =>
      simp only [Store.step, hc]
      exact ⟨u, hu, rfl, le_rfl⟩
    | some db =>
      obtain ⟨tx, -, hcommitted⟩ := Option.bind_eq_some_iff.mp hc
      simp only [Store.step, hc]
      rcases Tx.committed_cases hcommitted with ⟨op, held, rfl, rfl⟩ | ⟨q, rfl, rfl⟩ | ⟨rfl, -⟩
      · exact ⟨u, (op.extends s.db env).mem hu, rfl, le_rfl⟩
      · obtain ⟨v, hv, hvp, hle, -⟩ := mem_incremented_of (p := q) hu
        exact ⟨v, hv, hvp, hle⟩
      · exact ⟨u, hu, rfl, le_rfl⟩
  | advance i now =>
    refine ⟨u, ?_, rfl, le_rfl⟩
    simp only [Store.step]
    split <;> exact hu
  | _ => exact ⟨u, hu, rfl, le_rfl⟩

end Steps

def StoreTransition.CommitsReservation (t : StoreTransition) (i : ℕ) (p : Period) : Prop :=
  ∃ env, t.label = .commit i env ∧ t.before.txs[i]? = some (.returned (some p) .reserved)

def StoreTransition.NeverDecreases (t : StoreTransition) : Prop :=
  ∀ u ∈ t.before.db.usage, ∃ v ∈ t.after.db.usage,
    v.period = u.period ∧ u.requestsUsed ≤ v.requestsUsed

/-- In every run the use of a record grows by exactly the committed reservations on it, it never
decreases, and a reservation that commits looked at a row and a record that entitled it, and
from that look to the commit the row stayed ACTIVE on that period. -/
theorem reservations_accounted (db : Database) (hunique : UniquePeriods db.usage)
    (choices : List StoreChoice) :
    (∀ u ∈ (run Store.step ⟨db, []⟩ choices).db.usage,
      u.requestsUsed = usedOn db.usage u.period + reservedOn (storeRun db choices) u.period) ∧
    (∀ t ∈ storeRun db choices, t.NeverDecreases) ∧
    Meets (fun h (t : StoreTransition) => ∀ i p, t.CommitsReservation i p → Justified h i p)
      (storeRun db choices) := by
  have hinit : Store.Safe db.usage [] ⟨db, []⟩ :=
    ⟨.nil, hunique, fun _ => rfl, fun i tx hi => by simp at hi⟩
  have hany : MeetsFrom (fun _ _ => True) [] (storeRun db choices) :=
    .of_forall (fun _ _ => trivial) []
  refine ⟨fun u hu => ?_, fun t ht u hu => ?_, ?_⟩
  · have hsafe : Store.Safe db.usage (storeRun db choices) (run Store.step ⟨db, []⟩ choices) :=
      trace_history hinit (fun h s c hs _ => hs.step c) hany
    rw [← hsafe.used, usedOn_eq hsafe.unique hu]
  · rw [trace_step ht]
    exact Store.step_usage t.before t.label hu
  · refine MeetsFrom.of_invariant hinit (fun h s c hs _ => ⟨hs.step c, ?_⟩) hany
    rintro i p ⟨env, -, hi⟩
    exact (hs.sound i _ hi).2.2

def activeRow : Database :=
  { rowless.withRow
      { plan := starter
        status := .active
        currentPeriodStart := some (seconds 1000)
        currentPeriodEnd := some (seconds 2000)
        paymentProviderRef := some refA } (by decide) with
    usage := [⟨seconds 1000, seconds 2000, 0⟩] }

def findsCancelled : Operation :=
  .task (.mainApply refA (seconds 1500) (entityA "cancelled" 1000 2000) none)
    ⟨[.subscription (.fetchSubscription refA) (.ok (entityA "cancelled" 1000 2000))], 1⟩
    ⟨List.mem_singleton.mpr rfl, by simp [Invoiced]⟩

/-- Two reservations and a cancellation: one reservation holds the record while the
cancellation waits for it, the other waits for the cancellation. -/
def reservationRace : List StoreChoice :=
  [.reserve, .reserve, .advance 0 (seconds 1500), .advance 1 (seconds 1500),
    .advance 0 (seconds 1500), .begin findsCancelled, .advance 2 (seconds 1500),
    .advance 2 (seconds 1500), .advance 0 (seconds 1501), .commit 0 (({} : Answers).at 1500),
    .advance 2 (seconds 1502), .advance 1 (seconds 1502), .commit 2 (({} : Answers).at 1500),
    .advance 1 (seconds 1503), .advance 1 (seconds 1503), .commit 1 (({} : Answers).at 1500)]

theorem reservations_accounted_race :
    ((run Store.step ⟨activeRow, []⟩ reservationRace).db.usage.map fun u => u.requestsUsed) =
    [1] := by
  have hused := (reservations_accounted activeRow (by decide) reservationRace).1
  have hperiod : ∀ u ∈ (run Store.step ⟨activeRow, []⟩ reservationRace).db.usage,
      u.period = (seconds 1000, seconds 2000) := by decide
  have hone : ∀ u ∈ (run Store.step ⟨activeRow, []⟩ reservationRace).db.usage,
      u.requestsUsed = 1 := by
    intro u hu
    rw [hused u hu, hperiod u hu]
    decide
  have hlen : (run Store.step ⟨activeRow, []⟩ reservationRace).db.usage.length = 1 := by decide
  obtain ⟨u, hu⟩ := List.length_eq_one_iff.mp hlen
  rw [hu, List.map_singleton, hone u (hu ▸ List.mem_singleton_self u)]

end ReviewFlow.Billing
