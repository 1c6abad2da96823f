import ReviewFlow.Billing.Quota

/-!
# The entitlement that is shown, and the reservation that enforces it

`get_entitlement` reads the row and its usage record once; `reserve_quota_unit` reads the row,
locks the record and reads the row again. With no other transaction in between they decide alike.
-/

namespace ReviewFlow.Billing

open Interleaving

structure Entitlement where
  status : Option Status
  plan : Option Plan
  periodStart : Option Time
  periodEnd : Option Time
  quotaRequests : Option ℕ
  requestsUsed : Option ℕ
  requestsRemaining : Option ℕ
  canSend : Bool

def Database.record (db : Database) (p : Period) : Option UsageRecord :=
  db.usage.find? fun u => decide (u.period = p)

def usageFor (db : Database) (sub : Subscription) : Option UsageRecord := sub.period?.bind db.record

/-- `get_entitlement`. A subtraction of naturals stops at zero, as `max(quota - used, 0)` does. -/
def getEntitlement (db : Database) (now : Time) : Entitlement :=
  match db.sub? with
  | none => ⟨none, none, none, none, none, none, none, false⟩
  | some sub =>
    let quota := sub.plan.quotaRequests
    let used := (usageFor db sub).map (·.requestsUsed)
    { status := some sub.status
      plan := some sub.plan
      periodStart := sub.currentPeriodStart
      periodEnd := sub.currentPeriodEnd
      quotaRequests := some quota
      requestsUsed := used
      requestsRemaining := used.map fun used => quota - used
      canSend := decide (sub.status = .active) && sub.currentPeriodEnd.any
        (fun stop => decide (now < stop)) &&
        used.any fun used => decide (used < quota) }

/-- `reserve_quota_unit` with no other transaction. -/
def reserveQuotaUnit (db : Database) (now : Time) : ReservationResult × Database :=
  match reserveRead db.sub? now with
  | none => (.notEntitled, db)
  | some p => match db.record p, db.sub? with
    | some u, some sub => match reserveRecheck sub now p u.requestsUsed with
      | .reserved => (.reserved, { db with usage := incremented db.usage p })
      | result => (result, db)
    | _, _ => (.notEntitled, db)

def reservations (db : Database) : List Time → List ReservationResult
  | [] => []
  | now :: nows => (reserveQuotaUnit db now).1 :: reservations (reserveQuotaUnit db now).2 nows

/-- What `can_send` asks beside the quota. -/
def Sendable (db : Database) (now : Time) : Prop :=
  ∃ sub, db.sub? = some sub ∧ entitledNow sub now = true ∧ (usageFor db sub).isSome = true

instance (db : Database) (now : Time) : Decidable (Sendable db now) :=
  decidable_of_iff (∃ sub ∈ db.sub?, entitledNow sub now = true ∧ (usageFor db sub).isSome = true)
    (by simp [Sendable])

section Reserve

variable {db : Database} {sub : Subscription} {now : Time} {p : Period} {u : UsageRecord}

theorem period?_of_record (h : usageFor db sub = some u) : sub.period? = some u.period := by
  obtain ⟨p, hp, hu⟩ := Option.bind_eq_some_iff.mp h
  have := List.find?_some hu
  rw [hp, of_decide_eq_true this]

theorem reserveQuotaUnit_of (hsub : db.sub? = some sub) :
    reserveQuotaUnit db now = match usageFor db sub with
      | none => (.notEntitled, db)
      | some u =>
        if entitledNow sub now = false then (.notEntitled, db)
        else if sub.plan.quotaRequests ≤ u.requestsUsed then (.quotaExhausted, db)
        else (.reserved, { db with usage := incremented db.usage u.period }) := by
  unfold reserveQuotaUnit reserveRead
  rw [hsub]
  cases hnow : entitledNow sub now with
  | false =>
    simp only [Option.filter_some, hnow, Bool.false_eq_true, if_false, Option.bind_none, if_true]
    split <;> rfl
  | true =>
    simp only [Option.filter_some, hnow, if_true, Option.bind_some, Bool.true_eq_false, if_false]
    cases hp : sub.period? with
    | none => simp [usageFor, hp]
    | some p =>
      cases hu : db.record p with
      | none => simp [usageFor, hp, hu]
      | some u =>
        have husage : usageFor db sub = some u := by simp [usageFor, hp, hu]
        have hperiod : p = u.period := Option.some.inj (hp.symm.trans (period?_of_record husage))
        have hrecheck : reserveRecheck sub now p u.requestsUsed =
            if sub.plan.quotaRequests ≤ u.requestsUsed then .quotaExhausted else .reserved := by
          unfold reserveRecheck
          rw [if_neg (by simp [hnow, hp])]
        simp only [hu, husage, hrecheck]
        by_cases hquota : sub.plan.quotaRequests ≤ u.requestsUsed
        · simp only [if_pos hquota]
        · simp only [if_neg hquota, hperiod]

theorem reserveQuotaUnit_none (hsub : db.sub? = none) :
    reserveQuotaUnit db now = (.notEntitled, db) := by
  unfold reserveQuotaUnit reserveRead
  rw [hsub]
  rfl

theorem usageFor_incremented (hu : usageFor db sub = some u) :
    usageFor { db with usage := incremented db.usage u.period } sub =
      some { u with requestsUsed := u.requestsUsed + 1 } := by
  have hp := period?_of_record hu
  unfold usageFor at hu ⊢
  rw [hp, Option.bind_some] at hu ⊢
  unfold Database.record at hu ⊢
  rw [find?_incremented, hu, Option.map_some, if_pos rfl]

theorem canSend_iff (hsub : db.sub? = some sub) : (getEntitlement db now).canSend = true ↔
    entitledNow sub now = true ∧ ∃ u, usageFor db sub = some u ∧
    u.requestsUsed < sub.plan.quotaRequests := by
  unfold getEntitlement entitledNow
  rw [hsub]
  cases hu : usageFor db sub with
  | none => simp [hu]
  | some u => simp [hu, and_assoc]

theorem requestsRemaining_eq (hsub : db.sub? = some sub) :
    (getEntitlement db now).requestsRemaining =
    (usageFor db sub).map fun u => sub.plan.quotaRequests - u.requestsUsed := by
  unfold getEntitlement
  rw [hsub]
  dsimp only
  rw [Option.map_map]
  rfl

theorem reserveQuotaUnit_cases (now : Time) (hsub : db.sub? = some sub) :
    (¬ (entitledNow sub now = true ∧ ∃ u, usageFor db sub = some u ∧
        u.requestsUsed < sub.plan.quotaRequests) ∧
      (reserveQuotaUnit db now).1 ≠ .reserved ∧ (reserveQuotaUnit db now).2 = db) ∨
      ∃ u, (entitledNow sub now = true ∧ usageFor db sub = some u ∧
        u.requestsUsed < sub.plan.quotaRequests) ∧ (reserveQuotaUnit db now).1 = .reserved ∧
        (reserveQuotaUnit db now).2 = { db with usage := incremented db.usage u.period } := by
  rw [reserveQuotaUnit_of hsub]
  cases hu : usageFor db sub with
  | none => simp
  | some u =>
    by_cases hnow : entitledNow sub now = false
    · simp [hnow]
    · by_cases hquota : sub.plan.quotaRequests ≤ u.requestsUsed
      · simp [hnow, hquota]
      · exact Or.inr ⟨u, ⟨by simpa using hnow, rfl, by omega⟩, by simp [hnow, hquota],
          by simp [hnow, hquota]⟩

theorem reserved_iff (hsub : db.sub? = some sub) : (reserveQuotaUnit db now).1 = .reserved ↔
    entitledNow sub now = true ∧ ∃ u, usageFor db sub = some u ∧
    u.requestsUsed < sub.plan.quotaRequests := by
  rcases reserveQuotaUnit_cases now hsub with ⟨hno, hne, -⟩ | ⟨u, ⟨hnow, hu, hquota⟩, hreserved, -⟩
  · exact iff_of_false hne hno
  · exact iff_of_true hreserved ⟨hnow, u, hu, hquota⟩

/-- The units that `get_entitlement` shows as left. -/
def unitsLeft (db : Database) : Option ℕ := (getEntitlement db 0).requestsRemaining

theorem requestsRemaining_eq_unitsLeft (db : Database) (now : Time) :
    (getEntitlement db now).requestsRemaining = unitsLeft db := by
  unfold unitsLeft
  cases hsub : db.sub? with
  | none => simp [getEntitlement, hsub]
  | some sub => rw [requestsRemaining_eq hsub, requestsRemaining_eq hsub]

theorem sendable_iff (hsub : db.sub? = some sub) :
    Sendable db now ↔ entitledNow sub now = true ∧ (usageFor db sub).isSome = true := by
  unfold Sendable
  simp [hsub]

/-- One call: a grant takes one of the units that are left, and any other call nothing. -/
theorem reserveQuotaUnit_step (db : Database) (now : Time) :
    (Sendable db now ∧ (reserveQuotaUnit db now).1 = .reserved ∧
      (∃ n, unitsLeft db = some (n + 1) ∧ unitsLeft (reserveQuotaUnit db now).2 = some n) ∧
      ∀ t, Sendable (reserveQuotaUnit db now).2 t ↔ Sendable db t) ∨
    ((¬ Sendable db now ∨ unitsLeft db = some 0) ∧ (reserveQuotaUnit db now).1 ≠ .reserved ∧
      (reserveQuotaUnit db now).2 = db) := by
  cases hsub : db.sub? with
  | none => simp [Sendable, hsub, reserveQuotaUnit_none hsub]
  | some sub =>
    rcases reserveQuotaUnit_cases now hsub with
      ⟨hno, hresult, hdb⟩ | ⟨u, ⟨hnow, hu, hquota⟩, hresult, hdb⟩
    · refine Or.inr ⟨?_, hresult, hdb⟩
      by_cases hrefused : Sendable db now
      · rw [sendable_iff hsub] at hrefused
        obtain ⟨hnow, hrecord⟩ := hrefused
        obtain ⟨u, hu⟩ := Option.isSome_iff_exists.mp hrecord
        have hfull : ¬ u.requestsUsed < sub.plan.quotaRequests := fun hlt =>
          hno ⟨hnow, u, hu, hlt⟩
        right
        rw [unitsLeft, requestsRemaining_eq hsub, hu, Option.map_some]
        exact congrArg some (by omega)
      · exact Or.inl hrefused
    · have hsub' : (reserveQuotaUnit db now).2.sub? = some sub := by
        rw [hdb]
        exact hsub
      have hu' : usageFor (reserveQuotaUnit db now).2 sub =
          some { u with requestsUsed := u.requestsUsed + 1 } := by
        rw [hdb]
        exact usageFor_incremented hu
      refine Or.inl ⟨(sendable_iff hsub).mpr ⟨hnow, by rw [hu]; rfl⟩, hresult, ?_, fun t => ?_⟩
      · refine ⟨sub.plan.quotaRequests - u.requestsUsed - 1, ?_, ?_⟩
        · rw [unitsLeft, requestsRemaining_eq hsub, hu, Option.map_some]
          exact congrArg some (by omega)
        · rw [unitsLeft, requestsRemaining_eq hsub', hu', Option.map_some]
          exact congrArg some (Nat.sub_sub _ _ _).symm
      · rw [sendable_iff hsub', sendable_iff hsub, hu, hu']
        rfl

/-- Of calls at any instants as many reserve as are left, or as find the other conditions met. -/
theorem reservations_count (nows : List Time) {n : ℕ} (hleft : unitsLeft db = some n) :
    (reservations db nows).count .reserved = min n
    (nows.countP fun t => decide (Sendable db t)) := by
  induction nows generalizing db n with
  | nil => simp [reservations]
  | cons now nows ih =>
    rw [reservations, List.count_cons, List.countP_cons]
    rcases reserveQuotaUnit_step db now with ⟨hnow, hresult, ⟨m, hm, hm'⟩, hsame⟩ |
      ⟨hrefused, hresult, hdb⟩
    · have hn : n = m + 1 := Option.some.inj (hleft.symm.trans hm)
      rw [ih hm', hresult, hn]
      simp only [hsame, hnow, decide_true, if_true, beq_self_eq_true]
      omega
    · rw [hdb, ih hleft, if_neg (by simpa using hresult)]
      rcases hrefused with hrefused | hzero
      · simp [hrefused]
      · have hn : n = 0 := Option.some.inj (hleft.symm.trans hzero)
        simp [hn]

theorem reservations_first (nows : List Time) {n : ℕ} (hleft : unitsLeft db = some n)
    (hsendable : ∀ t ∈ nows, Sendable db t) {i : ℕ} (hi : i < nows.length) :
    (reservations db nows)[i]? = some .reserved ↔ i < n := by
  induction nows generalizing db n i with
  | nil => simp at hi
  | cons now nows ih =>
    have hnow := hsendable now List.mem_cons_self
    have hlater : ∀ t ∈ nows, Sendable db t := fun t ht => hsendable t (List.mem_cons_of_mem _ ht)
    rw [reservations]
    rcases reserveQuotaUnit_step db now with ⟨-, hresult, ⟨m, hm, hm'⟩, hsame⟩ |
      ⟨hrefused, hresult, hdb⟩
    · have hn : n = m + 1 := Option.some.inj (hleft.symm.trans hm)
      cases i with
      | zero => simp [hresult, hn]
      | succ i =>
        rw [List.getElem?_cons_succ,
          ih hm' (fun t ht => (hsame t).mpr (hlater t ht)) (by simpa using hi)]
        omega
    · have hn : n = 0 := Option.some.inj (hleft.symm.trans (hrefused.resolve_left (absurd hnow)))
      cases i with
      | zero => simpa [hn] using hresult
      | succ i =>
        rw [List.getElem?_cons_succ, hdb, ih hleft hlater (by simpa using hi)]
        omega

end Reserve

def reserveAlone (now : Time) : List StoreChoice := .reserve :: List.replicate 3 (.advance 0 now)

theorem free_alone (db : Database) (tx : Tx) (lock : Lock) :
    Store.free ⟨db, [tx]⟩ 0 lock = true := by
  simp [Store.free, RowLocks.free]

/-- Step by step the transaction returns the result of the call above, and commits what it
writes. -/
theorem reserveQuotaUnit_alone (db : Database) (now : Time) (env : Env) :
    ∃ held, run Store.step ⟨db, []⟩ (reserveAlone now) =
    ⟨db, [.returned held (reserveQuotaUnit db now).1]⟩ ∧
      (Tx.returned held (reserveQuotaUnit db now).1).committed db env = some
      (reserveQuotaUnit db now).2 := by
  have hstep : ∀ tx, Store.step ⟨db, [tx]⟩ (.advance 0 now) =
      ⟨db, [Store.next ⟨db, [tx]⟩ 0 now tx]⟩ :=
    fun _ => rfl
  have hreturned : ∀ held result,
    Store.next ⟨db, [.returned held result]⟩ 0 now (.returned held result) =
      .returned held result := fun _ _ => rfl
  have hrun : run Store.step ⟨db, []⟩ (reserveAlone now) =
      Store.step (Store.step (Store.step ⟨db, [.reserving]⟩ (.advance 0 now)) (.advance 0 now))
      (.advance 0 now) :=
    rfl
  rw [hrun, hstep]
  cases hread : reserveRead db.sub? now with
  | none =>
    have hfirst : Store.next ⟨db, [.reserving]⟩ 0 now .reserving = .returned none .notEntitled := by
      simp only [Store.next, hread]
    have hvalue : reserveQuotaUnit db now = (.notEntitled, db) := by
      simp only [reserveQuotaUnit, hread]
    rw [hfirst, hstep, hreturned, hstep, hreturned, hvalue]
    exact ⟨none, rfl, rfl⟩
  | some p =>
    have hfirst : Store.next ⟨db, [.reserving]⟩ 0 now .reserving = .waiting p := by
      simp only [Store.next, hread]
    rw [hfirst, hstep]
    cases hu : db.record p with
    | none =>
      have hrecord : Store.record ⟨db, [.waiting p]⟩ p = none := hu
      have hsecond : Store.next ⟨db, [.waiting p]⟩ 0 now (.waiting p) =
          .returned none .notEntitled := by
        simp only [Store.next, hrecord]
      have hvalue : reserveQuotaUnit db now = (.notEntitled, db) := by
        simp only [reserveQuotaUnit, hread, hu]
      rw [hsecond, hstep, hreturned, hvalue]
      exact ⟨none, rfl, rfl⟩
    | some u =>
      have hrecord : Store.record ⟨db, [.waiting p]⟩ p = some u := hu
      have hsecond : Store.next ⟨db, [.waiting p]⟩ 0 now (.waiting p) =
          .locked p u.requestsUsed := by
        simp only [Store.next, hrecord, free_alone, if_true]
      rw [hsecond, hstep]
      cases hsub : db.sub? with
      | none =>
        rw [hsub] at hread
        cases hread
      | some sub =>
        have hthird : Store.next ⟨db, [.locked p u.requestsUsed]⟩ 0 now (.locked p u.requestsUsed) =
            .returned (some p) (reserveRecheck sub now p u.requestsUsed) := by
          simp only [Store.next, hsub]
        rw [hthird]
        refine ⟨some p, ?_⟩
        rw [reserveQuotaUnit, hread]
        simp only [hu, hsub]
        cases reserveRecheck sub now p u.requestsUsed <;> exact ⟨rfl, rfl⟩

/-- What is shown and what is enforced agree: `can_send` is true exactly when a reservation at that
instant is granted, what is left goes down by one with each grant and not otherwise, and as many of
the calls that find the other conditions met are granted as are left, the first ones. -/
theorem entitlement_enforced (db : Database) :
    (∀ now, (getEntitlement db now).canSend = true ↔ (reserveQuotaUnit db now).1 = .reserved) ∧
    (∀ now later, if (reserveQuotaUnit db now).1 = .reserved then
        ∃ n, (getEntitlement db later).requestsRemaining = some (n + 1) ∧
          (getEntitlement (reserveQuotaUnit db now).2 later).requestsRemaining = some n
      else (getEntitlement (reserveQuotaUnit db now).2 later).requestsRemaining =
        (getEntitlement db later).requestsRemaining) ∧
    ∀ now n, (getEntitlement db now).requestsRemaining = some n → ∀ nows,
      (reservations db nows).count .reserved = min n (nows.countP fun t => decide (Sendable db t)) ∧
        ((∀ t ∈ nows, Sendable db t) → ∀ i < nows.length,
          ((reservations db nows)[i]? = some .reserved ↔ i < n)) := by
  refine ⟨fun now => ?_, fun now later => ?_, fun now n hleft nows => ?_⟩
  · cases hsub : db.sub? with
    | none => simp [getEntitlement, hsub, reserveQuotaUnit_none hsub]
    | some sub => rw [canSend_iff hsub, reserved_iff hsub]
  · simp only [requestsRemaining_eq_unitsLeft]
    rcases reserveQuotaUnit_step db now with ⟨-, hresult, hleft, -⟩ | ⟨-, hresult, hdb⟩
    · rw [if_pos hresult]
      exact hleft
    · rw [if_neg hresult, hdb]
  · rw [requestsRemaining_eq_unitsLeft] at hleft
    exact ⟨reservations_count nows hleft,
      fun hsendable i hi => reservations_first nows hleft hsendable hi⟩

def oneLeft : Database := { activeRow with usage := [⟨seconds 1000, seconds 2000, 99⟩] }

theorem entitlement_enforced_once :
    (reservations oneLeft [seconds 2000, seconds 1500, seconds 1600]).count .reserved = 1 := by
  rw [((entitlement_enforced oneLeft).2.2 (seconds 1500) 1 rfl
    [seconds 2000, seconds 1500, seconds 1600]).1]
  decide

end ReviewFlow.Billing
