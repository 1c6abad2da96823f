import ReviewFlow.Sales.Threads

/-!
# Exactly-once sales and customer counters

Every commit is one `record_sale`, so what it keeps holds in every run: a committed call has
exactly one transaction, and the counters of a customer are those of its transactions. When
the calls of one key agree on phone and time, the counters depend on the set of calls alone.
-/

namespace ReviewFlow.Sales

open Tables Interleaving

def Database.timesOf (db : Database) (k : Uuid) : List Time :=
  (db.transactions.rows.filter fun x => x.customer == some k).map Transaction.occurredAt

structure Customer.CountedBy (c : Customer) (times : List Time) : Prop where
  total : c.totalTransactions = times.length
  first : c.firstSeenAt = times.min?
  last : c.lastSeenAt = times.max?

structure Database.Counted (db : Database) : Prop where
  counters : ∀ c ∈ db.customers, c.CountedBy (db.timesOf c.id)
  refers : ∀ x ∈ db.transactions, ∀ k, x.customer = some k → ∃ c ∈ db.customers, c.id = k

structure Ledger where
  db : Database
  counted : db.Counted

section Recorded

variable {call : Call} {db db' : Database} {r : Transaction × Bool}

inductive NamedBy (call : Call) (db : Database) : Option Customer → Customers → Prop
  | anonymous (phone : call.sale.customerPhone = none) : NamedBy call db none db.customers
  | created {phone : String} {customers : Customers}
    (isPhone : call.sale.customerPhone = some phone)
      (inserted : db.customers.insert? (call.newCustomer phone) = some customers) :
      NamedBy call db (some (call.newCustomer phone)) customers
  | known {phone : String} {c : Customer} (isPhone : call.sale.customerPhone = some phone)
      (mem : c ∈ db.customers) (same : c.phone = phone) : NamedBy call db (some c) db.customers

theorem customerStep_named {customer : Option Customer} {customers : Customers}
    (h : customerStep call db = some (customer, customers)) :
    NamedBy call db customer customers := by
  unfold customerStep at h
  split at h
  case h_1 hp =>
    cases h
    exact .anonymous hp
  case h_2 phone hp =>
    split at h
    case h_1 customers' hi =>
      cases h
      exact .created hp hi
    case h_2 hi =>
      obtain ⟨c, hc, heq⟩ := Option.map_eq_some_iff.mp h
      cases heq
      obtain ⟨hmem, hsame⟩ := customerOf_eq_some.mp hc
      exact .known hp hmem hsame

/-- What a call does: it adds its transaction and counts it, or finds the one that is there. -/
inductive RecordedBy (call : Call) (db : Database) : Database → Prop
  | sold {customer : Option Customer} {customers : Customers} {transactions : Transactions}
      (named : NamedBy call db customer customers)
      (inserted : db.transactions.insert? (call.newTransaction customer) = some transactions) :
      RecordedBy call db ⟨countStep call customer true customers, transactions⟩
  | duplicate {customer : Option Customer} {customers : Customers} {x : Transaction}
      (named : NamedBy call db customer customers) (mem : x ∈ db.transactions)
      (key : x.key = call.key) :
      RecordedBy call db ⟨customers, db.transactions⟩

theorem recorded_by (h : recorded call db = some (r, db')) : RecordedBy call db db' := by
  unfold recorded at h
  obtain ⟨⟨customer, customers⟩, hc, h⟩ := Option.bind_eq_some_iff.mp h
  obtain ⟨⟨x, created, transactions⟩, ht, heq⟩ := Option.map_eq_some_iff.mp h
  cases heq
  unfold transactionStep at ht
  split at ht
  case h_1 transactions' hi =>
    cases ht
    exact .sold (customerStep_named hc) hi
  case h_2 hi =>
    obtain ⟨y, hy, heq⟩ := Option.map_eq_some_iff.mp ht
    cases heq
    obtain ⟨hmem, hk⟩ := sold_eq_some.mp hy
    have hcount : countStep call customer false customers = customers := by cases customer <;> rfl
    rw [hcount]
    exact .duplicate (customerStep_named hc) hmem hk

end Recorded

section Counting

variable {call : Call} {db db' : Database} {c : Customer} {times : List Time} {t : Time}

theorem min?_concat (l : List Time) (t : Time) :
    (l ++ [t]).min? = some (min (l.min?.getD t) t) := by
  cases l with
  | nil => simp
  | cons a l =>
    rw [List.cons_append, List.min?_cons', List.min?_cons', List.foldl_append]
    rfl

theorem max?_concat (l : List Time) (t : Time) :
    (l ++ [t]).max? = some (max (l.max?.getD t) t) := by
  cases l with
  | nil => simp
  | cons a l =>
    rw [List.cons_append, List.max?_cons', List.max?_cons', List.foldl_append]
    rfl

theorem Customer.CountedBy.seen (h : c.CountedBy times) (t : Time) :
    (c.seen t).CountedBy (times ++ [t]) where
  total := by rw [Customer.seen, h.total, List.length_append, List.length_singleton]
  first := by rw [Customer.seen, h.first, min?_concat]
  last := by rw [Customer.seen, h.last, max?_concat]

theorem NamedBy.counted {customer : Option Customer} {customers : Customers}
    (hn : NamedBy call db customer customers)
    (hc : db.Counted) : ∀ c ∈ customers, c.CountedBy (db.timesOf c.id) := by
  cases hn with
  | anonymous phone => exact hc.counters
  | known isPhone mem same => exact hc.counters
  | @created phone customers isPhone inserted =>
    intro c hcm
    rcases (Table.mem_insert? inserted).mp hcm with hcm | rfl
    · exact hc.counters c hcm
    · have hnone : db.timesOf (call.newCustomer phone).id = [] := by
        unfold Database.timesOf
        rw [List.map_eq_nil_iff, List.filter_eq_nil_iff]
        intro x hx hcust
        obtain ⟨b, hb, hid⟩ := hc.refers x hx _ (beq_iff_eq.mp hcust)
        exact (Table.insert?_eq_some.mp inserted).1 b hb (.inl hid)
      rw [hnone]
      exact ⟨rfl, rfl, rfl⟩

theorem NamedBy.mem {customer : Option Customer} {customers : Customers}
    (hn : NamedBy call db customer customers)
    (hc : c ∈ db.customers) : c ∈ customers := by
  cases hn with
  | anonymous phone => exact hc
  | known isPhone mem same => exact hc
  | created isPhone inserted => exact (Table.mem_insert? inserted).mpr (.inl hc)

theorem NamedBy.customer_mem {customers : Customers} (hn : NamedBy call db (some c) customers) :
    c ∈ customers := by
  cases hn with
  | known isPhone mem same => exact mem
  | created isPhone inserted => exact (Table.mem_insert? inserted).mpr (.inr rfl)

theorem Customers.mem_count {customers : Customers} {k : Uuid} {b : Customer} :
    b ∈ customers.count k t ↔
      ∃ a ∈ customers, (if a.id = k then a.seen t else a) = b := Table.mem_update

@[simp] theorem Customer.seen_id : (c.seen t).id = c.id := rfl

@[simp] theorem Customer.seen_phone : (c.seen t).phone = c.phone := rfl

theorem mem_countStep {customer : Option Customer} {customers : Customers} {b : Customer}
    (h : b ∈ countStep call customer true customers) :
    ∃ a ∈ customers, a.id = b.id ∧ a.phone = b.phone ∧
      ((customer.map Customer.id = some a.id ∧ b = a.seen call.sale.occurredAt) ∨
        (customer.map Customer.id ≠ some a.id ∧ b = a)) := by
  cases customer with
  | none => exact ⟨b, h, rfl, rfl, .inr ⟨nofun, rfl⟩⟩
  | some c =>
    obtain ⟨a, ha, rfl⟩ := Customers.mem_count.mp h
    by_cases hid : a.id = c.id
    · refine ⟨a, ha, ?_⟩
      simp [hid]
    · refine ⟨a, ha, ?_⟩
      simp [hid, Ne.symm hid]

theorem countStep_keeps {customer : Option Customer} {customers : Customers} (h : c ∈ customers) :
    ∃ b ∈ countStep call customer true customers, b.id = c.id ∧ b.phone = c.phone := by
  cases customer with
  | none => exact ⟨c, h, rfl, rfl⟩
  | some d =>
    refine ⟨_, Customers.mem_count.mpr ⟨c, h, rfl⟩, ?_⟩
    split <;> exact ⟨rfl, rfl⟩

theorem timesOf_sold {customer : Option Customer} {customers : Customers}
    {transactions : Transactions} (k : Uuid)
    (hi : db.transactions.insert? (call.newTransaction customer) = some transactions) :
    Database.timesOf ⟨customers, transactions⟩ k =
      db.timesOf k ++ if customer.map Customer.id = some k then [call.sale.occurredAt] else [] := by
  unfold Database.timesOf
  rw [(Table.insert?_eq_some.mp hi).2, List.filter_append, List.map_append, List.filter_singleton]
  congr 1
  by_cases hk : customer.map Customer.id = some k
  · simp [Call.newTransaction, hk]
  · simp [Call.newTransaction, hk, beq_eq_false_iff_ne.mpr hk]

theorem RecordedBy.counted (h : RecordedBy call db db') (hc : db.Counted) : db'.Counted := by
  cases h with
  | @sold customer customers transactions named inserted =>
    refine ⟨fun b hb => ?_, fun x hx k hk => ?_⟩
    · obtain ⟨a, ha, hid, -, hcase⟩ := mem_countStep hb
      rw [timesOf_sold _ inserted, ← hid]
      have hbefore := named.counted hc a ha
      rcases hcase with ⟨hthis, rfl⟩ | ⟨hother, rfl⟩
      · rw [if_pos hthis]
        exact hbefore.seen _
      · rw [if_neg hother, List.append_nil]
        exact hbefore
    · have hmem : ∃ c ∈ customers, c.id = k := by
        rcases (Table.mem_insert? inserted).mp hx with hx | rfl
        · obtain ⟨c, hcm, hid⟩ := hc.refers x hx k hk
          exact ⟨c, named.mem hcm, hid⟩
        · obtain ⟨c, rfl, hid⟩ := Option.map_eq_some_iff.mp hk
          exact ⟨c, named.customer_mem, hid⟩
      obtain ⟨c, hcm, hid⟩ := hmem
      obtain ⟨b, hb, hbid, -⟩ : ∃ b ∈ countStep call customer true customers, b.id = c.id ∧
          b.phone = c.phone :=
        countStep_keeps hcm
      exact ⟨b, hb, hbid.trans hid⟩
  | duplicate named mem key =>
    refine ⟨named.counted hc, fun x hx k hk => ?_⟩
    obtain ⟨c, hcm, hid⟩ := hc.refers x hx k hk
    exact ⟨c, named.mem hcm, hid⟩

end Counting

section Runs

variable {start db db' : Database} {calls : List Call} {call : Call} {choices : List StoreChoice}

def committedCalls (ts : List StoreTransition) : List Call := ts.filterMap StoreTransition.committed

/-- The customer `k` of a transaction is the one of the phone. -/
def Linked (db : Database) (k : Option Uuid) (phone : Option String) : Prop :=
  (k = none ∧ phone = none) ∨ ∃ c ∈ db.customers, k = some c.id ∧ phone = some c.phone

/-- What the tables say of the calls committed since `start`. -/
structure Witnessed (start : Database) (calls : List Call) (db : Database) : Prop where
  keepsTransactions : ∀ x ∈ start.transactions, x ∈ db.transactions
  keepsCustomers : ∀ c ∈ start.customers, ∃ b ∈ db.customers, b.id = c.id ∧ b.phone = c.phone
  transactions : ∀ x ∈ db.transactions, x ∈ start.transactions ∨ ∃ call ∈ calls, x.key = call.key ∧
    x.occurredAt = call.sale.occurredAt ∧ Linked db x.customer call.sale.customerPhone
  customers : ∀ c ∈ db.customers, (∃ b ∈ start.customers, b.phone = c.phone) ∨
    ∃ call ∈ calls, call.sale.customerPhone = some c.phone
  sold : ∀ call ∈ calls, ∃ x ∈ db.transactions, x.key = call.key
  named : ∀ call ∈ calls, ∀ phone, call.sale.customerPhone = some phone →
    ∃ c ∈ db.customers, c.phone = phone

theorem Linked.mono {k : Option Uuid} {phone : Option String} (h : Linked db k phone)
    (hc : ∀ c ∈ db.customers, ∃ b ∈ db'.customers, b.id = c.id ∧ b.phone = c.phone) :
    Linked db' k phone := by
  rcases h with h | ⟨c, hcm, hk, hp⟩
  · exact .inl h
  · obtain ⟨b, hb, hid, hph⟩ := hc c hcm
    exact .inr ⟨b, hb, hid ▸ hk, hph ▸ hp⟩

structure Extended (call : Call) (db db' : Database) : Prop where
  keeps : ∀ c ∈ db.customers, ∃ b ∈ db'.customers, b.id = c.id ∧ b.phone = c.phone
  only : ∀ b ∈ db'.customers, (∃ c ∈ db.customers, c.phone = b.phone) ∨
    call.sale.customerPhone = some b.phone
  named : ∀ phone, call.sale.customerPhone = some phone → ∃ c ∈ db'.customers, c.phone = phone
  transactions : ∀ x ∈ db.transactions, x ∈ db'.transactions
  sold : ∃ x ∈ db'.transactions, x.key = call.key
  fresh : ∀ x ∈ db'.transactions, x ∈ db.transactions ∨
    (x.key = call.key ∧ x.occurredAt = call.sale.occurredAt ∧
      Linked db' x.customer call.sale.customerPhone)

theorem NamedBy.only {customer : Option Customer} {customers : Customers}
    (hn : NamedBy call db customer customers) :
    ∀ b ∈ customers, (∃ c ∈ db.customers, c.phone = b.phone) ∨
    call.sale.customerPhone = some b.phone := by
  intro b hb
  cases hn with
  | anonymous phone => exact .inl ⟨b, hb, rfl⟩
  | known isPhone mem same => exact .inl ⟨b, hb, rfl⟩
  | created isPhone inserted =>
    rcases (Table.mem_insert? inserted).mp hb with hb | rfl
    · exact .inl ⟨b, hb, rfl⟩
    · exact .inr isPhone

theorem NamedBy.linked {customer : Option Customer} {customers : Customers}
    (hn : NamedBy call db customer customers) :
    (customer = none ∧ call.sale.customerPhone = none) ∨
      ∃ c ∈ customers, customer = some c ∧ call.sale.customerPhone = some c.phone := by
  cases hn with
  | anonymous phone => exact .inl ⟨rfl, phone⟩
  | @known _ c isPhone mem same => exact .inr ⟨c, mem, rfl, same ▸ isPhone⟩
  | created isPhone inserted =>
    exact .inr ⟨_, (Table.mem_insert? inserted).mpr (.inr rfl), rfl, isPhone⟩

theorem RecordedBy.extended (h : RecordedBy call db db') : Extended call db db' := by
  cases h with
  | @sold customer customers transactions named inserted =>
    have keeps : ∀ c ∈ customers, ∃ b ∈ countStep call customer true customers, b.id = c.id ∧
        b.phone = c.phone :=
      fun c hc => countStep_keeps hc
    refine ⟨fun c hc => keeps c (named.mem hc), fun b hb => ?_, fun phone hp => ?_,
      fun x hx => (Table.mem_insert? inserted).mpr (.inl hx),
      ⟨_, (Table.mem_insert? inserted).mpr (.inr rfl), rfl⟩,
      fun x hx => ?_⟩
    · obtain ⟨a, ha, -, hph, -⟩ := mem_countStep hb
      rw [← hph]
      exact named.only a ha
    · rcases named.linked with ⟨-, hnone⟩ | ⟨c, hc, -, hcp⟩
      · rw [hnone] at hp
        cases hp
      · obtain ⟨b, hb, -, hph⟩ := keeps c hc
        rw [hcp, Option.some.injEq] at hp
        exact ⟨b, hb, hph.trans hp⟩
    · rcases (Table.mem_insert? inserted).mp hx with hx | rfl
      · exact .inl hx
      · refine .inr ⟨rfl, rfl, ?_⟩
        rcases named.linked with ⟨rfl, hnone⟩ | ⟨c, hc, rfl, hcp⟩
        · exact .inl ⟨rfl, hnone⟩
        · obtain ⟨b, hb, hid, hph⟩ := keeps c hc
          exact .inr ⟨b, hb, congrArg some hid.symm, hph ▸ hcp⟩
  | @duplicate customer customers x named mem key =>
    refine ⟨fun c hc => ⟨c, named.mem hc, rfl, rfl⟩, named.only, fun phone hp => ?_, fun x hx => hx,
      ⟨x, mem, key⟩, fun x hx => .inl hx⟩
    rcases named.linked with ⟨-, hnone⟩ | ⟨c, hc, -, hcp⟩
    · rw [hnone] at hp
      cases hp
    · rw [hcp, Option.some.injEq] at hp
      exact ⟨c, hc, hp⟩

theorem Witnessed.step (h : Witnessed start calls db) (he : Extended call db db') :
    Witnessed start (calls ++ [call]) db' where
  keepsTransactions x hx := he.transactions x (h.keepsTransactions x hx)
  keepsCustomers c hc := by
    obtain ⟨b, hb, hid, hph⟩ := h.keepsCustomers c hc
    obtain ⟨b', hb', hid', hph'⟩ := he.keeps b hb
    exact ⟨b', hb', hid'.trans hid, hph'.trans hph⟩
  transactions x hx := by
    rcases he.fresh x hx with hx | hnew
    · rcases h.transactions x hx with hs | ⟨c, hc, hk, ht, hl⟩
      · exact .inl hs
      · exact .inr ⟨c, List.mem_append_left _ hc, hk, ht, hl.mono he.keeps⟩
    · exact .inr ⟨call, List.mem_append_right _ List.mem_cons_self, hnew⟩
  customers b hb := by
    rcases he.only b hb with ⟨c, hc, hph⟩ | hp
    · rw [← hph]
      rcases h.customers c hc with hs | ⟨d, hd, hp⟩
      · exact .inl hs
      · exact .inr ⟨d, List.mem_append_left _ hd, hp⟩
    · exact .inr ⟨call, List.mem_append_right _ List.mem_cons_self, hp⟩
  sold c hc := by
    rcases List.mem_append.mp hc with hc | hc
    · obtain ⟨x, hx, hk⟩ := h.sold c hc
      exact ⟨x, he.transactions x hx, hk⟩
    · rw [List.mem_singleton.mp hc]
      exact he.sold
  named c hc phone hp := by
    rcases List.mem_append.mp hc with hc | hc
    · obtain ⟨b, hb, hph⟩ := h.named c hc phone hp
      obtain ⟨b', hb', -, hph'⟩ := he.keeps b hb
      exact ⟨b', hb', hph'.trans hph⟩
    · rw [List.mem_singleton.mp hc] at hp
      exact he.named phone hp

/-- The tables of a run: every call it committed is in them, and their counters are exact. -/
structure Store.Kept (start : Database) (h : List StoreTransition) (s : Store) : Prop where
  sound : s.Sound
  counted : s.db.Counted
  witnessed : Witnessed start (committedCalls h) s.db

theorem step_kept {h : List StoreTransition} {s : Store} (choice : StoreChoice)
    (hs : s.Kept start h) :
    (s.step choice).Kept start (h ++ [transition Store.step s choice]) := by
  have hrefines := step_refines s choice hs.sound
  have hcalls : committedCalls (h ++ [transition Store.step s choice]) =
      committedCalls h ++ (StoreTransition.committed (transition Store.step s choice)).toList := by
    unfold committedCalls
    rw [List.filterMap_append]
    cases hc : StoreTransition.committed (transition Store.step s choice) <;> simp [hc]
  refine ⟨step_sound s choice hs.sound, ?_, ?_⟩
  · cases hc : StoreTransition.committed (transition Store.step s choice) with
    | none =>
      simp only [hc] at hrefines
      rw [hrefines]
      exact hs.counted
    | some call =>
      simp only [hc] at hrefines
      obtain ⟨r, hr⟩ := hrefines
      exact (recorded_by hr).counted hs.counted
  · rw [hcalls]
    cases hc : StoreTransition.committed (transition Store.step s choice) with
    | none =>
      simp only [hc] at hrefines
      rw [hrefines, Option.toList_none, List.append_nil]
      exact hs.witnessed
    | some call =>
      simp only [hc] at hrefines
      obtain ⟨r, hr⟩ := hrefines
      exact hs.witnessed.step (recorded_by hr).extended

theorem witnessed_start : Witnessed start [] start :=
  ⟨fun _ h => h, fun c hc => ⟨c, hc, rfl, rfl⟩, fun _ h => .inl h,
    fun c hc => .inl ⟨c, hc, rfl⟩, nofun, nofun⟩

theorem run_kept (start : Ledger) (choices : List StoreChoice) :
    (run Store.step ⟨start.db, []⟩ choices).Kept start.db (storeRun start.db choices) := by
  have hinit : Store.Kept start.db [] ⟨start.db, []⟩ :=
    ⟨⟨RowLocks.Exclusive.nil, by simp⟩, start.counted, witnessed_start⟩
  have hmeets : MeetsFrom (fun _ _ => True) [] (storeRun start.db choices) :=
    MeetsFrom.of_forall (fun _ _ => trivial) []
  exact trace_history (P := fun h s => Store.Kept start.db h s) hinit
    (fun h s choice hs _ => step_kept choice hs) hmeets

end Runs

section Order

variable {start db db' : Database} {calls calls' : List Call}

def Call.delivery (call : Call) : Key × Option String × Time :=
  (call.key, call.sale.customerPhone, call.sale.occurredAt)

def SameDeliveries (calls calls' : List Call) : Prop :=
  ∀ d, d ∈ calls.map Call.delivery ↔ d ∈ calls'.map Call.delivery

/-- Repeated deliveries of one key agree on phone and time. -/
def Consistent (calls : List Call) : Prop :=
  ∀ a ∈ calls, ∀ b ∈ calls, a.key = b.key → a.delivery = b.delivery

def Database.countersOf (db : Database) (phone : String) : Option (ℕ × Option Time × Option Time) :=
  (db.customerOf phone).map fun c => (c.totalTransactions, c.firstSeenAt, c.lastSeenAt)

theorem SameDeliveries.symm (h : SameDeliveries calls calls') : SameDeliveries calls' calls :=
  fun d => (h d).symm

theorem SameDeliveries.mem (h : SameDeliveries calls calls') {call : Call} (hc : call ∈ calls) :
    ∃ call' ∈ calls', call'.delivery = call.delivery :=
  List.mem_map.mp ((h _).mp (List.mem_map_of_mem hc))

theorem Consistent.of_same (h : Consistent calls) (hs : SameDeliveries calls calls') :
    Consistent calls' := by
  intro a ha b hb hk
  obtain ⟨a', ha', hda⟩ := hs.symm.mem ha
  obtain ⟨b', hb', hdb⟩ := hs.symm.mem hb
  have hkey : a'.key = b'.key := by
    have hak : a'.key = a.key := congrArg Prod.fst hda
    have hbk : b'.key = b.key := congrArg Prod.fst hdb
    rw [hak, hbk, hk]
  rw [← hda, ← hdb, h a' ha' b' hb' hkey]

theorem customer_exists (hw : Witnessed start calls db) (hw' : Witnessed start calls' db')
    (hs : SameDeliveries calls calls') {c : Customer} (hc : c ∈ db.customers) :
    ∃ b ∈ db'.customers, b.phone = c.phone := by
  rcases hw.customers c hc with ⟨b, hb, hph⟩ | ⟨call, hcall, hp⟩
  · obtain ⟨b', hb', -, hph'⟩ := hw'.keepsCustomers b hb
    exact ⟨b', hb', hph'.trans hph⟩
  · obtain ⟨call', hcall', hd⟩ := hs.mem hcall
    have hphone : call'.sale.customerPhone = call.sale.customerPhone := congrArg (·.2.1) hd
    exact hw'.named call' hcall' c.phone (hphone.trans hp)

/-- A transaction of a phone in one run is one of that phone in the other. -/
theorem transaction_transfers (hstart : start.Counted) (hw : Witnessed start calls db)
    (hw' : Witnessed start calls' db')
    (hs : SameDeliveries calls calls') (hcons : Consistent calls) {c c' : Customer}
    (hc : c ∈ db.customers)
    (hc' : c' ∈ db'.customers) (hphone : c.phone = c'.phone) {x : Transaction}
    (hx : x ∈ db.transactions)
    (hcust : x.customer = some c.id) :
    ∃ y ∈ db'.transactions, y.customer = some c'.id ∧ y.key = x.key ∧
      y.occurredAt = x.occurredAt := by
  -- A transaction from before both runs.
  have old : x ∈ start.transactions →
    ∃ y ∈ db'.transactions, y.customer = some c'.id ∧ y.key = x.key ∧
      y.occurredAt = x.occurredAt := by
    intro hstartx
    obtain ⟨c₀, hc₀, hid₀⟩ := hstart.refers x hstartx _ hcust
    obtain ⟨b, hb, hbid, hbph⟩ := hw.keepsCustomers c₀ hc₀
    obtain ⟨b', hb', hbid', hbph'⟩ := hw'.keepsCustomers c₀ hc₀
    have hbc : b = c := Table.eq_of_clash Customer.Clash.symm hb hc (.inl (hbid.trans hid₀))
    have hph : b'.phone = c'.phone := by rw [hbph', ← hbph, hbc, hphone]
    have hbc' : b' = c' := Table.eq_of_clash Customer.Clash.symm hb' hc' (.inr hph)
    refine ⟨x, hw'.keepsTransactions x hstartx, ?_, rfl, rfl⟩
    rw [hcust, ← hid₀, ← hbid', hbc']
  rcases hw.transactions x hx with hstartx | ⟨call, hcall, hk, ht, hl⟩
  · exact old hstartx
  have hp : call.sale.customerPhone = some c.phone := by
    rcases hl with ⟨hnone, -⟩ | ⟨d, hd, hdk, hdp⟩
    · rw [hnone] at hcust
      cases hcust
    · rw [hdk, Option.some.injEq] at hcust
      rw [hdp, Table.eq_of_clash Customer.Clash.symm hd hc (.inl hcust)]
  obtain ⟨call', hcall', hd⟩ := hs.mem hcall
  obtain ⟨y, hy, hyk⟩ := hw'.sold call' hcall'
  have hcallkey : call'.key = call.key := congrArg Prod.fst hd
  have hkey : y.key = x.key := by rw [hyk, hcallkey, hk]
  rcases hw'.transactions y hy with hstarty | ⟨call₂, hcall₂, hk₂, ht₂, hl₂⟩
  · have hxy : y = x :=
      Table.eq_of_clash Transaction.Clash.symm (hw.keepsTransactions y hstarty) hx (.inr hkey)
    exact old (hxy ▸ hstarty)
  have hd₂ : call₂.delivery = call'.delivery :=
    hcons.of_same hs call₂ hcall₂ call' hcall' (by rw [← hk₂, hyk])
  have hsame := hd₂.trans hd
  have hp₂ : call₂.sale.customerPhone = call.sale.customerPhone := congrArg (·.2.1) hsame
  have ht₂' : call₂.sale.occurredAt = call.sale.occurredAt := congrArg (·.2.2) hsame
  refine ⟨y, hy, ?_, hkey, by rw [ht₂, ht₂', ht]⟩
  rcases hl₂ with ⟨-, hnone⟩ | ⟨d, hdm, hdk, hdp⟩
  · rw [hnone, hp] at hp₂
    cases hp₂
  · rw [hdp, hp, Option.some.injEq] at hp₂
    rw [hdk, Table.eq_of_clash Customer.Clash.symm hdm hc' (.inr (hp₂.trans hphone))]

theorem min?_perm {l l' : List Time} (h : l.Perm l') : l.min? = l'.min? := by
  cases hl : l.min? with
  | none =>
    rw [List.min?_eq_none_iff] at hl
    rw [hl] at h
    rw [← h.nil_eq]
    rfl
  | some a =>
    obtain ⟨hmem, hle⟩ := List.min?_eq_some_iff.mp hl
    exact (List.min?_eq_some_iff.mpr ⟨h.mem_iff.mp hmem, fun b hb => hle b (h.mem_iff.mpr hb)⟩).symm

theorem max?_perm {l l' : List Time} (h : l.Perm l') : l.max? = l'.max? := by
  cases hl : l.max? with
  | none =>
    rw [List.max?_eq_none_iff] at hl
    rw [hl] at h
    rw [← h.nil_eq]
    rfl
  | some a =>
    obtain ⟨hmem, hle⟩ := List.max?_eq_some_iff.mp hl
    exact (List.max?_eq_some_iff.mpr ⟨h.mem_iff.mp hmem, fun b hb => hle b (h.mem_iff.mpr hb)⟩).symm

def Database.salesOf (db : Database) (k : Uuid) : List (Key × Time) :=
  (db.transactions.rows.filter fun x => x.customer == some k).map fun x => (x.key, x.occurredAt)

theorem salesOf_nodup (k : Uuid) : (db.salesOf k).Nodup := by
  apply List.pairwise_map.mpr
  apply List.Pairwise.filter
  apply db.transactions.unique.imp
  intro x y hno heq
  exact hno (.inr (congrArg Prod.fst heq))

theorem timesOf_eq (k : Uuid) : db.timesOf k = (db.salesOf k).map Prod.snd := by
  simp [Database.timesOf, Database.salesOf]

theorem mem_salesOf {k : Uuid} {p : Key × Time} :
    p ∈ db.salesOf k ↔
      ∃ x ∈ db.transactions, x.customer = some k ∧ x.key = p.1 ∧ x.occurredAt = p.2 := by
  unfold Database.salesOf
  simp only [List.mem_map, List.mem_filter, beq_iff_eq, Prod.ext_iff, and_assoc]
  rfl

theorem countersOf_eq (hstart : start.Counted) (hdb : db.Counted) (hdb' : db'.Counted)
    (hw : Witnessed start calls db)
    (hw' : Witnessed start calls' db') (hs : SameDeliveries calls calls') (hcons : Consistent calls)
    (phone : String) :
    db.countersOf phone = db'.countersOf phone := by
  unfold Database.countersOf
  cases hc : db.customerOf phone with
  | none =>
    cases hc' : db'.customerOf phone with
    | none => rfl
    | some c' =>
      obtain ⟨hmem', hph'⟩ := customerOf_eq_some.mp hc'
      obtain ⟨b, hb, hbp⟩ := customer_exists hw' hw hs.symm hmem'
      rw [customerOf_eq_some.mpr ⟨hb, hbp.trans hph'⟩] at hc
      cases hc
  | some c =>
    obtain ⟨hmem, hph⟩ := customerOf_eq_some.mp hc
    obtain ⟨c', hmem', hph'⟩ := customer_exists hw hw' hs hmem
    rw [customerOf_eq_some.mpr ⟨hmem', hph'.trans hph⟩]
    have hperm : (db.salesOf c.id).Perm (db'.salesOf c'.id) := by
      rw [List.perm_ext_iff_of_nodup (salesOf_nodup _) (salesOf_nodup _)]
      intro p
      rw [mem_salesOf, mem_salesOf]
      constructor
      · rintro ⟨x, hx, hcust, hk, ht⟩
        obtain ⟨y, hy, hyc, hyk, hyt⟩ :=
          transaction_transfers hstart hw hw' hs hcons hmem hmem' hph'.symm hx hcust
        exact ⟨y, hy, hyc, hyk.trans hk, hyt.trans ht⟩
      · rintro ⟨x, hx, hcust, hk, ht⟩
        obtain ⟨y, hy, hyc, hyk, hyt⟩ :=
          transaction_transfers hstart hw' hw hs.symm (hcons.of_same hs) hmem' hmem
          hph' hx hcust
        exact ⟨y, hy, hyc, hyk.trans hk, hyt.trans ht⟩
    have htimes : (db.timesOf c.id).Perm (db'.timesOf c'.id) := by
      rw [timesOf_eq, timesOf_eq]
      exact hperm.map _
    have h := hdb.counters c hmem
    have h' := hdb'.counters c' hmem'
    rw [Option.map_some, Option.map_some, h.total, h.first, h.last, h'.total, h'.first,
      h'.last, htimes.length_eq,
      min?_perm htimes, max?_perm htimes]

/-- Every committed call has exactly one transaction, the counters are those of the transactions,
and they do not depend on the order of consistent deliveries. -/
theorem sales_exactly_once (start : Ledger) (choices : List StoreChoice) :
    (run Store.step ⟨start.db, []⟩ choices).db.Counted ∧
    (∀ call ∈ committedCalls (storeRun start.db choices),
      ∃! x, x ∈ (run Store.step ⟨start.db, []⟩ choices).db.transactions ∧ x.key = call.key) ∧
    ∀ choices', SameDeliveries (committedCalls (storeRun start.db choices))
    (committedCalls (storeRun start.db choices')) →
      Consistent (committedCalls (storeRun start.db choices)) →
      ∀ phone, (run Store.step ⟨start.db, []⟩ choices).db.countersOf phone =
        (run Store.step ⟨start.db, []⟩ choices').db.countersOf phone := by
  have h := run_kept start choices
  refine ⟨h.counted, fun call hcall => ?_, fun choices' hs hcons phone => ?_⟩
  · obtain ⟨x, hx, hk⟩ := h.witnessed.sold call hcall
    refine ⟨x, ⟨hx, hk⟩, fun y ⟨hy, hyk⟩ => ?_⟩
    exact Table.eq_of_clash Transaction.Clash.symm hy hx (.inr (hyk.trans hk.symm))
  · have h' := run_kept start choices'
    exact countersOf_eq start.counted h.counted h'.counted h.witnessed h'.witnessed hs hcons phone

def emptyLedger : Ledger := ⟨.empty, nofun, nofun⟩

def saleOf (phone : String) (occurredAt : Time) (customerId transactionId : Uuid) : Call :=
  ⟨1, 1, ⟨"X", 100, "INR", occurredAt, some phone, none, none⟩, customerId, transactionId⟩

def inOrder (a b : Call) : List StoreChoice :=
  [.begin a, .advance 0, .advance 0, .advance 0, .commit 0, .begin b, .advance 1, .advance 1,
    .advance 1, .commit 1]

/-- A repeated delivery counts once. -/
theorem sales_exactly_once_repeated :
    (run Store.step ⟨emptyLedger.db, []⟩
    (inOrder (saleOf "+911" 1 10 11) (saleOf "+911" 1 20 21))).db.countersOf "+911" =
      (run Store.step ⟨emptyLedger.db, []⟩
      [.begin (saleOf "+911" 1 10 11), .advance 0, .advance 0, .advance 0,
        .commit 0]).db.countersOf "+911" := by
  have hcalls : committedCalls
    (storeRun emptyLedger.db (inOrder (saleOf "+911" 1 10 11) (saleOf "+911" 1 20 21))) =
      [saleOf "+911" 1 10 11, saleOf "+911" 1 20 21] := by decide
  have hcalls' : committedCalls
    (storeRun emptyLedger.db [.begin (saleOf "+911" 1 10 11), .advance 0, .advance 0,
      .advance 0, .commit 0]) = [saleOf "+911" 1 10 11] := by decide
  have hsame : (saleOf "+911" 1 20 21).delivery = (saleOf "+911" 1 10 11).delivery := by decide
  apply (sales_exactly_once emptyLedger _).2.2
  · intro d
    rw [hcalls, hcalls']
    simp [hsame]
  · rw [hcalls]
    simp [Consistent, hsame]

/-- One id delivered with two phones: the first delivery counts. -/
theorem first_delivery_counts : ¬ ∀ (start : Ledger) choices choices',
    SameDeliveries (committedCalls (storeRun start.db choices))
    (committedCalls (storeRun start.db choices')) →
    ∀ phone, (run Store.step ⟨start.db, []⟩ choices).db.countersOf phone =
      (run Store.step ⟨start.db, []⟩ choices').db.countersOf phone := by
  intro h
  let a := saleOf "+911" 1 10 11
  let b := saleOf "+912" 2 20 21
  have hab : committedCalls (storeRun emptyLedger.db (inOrder a b)) = [a, b] := by decide
  have hba : committedCalls (storeRun emptyLedger.db (inOrder b a)) = [b, a] := by decide
  have hsame : SameDeliveries (committedCalls (storeRun emptyLedger.db (inOrder a b)))
      (committedCalls (storeRun emptyLedger.db (inOrder b a))) := by
    intro d
    rw [hab, hba]
    simp [or_comm]
  have hcount := h emptyLedger _ _ hsame "+911"
  revert hcount
  decide

end Order

section Orphans

variable {db db' : Database} {call : Call} {t : StoreTransition} {choices : List StoreChoice}

def Database.Referenced (db : Database) : Prop :=
  ∀ c ∈ db.customers, ∃ x ∈ db.transactions, x.customer = some c.id

/-- The step commits a duplicate sale with a phone that has no customer. -/
def StoreTransition.OrphanDuplicate (t : StoreTransition) : Prop :=
  ∃ call phone, t.committed = some call ∧ (∃ x ∈ t.before.db.transactions, x.key = call.key) ∧
    call.sale.customerPhone = some phone ∧ ∀ c ∈ t.before.db.customers, c.phone ≠ phone

theorem RecordedBy.referenced (h : RecordedBy call db db') (hr : db.Referenced)
    (hno : ∀ phone, (∃ x ∈ db.transactions, x.key = call.key) →
      call.sale.customerPhone = some phone →
      ∃ c ∈ db.customers, c.phone = phone) : db'.Referenced := by
  cases h with
  | @sold customer customers transactions named inserted =>
    intro b hb
    obtain ⟨a, ha, hid, -, -⟩ := mem_countStep hb
    have hold : ∀ c ∈ db.customers, c.id = b.id → ∃ x ∈ transactions, x.customer = some b.id := by
      intro c hc hcid
      obtain ⟨x, hx, hxc⟩ := hr c hc
      exact ⟨x, (Table.mem_insert? inserted).mpr (.inl hx), hcid ▸ hxc⟩
    cases named with
    | anonymous phone => exact hold a ha hid
    | known isPhone mem same => exact hold a ha hid
    | created isPhone hins =>
      rcases (Table.mem_insert? hins).mp ha with ha | rfl
      · exact hold a ha hid
      · exact ⟨_, (Table.mem_insert? inserted).mpr (.inr rfl), congrArg some hid⟩
  | @duplicate customer customers x named mem key =>
    cases named with
    | anonymous phone => exact hr
    | known isPhone mem same => exact hr
    | created isPhone hins =>
      obtain ⟨c, hc, hph⟩ := hno _ ⟨x, mem, key⟩ isPhone
      exact absurd (.inr hph) ((Table.insert?_eq_some.mp hins).1 c hc)

theorem RecordedBy.orphan (h : RecordedBy call db db') (hc : db.Counted) {phone : String}
    (hdup : ∃ x ∈ db.transactions, x.key = call.key) (hp : call.sale.customerPhone = some phone)
    (hno : ∀ c ∈ db.customers, c.phone ≠ phone) : ¬ db'.Referenced := by
  cases h with
  | sold named inserted =>
    obtain ⟨x, hx, hk⟩ := hdup
    exact absurd (.inr hk) ((Table.insert?_eq_some.mp inserted).1 x hx)
  | duplicate named mem key =>
    cases named with
    | anonymous hnone =>
      rw [hp] at hnone
      cases hnone
    | known isPhone hmem same =>
      rw [hp, Option.some.injEq] at isPhone
      exact absurd (same.trans isPhone.symm) (hno _ hmem)
    | created isPhone hins =>
      intro href
      obtain ⟨y, hy, hyc⟩ := href _ ((Table.mem_insert? hins).mpr (.inr rfl))
      obtain ⟨c, hcm, hid⟩ := hc.refers y hy _ hyc
      exact (Table.insert?_eq_some.mp hins).1 c hcm (.inl hid)

theorem step_committed_cases (hs : t.before.Sound)
    (ht : t = transition Store.step t.before t.label) :
    (t.committed = none ∧ t.after.db = t.before.db) ∨
      ∃ call, t.committed = some call ∧ RecordedBy call t.before.db t.after.db := by
  have h := step_refines t.before t.label hs
  have hafter : t.after = t.before.step t.label := congrArg Transition.after ht
  rw [← ht] at h
  cases hc : t.committed with
  | none =>
    simp only [hc] at h
    exact .inl ⟨rfl, hafter ▸ h⟩
  | some call =>
    simp only [hc] at h
    obtain ⟨r, hr⟩ := h
    exact .inr ⟨call, rfl, hafter ▸ recorded_by hr⟩

theorem run_counted (start : Ledger) :
    ∀ t ∈ storeRun start.db choices, t.before.Sound ∧ t.before.db.Counted := by
  have hstep : ∀ s choice, Store.Sound s ∧ s.db.Counted →
      (s.step choice).Sound ∧ (s.step choice).db.Counted := by
    rintro s choice ⟨hs, hc⟩
    refine ⟨step_sound s choice hs, ?_⟩
    rcases step_committed_cases (t := transition Store.step s choice) hs rfl with ⟨-, heq⟩ |
      ⟨call, -, hrec⟩
    · exact heq.symm ▸ hc
    · exact hrec.counted hc
  exact reachable_invariant (I := fun s : Store => s.Sound ∧ s.db.Counted)
    ⟨⟨RowLocks.Exclusive.nil, by simp⟩, start.counted⟩ hstep

theorem referenced_iff :
    (∀ t ∈ storeRun Database.empty choices, t.after.db.Referenced) ↔
      ∀ t ∈ storeRun Database.empty choices, ¬ t.OrphanDuplicate := by
  have hinv : ∀ t ∈ storeRun Database.empty choices, t.before.Sound ∧ t.before.db.Counted :=
    run_counted emptyLedger
  constructor
  · rintro h t ht ⟨call, phone, hc, hdup, hp, hno⟩
    obtain ⟨hs, hcounted⟩ := hinv t ht
    rcases step_committed_cases hs (trace_step ht) with ⟨hnone, -⟩ | ⟨call', hc', hrec⟩
    · rw [hnone] at hc
      cases hc
    · obtain rfl := Option.some.inj (hc.symm.trans hc')
      exact hrec.orphan hcounted hdup hp hno (h t ht)
  · intro h t ht
    have hstep : ∀ s choice, Store.Sound s ∧ s.db.Referenced →
        ¬ StoreTransition.OrphanDuplicate (transition Store.step s choice) →
        (s.step choice).Sound ∧ (s.step choice).db.Referenced := by
      rintro s choice ⟨hs, hr⟩ hno
      refine ⟨step_sound s choice hs, ?_⟩
      rcases step_committed_cases (t := transition Store.step s choice) hs rfl with ⟨-, heq⟩ |
        ⟨call, hc, hrec⟩
      · exact heq.symm ▸ hr
      · refine hrec.referenced hr fun phone hdup hp => ?_
        by_contra hnone
        exact hno ⟨call, phone, hc, hdup, hp, fun c hcm hph => hnone ⟨c, hcm, hph⟩⟩
    have hbefore := trace_invariant (I := fun s : Store => s.Sound ∧ s.db.Referenced)
      (C := fun t => ¬ StoreTransition.OrphanDuplicate t)
        ⟨⟨RowLocks.Exclusive.nil, by simp⟩, fun c hc => absurd hc List.not_mem_nil⟩ hstep h t ht
    have heq := trace_step ht
    have hafter := (hstep t.before t.label hbefore (heq ▸ h t ht)).2
    rw [heq]
    exact hafter

/-- A duplicate sale is a no-op if and only if its phone, if any, has a customer already. Runs that
commit no other duplicates keep a transaction for every customer, and only they do. -/
theorem duplicate_sale_noop (choices : List StoreChoice) :
    (∀ call db x, Database.sold db call.key = some x →
      (recordSale.run call ⟨db, ()⟩ = (.ok (x, false), ⟨db, ()⟩) ↔
        ∀ phone, call.sale.customerPhone = some phone → ∃ c ∈ db.customers, c.phone = phone)) ∧
    ((∀ t ∈ storeRun Database.empty choices, t.after.db.Referenced) ↔
      ∀ t ∈ storeRun Database.empty choices, ¬ t.OrphanDuplicate) :=
  ⟨fun _ _ _ h => duplicate_noop_iff h, referenced_iff⟩

def soldOnce : Call := saleOf "+919876543210" 1 10 11
def soldAgain : Call := saleOf "+919876543210" 1 20 21

theorem duplicate_sale_noop_known :
    (recordSale.run soldAgain ⟨(run Store.step ⟨.empty, []⟩
      (inOrder soldOnce soldAgain)).db, ()⟩).2.data.customers.rows.length = 1 := by
  have hsold : Database.sold (run Store.step ⟨.empty, []⟩ (inOrder soldOnce soldAgain)).db
      soldAgain.key = some (soldOnce.newTransaction
        (some (soldOnce.newCustomer "+919876543210"))) := by decide
  rw [((duplicate_sale_noop []).1 _ _ _ hsold).mpr]
  · decide
  · intro phone hp
    obtain rfl := Option.some.inj hp
    have hknown : (soldOnce.newCustomer "+919876543210").seen 1 ∈
        (run Store.step ⟨.empty, []⟩ (inOrder soldOnce soldAgain)).db.customers.rows := by decide
    exact ⟨(soldOnce.newCustomer "+919876543210").seen 1, hknown, rfl⟩

/-- A sale delivered again with another phone leaves a customer without a transaction. -/
theorem duplicate_creates_customer : ¬ ((∀ call db x, Database.sold db call.key = some x →
      recordSale.run call ⟨db, ()⟩ = (.ok (x, false), ⟨db, ()⟩)) ∧
    ∀ choices, ∀ t ∈ storeRun Database.empty choices, t.after.db.Referenced) := by
  rintro ⟨-, h⟩
  let choices := inOrder (saleOf "+919876543210" 1 10 11) (saleOf "+919876543211" 2 20 21)
  let t := (storeRun Database.empty choices).get ⟨9, by decide⟩
  have hcustomer :
      (saleOf "+919876543211" 2 20 21).newCustomer "+919876543211" ∈ t.after.db.customers := by
    have hmem : (saleOf "+919876543211" 2 20 21).newCustomer "+919876543211" ∈
        t.after.db.customers.rows := by decide
    exact hmem
  obtain ⟨x, hx, hxc⟩ := h choices t (List.get_mem _ _) _ hcustomer
  have hnone : ∀ x ∈ t.after.db.transactions.rows, x.customer ≠ some 20 := by decide
  exact hnone x hx hxc

end Orphans

end ReviewFlow.Sales
