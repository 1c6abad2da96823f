import ReviewFlow.Interleaving
import ReviewFlow.RowLocks
import ReviewFlow.Sales.RecordSale

/-!
# Calls of `record_sale` under row locks

A call runs statement by statement, as PostgreSQL does at READ COMMITTED: an insert whose key
another transaction has inserted and not committed waits for it, the counter update locks its
row and takes the committed values of it, and the rows of a call are seen by others once it
commits. A call that commits leaves what `record_sale` leaves when it runs alone.
-/

namespace ReviewFlow.Sales

open Savepoint Tables Interleaving RowLocks

inductive Stage where
  | begun
  | named
  | sold
  | counted
  | closed
  deriving DecidableEq

/-- A transaction with the rows it has inserted and the row it has updated. -/
structure Tx where
  call : Call
  stage : Stage
  newCustomer : Option Customer
  customer : Option Customer
  newTransaction : Option Transaction
  written : Option Customer

inductive Lock where
  | phone (phone : String)
  | customerId (k : Uuid)
  | key (key : Key)
  | transactionId (k : Uuid)
  | row (k : Uuid)

def Tx.holds (tx : Tx) : Lock → Bool
  | .phone phone => tx.newCustomer.any (·.phone == phone)
  | .customerId k => tx.newCustomer.any (·.id == k)
  | .key key => tx.newTransaction.any (·.key == key)
  | .transactionId k => tx.newTransaction.any (·.id == k)
  | .row k => tx.newCustomer.isNone && tx.written.any (·.id == k)

def Tx.begin (call : Call) : Tx := ⟨call, .begun, none, none, none, none⟩

def Tx.close (tx : Tx) : Tx := ⟨tx.call, .closed, none, none, none, none⟩

structure Store where
  db : Database
  txs : List Tx

inductive StoreChoice where
  | begin (call : Call)
  | advance (i : ℕ)
  | commit (i : ℕ)
  | rollback (i : ℕ)

def Store.free (s : Store) (i : ℕ) (lock : Lock) : Bool := RowLocks.free Tx.holds s.txs i lock

def Store.next (s : Store) (i : ℕ) (tx : Tx) : Tx :=
  match tx.stage with
  | .begun => match tx.call.sale.customerPhone with
    | none => { tx with stage := .named }
    | some phone =>
      if (s.db.customers.insert? (tx.call.newCustomer phone)).isNone then
        match s.db.customerOf phone with
        | some c => { tx with stage := .named, customer := some c }
        | none => tx.close
      else if s.free i (.phone phone) && s.free i (.customerId tx.call.customerId) then
        { tx with
          stage := .named
          newCustomer := some (tx.call.newCustomer phone)
          customer := some (tx.call.newCustomer phone) }
      else tx
  | .named =>
    if (s.db.transactions.insert? (tx.call.newTransaction tx.customer)).isNone then
      match s.db.sold tx.call.key with
      | some _ => { tx with stage := .sold }
      | none => tx.close
    else if s.free i (.key tx.call.key) && s.free i (.transactionId tx.call.transactionId) then
      { tx with stage := .sold, newTransaction := some (tx.call.newTransaction tx.customer) }
    else tx
  | .sold => match tx.customer, tx.newTransaction with
    | some c, some _ => match tx.newCustomer with
      | some own =>
        { tx with stage := .counted, written := some (own.seen tx.call.sale.occurredAt) }
      | none =>
        if s.free i (.row c.id) then
          { tx with
            stage := .counted
            written := (s.db.customers.find? (·.id == c.id)).map (·.seen tx.call.sale.occurredAt) }
        else tx
    | _, _ => { tx with stage := .counted }
  | .counted => tx
  | .closed => tx

/-- The counter columns of a row as an `UPDATE` left them. -/
def Customer.written (w : Customer) (c : Customer) : Customer :=
  { c with
    totalTransactions := w.totalTransactions
    firstSeenAt := w.firstSeenAt
    lastSeenAt := w.lastSeenAt }

def Customers.write (customers : Customers) (w : Customer) : Customers :=
  customers.update (fun c => if c.id = w.id then w.written c else c) fun a b h => by
    simp only [Customer.Clash] at h ⊢
    split at h <;> split at h <;> exact h

def Database.commit (db : Database) (tx : Tx) : Database where
  customers :=
    let customers := (tx.newCustomer.bind db.customers.insert?).getD db.customers
    (tx.written.map (Customers.write customers)).getD customers
  transactions := (tx.newTransaction.bind db.transactions.insert?).getD db.transactions

def Store.step (s : Store) : StoreChoice → Store
  | .begin call => { s with txs := s.txs ++ [.begin call] }
  | .advance i => match s.txs[i]? with
    | some tx => { s with txs := s.txs.set i (s.next i tx) }
    | none => s
  | .commit i => match s.txs[i]? with
    | some tx => if tx.stage = .counted then ⟨s.db.commit tx, s.txs.set i tx.close⟩ else s
    | none => s
  | .rollback i => match s.txs[i]? with
    | some tx => { s with txs := s.txs.set i tx.close }
    | none => s

abbrev StoreTransition := Interleaving.Transition Store StoreChoice

def storeRun (db : Database) (choices : List StoreChoice) : List StoreTransition :=
  trace Store.step ⟨db, []⟩ choices

def StoreTransition.committed (t : StoreTransition) : Option Call :=
  match t.label with
  | .commit i => (t.before.txs[i]?.filter fun tx => tx.stage == .counted).map Tx.call
  | _ => none

section Commit

variable {db : Database} {tx : Tx} {c b w : Customer} {t : Time}

theorem Customers.mem_write {customers : Customers} :
    b ∈ customers.write w ↔
      ∃ a ∈ customers, (if a.id = w.id then w.written a else a) = b := Table.mem_update

theorem Customers.count_eq_write {customers : Customers} (hb : b ∈ customers) :
    customers.count b.id t = customers.write (b.seen t) := by
  apply Table.ext
  apply List.map_congr_left
  intro a ha
  by_cases hid : a.id = b.id
  · obtain rfl : a = b := Table.eq_of_clash Customer.Clash.symm ha hb (.inl hid)
    simp [Customer.seen, Customer.written]
  · simp [hid, Customer.seen]

def Tx.Named (db : Database) (tx : Tx) : Prop :=
  match tx.call.sale.customerPhone with
  | none => tx.newCustomer = none ∧ tx.customer = none
  | some phone =>
    (tx.newCustomer = some (tx.call.newCustomer phone) ∧
      tx.customer = some (tx.call.newCustomer phone) ∧
      ∀ b ∈ db.customers, ¬ b.Clash (tx.call.newCustomer phone)) ∨
    (tx.newCustomer = none ∧ ∃ c, tx.customer = some c ∧
      ∃ b ∈ db.customers, b.id = c.id ∧ b.phone = phone)

def Tx.Sold (db : Database) (tx : Tx) : Prop :=
  (tx.newTransaction = some (tx.call.newTransaction tx.customer) ∧
    ∀ x ∈ db.transactions, ¬ x.Clash (tx.call.newTransaction tx.customer)) ∨
  (tx.newTransaction = none ∧ ∃ x ∈ db.transactions, x.key = tx.call.key)

def Tx.Counted (db : Database) (tx : Tx) : Prop :=
  match tx.customer, tx.newTransaction with
  | some c, some _ => match tx.newCustomer with
    | some own => tx.written = some (own.seen tx.call.sale.occurredAt)
    | none => ∃ b ∈ db.customers, b.id = c.id ∧ tx.written = some (b.seen tx.call.sale.occurredAt)
  | _, _ => tx.written = none

def Tx.Sound (db : Database) (tx : Tx) : Prop :=
  match tx.stage with
  | .begun | .closed =>
    tx.newCustomer = none ∧ tx.customer = none ∧ tx.newTransaction = none ∧ tx.written = none
  | .named => tx.Named db ∧ tx.newTransaction = none ∧ tx.written = none
  | .sold => tx.Named db ∧ tx.Sold db ∧ tx.written = none
  | .counted => tx.Named db ∧ tx.Sold db ∧ tx.Counted db

theorem insert?_of_noClash {customers : Customers} (h : ∀ b ∈ customers, ¬ b.Clash c) :
    ∃ customers', customers.insert? c = some customers' := by
  cases hi : customers.insert? c with
  | some customers' => exact ⟨customers', rfl⟩
  | none =>
    obtain ⟨b, hb, hclash⟩ := Table.insert?_eq_none.mp hi
    exact absurd hclash (h b hb)

theorem Tx.Sold.transactionStep (h : tx.Sold db) : ∃ x, transactionStep tx.call db tx.customer =
    some (x, tx.newTransaction.isSome, (db.commit tx).transactions) := by
  unfold Sales.transactionStep Database.commit
  rcases h with ⟨hnew, hno⟩ | ⟨hnone, x, hx, hk⟩
  · cases hi : db.transactions.insert? (tx.call.newTransaction tx.customer) with
    | some transactions => simp [hnew, hi]
    | none =>
      obtain ⟨b, hb, hclash⟩ := Table.insert?_eq_none.mp hi
      exact absurd hclash (hno b hb)
  · have hi : db.transactions.insert? (tx.call.newTransaction tx.customer) = none :=
      Table.insert?_eq_none.mpr ⟨x, hx, .inr hk⟩
    exact ⟨x, by simp [hi, hnone, sold_eq_some.mpr ⟨hx, hk⟩]⟩

theorem commit_recorded (h : tx.Named db) (hs : tx.Sold db) (hc : tx.Counted db) :
    ∃ x, recorded tx.call db = some ((x, tx.newTransaction.isSome), db.commit tx) := by
  obtain ⟨x, hx⟩ := hs.transactionStep
  refine ⟨x, ?_⟩
  -- The customer instance of the call and the committed row have one key.
  have hstep : ∃ customer customers, customerStep tx.call db = some (customer, customers) ∧
      customer.map Customer.id = tx.customer.map Customer.id ∧
      countStep tx.call customer tx.newTransaction.isSome customers = (db.commit tx).customers := by
    unfold Tx.Named at h
    unfold Tx.Counted at hc
    cases hp : tx.call.sale.customerPhone with
    | none =>
      rw [hp] at h
      obtain ⟨hnew, hcust⟩ := h
      rw [hcust] at hc
      refine ⟨none, db.customers, by rw [customerStep, hp], by rw [hcust], ?_⟩
      have hw : tx.written = none := hc
      simp [countStep, Database.commit, hnew, hw]
    | some phone =>
      rw [hp] at h
      rcases h with ⟨hnew, hcust, hno⟩ | ⟨hnew, c, hcust, b, hb, hid, hphone⟩
      · obtain ⟨customers, hi⟩ := insert?_of_noClash hno
        refine ⟨some (tx.call.newCustomer phone), customers, ?_, by rw [hcust], ?_⟩
        · rw [customerStep, hp]
          simp only [hi]
        rw [hcust, hnew] at hc
        have hmem : tx.call.newCustomer phone ∈ customers := (Table.mem_insert? hi).mpr (.inr rfl)
        cases hn : tx.newTransaction with
        | none =>
          rw [hn] at hc
          have hw : tx.written = none := hc
          simp [countStep, Database.commit, hnew, hi, hw]
        | some y =>
          rw [hn] at hc
          have hw : tx.written =
            some ((tx.call.newCustomer phone).seen tx.call.sale.occurredAt) := hc
          simp [countStep, Database.commit, hnew, hi, hw, Customers.count_eq_write hmem]
      · have hi : db.customers.insert? (tx.call.newCustomer phone) = none :=
          Table.insert?_eq_none.mpr ⟨b, hb, .inr hphone⟩
        refine ⟨some b, db.customers, ?_, by rw [hcust]; exact congrArg some hid, ?_⟩
        · rw [customerStep, hp]
          simp only [hi, customerOf_eq_some.mpr ⟨hb, hphone⟩, Option.map_some]
        rw [hcust, hnew] at hc
        cases hn : tx.newTransaction with
        | none =>
          rw [hn] at hc
          have hw : tx.written = none := hc
          simp [countStep, Database.commit, hnew, hw]
        | some y =>
          rw [hn] at hc
          obtain ⟨b', hb', hid', hw⟩ := hc
          obtain rfl : b' = b :=
            Table.eq_of_clash Customer.Clash.symm hb' hb (.inl (hid'.trans hid.symm))
          simp [countStep, Database.commit, hnew, hw, Customers.count_eq_write hb']
  obtain ⟨customer, customers, hcs, hids, hcount⟩ := hstep
  have hsame : transactionStep tx.call db customer = transactionStep tx.call db tx.customer := by
    have hnew : tx.call.newTransaction customer = tx.call.newTransaction tx.customer := by
      simp [Call.newTransaction, hids]
    unfold transactionStep
    rw [hnew]
  unfold recorded
  rw [hcs, Option.bind_some]
  simp only [hsame, hx, Option.map_some, hcount]

end Commit

section Soundness

variable {db : Database} {s : Store} {tx other : Tx} {c b a w : Customer}
    {x y : Transaction} {i : ℕ}

theorem mem_commit_customers (h : b ∈ (db.commit tx).customers) :
    ∃ a, (a ∈ db.customers ∨ tx.newCustomer = some a) ∧ b.id = a.id ∧ b.phone = a.phone := by
  have old : ∀ {a}, a ∈ (tx.newCustomer.bind db.customers.insert?).getD db.customers →
      a ∈ db.customers ∨ tx.newCustomer = some a := by
    intro a ha
    cases hn : tx.newCustomer with
    | none => rw [hn] at ha; exact .inl ha
    | some c =>
      rw [hn, Option.bind_some] at ha
      cases hi : db.customers.insert? c with
      | none => rw [hi] at ha; exact .inl ha
      | some customers =>
        rw [hi] at ha
        rcases (Table.mem_insert? hi).mp ha with ha | rfl
        · exact .inl ha
        · exact .inr rfl
  unfold Database.commit at h
  cases hw : tx.written with
  | none =>
    rw [hw] at h
    exact ⟨b, old h, rfl, rfl⟩
  | some w =>
    rw [hw] at h
    obtain ⟨a, ha, hab⟩ := Customers.mem_write.mp h
    refine ⟨a, old ha, ?_⟩
    rw [← hab]
    split <;> exact ⟨rfl, rfl⟩

theorem commit_customers_of_mem (h : a ∈ db.customers) :
    (∃ b ∈ (db.commit tx).customers, b.id = a.id ∧ b.phone = a.phone) ∧
      ((∀ w, tx.written = some w → w.id ≠ a.id) → a ∈ (db.commit tx).customers) := by
  have stays : a ∈ (tx.newCustomer.bind db.customers.insert?).getD db.customers := by
    cases hn : tx.newCustomer with
    | none => exact h
    | some c =>
      rw [Option.bind_some]
      cases hi : db.customers.insert? c with
      | none => exact h
      | some customers => exact (Table.mem_insert? hi).mpr (.inl h)
  unfold Database.commit
  cases hw : tx.written with
  | none => exact ⟨⟨a, stays, rfl, rfl⟩, fun _ => stays⟩
  | some w =>
    refine ⟨⟨_, Customers.mem_write.mpr ⟨a, stays, rfl⟩, ?_⟩,
      fun hne => Customers.mem_write.mpr ⟨a, stays, ?_⟩⟩
    · split <;> exact ⟨rfl, rfl⟩
    · rw [if_neg fun heq => hne w rfl heq.symm]

theorem mem_commit_transactions (h : y ∈ (db.commit tx).transactions) :
    y ∈ db.transactions ∨ tx.newTransaction = some y := by
  unfold Database.commit at h
  cases hn : tx.newTransaction with
  | none => rw [hn] at h; exact .inl h
  | some x =>
    rw [hn] at h
    change y ∈ (db.transactions.insert? x).getD db.transactions at h
    cases hi : db.transactions.insert? x with
    | none => rw [hi] at h; exact .inl h
    | some transactions =>
      rw [hi] at h
      rcases (Table.mem_insert? hi).mp h with h | rfl
      · exact .inl h
      · exact .inr rfl

theorem commit_transactions_of_mem (h : y ∈ db.transactions) : y ∈ (db.commit tx).transactions := by
  unfold Database.commit
  cases hn : tx.newTransaction with
  | none => exact h
  | some x =>
    change y ∈ (db.transactions.insert? x).getD db.transactions
    cases hi : db.transactions.insert? x with
    | none => exact h
    | some transactions => exact (Table.mem_insert? hi).mpr (.inl h)

def Apart (tx other : Tx) : Prop := ∀ l, tx.holds l = true → other.holds l = false

theorem Named.commit (h : tx.Named db) (ha : Apart tx other) : tx.Named (db.commit other) := by
  unfold Tx.Named at h ⊢
  split at h
  · exact h
  case h_2 phone hp =>
    rcases h with ⟨hnew, hcust, hno⟩ | ⟨hnew, c, hcust, b, hb, hid, hphone⟩
    · refine .inl ⟨hnew, hcust, fun b hb hclash => ?_⟩
      obtain ⟨a, hor, hid, hph⟩ := mem_commit_customers hb
      rcases hor with hmem | hother
      · exact hno a hmem (hclash.imp (hid.symm.trans ·) (hph.symm.trans ·))
      · rcases hclash with hk | hk
        · have := ha (.customerId a.id) (by simp [Tx.holds, hnew, ← hk, hid])
          simp [Tx.holds, hother] at this
        · have := ha (.phone a.phone) (by simp [Tx.holds, hnew, ← hk, hph])
          simp [Tx.holds, hother] at this
    · obtain ⟨b', hb', hid', hph'⟩ : ∃ b' ∈ (db.commit other).customers, b'.id = b.id ∧
          b'.phone = b.phone :=
        (commit_customers_of_mem hb).1
      exact .inr ⟨hnew, c, hcust, b', hb', hid'.trans hid, hph'.trans hphone⟩

theorem Sold.commit (h : tx.Sold db) (ha : Apart tx other) : tx.Sold (db.commit other) := by
  rcases h with ⟨hnew, hno⟩ | ⟨hnone, x, hx, hk⟩
  · refine .inl ⟨hnew, fun y hy hclash => ?_⟩
    rcases mem_commit_transactions hy with hmem | hother
    · exact hno y hmem hclash
    · rcases hclash with hk | hk
      · have := ha (.transactionId y.id) (by simp [Tx.holds, hnew, ← hk])
        simp [Tx.holds, hother] at this
      · have := ha (.key y.key) (by simp [Tx.holds, hnew, ← hk])
        simp [Tx.holds, hother] at this
  · exact .inr ⟨hnone, x, commit_transactions_of_mem hx, hk⟩

theorem written_cases (hn : other.Named db) (hc : other.Counted db) (hw : other.written = some w) :
    other.holds (.row w.id) = true ∨ ∀ b ∈ db.customers, b.id ≠ w.id := by
  unfold Tx.Counted at hc
  cases hcust : other.customer with
  | none => simp [hcust, hw] at hc
  | some c =>
    cases ht : other.newTransaction with
    | none => simp [hcust, ht, hw] at hc
    | some x =>
      cases hnew : other.newCustomer with
      | none => exact .inl (by simp [Tx.holds, hnew, hw])
      | some own =>
        right
        simp only [hcust, ht, hnew, hw, Option.some.injEq] at hc
        unfold Tx.Named at hn
        split at hn
        · rw [hn.1] at hnew
          cases hnew
        · rcases hn with ⟨hown, -, hno⟩ | ⟨hnone, -⟩
          · rw [hown] at hnew
            cases hnew
            intro b hb hid
            apply hno b hb
            left
            rw [hid, hc]
            rfl
          · rw [hnone] at hnew
            cases hnew

theorem Counted.commit (h : tx.Counted db) (ha : Apart tx other) (hn : other.Named db)
    (hc : other.Counted db) :
    tx.Counted (db.commit other) := by
  unfold Tx.Counted at h ⊢
  split
  case h_1 c x hcust htrans =>
    simp only [hcust, htrans] at h
    split
    case h_1 own hown => simpa [hown] using h
    case h_2 hnone =>
      simp only [hnone] at h
      obtain ⟨b, hb, hid, hw⟩ := h
      refine ⟨b, (commit_customers_of_mem hb).2 fun w hother heq => ?_, hid, hw⟩
      rcases written_cases hn hc hother with hlock | hno
      · have := ha (.row w.id) (by simp [Tx.holds, hnone, hw, heq, Customer.seen])
        rw [hlock] at this
        cases this
      · exact hno b hb heq.symm
  case h_2 hno =>
    split at h
    case h_1 c x hcust htrans => exact absurd htrans (hno c x hcust)
    · exact h

theorem Sound.commit (h : tx.Sound db) (ha : Apart tx other) (ho : other.Sound db)
    (hs : other.stage = .counted) :
    tx.Sound (db.commit other) := by
  simp only [Tx.Sound, hs] at ho
  cases hst : tx.stage with
  | begun => simpa only [Tx.Sound, hst] using h
  | closed => simpa only [Tx.Sound, hst] using h
  | named =>
    simp only [Tx.Sound, hst] at h ⊢
    exact ⟨Named.commit h.1 ha, h.2⟩
  | sold =>
    simp only [Tx.Sound, hst] at h ⊢
    exact ⟨Named.commit h.1 ha, Sold.commit h.2.1 ha, h.2.2⟩
  | counted =>
    simp only [Tx.Sound, hst] at h ⊢
    exact ⟨Named.commit h.1 ha, Sold.commit h.2.1 ha, Counted.commit h.2.2 ha ho.1 ho.2.2⟩

theorem sound_close : (tx.close).Sound db := ⟨rfl, rfl, rfl, rfl⟩

theorem sound_next (h : tx.Sound s.db) : (s.next i tx).Sound s.db := by
  unfold Tx.Sound at h
  unfold Store.next
  split at h
  case h_1 hstage =>
    obtain ⟨hnew, hcust, htrans, hw⟩ := h
    simp only [hstage]
    split
    case h_1 hp =>
      exact ⟨by unfold Tx.Named; simp [hp, hnew, hcust], htrans, hw⟩
    case h_2 phone hp =>
      split
      · split
        case h_1 c hc =>
          obtain ⟨hmem, hphone⟩ := customerOf_eq_some.mp hc
          refine ⟨?_, htrans, hw⟩
          unfold Tx.Named
          simp only [hp]
          exact .inr ⟨hnew, c, rfl, c, hmem, rfl, hphone⟩
        · exact sound_close
      case isFalse hclash =>
        split
        · refine ⟨?_, htrans, hw⟩
          unfold Tx.Named
          simp only [hp]
          refine .inl ⟨trivial, trivial, fun b hb hcl => hclash ?_⟩
          rw [Table.insert?_eq_none.mpr ⟨b, hb, hcl⟩]
          rfl
        · unfold Tx.Sound
          rw [hstage]
          exact ⟨hnew, hcust, htrans, hw⟩
  case h_2 hstage =>
    simp only [hstage]
    unfold Tx.Sound
    rw [hstage]
    exact h
  case h_3 hstage =>
    obtain ⟨hn, htrans, hw⟩ := h
    simp only [hstage]
    split
    · split
      case h_1 x hx =>
        obtain ⟨hmem, hk⟩ := sold_eq_some.mp hx
        exact ⟨hn, .inr ⟨htrans, x, hmem, hk⟩, hw⟩
      · exact sound_close
    case isFalse hclash =>
      split
      · refine ⟨hn, .inl ⟨rfl, fun y hy hcl => hclash ?_⟩, hw⟩
        rw [Table.insert?_eq_none.mpr ⟨y, hy, hcl⟩]
        rfl
      · unfold Tx.Sound
        rw [hstage]
        exact ⟨hn, htrans, hw⟩
  case h_4 hstage =>
    obtain ⟨hn, hs, hw⟩ := h
    simp only [hstage]
    split
    case h_1 c x hcust htrans =>
      split
      case h_1 own hown =>
        refine ⟨hn, hs, ?_⟩
        unfold Tx.Counted
        simp only [hcust, htrans, hown]
      case h_2 hnone =>
        split
        · refine ⟨hn, hs, ?_⟩
          unfold Tx.Counted
          simp only [hcust, htrans, hnone]
          unfold Tx.Named at hn
          split at hn
          · rw [hn.2] at hcust
            cases hcust
          · rcases hn with ⟨hsome, -⟩ | ⟨-, c', hc', b, hb, hid, -⟩
            · rw [hsome] at hnone
              cases hnone
            · obtain rfl : c' = c := Option.some.inj (hc'.symm.trans hcust)
              refine ⟨b, hb, hid, ?_⟩
              have key : ∀ a a' : Customer, (a.id == c'.id) = true →
                  (a'.id == c'.id) = true → a.Clash a' :=
                fun a a' h h' => .inl ((beq_iff_eq.mp h).trans (beq_iff_eq.mp h').symm)
              rw [Table.find?_eq_some_of_mem (p := (·.id == c'.id)) Customer.Clash.symm hb
                (beq_iff_eq.mpr hid) key]
              rfl
        · unfold Tx.Sound
          rw [hstage]
          exact ⟨hn, hs, hw⟩
    case h_2 hno =>
      refine ⟨hn, hs, ?_⟩
      unfold Tx.Counted
      split
      case h_1 c x hcust htrans => exact absurd htrans (hno c x hcust)
      · exact hw
  case h_5 hstage =>
    simp only [hstage]
    unfold Tx.Sound
    rw [hstage]
    exact h

structure Store.Sound (s : Store) : Prop where
  exclusive : Exclusive Tx.holds s.txs
  sound : ∀ (i : ℕ) (tx : Tx), s.txs[i]? = some tx → tx.Sound s.db

theorem Exclusive.apart {txs : List Tx} (h : Exclusive Tx.holds txs) {j : ℕ}
    (hi : txs[i]? = some tx)
    (hj : txs[j]? = some other) (hne : i ≠ j) : Apart tx other := by
  intro l hl
  by_contra hno
  exact hne (h i j tx other l hi hj hl (by simpa using hno))

theorem next_holds (l : Lock) (hl : (s.next i tx).holds l = true) :
    tx.holds l = true ∨ RowLocks.free Tx.holds s.txs i l = true := by
  unfold Store.next at hl
  split at hl
  case h_1 hstage =>
    split at hl
    · exact .inl hl
    · split at hl
      · split at hl
        · exact .inl hl
        · cases l <;> cases hl
      · split at hl
        case isTrue hfree =>
          rw [Bool.and_eq_true] at hfree
          cases l with
          | phone phone =>
            simp only [Tx.holds, Option.any_some, Call.newCustomer, beq_iff_eq] at hl
            exact .inr (hl ▸ hfree.1)
          | customerId k =>
            simp only [Tx.holds, Option.any_some, Call.newCustomer, beq_iff_eq] at hl
            exact .inr (hl ▸ hfree.2)
          | key key => exact .inl hl
          | transactionId k => exact .inl hl
          | row k => cases hl
        · exact .inl hl
  case h_2 hstage =>
    split at hl
    · split at hl
      · exact .inl hl
      · cases l <;> cases hl
    · split at hl
      case isTrue hfree =>
        rw [Bool.and_eq_true] at hfree
        cases l with
        | phone phone => exact .inl hl
        | customerId k => exact .inl hl
        | key key =>
          simp only [Tx.holds, Option.any_some, beq_iff_eq] at hl
          exact .inr (hl ▸ hfree.1)
        | transactionId k =>
          simp only [Tx.holds, Option.any_some, beq_iff_eq] at hl
          exact .inr (hl ▸ hfree.2)
        | row k => exact .inl hl
      · exact .inl hl
  case h_3 hstage =>
    split at hl
    case h_1 c x hcust htrans =>
      split at hl
      case h_1 own hown =>
        cases l with
        | row k => simp [Tx.holds, hown] at hl
        | _ => exact .inl hl
      case h_2 hnone =>
        split at hl
        case isTrue hfree =>
          cases l with
          | row k =>
            right
            simp only [Tx.holds, Bool.and_eq_true] at hl
            obtain ⟨-, hl⟩ := hl
            cases hb : s.db.customers.find? (·.id == c.id) with
            | none =>
              rw [hb] at hl
              cases hl
            | some b =>
              rw [hb] at hl
              have hbk : b.id = k := beq_iff_eq.mp hl
              obtain ⟨-, hid⟩ := Table.mem_of_find? hb
              rw [← hbk, beq_iff_eq.mp hid]
              exact hfree
          | _ => exact .inl hl
        · exact .inl hl
    · exact .inl hl
  · exact .inl hl
  · exact .inl hl

theorem close_holds (l : Lock) : tx.close.holds l = false := by
  cases l <;> rfl

theorem step_sound (s : Store) (choice : StoreChoice) (h : s.Sound) : (s.step choice).Sound := by
  cases choice with
  | begin call =>
    refine ⟨h.exclusive.append fun l => by cases l <;> rfl, fun i tx hi => ?_⟩
    rcases getElem?_append_singleton hi with hi | rfl
    · exact h.sound i tx hi
    · exact ⟨rfl, rfl, rfl, rfl⟩
  | advance i =>
    rw [Store.step]
    split
    case h_1 tx hi =>
      refine ⟨h.exclusive.set hi next_holds, fun j tx' hj => ?_⟩
      rcases getElem?_set_cases hj with ⟨-, rfl⟩ | ⟨-, hj⟩
      · exact sound_next (h.sound i tx hi)
      · exact h.sound j tx' hj
    · exact h
  | commit i =>
    rw [Store.step]
    split
    case h_1 tx hi =>
      split
      case isTrue hstage =>
        refine ⟨h.exclusive.set hi fun l hl => absurd hl (by simp [close_holds]),
          fun j tx' hj => ?_⟩
        rcases getElem?_set_cases hj with ⟨-, rfl⟩ | ⟨hne, hj⟩
        · exact sound_close
        · exact Sound.commit (h.sound j tx' hj) (Exclusive.apart h.exclusive hj hi hne)
            (h.sound i tx hi) hstage
      · exact h
    · exact h
  | rollback i =>
    rw [Store.step]
    split
    case h_1 tx hi =>
      refine ⟨h.exclusive.set hi fun l hl => absurd hl (by simp [close_holds]), fun j tx' hj => ?_⟩
      rcases getElem?_set_cases hj with ⟨-, rfl⟩ | ⟨-, hj⟩
      · exact sound_close
      · exact h.sound j tx' hj
    · exact h

/-- A step changes the committed tables only by a call, which has the effect of `record_sale`. -/
theorem step_refines (s : Store) (choice : StoreChoice) (h : s.Sound) :
    match StoreTransition.committed (transition Store.step s choice) with
    | none => (s.step choice).db = s.db
    | some call => ∃ r, recorded call s.db = some (r, (s.step choice).db) := by
  cases choice with
  | begin call => rfl
  | advance i =>
    change (s.step (.advance i)).db = s.db
    rw [Store.step]
    split <;> rfl
  | rollback i =>
    change (s.step (.rollback i)).db = s.db
    rw [Store.step]
    split <;> rfl
  | commit i =>
    have hcommitted : StoreTransition.committed (transition Store.step s (.commit i)) =
        (s.txs[i]?.filter fun tx => tx.stage == .counted).map Tx.call := rfl
    rw [hcommitted, Store.step]
    cases hi : s.txs[i]? with
    | none => rfl
    | some tx =>
      by_cases hstage : tx.stage = .counted
      · have hsound := h.sound i tx hi
        simp only [Tx.Sound, hstage] at hsound
        obtain ⟨x, hx⟩ := commit_recorded hsound.1 hsound.2.1 hsound.2.2
        simp only [Option.filter_some, hstage, beq_self_eq_true, ↓reduceIte, Option.map_some]
        exact ⟨_, hx⟩
      · have hne : (tx.stage == .counted) = false := beq_eq_false_iff_ne.mpr hstage
        simp [Option.filter, hne, hstage]

theorem run_sound (db : Database) (choices : List StoreChoice) :
    ∀ t ∈ storeRun db choices, t.before.Sound :=
  reachable_invariant (I := Store.Sound) ⟨Exclusive.nil, by simp⟩ step_sound

end Soundness

end ReviewFlow.Sales
