import ReviewFlow.Savepoint
import ReviewFlow.Table
import ReviewFlow.Values

/-!
# Recording a sale

`record_sale` of one merchant on its customers and transactions. The customer is created
in one savepoint and the transaction in another, and a duplicate shows as the
`IntegrityError` of the second.
-/

namespace ReviewFlow.Sales

open Savepoint Tables Program

abbrev Uuid := ℕ

structure Customer where
  id : Uuid
  phone : String
  name : Option String
  firstSeenAt : Option Time
  lastSeenAt : Option Time
  totalTransactions : ℕ
  deriving DecidableEq

/-- The primary key and `uniq_customer_merchant_phone`. -/
def Customer.Clash (a b : Customer) : Prop := a.id = b.id ∨ a.phone = b.phone

inductive Status where
  | completed
  | refunded
  | voided
  deriving DecidableEq

structure Transaction where
  id : Uuid
  location : Uuid
  customer : Option Uuid
  integration : Uuid
  externalTransactionId : String
  /-- In hundredths: the column has two decimals. -/
  amount : ℤ
  currency : String
  paymentMethod : Option String
  status : Status
  occurredAt : Time
  deriving DecidableEq

/-- `(location, external_transaction_id)`. -/
abbrev Key := Uuid × String

def Transaction.key (x : Transaction) : Key := (x.location, x.externalTransactionId)

/-- The primary key and `uniq_transaction_location_external_txn`. -/
def Transaction.Clash (a b : Transaction) : Prop := a.id = b.id ∨ a.key = b.key

instance : DecidableRel Customer.Clash := fun _ _ => inferInstanceAs (Decidable (_ ∨ _))
instance : DecidableRel Transaction.Clash := fun _ _ => inferInstanceAs (Decidable (_ ∨ _))

abbrev Customers := Table Customer Customer.Clash
abbrev Transactions := Table Transaction Transaction.Clash

structure Database where
  customers : Customers
  transactions : Transactions

def Database.empty : Database := ⟨.empty, .empty⟩

/-- The fields of `SaleCreated` that `record_sale` reads. A phone is not blank. -/
structure Sale where
  externalTransactionId : String
  amount : ℤ
  currency : String
  occurredAt : Time
  customerPhone : Option String
  customerName : Option String
  paymentMethod : Option String
  deriving DecidableEq

/-- One call, with the primary keys that `uuid4` gives to the rows it creates. -/
structure Call where
  integration : Uuid
  location : Uuid
  sale : Sale
  customerId : Uuid
  transactionId : Uuid
  deriving DecidableEq

inductive Error where
  | integrityError
  | doesNotExist
  deriving DecidableEq

abbrev SaleM := Program Call Error Database Unit

def Call.key (call : Call) : Key := (call.location, call.sale.externalTransactionId)

def Call.newCustomer (call : Call) (phone : String) : Customer :=
  ⟨call.customerId, phone, call.sale.customerName, none, none, 0⟩

def Call.newTransaction (call : Call) (customer : Option Customer) : Transaction where
  id := call.transactionId
  location := call.location
  customer := customer.map Customer.id
  integration := call.integration
  externalTransactionId := call.sale.externalTransactionId
  amount := call.sale.amount
  currency := call.sale.currency
  paymentMethod := call.sale.paymentMethod
  status := .completed
  occurredAt := call.sale.occurredAt

/-- The counter columns of the `UPDATE`, with `Least(Coalesce(..), ..)` and `Greatest(Coalesce(..),
..)`. -/
def Customer.seen (t : Time) (c : Customer) : Customer :=
  { c with
    totalTransactions := c.totalTransactions + 1
    firstSeenAt := some (min (c.firstSeenAt.getD t) t)
    lastSeenAt := some (max (c.lastSeenAt.getD t) t) }

/-- `filter(pk=k).update(..)`. -/
def Customers.count (customers : Customers) (k : Uuid) (t : Time) : Customers :=
  customers.update (fun c => if c.id = k then c.seen t else c) fun a b h => by
    simp only [Customer.Clash] at h ⊢
    split at h <;> split at h <;> exact h

def Database.customerOf (db : Database) (phone : String) : Option Customer :=
  db.customers.find? (·.phone == phone)

def Database.sold (db : Database) (key : Key) : Option Transaction :=
  db.transactions.find? (·.key == key)

def onIntegrityError {α : Type} (handler : SaleM α) (e : Error) : SaleM α :=
  if e = .integrityError then handler else raise e

def orDoesNotExist {α : Type} : Option α → SaleM α
  | some a => pure a
  | none => raise .doesNotExist

/-- `INSERT` of a row that the call makes. -/
def createCustomer (phone : String) : SaleM Customer :=
  query fun call db => match db.customers.insert? (call.newCustomer phone) with
    | some customers => (.ok (call.newCustomer phone), { db with customers := customers })
    | none => (.error .integrityError, db)

def createTransaction (customer : Option Customer) : SaleM Transaction :=
  query fun call db => match db.transactions.insert? (call.newTransaction customer) with
    | some transactions =>
      (.ok (call.newTransaction customer), { db with transactions := transactions })
    | none => (.error .integrityError, db)

def getOrCreateCustomer (phone : String) : SaleM Customer :=
  savepoint (handle (savepoint (createCustomer phone)) (onIntegrityError do
    let db ← get
    orDoesNotExist (db.customerOf phone)))

def saleCustomer (call : Call) : SaleM (Option Customer) :=
  match call.sale.customerPhone with
  | none => pure none
  | some phone => do
    let customer ← getOrCreateCustomer phone
    pure (some customer)

def saleTransaction (call : Call) (customer : Option Customer) : SaleM (Transaction × Bool) :=
  handle
    (do
      let txn ← savepoint (createTransaction customer)
      pure (txn, true))
    (onIntegrityError do
      let db ← get
      let txn ← orDoesNotExist (db.sold call.key)
      pure (txn, false))

def recordSale : SaleM (Transaction × Bool) :=
  savepoint do
    let call ← ask
    let customer ← saleCustomer call
    let (txn, created) ← saleTransaction call customer
    match customer with
    | some customer =>
      whenever (created = true)
        (modify fun db =>
          { db with customers := db.customers.count customer.id call.sale.occurredAt })
    | none => pure ()
    pure (txn, created)

section Rules

variable {call : Call} {phone : String} {customer : Option Customer} {s : Store Database Unit}
  {E : Error → Store Database Unit → Prop}

theorem Customer.Clash.symm (a b : Customer) (h : a.Clash b) : b.Clash a := h.imp Eq.symm Eq.symm

theorem Transaction.Clash.symm (a b : Transaction) (h : a.Clash b) : b.Clash a :=
  h.imp Eq.symm Eq.symm

theorem customerOf_eq_some {db : Database} {c : Customer} :
    db.customerOf phone = some c ↔ c ∈ db.customers ∧ c.phone = phone := by
  constructor
  · intro h
    obtain ⟨hc, hp⟩ := Table.mem_of_find? h
    exact ⟨hc, beq_iff_eq.mp hp⟩
  · rintro ⟨hc, rfl⟩
    have key : ∀ a b : Customer, (a.phone == c.phone) = true →
        (b.phone == c.phone) = true → a.Clash b :=
      fun a b ha hb => .inr ((beq_iff_eq.mp ha).trans (beq_iff_eq.mp hb).symm)
    exact Table.find?_eq_some_of_mem (p := (·.phone == c.phone)) Customer.Clash.symm hc
      (beq_self_eq_true _) key

theorem sold_eq_some {db : Database} {key : Key} {x : Transaction} :
    db.sold key = some x ↔ x ∈ db.transactions ∧ x.key = key := by
  constructor
  · intro h
    obtain ⟨hx, hk⟩ := Table.mem_of_find? h
    exact ⟨hx, beq_iff_eq.mp hk⟩
  · rintro ⟨hx, rfl⟩
    have same : ∀ a b : Transaction, (a.key == x.key) = true →
        (b.key == x.key) = true → a.Clash b :=
      fun a b ha hb => .inr ((beq_iff_eq.mp ha).trans (beq_iff_eq.mp hb).symm)
    exact Table.find?_eq_some_of_mem (p := (·.key == x.key)) Transaction.Clash.symm hx
      (beq_self_eq_true _) same

theorem wp_getOrCreateCustomer {Q : Customer → Store Database Unit → Prop} :
    wp call (getOrCreateCustomer phone) Q (fun e _ => E e s) s ↔
      match s.data.customers.insert? (call.newCustomer phone) with
      | some customers =>
      Q (call.newCustomer phone) ⟨{ s.data with customers := customers }, s.journal⟩
      | none => match s.data.customerOf phone with
        | some c => Q c s
        | none => E .doesNotExist s := by
  unfold getOrCreateCustomer
  rw [wp_savepoint, wp_handle, wp_savepoint, createCustomer, wp_query]
  cases h : s.data.customers.insert? (call.newCustomer phone) with
  | some customers => simp
  | none =>
    simp only [reduceCtorEq, false_implies, implies_true, true_and, Except.error.injEq, forall_eq',
      onIntegrityError, ↓reduceIte, wp_bind, wp_get]
    cases s.data.customerOf phone with
    | some c => simp [orDoesNotExist]
    | none => simp [orDoesNotExist]

theorem wp_saleTransaction {Q : Transaction × Bool → Store Database Unit → Prop} :
    wp call (saleTransaction call customer) Q E s ↔
      match s.data.transactions.insert? (call.newTransaction customer) with
      | some transactions => Q (call.newTransaction customer, true)
          ⟨{ s.data with transactions := transactions }, s.journal⟩
      | none => match s.data.sold call.key with
        | some x => Q (x, false) s
        | none => E .doesNotExist s := by
  unfold saleTransaction
  rw [wp_handle, wp_bind, wp_savepoint, createTransaction, wp_query]
  cases h : s.data.transactions.insert? (call.newTransaction customer) with
  | some transactions => simp
  | none =>
    simp only [reduceCtorEq, false_implies, implies_true, true_and, Except.error.injEq, forall_eq',
      onIntegrityError, ↓reduceIte, wp_bind, wp_get]
    cases s.data.sold call.key with
    | some x => simp [orDoesNotExist]
    | none => simp [orDoesNotExist]

/-- The customer of a sale, with the table after it. None is a call that raises. -/
def customerStep (call : Call) (db : Database) : Option (Option Customer × Customers) :=
  match call.sale.customerPhone with
  | none => some (none, db.customers)
  | some phone => match db.customers.insert? (call.newCustomer phone) with
    | some customers => some (some (call.newCustomer phone), customers)
    | none => (db.customerOf phone).map fun c => (some c, db.customers)

/-- The transaction of a sale, whether it is new, and the table after it. -/
def transactionStep (call : Call) (db : Database) (customer : Option Customer) :
    Option (Transaction × Bool × Transactions) :=
  match db.transactions.insert? (call.newTransaction customer) with
  | some transactions => some (call.newTransaction customer, true, transactions)
  | none => (db.sold call.key).map fun x => (x, false, db.transactions)

def countStep (call : Call) (customer : Option Customer) (created : Bool)
    (customers : Customers) : Customers :=
  match customer with
  | some c => if created then customers.count c.id call.sale.occurredAt else customers
  | none => customers

/-- What `record_sale` returns and leaves. -/
def recorded (call : Call) (db : Database) : Option ((Transaction × Bool) × Database) :=
  (customerStep call db).bind fun (customer, customers) =>
    (transactionStep call db customer).map fun (x, created, transactions) =>
      ((x, created), ⟨countStep call customer created customers, transactions⟩)

theorem wp_saleCustomer {Q : Option Customer → Store Database Unit → Prop} :
    wp call (saleCustomer call) Q (fun e _ => E e s) s ↔
      match customerStep call s.data with
      | some (customer, customers) => Q customer ⟨{ s.data with customers := customers }, s.journal⟩
      | none => E .doesNotExist s := by
  unfold saleCustomer customerStep
  cases call.sale.customerPhone with
  | none => rfl
  | some phone =>
    simp only [wp_bind]
    rw [wp_getOrCreateCustomer]
    cases s.data.customers.insert? (call.newCustomer phone) with
    | some customers => rfl
    | none => cases s.data.customerOf phone <;> rfl

theorem recordSale_run (call : Call) (db : Database) :
    recordSale.run call ⟨db, ()⟩ = match recorded call db with
      | some (r, db') => (.ok r, ⟨db', ()⟩)
      | none => (.error .doesNotExist, ⟨db, ()⟩) := by
  have h : wp call recordSale (fun r t => recorded call db = some (r, t.data))
      (fun e t => e = .doesNotExist ∧ recorded call db = none ∧ t.data = db) ⟨db, ()⟩ := by
    unfold recordSale
    rw [wp_savepoint, wp_bind, wp_ask, wp_bind]
    apply (wp_saleCustomer
      (E := fun e _ => e = .doesNotExist ∧ recorded call db = none ∧ db = db)).mpr
    unfold recorded
    cases hc : customerStep call db with
    | none => exact ⟨rfl, rfl, rfl⟩
    | some r =>
      obtain ⟨customer, customers⟩ := r
      simp only [wp_bind, wp_saleTransaction, Option.bind_some]
      unfold transactionStep
      cases db.transactions.insert? (call.newTransaction customer) with
      | some transactions =>
        cases customer with
        | none => rfl
        | some c => rfl
      | none =>
        have hsold : Database.sold ⟨customers, db.transactions⟩ call.key = db.sold call.key := rfl
        simp only [hsold]
        cases db.sold call.key with
        | none => simp
        | some x =>
          cases customer with
          | none => rfl
          | some c => rfl
  rw [wp_iff_run] at h
  rcases hrun : recordSale.run call ⟨db, ()⟩ with ⟨e | r, t⟩
  · obtain ⟨rfl, hnone, hdb⟩ := h.2 e t hrun
    rw [hnone]
    cases t
    cases hdb
    rfl
  · rw [h.1 r t hrun]

end Rules

section Duplicates

variable {call : Call} {db : Database} {x : Transaction}

/-- A duplicate sale changes nothing if and only if its phone, if any, has a customer. -/
theorem duplicate_noop_iff (h : db.sold call.key = some x) :
    recordSale.run call ⟨db, ()⟩ = (.ok (x, false), ⟨db, ()⟩) ↔
      ∀ phone, call.sale.customerPhone = some phone → ∃ c ∈ db.customers, c.phone = phone := by
  have hstep : ∀ customer, transactionStep call db customer = some (x, false, db.transactions) := by
    intro customer
    unfold transactionStep
    have hnone : db.transactions.insert? (call.newTransaction customer) = none := by
      obtain ⟨hx, hk⟩ := sold_eq_some.mp h
      exact Table.insert?_eq_none.mpr ⟨x, hx, .inr hk⟩
    simp [hnone, h]
  have hrec : recorded call db = (customerStep call db).map fun (_, customers) =>
      ((x, false), ⟨customers, db.transactions⟩) := by
    unfold recorded
    cases customerStep call db with
    | none => rfl
    | some r =>
      obtain ⟨customer, customers⟩ := r
      simp only [Option.bind_some, hstep, Option.map_some]
      cases customer <;> rfl
  rw [recordSale_run, hrec, customerStep]
  cases hp : call.sale.customerPhone with
  | none => simp
  | some phone =>
    simp only [Option.some.injEq, forall_eq']
    cases hi : db.customers.insert? (call.newCustomer phone) with
    | some customers =>
      have hno : ¬ ∃ c ∈ db.customers, c.phone = phone := by
        rintro ⟨c, hc, hcp⟩
        exact (Table.insert?_eq_some.mp hi).1 c hc (.inr hcp)
      simp only [Option.map_some, Prod.mk.injEq, true_and, hno, iff_false]
      intro heq
      have hrows : customers.rows = db.customers.rows :=
        congrArg (fun s : Store Database Unit => s.data.customers.rows) heq
      rw [(Table.insert?_eq_some.mp hi).2] at hrows
      simp at hrows
    | none =>
      cases hc : db.customerOf phone with
      | none =>
        have hno : ¬ ∃ c ∈ db.customers, c.phone = phone := by
          rintro ⟨c, hcm, hcp⟩
          rw [customerOf_eq_some.mpr ⟨hcm, hcp⟩] at hc
          cases hc
        simp [hno]
      | some c =>
        obtain ⟨hcm, hcp⟩ := customerOf_eq_some.mp hc
        simp only [Option.map_some, true_iff]
        exact ⟨c, hcm, hcp⟩

end Duplicates

end ReviewFlow.Sales
