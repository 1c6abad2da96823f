import ReviewFlow.Interleaving
import ReviewFlow.RowLocks
import ReviewFlow.Table
import ReviewFlow.Values

/-!
# The senders of the locations

The four operations statement by statement, as PostgreSQL runs them at READ COMMITTED: a
`select_for_update` waits for the transaction that holds the row and then looks at what it
committed, and an insert waits for one that has inserted the same location. What a transaction
writes is seen by others when it commits. Own numbers are stored as PENDING.
-/

namespace ReviewFlow.Senders

open Tables Interleaving RowLocks

abbrev Uuid := ℕ

inductive SenderType where
  | ownNumber
  | sharedPool
  deriving DecidableEq

inductive Status where
  | active
  | pending
  | suspended
  deriving DecidableEq

structure Account where
  id : Uuid
  senderType : SenderType
  merchantId : Option Uuid
  status : Status
  accessTokenEnc : Option String
  connectedAt : Option Time
  deriving DecidableEq

def Account.own (a : Account) : Bool := a.senderType == .ownNumber

structure Mapping where
  location : Uuid
  account : Uuid
  deriving DecidableEq

def Account.Clash (a b : Account) : Prop := a.id = b.id

/-- `UNIQUE(location)`. -/
def Mapping.Clash (a b : Mapping) : Prop := a.location = b.location

instance : DecidableRel Account.Clash := fun a b => inferInstanceAs (Decidable (a.id = b.id))
instance : DecidableRel Mapping.Clash :=
  fun a b => inferInstanceAs (Decidable (a.location = b.location))

inductive AuditLog where
  | senderChanged (location : Uuid) (fromType toType : Option SenderType)
  | ownNumberActivationFailed (account : Uuid)
  | ownNumberDisconnected (account : Uuid)
  deriving DecidableEq

structure Database where
  accounts : Table Account Account.Clash
  mappings : Table Mapping Mapping.Clash
  /-- `Location.merchant_id`. -/
  merchantOf : Uuid → Uuid
  audit : List AuditLog
  /-- How many rows the location has had, which tells them apart as their primary keys do. -/
  inserted : Uuid → ℕ := fun _ => 0

def Database.account (db : Database) (k : Uuid) : Option Account := db.accounts.find? (·.id == k)

def Database.mapping (db : Database) (location : Uuid) : Option Mapping :=
  db.mappings.find? (·.location == location)

structure Row where
  mapping : Mapping
  whatsappAccount : Account
  ordinal : ℕ
  deriving DecidableEq

/-- `filter(location=location).select_related("whatsapp_account")`. -/
def Database.row (db : Database) (location : Uuid) : Option Row :=
  (db.mapping location).bind fun mapping =>
    (db.account mapping.account).map fun account => ⟨mapping, account, db.inserted location⟩

def Database.latest (db : Database) (row : Row) : Option Mapping :=
  (db.mapping row.mapping.location).filter fun _ =>
    db.inserted row.mapping.location == row.ordinal

inductive Error where
  | senderNotFound
  | senderInUse
  | validationError (field message : String)
  | attributeError
  | aborted
  deriving DecidableEq

def notActive : Error := .validationError "whatsapp_account_id" "This sender is not active."
def cannotServe : Error :=
  .validationError "whatsapp_account_id" "This sender cannot serve this location."

inductive Tx where
  /-- Past the checks before the transaction, with the account as it was read. -/
  | setSender (location : Uuid) (account : Account)
  /-- `_lock_active_account` returned. `waiting` is the row that `_locked_mapping` waits for. -/
  | setLocked (location : Uuid) (account : Account) (waiting : Option Row)
  /-- `_locked_mapping` found nothing. -/
  | setUnmapped (location : Uuid) (account : Account)
  /-- The mapping is inserted. -/
  | setCreated (location : Uuid) (account : Account)
  /-- The insert raised `IntegrityError`. -/
  | setConflict (location : Uuid) (account : Account) (waiting : Option Row)
  /-- The mapping that is there is locked. -/
  | setMapped (location : Uuid) (account : Account) (mapping : Row)
  | clearSender (location : Uuid) (waiting : Option Row)
  | clearMapped (location : Uuid) (mapping : Row)
  | disconnect (account : Uuid)
  | disconnectLocked (account : Account)
  /-- No location is mapped to it. -/
  | disconnectUnused (account : Account)
  | activate (account : Uuid)
  /-- The row was read, and `subscribe_app` runs. -/
  | activateCalling (account : Account)
  | activateAnswered (account : Account) (failed : Bool)
  | done (result : Except Error (Option Mapping))

inductive Lock where
  | account (k : Uuid)
  | mapping (location : Uuid)

def Tx.holds : Tx → Lock → Bool
  | .setLocked _ a _, .account k | .setUnmapped _ a, .account k | .setConflict _ a _, .account k
  | .setCreated _ a, .account k | .setMapped _ a _, .account k => a.own && a.id == k
  | .setCreated l _, .mapping k | .setMapped l _ _, .mapping k | .clearMapped l _,
    .mapping k => l == k
  | .disconnectLocked a, .account k | .disconnectUnused a, .account k => a.id == k
  | _, _ => false

structure Store where
  db : Database
  txs : List Tx

def Store.free (s : Store) (i : ℕ) (lock : Lock) : Bool := RowLocks.free Tx.holds s.txs i lock

/-- The checks of `set_location_sender` before its transaction. -/
def beginSet (db : Database) (location account : Uuid) : Tx :=
  match db.account account with
  | none => .done (.error .senderNotFound)
  | some a =>
    if a.status ≠ .active then .done (.error notActive)
    else if a.own = true ∧
      a.merchantId ≠ some (db.merchantOf location) then .done (.error cannotServe)
    else .setSender location a

def Store.lockActiveAccount (s : Store) (i : ℕ) (location : Uuid) (a : Account) : Tx :=
  if a.own && !s.free i (.account a.id) then .setSender location a
  else match s.db.account a.id with
    | none => .done (.error .senderNotFound)
    | some fresh =>
      if fresh.status ≠ .active then .done (.error notActive) else .setLocked location fresh none

/-- `_locked_mapping`: `wait` is where the transaction is while another one holds the row. A
statement that has waited looks at the row that it read again, with the account that it read: a
row that is deleted by then, or refers to another account, is not in its result. -/
def Store.lockedMapping (s : Store) (i : ℕ) (location : Uuid) (waiting : Option Row)
    (wait : Row → Tx) (none : Tx) (some : Row → Tx) : Tx :=
  match waiting.or (s.db.row location) with
  | .none => none
  | .some row => match s.db.latest row with
    | .none => none
    | .some mapping =>
      if !s.free i (.mapping location) then wait row
      else if mapping.account = row.mapping.account then some row
      else none

def Store.next (s : Store) (i : ℕ) : Tx → Tx
  | .setSender location a => s.lockActiveAccount i location a
  | .setLocked location a waiting =>
    s.lockedMapping i location waiting (fun row => .setLocked location a (some row))
      (.setUnmapped location a) (.setMapped location a)
  | .setUnmapped location a =>
    if (s.db.mapping location).isSome then .setConflict location a none
    else if s.free i (.mapping location) then .setCreated location a
    else .setUnmapped location a
  | .setConflict location a waiting =>
    -- `mapping.whatsapp_account` of None
    s.lockedMapping i location waiting (fun row => .setConflict location a (some row))
      (.done (.error .attributeError)) (.setMapped location a)
  | .clearSender location waiting =>
    s.lockedMapping i location waiting (fun row => .clearSender location (some row))
      (.done (.ok none)) (.clearMapped location)
  | .disconnect k =>
    match (s.db.account k).filter Account.own with
    | none => .done (.error .senderNotFound)
    | some a => if s.free i (.account k) then .disconnectLocked a else .disconnect k
  | .disconnectLocked a =>
    if a.status = .suspended ∧ a.accessTokenEnc = none then .done (.ok none)
    else if s.db.mappings.rows.any (·.account == a.id) then .done (.error .senderInUse)
    else .disconnectUnused a
  | .activate k =>
    match (s.db.account k).filter fun a =>
      a.own && a.status == .pending && a.accessTokenEnc.isSome with
    | none => .done (.ok none)
    | some a => .activateCalling a
  | tx => tx

def Accounts.write (accounts : Table Account Account.Clash) (k : Uuid) (status : Status)
    (accessTokenEnc : Option String → Option String) (connectedAt : Option Time → Option Time) :
    Table Account Account.Clash :=
  accounts.update (fun a => if a.id = k then { a with
      status := status
      accessTokenEnc := accessTokenEnc a.accessTokenEnc
      connectedAt := connectedAt a.connectedAt }
    else a) fun a b h => by
      simp only [Account.Clash] at h ⊢
      split at h <;> split at h <;> exact h

def Mappings.repoint (mappings : Table Mapping Mapping.Clash) (location account : Uuid) :
    Table Mapping Mapping.Clash :=
  mappings.update
      (fun m => if m.location = location then { m with account := account } else m) fun a b h => by
    simp only [Mapping.Clash] at h ⊢
    split at h <;> split at h <;> exact h

def Database.typeOf (db : Database) (k : Uuid) : Option SenderType :=
  (db.account k).map (·.senderType)

def Database.commit (db : Database) (now : Time) : Tx → Option Database
  | .setCreated location a => (db.mappings.insert? ⟨location, a.id⟩).map fun mappings =>
      { db with
        mappings := mappings
        inserted := fun l => if l = location then db.inserted l + 1 else db.inserted l
        audit := db.audit ++ [.senderChanged location none (some a.senderType)] }
  | .setMapped location a row =>
    if row.mapping.account = a.id then some db
    else some { db with
      mappings := Mappings.repoint db.mappings location a.id
      audit := db.audit ++
        [.senderChanged location (some row.whatsappAccount.senderType) (some a.senderType)] }
  | .clearMapped location row => some { db with
      mappings := db.mappings.delete (·.location == location)
      audit := db.audit ++ [.senderChanged location (some row.whatsappAccount.senderType) none] }
  | .disconnectUnused a => some { db with
      accounts := Accounts.write db.accounts a.id .suspended (fun _ => none) id
      audit := db.audit ++ [.ownNumberDisconnected a.id] }
  | .activateAnswered a failed =>
    -- the `UPDATE` is of the row where it is still PENDING
    match (db.account a.id).filter (·.status == .pending), failed with
    | none, _ => some db
    | some _, true => some { db with
        accounts := Accounts.write db.accounts a.id .suspended id id
        audit := db.audit ++ [.ownNumberActivationFailed a.id] }
    | some _, false => some { db with
        accounts := Accounts.write db.accounts a.id .active id (·.or (some now)) }
  | _ => none

def Tx.result : Tx → Option Mapping
  | .setCreated location a => some ⟨location, a.id⟩
  | .setMapped _ a row => some { row.mapping with account := a.id }
  | _ => none

/-- An `UPDATE` waits for the lock on its row. -/
def Store.waits (s : Store) (i : ℕ) : Tx → Bool
  | .activateAnswered a _ => !s.free i (.account a.id)
  | _ => false

inductive Subscribed where
  | ok
  | permanentError
  | otherError
  deriving DecidableEq

def Tx.answered : Tx → Subscribed → Tx
  | .activateCalling a, .ok => .activateAnswered a false
  | .activateCalling a, .permanentError => .activateAnswered a true
  | .activateCalling _, .otherError => .done (.error .aborted)
  | tx, _ => tx

inductive StoreChoice where
  | setLocationSender (location account : Uuid)
  | clearLocationSender (location : Uuid)
  | disconnectOwnNumber (account : Uuid)
  | activateOwnNumber (account : Uuid)
  | advance (i : ℕ)
  | answer (i : ℕ) (subscribed : Subscribed)
  | commit (i : ℕ) (now : Time)
  | rollback (i : ℕ)
  /-- A new own number, with the token it came with, or the shared number. -/
  | addAccount (account : Account)
  deriving DecidableEq

def Account.Begins (a : Account) : Prop := a.own = true → a.status = .pending

instance (a : Account) : Decidable a.Begins := inferInstanceAs (Decidable (_ → _))

def Database.addAccount (db : Database) (a : Account) : Database :=
  if a.Begins then { db with accounts := (db.accounts.insert? a).getD db.accounts } else db

def Store.step (s : Store) : StoreChoice → Store
  | .setLocationSender location account =>
    { s with txs := s.txs ++ [beginSet s.db location account] }
  | .clearLocationSender location => { s with txs := s.txs ++ [.clearSender location none] }
  | .disconnectOwnNumber account => { s with txs := s.txs ++ [.disconnect account] }
  | .activateOwnNumber account => { s with txs := s.txs ++ [.activate account] }
  | .advance i => match s.txs[i]? with
    | some tx => { s with txs := s.txs.set i (s.next i tx) }
    | none => s
  | .answer i subscribed => match s.txs[i]? with
    | some tx => { s with txs := s.txs.set i (tx.answered subscribed) }
    | none => s
  | .commit i now => match s.txs[i]? with
    | some tx =>
      if s.waits i tx then s
      else match s.db.commit now tx with
        | some db => ⟨db, s.txs.set i (.done (.ok tx.result))⟩
        | none => s
    | none => s
  | .rollback i => match s.txs[i]? with
    | some (.done _) | none => s
    | some _ => { s with txs := s.txs.set i (.done (.error .aborted)) }
  | .addAccount a => { s with db := s.db.addAccount a }

end ReviewFlow.Senders
