import ReviewFlow.WhatsApp.MappedSenders

/-!
# What a request knows of the mappings

`Tx.Knows` is what a request knows of the mappings by its locks, and `Apart` is what the commit
of another one leaves as it is.
-/

namespace ReviewFlow.Senders

open Tables Interleaving RowLocks

/-- The location and the account of a `set_location_sender` that runs. -/
def Tx.sets : Tx → Option (Uuid × Uuid)
  | .setSender location a | .setLocked location a _ | .setUnmapped location a
  | .setCreated location a | .setConflict location a _ | .setMapped location a _ =>
    some (location, a.id)
  | _ => none

def AuditLog.isSenderChange : AuditLog → Bool
  | .senderChanged _ _ _ => true
  | _ => false

/-- The row is of the location, and the account that was read with it is its account. -/
structure Database.Joins (db : Database) (location : Uuid) (row : Row) : Prop where
  location : row.mapping.location = location
  account : row.whatsappAccount.id = row.mapping.account
  has : db.Has row.whatsappAccount

def Tx.Knows (db : Database) : Tx → Prop
  | .setSender _ a | .setUnmapped _ a => db.Has a
  | .setLocked location a waiting | .setConflict location a waiting =>
    db.Has a ∧ ∀ row, waiting = some row → db.Joins location row
  | .setCreated location a => db.Has a ∧ db.mapping location = none
  | .setMapped location a row =>
    db.Has a ∧ db.Joins location row ∧ db.mapping location = some row.mapping
  | .clearSender location waiting => ∀ row, waiting = some row → db.Joins location row
  | .clearMapped location row => db.Joins location row ∧ db.mapping location = some row.mapping
  | _ => True

section Mappings

variable {db db' : Database} {a : Account} {location k l : Uuid} {row : Row}

theorem mapping_insert {mappings : Table Mapping Mapping.Clash}
    (h : db.mappings.insert? ⟨location, k⟩ = some mappings) (l : Uuid) :
    mappings.find? (·.location == l) =
      if l = location then some ⟨location, k⟩ else db.mapping l := by
  rw [Table.find?_insert? h]
  by_cases hl : l = location
  · have hnone : db.mappings.find? (·.location == l) = none := by
      refine Table.find?_eq_none.mpr fun m hm => beq_eq_false_iff_ne.mpr fun hml => ?_
      exact (Table.insert?_eq_some.mp h).1 m hm (hml.trans hl)
    rw [hnone, if_pos hl, Option.none_or, if_pos (beq_iff_eq.mpr hl.symm)]
  · rw [if_neg hl, if_neg (by simpa using Ne.symm hl), Option.or_none]
    rfl

theorem mapping_repoint (mappings : Table Mapping Mapping.Clash) (location k l : Uuid) :
    (Mappings.repoint mappings location k).find? (·.location == l) =
      (mappings.find? (·.location == l)).map fun m =>
        if l = location then { m with account := k } else m := by
  have hsame : ((fun m : Mapping => m.location == l) ∘
      fun m => if m.location = location then { m with account := k } else m) =
      fun m => m.location == l := by
    funext m
    simp only [Function.comp_apply]
    split <;> rfl
  rw [Mappings.repoint, Table.find?_update, hsame]
  refine Option.map_congr fun m hm => ?_
  rw [beq_iff_eq.mp (Table.mem_of_find? hm).2]

theorem mapping_delete (mappings : Table Mapping Mapping.Clash) (location l : Uuid) :
    (mappings.delete (·.location == location)).find? (·.location == l) =
      if l = location then none else mappings.find? (·.location == l) := by
  rw [Table.find?_delete]
  split
  case isTrue h =>
    subst h
    refine Table.find?_eq_none.mpr fun m _ => ?_
    cases m.location == l <;> rfl
  case isFalse h =>
    congr 1
    funext m
    by_cases hm : m.location = l
    · have hne : m.location ≠ location := hm ▸ h
      simp [hm, h]
    · simp [hm]

theorem typeOf_of_has (h : db.Has a) : db.typeOf a.id = some a.senderType := by
  obtain ⟨b, hb, hid, htype, -⟩ := h
  have hfind : db.account a.id = some b :=
    Table.find?_eq_some_of_mem (fun _ _ => Eq.symm) hb (beq_iff_eq.mpr hid.symm)
      fun c d hc hd => (beq_iff_eq.mp hc).trans (beq_iff_eq.mp hd).symm
  rw [Database.typeOf, hfind, Option.map_some, htype]

theorem Database.Joins.typeOf (h : db.Joins location row) :
    db.typeOf row.mapping.account = some row.whatsappAccount.senderType := by
  rw [← h.account]
  exact typeOf_of_has h.has

theorem joins_of_row (h : db.row location = some row) : db.Joins location row := by
  obtain ⟨m, hm, hrow⟩ := Option.bind_eq_some_iff.mp h
  obtain ⟨account, haccount, rfl⟩ := Option.map_eq_some_iff.mp hrow
  obtain ⟨hmem, hid⟩ := mem_of_account haccount
  exact ⟨beq_iff_eq.mp (Table.mem_of_find? hm).2, hid, account, hmem, .refl account⟩

end Mappings

/-- What the commit of a request that holds these locks leaves as it is. -/
structure Apart (holds : Lock → Bool) (db db' : Database) : Prop where
  has : ∀ {a}, db.Has a → db'.Has a
  mapping : ∀ location, holds (.mapping location) = false →
    db'.mapping location = db.mapping location

section Commits

variable {db db' : Database} {a b : Account} {tx : Tx} {holds : Lock → Bool} {location k : Uuid}
  {row : Row} {now : Time}

theorem Apart.joins (h : Apart holds db db') (hj : db.Joins location row) :
    db'.Joins location row := ⟨hj.location, hj.account, h.has hj.has⟩

theorem Apart.refl (holds : Lock → Bool) (db : Database) : Apart holds db db := ⟨id, fun _ _ => rfl⟩

theorem Apart.knows (h : Apart holds db db') (hk : tx.Knows db)
    (happart : ∀ l, tx.holds l = true → holds l = false) : tx.Knows db' := by
  cases tx with
  | setSender location a => exact h.has hk
  | setUnmapped location a => exact h.has hk
  | setLocked location a waiting => exact ⟨h.has hk.1, fun row hrow => h.joins (hk.2 row hrow)⟩
  | setConflict location a waiting => exact ⟨h.has hk.1, fun row hrow => h.joins (hk.2 row hrow)⟩
  | setCreated location a =>
    refine ⟨h.has hk.1, ?_⟩
    rw [h.mapping location (happart _ (beq_self_eq_true location))]
    exact hk.2
  | setMapped location a row =>
    refine ⟨h.has hk.1, h.joins hk.2.1, ?_⟩
    rw [h.mapping location (happart _ (beq_self_eq_true location))]
    exact hk.2.2
  | clearSender location waiting => exact fun row hrow => h.joins (hk row hrow)
  | clearMapped location row =>
    refine ⟨h.joins hk.1, ?_⟩
    rw [h.mapping location (happart _ (beq_self_eq_true location))]
    exact hk.2
  | disconnect k => trivial
  | disconnectLocked a => trivial
  | disconnectUnused a => trivial
  | activate k => trivial
  | activateCalling a => trivial
  | activateAnswered a failed => trivial
  | done result => trivial

theorem has_write {status : Status} {token : Option String → Option String}
    {connected : Option Time → Option Time} {audit : List AuditLog} (h : db.Has b) :
    Database.Has { db with
      accounts := Accounts.write db.accounts k status token connected
      audit := audit } b := by
  obtain ⟨c, hc, hbc⟩ := h
  by_cases hid : c.id = k
  · exact ⟨_, mem_write.mpr (.inl ⟨c, hc, hid, rfl⟩), hbc⟩
  · exact ⟨c, mem_write.mpr (.inr ⟨hc, hid⟩), hbc⟩

theorem has_addAccount (a : Account) (h : db.Has b) : (db.addAccount a).Has b := by
  unfold Database.addAccount
  split
  · obtain ⟨c, hc, hbc⟩ := h
    cases hins : db.accounts.insert? a with
    | none => exact ⟨c, hc, hbc⟩
    | some accounts => exact ⟨c, (Table.mem_insert? hins).mpr (.inl hc), hbc⟩
  · exact h

inductive Committed (db db' : Database) : Tx → Prop
  | created (location : Uuid) (a : Account)
      (mapping : ∀ l, db'.mapping l = if l = location then some ⟨location, a.id⟩ else db.mapping l)
      (accounts : db'.accounts = db.accounts)
      (audit : db'.audit = db.audit ++ [.senderChanged location none (some a.senderType)]) :
      Committed db db' (.setCreated location a)
  | unchanged (location : Uuid) (a : Account) (row : Row) (same : row.mapping.account = a.id)
      (db_eq : db' = db) : Committed db db' (.setMapped location a row)
  | repointed (location : Uuid) (a : Account) (row : Row) (differs : row.mapping.account ≠ a.id)
      (mapping : ∀ l, db'.mapping l =
        (db.mapping l).map fun m => if l = location then { m with account := a.id } else m)
      (accounts : db'.accounts = db.accounts)
      (audit : db'.audit = db.audit ++
        [.senderChanged location (some row.whatsappAccount.senderType) (some a.senderType)]) :
      Committed db db' (.setMapped location a row)
  | cleared (location : Uuid) (row : Row)
      (mapping : ∀ l, db'.mapping l = if l = location then none else db.mapping l)
      (accounts : db'.accounts = db.accounts)
      (audit : db'.audit = db.audit ++
        [.senderChanged location (some row.whatsappAccount.senderType) none]) :
      Committed db db' (.clearMapped location row)
  | number (tx : Tx) (sets : tx.sets = none) (result : tx.result = none)
      (has : ∀ {b}, db.Has b → db'.Has b) (mapping : ∀ l, db'.mapping l = db.mapping l)
      (audit : db'.audit.filter AuditLog.isSenderChange =
        db.audit.filter AuditLog.isSenderChange) : Committed db db' tx

theorem commit_cases (hc : db.commit now tx = some db') : Committed db db' tx := by
  cases tx with
  | setCreated location a =>
    obtain ⟨mappings, hins, rfl⟩ := Option.map_eq_some_iff.mp hc
    exact .created location a (mapping_insert hins) rfl rfl
  | setMapped location a row =>
    by_cases hsame : row.mapping.account = a.id
    · simp only [Database.commit, if_pos hsame, Option.some.injEq] at hc
      exact .unchanged location a row hsame hc.symm
    · simp only [Database.commit, if_neg hsame, Option.some.injEq] at hc
      subst hc
      exact .repointed location a row hsame (mapping_repoint _ _ _) rfl rfl
  | clearMapped location row =>
    cases hc
    exact .cleared location row (mapping_delete _ _) rfl rfl
  | disconnectUnused a =>
    cases hc
    refine .number _ rfl rfl has_write (fun _ => rfl) ?_
    simp [AuditLog.isSenderChange]
  | activateAnswered a failed =>
    cases hrow : (db.account a.id).filter (·.status == .pending) with
    | none =>
      simp only [Database.commit, hrow, Option.some.injEq] at hc
      subst hc
      exact .number _ rfl rfl id (fun _ => rfl) rfl
    | some row =>
      cases failed <;> simp only [Database.commit, hrow, Option.some.injEq] at hc <;> subst hc
      · exact .number _ rfl rfl has_write (fun _ => rfl) rfl
      · refine .number _ rfl rfl has_write (fun _ => rfl) ?_
        simp [AuditLog.isSenderChange]
  | setSender location a => cases hc
  | setLocked location a waiting => cases hc
  | setUnmapped location a => cases hc
  | setConflict location a waiting => cases hc
  | clearSender location waiting => cases hc
  | disconnect k => cases hc
  | disconnectLocked a => cases hc
  | activate k => cases hc
  | activateCalling a => cases hc
  | done result => cases hc

theorem Committed.apart (h : Committed db db' tx) : Apart tx.holds db db' := by
  have has : ∀ {b}, db'.accounts = db.accounts → db.Has b → db'.Has b := by
    rintro b haccounts ⟨c, hc, hbc⟩
    exact ⟨c, haccounts ▸ hc, hbc⟩
  cases h with
  | created location a mapping accounts audit =>
    refine ⟨has accounts, fun l hl => ?_⟩
    rw [mapping, if_neg (Ne.symm (beq_eq_false_iff_ne.mp hl))]
  | unchanged location a row same db_eq =>
    subst db_eq
    exact .refl _ _
  | repointed location a row differs mapping accounts audit =>
    refine ⟨has accounts, fun l hl => ?_⟩
    simp only [mapping, if_neg (Ne.symm (beq_eq_false_iff_ne.mp hl)), Option.map_id']
  | cleared location row mapping accounts audit =>
    refine ⟨has accounts, fun l hl => ?_⟩
    rw [mapping, if_neg (Ne.symm (beq_eq_false_iff_ne.mp hl))]
  | number _ _ _ hhas mapping _ => exact ⟨hhas, fun l _ => mapping l⟩

end Commits

structure Store.Held (s : Store) : Prop where
  knows : ∀ (i : ℕ) (tx : Tx), s.txs[i]? = some tx → tx.Knows s.db
  exclusive : Exclusive Tx.holds s.txs

section Statements

variable {s : Store} {i : ℕ} {tx new : Tx} {a : Account} {location k : Uuid} {row : Row}

theorem Tx.Knows.has {db : Database} (hk : tx.Knows db) (h : tx = .setSender location a) :
    db.Has a := by
  subst h
  exact hk

theorem joins_of_or {db : Database} {waiting : Option Row}
    (hk : ∀ row, waiting = some row → db.Joins location row)
    (hrow : waiting.or (db.row location) = some row) : db.Joins location row := by
  cases waiting with
  | none => exact joins_of_row hrow
  | some old => exact hk row hrow

theorem lockedMapping_joins {P : Tx → Prop} {waiting : Option Row} {wait some : Row → Tx}
    {none : Tx} (hk : ∀ row, waiting = .some row → s.db.Joins location row) (hnone : P none)
    (hwait : ∀ row, s.db.Joins location row → P (wait row))
    (hsome : ∀ row, s.db.Joins location row → s.db.mapping location = .some row.mapping →
      P (some row)) :
    P (s.lockedMapping i location waiting wait none some) := by
  refine lockedMapping_rule hnone (fun row hrow _ => hwait row (joins_of_or hk hrow)) ?_
  intro row hrow _ hmapping
  have hj := joins_of_or hk hrow
  exact hsome row hj (hj.location ▸ hmapping)

theorem beginSet_knows (db : Database) (location account : Uuid) :
    (beginSet db location account).Knows db := by
  unfold beginSet
  split
  · trivial
  case h_2 a h =>
    split
    · trivial
    split
    · trivial
    · exact ⟨a, (mem_of_account h).1, .refl a⟩

theorem lockActiveAccount_knows (ha : s.db.Has a) :
    (s.lockActiveAccount i location a).Knows s.db := by
  unfold Store.lockActiveAccount
  split
  · exact ha
  split
  · trivial
  case h_2 fresh hfresh =>
    split
    · trivial
    · exact ⟨⟨fresh, (mem_of_account hfresh).1, .refl fresh⟩, by simp⟩

theorem next_knows (hk : tx.Knows s.db) : (s.next i tx).Knows s.db := by
  cases tx with
  | setSender location a => exact lockActiveAccount_knows hk
  | setLocked location a waiting =>
    refine lockedMapping_joins (P := Tx.Knows s.db) hk.2 hk.1 ?_ ?_
    · exact fun row hj => ⟨hk.1, fun _ heq => Option.some.inj heq ▸ hj⟩
    · exact fun row hj hmapping => ⟨hk.1, hj, hmapping⟩
  | setConflict location a waiting =>
    refine lockedMapping_joins (P := Tx.Knows s.db) hk.2 trivial ?_ ?_
    · exact fun row hj => ⟨hk.1, fun _ heq => Option.some.inj heq ▸ hj⟩
    · exact fun row hj hmapping => ⟨hk.1, hj, hmapping⟩
  | clearSender location waiting =>
    refine lockedMapping_joins (P := Tx.Knows s.db) hk trivial ?_ ?_
    · exact fun row hj _ heq => Option.some.inj heq ▸ hj
    · exact fun row hj hmapping => ⟨hj, hmapping⟩
  | setUnmapped location a =>
    rw [Store.next]
    split
    · exact ⟨hk, by simp⟩
    case isFalse hnone =>
      split
      · exact ⟨hk, by simpa using hnone⟩
      · exact hk
  | disconnect k =>
    rw [Store.next]
    split
    · trivial
    split <;> trivial
  | disconnectLocked a =>
    rw [Store.next]
    split
    · trivial
    split <;> trivial
  | activate k =>
    rw [Store.next]
    split <;> trivial
  | setCreated location a => exact hk
  | setMapped location a row => exact hk
  | clearMapped location row => exact hk
  | disconnectUnused a => trivial
  | activateCalling a => trivial
  | activateAnswered a failed => trivial
  | done result => trivial

theorem answered_knows {db : Database} (hk : tx.Knows db) (subscribed : Subscribed) :
    (tx.answered subscribed).Knows db := by
  unfold Tx.answered
  split
  · trivial
  · trivial
  · trivial
  · exact hk

theorem Store.Held.begin (h : s.Held) (new : Tx) (hknows : new.Knows s.db)
    (hholds : ∀ l, new.holds l = false) : Store.Held { s with txs := s.txs ++ [new] } where
  knows j tx hj := by
    rcases getElem?_append_singleton hj with hj | rfl
    · exact h.knows j tx hj
    · exact hknows
  exclusive := h.exclusive.append hholds

theorem Store.Held.set (h : s.Held) (hi : s.txs[i]? = some tx) (hknows : new.Knows s.db)
    (hholds : ∀ l, new.holds l = true → tx.holds l = true ∨ s.free i l = true) :
    Store.Held { s with txs := s.txs.set i new } where
  knows j tx hj := by
    rcases getElem?_set_cases hj with ⟨-, rfl⟩ | ⟨-, hj⟩
    · exact hknows
    · exact h.knows j tx hj
  exclusive := h.exclusive.set hi hholds

theorem Store.Held.commit {db : Database} {now : Time} (h : s.Held) (hi : s.txs[i]? = some tx)
    (hc : s.db.commit now tx = some db) : Store.Held ⟨db, s.txs.set i (.done (.ok tx.result))⟩ := by
  refine ⟨fun j other hj => ?_, h.exclusive.set hi nofun⟩
  rcases getElem?_set_cases hj with ⟨-, rfl⟩ | ⟨hji, hj⟩
  · trivial
  · refine (commit_cases hc).apart.knows (h.knows j other hj) fun l hl => ?_
    by_contra hheld
    exact hji (h.exclusive j i other tx l hj hi hl (eq_true_of_ne_false hheld))

theorem step_held (s : Store) (choice : StoreChoice) (h : s.Held) : (s.step choice).Held := by
  generalize hs' : s.step choice = s'
  cases step_cases hs' with
  | setLocationSender location k => exact h.begin _ (beginSet_knows _ _ _) (beginSet_holds _ _ _)
  | clearLocationSender location =>
    exact h.begin (.clearSender location none) (by simp [Tx.Knows]) fun _ => rfl
  | disconnectOwnNumber k => exact h.begin (.disconnect k) trivial fun _ => rfl
  | activateOwnNumber k => exact h.begin (.activate k) trivial fun _ => rfl
  | advance hi =>
    have hk := h.knows _ _ hi
    exact h.set hi (next_knows hk) fun l hl => next_holds (fun _ _ heq => hk.has heq) l hl
  | answer subscribed hi =>
    exact h.set hi (answered_knows (h.knows _ _ hi) subscribed) fun l hl =>
      .inl (answered_holds _ subscribed l hl)
  | commit hi hc => exact h.commit hi hc
  | rollback hi => exact h.set hi trivial nofun
  | addAccount a =>
    have hapart : Apart (fun _ => false) s.db (s.db.addAccount a) := by
      refine ⟨has_addAccount a, fun l _ => ?_⟩
      unfold Database.addAccount
      split <;> rfl
    exact ⟨fun j tx hj => hapart.knows (h.knows j tx hj) fun _ _ => rfl, h.exclusive⟩
  | nothing => exact h

theorem held_start (db : Database) : Store.Held ⟨db, []⟩ := ⟨fun i tx h => by simp at h, .nil⟩

end Statements

end ReviewFlow.Senders
