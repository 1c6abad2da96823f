import ReviewFlow.WhatsApp.SenderProgress

/-!
# Requests that race for the sender of a location

A request that lost the insert reads the mapping again, and `Store.Finds` says when it is there.
-/

namespace ReviewFlow.Senders

open Tables Interleaving RowLocks

abbrev SenderTransition := Transition Store StoreChoice

/-- A `set_location_sender` runs, has returned a mapping of the location to the account, or has
raised one of its errors. -/
def Tx.Answers (location account : Uuid) : Tx → Prop
  | .done (.ok result) => result = some ⟨location, account⟩
  | .done (.error e) => e = .senderNotFound ∨ e = notActive ∨ e = cannotServe
  | tx => tx.sets = some (location, account)

def calls (choices : List StoreChoice) : List StoreChoice := choices.filter StoreChoice.begins

/-- Each `set_location_sender` is answered, unless its connection is lost. -/
def Store.Answered (s : Store) (choices : List StoreChoice) : Prop :=
  ∀ (i : ℕ) (location account : Uuid),
    (calls choices)[i]? = some (.setLocationSender location account) →
      ∃ tx, s.txs[i]? = some tx ∧
        (tx.Answers location account ∨ tx = .done (.error .aborted))

def Store.Ended (s : Store) (choices : List StoreChoice) : Prop :=
  ∀ (i : ℕ) (location account : Uuid),
    (calls choices)[i]? = some (.setLocationSender location account) →
      ∃ result, s.txs[i]? = some (.done result)

/-- The row that the `SELECT` began with is not deleted and, once its lock is free, refers to the
account that it referred to. -/
def Store.Finds (s : Store) (i : ℕ) (location : Uuid) (waiting : Option Row) : Prop :=
  ∃ row, waiting.or (s.db.row location) = some row ∧ ∃ m, s.db.latest row = some m ∧
    (s.free i (.mapping location) = true → m.account = row.mapping.account)

/-- A request that reads the mapping again after an `IntegrityError` finds it. -/
def SenderTransition.Rereads (t : SenderTransition) : Prop :=
  ∀ i location a waiting, t.label = .advance i →
    t.before.txs[i]? = some (.setConflict location a waiting) →
    t.before.Finds i location waiting

def Database.senderType (db : Database) (location : Uuid) : Option SenderType :=
  (db.mapping location).bind fun m => db.typeOf m.account

/-- A change of a mapping writes one audit row, with the sender types before and after it. -/
structure SenderTransition.Audited (t : SenderTransition) : Prop where
  changed : ∀ location, t.after.db.mapping location ≠ t.before.db.mapping location →
    t.after.db.audit = t.before.db.audit ++
      [.senderChanged location (t.before.db.senderType location)
        (t.after.db.senderType location)]
  unchanged : (∀ location, t.after.db.mapping location = t.before.db.mapping location) →
    t.after.db.audit.filter AuditLog.isSenderChange =
      t.before.db.audit.filter AuditLog.isSenderChange

def SenderTransition.Returned (t : SenderTransition) : Prop :=
  ∀ (i : ℕ) (tx : Tx) (m : Mapping), t.before.txs[i]? = some tx → tx.sets.isSome = true →
    t.after.txs[i]? = some (.done (.ok (some m))) → t.after.db.mapping m.location = some m

section Answers

variable {s : Store} {i : ℕ} {tx : Tx} {location account : Uuid} {choice : StoreChoice}

def Tx.Of : StoreChoice → Tx → Prop
  | .setLocationSender location account, tx =>
    tx.Answers location account ∨ tx = .done (.error .aborted) ∨
      tx = .done (.error .attributeError)
  | _, tx => tx.sets = none ∧ tx ≠ .done (.error .attributeError)

theorem answers_of_sets (h : tx.sets = some (location, account)) : tx.Answers location account := by
  cases tx with
  | done result => cases h
  | _ => exact h

theorem lockedMapping_finds {waiting : Option Row} (wait some : Row → Tx) (none : Tx)
    (h : s.Finds i location waiting) :
    ∃ row, s.lockedMapping i location waiting wait none some = wait row ∨
      s.lockedMapping i location waiting wait none some = some row := by
  obtain ⟨row, hrow, m, hm, hsame⟩ := h
  refine ⟨row, ?_⟩
  rw [Store.lockedMapping, hrow]
  simp only [hm]
  cases hfree : s.free i (.mapping location) with
  | false => exact .inl rfl
  | true => exact .inr (if_pos (hsame hfree))

theorem lockedMapping_misses {waiting : Option Row} {wait some : Row → Tx} {none : Tx}
    (h : ¬ s.Finds i location waiting) :
    s.lockedMapping i location waiting wait none some = none := by
  unfold Store.lockedMapping
  split
  · rfl
  case h_2 row hrow =>
    split
    · rfl
    case h_2 m hm =>
      have hfinds : ¬ (s.free i (.mapping location) = true → m.account = row.mapping.account) :=
        fun hsame => h ⟨row, hrow, m, hm, hsame⟩
      obtain ⟨hfree, hdiffers⟩ := Classical.not_imp.mp hfinds
      rw [hfree, if_neg (by simp), if_neg hdiffers]

theorem beginSet_answers (db : Database) (location account : Uuid) :
    (beginSet db location account).Answers location account := by
  unfold beginSet
  split
  · exact .inl rfl
  case h_2 a h =>
    split
    · exact .inr (.inl rfl)
    split
    · exact .inr (.inr rfl)
    · exact congrArg (fun k => some (location, k)) (mem_of_account h).2

theorem lockActiveAccount_cases (s : Store) (i : ℕ) (location : Uuid) (a : Account) :
    (s.lockActiveAccount i location a).sets = some (location, a.id) ∨
      s.lockActiveAccount i location a = .done (.error .senderNotFound) ∨
      s.lockActiveAccount i location a = .done (.error notActive) := by
  unfold Store.lockActiveAccount
  split
  · exact .inl rfl
  split
  · exact .inr (.inl rfl)
  case h_2 fresh hfresh =>
    split
    · exact .inr (.inr rfl)
    · exact .inl (congrArg (fun k => some (location, k)) (mem_of_account hfresh).2)

theorem next_conflict {a : Account} {waiting : Option Row} :
    s.next i (.setConflict location a waiting) = .done (.error .attributeError) ↔
      ¬ s.Finds i location waiting := by
  rw [Store.next]
  by_cases h : s.Finds i location waiting
  · obtain ⟨row, hrow | hrow⟩ := lockedMapping_finds
      (fun row => .setConflict location a (some row)) (.setMapped location a)
      (.done (.error .attributeError)) h <;>
    · rw [hrow]
      simp [h]
  · rw [lockedMapping_misses h]
    exact iff_of_true rfl h

theorem next_sets (h : tx.sets = some (location, account)) :
    (s.next i tx).sets = some (location, account) ∨
      s.next i tx = .done (.error .senderNotFound) ∨ s.next i tx = .done (.error notActive) ∨
      s.next i tx = .done (.error .attributeError) ∧
        ∃ a waiting, tx = .setConflict location a waiting := by
  cases tx with
  | setSender l a =>
    cases h
    exact (lockActiveAccount_cases s i location a).imp_right fun h => h.imp_right .inl
  | setLocked l a waiting =>
    cases h
    refine .inl (lockedMapping_rule (P := fun new => new.sets = some (location, a.id)) rfl ?_ ?_)
    · exact fun _ _ _ => rfl
    · exact fun _ _ _ _ => rfl
  | setConflict l a waiting =>
    cases h
    by_cases hfinds : s.Finds i location waiting
    · obtain ⟨row, h | h⟩ := lockedMapping_finds (fun row => .setConflict location a (some row))
        (.setMapped location a) (.done (.error .attributeError)) hfinds
      · exact .inl (congrArg Tx.sets h)
      · exact .inl (congrArg Tx.sets h)
    · exact .inr (.inr (.inr ⟨next_conflict.mpr hfinds, a, waiting, rfl⟩))
  | setUnmapped l a =>
    cases h
    rw [Store.next]
    split
    · exact .inl rfl
    split <;> exact .inl rfl
  | setCreated l a => exact .inl h
  | setMapped l a row => exact .inl h
  | clearSender l waiting => cases h
  | clearMapped l row => cases h
  | disconnect k => cases h
  | disconnectLocked a => cases h
  | disconnectUnused a => cases h
  | activate k => cases h
  | activateCalling a => cases h
  | activateAnswered a failed => cases h
  | done result => cases h

theorem next_answers (h : tx.sets = some (location, account)) :
    (s.next i tx).Answers location account ∨ s.next i tx = .done (.error .attributeError) := by
  rcases next_sets (s := s) (i := i) h with h | h | h | ⟨h, -⟩
  · exact .inl (answers_of_sets h)
  · exact .inl (h ▸ .inl rfl)
  · exact .inl (h ▸ .inr (.inl rfl))
  · exact .inr h

theorem next_other (h : tx.sets = none) (hne : tx ≠ .done (.error .attributeError)) :
    (s.next i tx).sets = none ∧ s.next i tx ≠ .done (.error .attributeError) := by
  cases tx with
  | clearSender l waiting =>
    refine lockedMapping_rule (P := fun new => new.sets = none ∧ new ≠ _) ⟨rfl, by simp⟩ ?_ ?_
    · exact fun _ _ _ => ⟨rfl, by simp⟩
    · exact fun _ _ _ _ => ⟨rfl, by simp⟩
  | disconnect k =>
    rw [Store.next]
    split
    · exact ⟨rfl, by simp⟩
    split <;> exact ⟨rfl, by simp⟩
  | disconnectLocked a =>
    rw [Store.next]
    split
    · exact ⟨rfl, by simp⟩
    split <;> exact ⟨rfl, by simp⟩
  | activate k =>
    rw [Store.next]
    split <;> exact ⟨rfl, by simp⟩
  | done result => exact ⟨rfl, hne⟩
  | clearMapped l row => exact ⟨h, hne⟩
  | disconnectUnused a => exact ⟨h, hne⟩
  | activateCalling a => exact ⟨h, hne⟩
  | activateAnswered a failed => exact ⟨h, hne⟩
  | setSender l a => cases h
  | setLocked l a waiting => cases h
  | setUnmapped l a => cases h
  | setCreated l a => cases h
  | setConflict l a waiting => cases h
  | setMapped l a row => cases h

theorem Tx.Of.cases (h : tx.Of choice) :
    (∃ result, tx = .done result) ∨
    (∃ location account, choice = .setLocationSender location account ∧
      tx.sets = some (location, account)) ∨
    ((∀ location account, choice ≠ .setLocationSender location account) ∧ tx.sets = none ∧
      tx ≠ .done (.error .attributeError)) := by
  cases choice with
  | setLocationSender location account =>
    rcases h with h | rfl | rfl
    · cases tx with
      | done result => exact .inl ⟨result, rfl⟩
      | _ => exact .inr (.inl ⟨location, account, rfl, h⟩)
    · exact .inl ⟨_, rfl⟩
    · exact .inl ⟨_, rfl⟩
  | _ => exact .inr (.inr ⟨nofun, h⟩)

theorem Tx.Of.other (hc : ∀ location account, choice ≠ .setLocationSender location account)
    (h : tx.sets = none ∧ tx ≠ .done (.error .attributeError)) : tx.Of choice := by
  cases choice with
  | setLocationSender location account => exact absurd rfl (hc location account)
  | _ => exact h

theorem next_of (h : tx.Of choice) : (s.next i tx).Of choice := by
  rcases h.cases with ⟨result, rfl⟩ | ⟨location, account, rfl, hsets⟩ | ⟨hc, hother⟩
  · exact h
  · exact (next_answers hsets).imp_right .inr
  · exact .other hc (next_other hother.1 hother.2)

theorem answered_sets (h : tx.sets = some (location, account)) (subscribed : Subscribed) :
    tx.answered subscribed = tx := by
  unfold Tx.answered
  split <;> first | rfl | cases h

theorem answered_of (h : tx.Of choice) (subscribed : Subscribed) :
    (tx.answered subscribed).Of choice := by
  rcases h.cases with ⟨result, rfl⟩ | ⟨location, account, rfl, hsets⟩ | ⟨hc, hother⟩
  · exact h
  · rw [answered_sets hsets]
    exact h
  · refine .other hc ?_
    unfold Tx.answered
    split
    · exact ⟨rfl, by simp⟩
    · exact ⟨rfl, by simp⟩
    · exact ⟨rfl, by simp⟩
    · exact hother

theorem commit_result {db db' : Database} {now : Time} (hk : tx.Knows db)
    (hc : db.commit now tx = some db') (hsets : tx.sets = some (location, account)) :
    tx.result = some ⟨location, account⟩ ∧ db'.mapping location = some ⟨location, account⟩ := by
  cases commit_cases hc with
  | created l a mapping =>
    cases hsets
    exact ⟨rfl, by rw [mapping, if_pos rfl]⟩
  | unchanged l a row same db_eq =>
    cases hsets
    obtain ⟨-, hjoins, hmapping⟩ := hk
    have hrow : row.mapping = ⟨location, a.id⟩ := by rw [← hjoins.location, ← same]
    exact ⟨congrArg some (by rw [hrow]), by rw [db_eq, hmapping, hrow]⟩
  | repointed l a row differs mapping =>
    cases hsets
    obtain ⟨-, hjoins, hmapping⟩ := hk
    have hrow : { row.mapping with account := a.id } = (⟨location, a.id⟩ : Mapping) := by
      rw [← hjoins.location]
    exact ⟨congrArg some hrow, by rw [mapping, hmapping, Option.map_some, if_pos rfl, hrow]⟩
  | cleared l row => cases hsets
  | number _ hnone =>
    rw [hnone] at hsets
    cases hsets

theorem Tx.Of.commit {db : Database} {now : Time} (h : tx.Of choice) (hk : tx.Knows s.db)
    (hc : s.db.commit now tx = some db) : Tx.Of choice (.done (.ok tx.result)) := by
  rcases h.cases with ⟨result, rfl⟩ | ⟨location, account, rfl, hsets⟩ | ⟨hother, -⟩
  · cases hc
  · exact .inl (commit_result hk hc hsets).1
  · exact .other hother ⟨rfl, by simp⟩

theorem Tx.Of.aborted (choice : StoreChoice) : Tx.Of choice (.done (.error .aborted)) := by
  cases choice with
  | setLocationSender location account => exact .inr (.inl rfl)
  | _ => exact ⟨rfl, by simp⟩

structure Store.Serves (s : Store) (choices : List StoreChoice) : Prop where
  held : s.Held
  length : s.txs.length = (calls choices).length
  of : ∀ (i : ℕ) (c : StoreChoice) (tx : Tx), (calls choices)[i]? = some c →
    s.txs[i]? = some tx → tx.Of c

variable {choices : List StoreChoice}

theorem Store.Serves.exists (h : s.Serves choices) {c : StoreChoice}
    (hc : (calls choices)[i]? = some c) : ∃ tx, s.txs[i]? = some tx := by
  have hlt := (List.getElem?_eq_some_iff.mp hc).1
  exact ⟨_, List.getElem?_eq_getElem (h.length ▸ hlt)⟩

theorem calls_append (choices : List StoreChoice) (c : StoreChoice) :
    calls (choices ++ [c]) = calls choices ++ if c.begins then [c] else [] := by
  rw [calls, List.filter_append, List.filter_singleton, Bool.cond_eq_ite]
  rfl

theorem Store.Serves.begin (h : s.Serves choices) {c : StoreChoice} {new : Tx}
    (hc : c.begins = true) (hheld : Store.Held { s with txs := s.txs ++ [new] }) (hof : new.Of c) :
    Store.Serves { s with txs := s.txs ++ [new] } (choices ++ [c]) where
  held := hheld
  length := by simp [calls_append, hc, h.length]
  of i d tx hd htx := by
    rw [calls_append, if_pos hc] at hd
    rcases Nat.lt_trichotomy i s.txs.length with hi | rfl | hi
    · rw [List.getElem?_append_left (h.length ▸ hi)] at hd
      rw [List.getElem?_append_left hi] at htx
      exact h.of i d tx hd htx
    · rw [List.getElem?_append_right h.length.ge, h.length, Nat.sub_self] at hd
      rw [List.getElem?_append_right le_rfl, Nat.sub_self] at htx
      cases hd
      cases htx
      exact hof
    · have hnone : (s.txs ++ [new])[i]? = none := List.getElem?_eq_none (by simpa using hi)
      rw [hnone] at htx
      cases htx

theorem Store.Serves.set (h : s.Serves choices) {c : StoreChoice} {db : Database} {new : Tx}
    (hc : c.begins = false) (hi : s.txs[i]? = some tx)
    (hheld : Store.Held ⟨db, s.txs.set i new⟩) (hof : ∀ d, tx.Of d → new.Of d) :
    Store.Serves ⟨db, s.txs.set i new⟩ (choices ++ [c]) where
  held := hheld
  length := by simp [calls_append, hc, h.length]
  of j d other hd hother := by
    rw [calls_append, hc, if_neg Bool.false_ne_true, List.append_nil] at hd
    rcases getElem?_set_cases hother with ⟨rfl, rfl⟩ | ⟨-, hj⟩
    · exact hof d (h.of j d tx hd hi)
    · exact h.of j d other hd hj

theorem Store.Serves.same (h : s.Serves choices) {c : StoreChoice} {s' : Store}
    (hc : c.begins = false) (hheld : s'.Held) (htxs : s'.txs = s.txs) :
    s'.Serves (choices ++ [c]) where
  held := hheld
  length := by simp [calls_append, hc, htxs, h.length]
  of i d tx hd htx := by
    rw [calls_append, hc, if_neg Bool.false_ne_true, List.append_nil] at hd
    exact h.of i d tx hd (htxs ▸ htx)

theorem step_serves (choices : List StoreChoice) (s : Store) (choice : StoreChoice)
    (h : s.Serves choices) : (s.step choice).Serves (choices ++ [choice]) := by
  have hheld := step_held s choice h.held
  generalize hs' : s.step choice = s' at hheld ⊢
  cases step_cases hs' with
  | setLocationSender location account =>
    exact h.begin rfl hheld (.inl (beginSet_answers s.db location account))
  | clearLocationSender location => exact h.begin rfl hheld ⟨rfl, by simp⟩
  | disconnectOwnNumber k => exact h.begin rfl hheld ⟨rfl, by simp⟩
  | activateOwnNumber k => exact h.begin rfl hheld ⟨rfl, by simp⟩
  | advance hi => exact h.set rfl hi hheld fun _ => next_of
  | answer subscribed hi => exact h.set rfl hi hheld fun _ hof => answered_of hof subscribed
  | commit hi hc => exact h.set rfl hi hheld fun _ hof => hof.commit (h.held.knows _ _ hi) hc
  | rollback hi => exact h.set rfl hi hheld fun c _ => .aborted c
  | addAccount a => exact h.same rfl hheld rfl
  | nothing hbegins => exact h.same hbegins hheld rfl

theorem run_serves (db : Database) (choices : List StoreChoice) :
    (run Store.step ⟨db, []⟩ choices).Serves choices :=
  run_history ⟨held_start db, rfl, fun _ _ _ hc => by simp [calls] at hc⟩ step_serves

end Answers

section Audit

variable {s : Store} {choice : StoreChoice} {db db' : Database} {tx : Tx} {now : Time}

theorem audited_of_same (label : StoreChoice) (txs txs' : List Tx)
    (hmapping : ∀ location, db'.mapping location = db.mapping location)
    (haudit : db'.audit.filter AuditLog.isSenderChange = db.audit.filter AuditLog.isSenderChange) :
    SenderTransition.Audited ⟨⟨db, txs⟩, label, ⟨db', txs'⟩⟩ :=
  ⟨fun location hne => absurd (hmapping location) hne, fun _ => haudit⟩

theorem audited_of_one {location : Uuid} {fromType toType : Option SenderType}
    (label : StoreChoice) (txs txs' : List Tx)
    (hothers : ∀ l, l ≠ location → db'.mapping l = db.mapping l)
    (hchanged : db'.mapping location ≠ db.mapping location)
    (haudit : db'.audit = db.audit ++ [.senderChanged location fromType toType])
    (hfrom : db.senderType location = fromType) (hto : db'.senderType location = toType) :
    SenderTransition.Audited ⟨⟨db, txs⟩, label, ⟨db', txs'⟩⟩ := by
  refine ⟨fun l hne => ?_, fun hsame => absurd (hsame location) hchanged⟩
  obtain rfl : l = location := by
    by_contra hl
    exact hne (hothers l hl)
  rw [haudit, hfrom, hto]

theorem senderType_of_mapping {location : Uuid} {m : Mapping}
    (h : db.mapping location = some m) : db.senderType location = db.typeOf m.account := by
  rw [Database.senderType, h, Option.bind_some]

theorem commit_audited (label : StoreChoice) (txs txs' : List Tx) (hk : tx.Knows db)
    (hc : db.commit now tx = some db') :
    SenderTransition.Audited ⟨⟨db, txs⟩, label, ⟨db', txs'⟩⟩ := by
  have hcommitted := commit_cases hc
  have hhas : ∀ {a}, db.Has a → db'.Has a := hcommitted.apart.has
  cases hcommitted with
  | created location a mapping accounts audit =>
    obtain ⟨ha, hnone⟩ := hk
    have hnew : db'.mapping location = some ⟨location, a.id⟩ := by rw [mapping, if_pos rfl]
    refine audited_of_one label txs txs' (fun l hl => by rw [mapping, if_neg hl]) ?_ audit ?_ ?_
    · rw [hnew, hnone]
      nofun
    · rw [Database.senderType, hnone, Option.bind_none]
    · rw [senderType_of_mapping hnew]
      exact typeOf_of_has (hhas ha)
  | unchanged location a row same db_eq =>
    subst db_eq
    exact audited_of_same label txs txs' (fun _ => rfl) rfl
  | repointed location a row differs mapping accounts audit =>
    obtain ⟨ha, hjoins, hold⟩ := hk
    have hnew : db'.mapping location = some { row.mapping with account := a.id } := by
      rw [mapping, hold, Option.map_some, if_pos rfl]
    refine audited_of_one label txs txs' (fun l hl => ?_) ?_ audit ?_ ?_
    · rw [mapping]
      simp only [if_neg hl, Option.map_id']
    · rw [hnew, hold]
      exact fun heq => differs (congrArg Mapping.account (Option.some.inj heq)).symm
    · rw [senderType_of_mapping hold, hjoins.typeOf]
    · rw [senderType_of_mapping hnew]
      exact typeOf_of_has (hhas ha)
  | cleared location row mapping accounts audit =>
    obtain ⟨hjoins, hold⟩ := hk
    have hnew : db'.mapping location = none := by rw [mapping, if_pos rfl]
    refine audited_of_one label txs txs' (fun l hl => by rw [mapping, if_neg hl]) ?_ audit ?_ ?_
    · rw [hnew, hold]
      nofun
    · rw [senderType_of_mapping hold, hjoins.typeOf]
    · rw [Database.senderType, hnew, Option.bind_none]
  | number _ sets result has mapping audit => exact audited_of_same label txs txs' mapping audit

theorem step_audited (h : s.Held) :
    SenderTransition.Audited (transition Store.step s choice) := by
  rw [transition]
  generalize hs' : s.step choice = s'
  cases step_cases hs' with
  | commit hi hc => exact commit_audited _ _ _ (h.knows _ _ hi) hc
  | addAccount a =>
    unfold Database.addAccount
    split <;> exact audited_of_same _ _ _ (fun _ => rfl) rfl
  | _ => exact audited_of_same _ _ _ (fun _ => rfl) rfl

theorem step_returned (h : s.Held) :
    SenderTransition.Returned (transition Store.step s choice) := by
  intro i tx m hi hsets hafter
  obtain ⟨⟨location, account⟩, hsets⟩ := Option.isSome_iff_exists.mp hsets
  have hrunning : ∀ result, tx ≠ .done result := by
    rintro result rfl
    cases hsets
  -- the transaction of another request stays
  have others : ∀ {txs : List Tx}, txs[i]? = some tx → txs[i]? = some (.done (.ok (some m))) →
      (s.step choice).db.mapping m.location = some m := fun hbefore hdone =>
    absurd (Option.some.inj (hbefore.symm.trans hdone)) (hrunning _)
  simp only [transition] at hafter hi ⊢
  generalize hs' : s.step choice = s' at hafter others ⊢
  have appended : ∀ {new : Tx}, (s.txs ++ [new])[i]? = some tx := fun {new} => by
    rw [List.getElem?_append_left (List.getElem?_eq_some_iff.mp hi).1, hi]
  cases step_cases hs' with
  | setLocationSender => exact others appended hafter
  | clearLocationSender => exact others appended hafter
  | disconnectOwnNumber => exact others appended hafter
  | activateOwnNumber => exact others appended hafter
  | addAccount => exact others hi hafter
  | nothing => exact others hi hafter
  | advance hj =>
    rcases getElem?_set_cases hafter with ⟨rfl, hdone⟩ | ⟨-, hafter⟩
    · obtain rfl := Option.some.inj (hj.symm.trans hi)
      rcases next_sets (s := s) (i := i) hsets with h | h | h | ⟨h, -⟩ <;> rw [← hdone] at h <;>
        cases h
    · exact others hi hafter
  | answer subscribed hj =>
    rcases getElem?_set_cases hafter with ⟨rfl, hdone⟩ | ⟨-, hafter⟩
    · obtain rfl := Option.some.inj (hj.symm.trans hi)
      rw [answered_sets hsets] at hdone
      exact absurd hdone.symm (hrunning _)
    · exact others hi hafter
  | commit hj hc =>
    rcases getElem?_set_cases hafter with ⟨rfl, hdone⟩ | ⟨-, hafter⟩
    · obtain rfl := Option.some.inj (hj.symm.trans hi)
      obtain ⟨hresult, hmapping⟩ := commit_result (h.knows _ _ hi) hc hsets
      rw [hresult] at hdone
      cases hdone
      exact hmapping
    · exact others hi hafter
  | rollback hj =>
    rcases getElem?_set_cases hafter with ⟨rfl, hdone⟩ | ⟨-, hafter⟩
    · cases hdone
    · exact others hi hafter

end Audit

section Reread

variable {s : Store} {i : ℕ} {tx : Tx} {choice : StoreChoice}

def Store.NoAttributeError (s : Store) : Prop := ∀ tx ∈ s.txs, tx ≠ .done (.error .attributeError)

theorem next_attributeError (h : s.next i tx = .done (.error .attributeError)) :
    tx = .done (.error .attributeError) ∨
      ∃ location a waiting, tx = .setConflict location a waiting := by
  by_cases hdone : tx = .done (.error .attributeError)
  · exact .inl hdone
  cases hsets : tx.sets with
  | none => exact absurd h (next_other hsets hdone).2
  | some call =>
    obtain ⟨location, account⟩ := call
    refine .inr ⟨location, ?_⟩
    rcases next_sets (s := s) (i := i) hsets with h' | h' | h' | ⟨-, h'⟩
    · rw [h] at h'
      cases h'
    · rw [h] at h'
      cases h'
    · rw [h] at h'
      cases h'
    · exact h'

theorem answered_ne (h : tx ≠ .done (.error .attributeError)) (subscribed : Subscribed) :
    tx.answered subscribed ≠ .done (.error .attributeError) := by
  unfold Tx.answered
  split
  · nofun
  · nofun
  · nofun
  · exact h

theorem noAttributeError_append {new : Tx} {db : Database}
    (h : s.NoAttributeError) (hnew : new ≠ .done (.error .attributeError)) :
    Store.NoAttributeError ⟨db, s.txs ++ [new]⟩ := by
  intro tx htx
  rcases List.mem_append.mp htx with htx | htx
  · exact h tx htx
  · exact List.mem_singleton.mp htx ▸ hnew

theorem noAttributeError_set {new : Tx} {db : Database} (h : s.NoAttributeError)
    (hnew : new ≠ .done (.error .attributeError)) :
    Store.NoAttributeError ⟨db, s.txs.set i new⟩ := by
  intro tx htx
  rcases List.mem_or_eq_of_mem_set htx with htx | rfl
  · exact h tx htx
  · exact hnew

/-- A step leads to an `AttributeError` exactly where a request reads the mapping again and does
not find it. -/
theorem step_rereads (s : Store) (choice : StoreChoice) (h : s.NoAttributeError) :
    (s.step choice).NoAttributeError ↔
      SenderTransition.Rereads (transition Store.step s choice) := by
  have quiet : (∀ i, choice = .advance i → s.txs[i]? = none) →
      SenderTransition.Rereads (transition Store.step s choice) := by
    intro hno i location a waiting hlabel hi
    rw [transition] at hi
    rw [hno i hlabel] at hi
    cases hi
  generalize hs' : s.step choice = s'
  cases step_cases hs' with
  | setLocationSender location k =>
    refine iff_of_true (noAttributeError_append h ?_) (quiet nofun)
    intro heq
    have hanswers := beginSet_answers s.db location k
    simp [heq, Tx.Answers, notActive, cannotServe] at hanswers
  | clearLocationSender location =>
    exact iff_of_true (noAttributeError_append h nofun) (quiet nofun)
  | disconnectOwnNumber k => exact iff_of_true (noAttributeError_append h nofun) (quiet nofun)
  | activateOwnNumber k => exact iff_of_true (noAttributeError_append h nofun) (quiet nofun)
  | answer subscribed hi =>
    have hne := h _ (List.mem_of_getElem? hi)
    exact iff_of_true (noAttributeError_set h (answered_ne hne subscribed)) (quiet nofun)
  | commit hi hc => exact iff_of_true (noAttributeError_set h nofun) (quiet nofun)
  | rollback hi => exact iff_of_true (noAttributeError_set h nofun) (quiet nofun)
  | addAccount a => exact iff_of_true h (quiet nofun)
  | nothing hbegins hnone => exact iff_of_true h (quiet hnone)
  | @advance i tx hi =>
    constructor
    · intro hafter j location a waiting hlabel hj
      obtain rfl : i = j := StoreChoice.advance.inj hlabel
      obtain rfl := Option.some.inj (hi.symm.trans hj)
      by_contra hmisses
      exact hafter _ (List.mem_set (List.getElem?_eq_some_iff.mp hi).1 _)
        (next_conflict.mpr hmisses)
    · intro hfinds
      refine noAttributeError_set h fun hnext => ?_
      rcases next_attributeError hnext with rfl | ⟨location, a, waiting, rfl⟩
      · exact h _ (List.mem_of_getElem? hi) rfl
      · exact next_conflict.mp hnext (hfinds i location a waiting rfl hi)

theorem step_done {result : Except Error (Option Mapping)} (h : s.txs[i]? = some (.done result)) :
    (s.step choice).txs[i]? = some (.done result) := by
  have hlt := (List.getElem?_eq_some_iff.mp h).1
  have appended : ∀ {new : Tx}, (s.txs ++ [new])[i]? = some (.done result) := fun {new} => by
    rw [List.getElem?_append_left hlt, h]
  -- a request that has ended stays as it is
  have set : ∀ {j : ℕ} {tx new : Tx}, s.txs[j]? = some tx →
      (∀ result, tx = .done result → new = .done result) →
      (s.txs.set j new)[i]? = some (.done result) := by
    intro j tx new hj hnew
    by_cases hij : j = i
    · subst hij
      rw [List.getElem?_set_self hlt, hnew result (Option.some.inj (hj.symm.trans h))]
    · rw [List.getElem?_set_ne hij, h]
  generalize hs' : s.step choice = s'
  cases step_cases hs' with
  | setLocationSender => exact appended
  | clearLocationSender => exact appended
  | disconnectOwnNumber => exact appended
  | activateOwnNumber => exact appended
  | addAccount => exact h
  | nothing => exact h
  | advance hj => exact set hj fun result heq => by subst heq; rfl
  | answer subscribed hj => exact set hj fun result heq => by subst heq; rfl
  | commit hj hc =>
    refine set hj fun result heq => ?_
    subst heq
    cases hc
  | rollback hj hruns => exact set hj fun result heq => absurd heq (hruns result)

theorem noAttributeError_of_step (s : Store) (choice : StoreChoice)
    (h : (s.step choice).NoAttributeError) : s.NoAttributeError := by
  rintro tx htx rfl
  obtain ⟨i, hi⟩ := List.mem_iff_getElem?.mp htx
  exact h _ (List.mem_of_getElem? (step_done hi)) rfl

theorem Store.Serves.answered {choices : List StoreChoice} (h : s.Serves choices)
    (hno : s.NoAttributeError) : s.Answered choices := by
  intro i location account hi
  obtain ⟨tx, htx⟩ := h.exists hi
  refine ⟨tx, htx, ?_⟩
  rcases h.of i _ tx hi htx with hof | hof | hof
  · exact .inl hof
  · exact .inr hof
  · exact absurd hof (hno tx (List.mem_of_getElem? htx))

theorem Store.Serves.noAttributeError {choices : List StoreChoice} (h : s.Serves choices)
    (hanswered : s.Answered choices) : s.NoAttributeError := by
  rintro tx htx rfl
  obtain ⟨i, hi⟩ := List.mem_iff_getElem?.mp htx
  obtain ⟨c, hc⟩ : ∃ c, (calls choices)[i]? = some c :=
    ⟨_, List.getElem?_eq_getElem (h.length ▸ (List.getElem?_eq_some_iff.mp hi).1)⟩
  cases c with
  | setLocationSender location account =>
    obtain ⟨tx, htx, hanswers⟩ := hanswered i location account hc
    obtain rfl := Option.some.inj (hi.symm.trans htx)
    rcases hanswers with hanswers | heq
    · simp [Tx.Answers, notActive, cannotServe] at hanswers
    · cases heq
  | _ => exact (h.of i _ _ hc hi).2 rfl

theorem Store.Serves.ended {choices more : List StoreChoice} (h : s.Serves (choices ++ more))
    (hidle : s.Idle) : s.Ended choices := by
  intro i location account hi
  have hcall : (calls (choices ++ more))[i]? = some (.setLocationSender location account) := by
    have hcalls : calls (choices ++ more) = calls choices ++ calls more := List.filter_append ..
    rw [hcalls, List.getElem?_append_left (List.getElem?_eq_some_iff.mp hi).1, hi]
  obtain ⟨tx, htx⟩ := h.exists hcall
  rcases (h.of i _ tx hcall htx).cases with ⟨result, rfl⟩ | ⟨l, a, -, hsets⟩ | ⟨hother, -⟩
  · exact ⟨result, htx⟩
  · obtain ⟨choice, hproceeds, hne⟩ := moves_of_sets h.held htx (by rw [hsets]; rfl)
    exact absurd (hidle choice hproceeds) hne
  · exact absurd rfl (hother location account)

end Reread

/-- Every `set_location_sender` returns its mapping or raises one of its errors exactly where none
reads the mapping again after an `IntegrityError` and does not find it. A change of a mapping is
audited once, and no call waits for ever. -/
theorem sender_races (db : Database) (choices : List StoreChoice) :
    ((∀ t ∈ trace Store.step ⟨db, []⟩ choices, SenderTransition.Rereads t) ↔
      (run Store.step ⟨db, []⟩ choices).Answered choices) ∧
    (∀ t ∈ trace Store.step ⟨db, []⟩ choices,
      SenderTransition.Audited t ∧ SenderTransition.Returned t) ∧
    ∀ more, (∀ t ∈ trace Store.step (run Store.step ⟨db, []⟩ choices) more,
        t.label.Proceeds ∧ t.after ≠ t.before) →
      more.length ≤ (run Store.step ⟨db, []⟩ choices).work ∧
      ((run Store.step (run Store.step ⟨db, []⟩ choices) more).Idle →
        (run Store.step (run Store.step ⟨db, []⟩ choices) more).Ended choices) := by
  refine ⟨?_, fun t ht => ?_, fun more hmore => ⟨?_, fun hidle => ?_⟩⟩
  · have hserves := run_serves db choices
    have hno : (∀ t ∈ trace Store.step ⟨db, []⟩ choices, t.after.NoAttributeError) ↔
        ∀ t ∈ trace Store.step ⟨db, []⟩ choices, SenderTransition.Rereads t :=
      trace_invariant_iff (I := fun _ => True) trivial (fun _ h => nomatch h)
        (fun _ _ _ => trivial) fun s choice _ h => step_rereads s choice h
    rw [← hno]
    constructor
    · intro hclean
      exact hserves.answered (run_of_trace (fun _ h => nomatch h) hclean)
    · intro hanswered
      exact trace_of_run noAttributeError_of_step (hserves.noAttributeError hanswered)
  · have hheld := reachable_invariant (held_start db) step_held t ht
    rw [trace_step ht]
    exact ⟨step_audited hheld, step_returned hheld⟩
  · have hwork : ∀ t ∈ trace Store.step (run Store.step ⟨db, []⟩ choices) more,
        t.after.work < t.before.work := by
      intro t ht
      have hmoves := hmore t ht
      rw [trace_step ht] at hmoves ⊢
      exact step_work hmoves.1 hmoves.2
    exact length_le_of_decreasing hwork
  · rw [← run_append] at hidle ⊢
    exact (run_serves db (choices ++ more)).ended hidle

def unmapped : Database where
  accounts := ⟨[⟨1, .ownNumber, some 5, .active, some "token", none⟩,
    ⟨2, .sharedPool, none, .active, none, none⟩], by decide⟩
  mappings := Table.empty
  merchantOf := fun _ => 5
  audit := []

/-- The second request loses the insert, and the row is deleted before it reads it. -/
def clearedMeanwhile : List StoreChoice :=
  [.setLocationSender 8 2, .setLocationSender 8 2, .advance 0, .advance 0, .advance 1, .advance 1,
    .advance 0, .commit 0 3, .advance 1, .clearLocationSender 8, .advance 2, .commit 2 4,
    .advance 1]

/-- The second request loses the insert, and waits for a third that refers the row to another
account. -/
def repointedMeanwhile : List StoreChoice :=
  [.setLocationSender 8 2, .setLocationSender 8 2, .advance 0, .advance 0, .advance 1, .advance 1,
    .advance 0, .commit 0 3, .advance 1, .setLocationSender 8 1, .advance 2, .advance 2,
    .advance 1, .commit 2 4, .advance 1]

theorem lost_insert_raises :
    (∀ choices ∈ [clearedMeanwhile, repointedMeanwhile],
      (run Store.step ⟨unmapped, []⟩ choices).txs[1]? =
        some (.done (.error .attributeError))) ∧
    ¬ ∀ (db : Database) (choices : List StoreChoice),
      (run Store.step ⟨db, []⟩ choices).Answered choices := by
  have hcleared : (run Store.step ⟨unmapped, []⟩ clearedMeanwhile).txs[1]? =
      some (.done (.error .attributeError)) := rfl
  have hrepointed : (run Store.step ⟨unmapped, []⟩ repointedMeanwhile).txs[1]? =
      some (.done (.error .attributeError)) := rfl
  refine ⟨?_, fun h => ?_⟩
  · intro choices hchoices
    rcases List.mem_cons.mp hchoices with rfl | hchoices
    · exact hcleared
    · exact List.mem_singleton.mp hchoices ▸ hrepointed
  · obtain ⟨tx, htx, hanswers⟩ := h unmapped clearedMeanwhile 1 8 2 rfl
    obtain rfl := Option.some.inj (hcleared.symm.trans htx)
    rcases hanswers with hanswers | heq
    · simp [Tx.Answers, notActive, cannotServe] at hanswers
    · cases heq

end ReviewFlow.Senders
