import ReviewFlow.WhatsApp.Senders

/-!
# A location is never mapped to a dead number

`Tx.Sound` is what a request knows of the committed tables at each of its statements, and
`Quiet` is what the commit of another request, with the locks it holds, may do to them.
-/

namespace ReviewFlow.Senders

open Tables Interleaving RowLocks

def Account.Serves (a : Account) (merchant : Uuid) : Prop :=
  a.own = true → a.status = .active ∧ a.accessTokenEnc.isSome = true ∧ a.merchantId = some merchant

/-- Every mapping is to a number that can send, and an own number is ACTIVE with a token only. -/
structure Database.Sound (db : Database) : Prop where
  mapped : ∀ m ∈ db.mappings, ∃ a ∈ db.accounts, a.id = m.account ∧
    a.Serves (db.merchantOf m.location)
  tokens : ∀ a ∈ db.accounts, a.own = true → a.status = .active → a.accessTokenEnc.isSome = true

def Account.Same (a b : Account) : Prop :=
  a.id = b.id ∧ a.senderType = b.senderType ∧ a.merchantId = b.merchantId

def Database.Has (db : Database) (a : Account) : Prop := ∃ b ∈ db.accounts, a.Same b

structure Database.Target (db : Database) (location : Uuid) (a : Account) : Prop where
  has : db.Has a
  merchant : a.own = true → a.merchantId = some (db.merchantOf location)
  active : a.own = true → ∀ b ∈ db.accounts, b.id = a.id → b.status = .active

def Tx.Sound (db : Database) : Tx → Prop
  | .setSender location a =>
    db.Has a ∧ (a.own = true → a.merchantId = some (db.merchantOf location))
  | .setLocked location a _ | .setUnmapped location a | .setConflict location a _ |
    .setCreated location a
  | .setMapped location a _ => db.Target location a
  | .disconnectLocked a => db.Has a ∧ a.own = true
  | .disconnectUnused a => (db.Has a ∧ a.own = true) ∧ ∀ m ∈ db.mappings, m.account ≠ a.id
  | .activateCalling a | .activateAnswered a _ => db.Has a ∧
      ∀ b ∈ db.accounts, b.id = a.id → b.status = .pending → b.accessTokenEnc.isSome = true
  | _ => True

section Accounts

variable {db db' : Database} {a b c : Account} {tx : Tx}

theorem account_eq (ha : a ∈ db.accounts) (hb : b ∈ db.accounts) (h : a.id = b.id) : a = b :=
  Table.eq_of_clash (fun _ _ => Eq.symm) ha hb h

theorem mem_of_account {k : Uuid} (h : db.account k = some a) : a ∈ db.accounts ∧ a.id = k := by
  obtain ⟨hmem, hid⟩ := Table.mem_of_find? h
  exact ⟨hmem, beq_iff_eq.mp hid⟩

theorem Account.Same.own_eq (h : a.Same b) : a.own = b.own := by
  unfold Account.own
  rw [h.2.1]

theorem Account.Same.trans (h : a.Same b) (h' : b.Same c) : a.Same c :=
  ⟨h.1.trans h'.1, h.2.1.trans h'.2.1, h.2.2.trans h'.2.2⟩

theorem Account.Same.refl (a : Account) : a.Same a := ⟨rfl, rfl, rfl⟩

theorem Database.Has.same (h : db.Has a) (hb : b ∈ db.accounts) (hid : a.id = b.id) : a.Same b := by
  obtain ⟨c, hc, hac⟩ := h
  rw [account_eq hb hc (hid.symm.trans hac.1)]
  exact hac

structure Quiet (holds : Lock → Bool) (db db' : Database) : Prop where
  merchantOf : db'.merchantOf = db.merchantOf
  stays : ∀ a ∈ db.accounts, ∃ a' ∈ db'.accounts, a.Same a'
  rows : ∀ a' ∈ db'.accounts, (∀ a ∈ db.accounts, a.id ≠ a'.id) ∨
    ∃ a ∈ db.accounts, a.id = a'.id ∧
      (a'.status = .pending → a.status = .pending ∧ a'.accessTokenEnc = a.accessTokenEnc) ∧
      (a.status = .active → a'.status = .active ∨ holds (.account a.id) = true)
  mappings : ∀ m' ∈ db'.mappings, (∃ m ∈ db.mappings, m.account = m'.account) ∨
    ∃ a, db.Has a ∧ a.id = m'.account ∧ (a.own = true → holds (.account a.id) = true)

variable {holds : Lock → Bool}

theorem Quiet.has (h : Quiet holds db db') (ha : db.Has a) : db'.Has a := by
  obtain ⟨b, hb, hab⟩ := ha
  obtain ⟨b', hb', hbb⟩ := h.stays b hb
  exact ⟨b', hb', hab.trans hbb⟩

theorem Quiet.row (h : Quiet holds db db') (ha : db.Has a) (hb : b ∈ db'.accounts)
    (hid : b.id = a.id) :
    ∃ c ∈ db.accounts, c.id = a.id ∧
      (b.status = .pending → c.status = .pending ∧ b.accessTokenEnc = c.accessTokenEnc) ∧
      (c.status = .active → b.status = .active ∨ holds (.account a.id) = true) := by
  rcases h.rows b hb with hnew | ⟨c, hc, hcid, hpending, hactive⟩
  · obtain ⟨c, hc, hac⟩ := ha
    exact absurd (hac.1.symm.trans hid.symm) (hnew c hc)
  · have hca := hcid.trans hid
    exact ⟨c, hc, hca, hpending, hca ▸ hactive⟩

theorem Quiet.target {location : Uuid} (h : Quiet holds db db') (ht : db.Target location a)
    (hfree : a.own = true → holds (.account a.id) = false) : db'.Target location a where
  has := h.has ht.has
  merchant := by
    rw [h.merchantOf]
    exact ht.merchant
  active hown b hb hid := by
    obtain ⟨c, hc, hcid, -, hactive⟩ := h.row ht.has hb hid
    rcases hactive (ht.active hown c hc hcid) with hb | hheld
    · exact hb
    · rw [hfree hown] at hheld
      cases hheld

theorem Quiet.unused (h : Quiet holds db db') (ha : db.Has a) (hown : a.own = true)
    (hfree : holds (.account a.id) = false) (hno : ∀ m ∈ db.mappings, m.account ≠ a.id) :
    ∀ m ∈ db'.mappings, m.account ≠ a.id := by
  intro m hm hid
  rcases h.mappings m hm with ⟨m₀, hm₀, heq⟩ | ⟨b, ⟨c, hc, hbc⟩, hbid, hheld⟩
  · exact hno m₀ hm₀ (heq.trans hid)
  · have hba : b.id = a.id := hbid.trans hid
    have hac : a.Same c := ha.same hc (hba.symm.trans hbc.1)
    have hbown : b.own = true := by rw [hbc.own_eq, ← hac.own_eq, hown]
    rw [hba, hfree] at hheld
    cases hheld hbown

theorem Quiet.sound (h : Quiet holds db db') (hs : tx.Sound db)
    (happart : ∀ l, tx.holds l = true → holds l = false) : tx.Sound db' := by
  have waiting : ∀ {a : Account}, db.Has a →
      (∀ b ∈ db.accounts, b.id = a.id → b.status = .pending → b.accessTokenEnc.isSome = true) →
      ∀ b ∈ db'.accounts, b.id = a.id → b.status = .pending → b.accessTokenEnc.isSome = true := by
    intro a ha htoken b hb hid hp
    obtain ⟨c, hc, hcid, hpending, -⟩ := h.row ha hb hid
    obtain ⟨hcp, htok⟩ := hpending hp
    rw [htok]
    exact htoken c hc hcid hcp
  cases tx with
  | setSender location a =>
    refine ⟨h.has hs.1, ?_⟩
    rw [h.merchantOf]
    exact hs.2
  | setLocked location a waiting =>
    exact h.target hs fun hown => happart (.account a.id) (by simp [Tx.holds, hown])
  | setUnmapped location a =>
    exact h.target hs fun hown => happart (.account a.id) (by simp [Tx.holds, hown])
  | setConflict location a waiting =>
    exact h.target hs fun hown => happart (.account a.id) (by simp [Tx.holds, hown])
  | setCreated location a =>
    exact h.target hs fun hown => happart (.account a.id) (by simp [Tx.holds, hown])
  | setMapped location a row =>
    exact h.target hs fun hown => happart (.account a.id) (by simp [Tx.holds, hown])
  | disconnectLocked a => exact ⟨h.has hs.1, hs.2⟩
  | disconnectUnused a =>
    exact ⟨⟨h.has hs.1.1, hs.1.2⟩,
      h.unused hs.1.1 hs.1.2 (happart (.account a.id) (by simp [Tx.holds])) hs.2⟩
  | activateCalling a => exact ⟨h.has hs.1, waiting hs.1 hs.2⟩
  | activateAnswered a failed => exact ⟨h.has hs.1, waiting hs.1 hs.2⟩
  | clearSender location waiting => trivial
  | clearMapped location row => trivial
  | disconnect k => trivial
  | activate k => trivial
  | done result => trivial

end Accounts

section Commits

variable {db db' : Database} {a b : Account} {tx : Tx} {holds : Lock → Bool} {location k : Uuid}
  {audit : List AuditLog}

theorem mem_write {accounts : Table Account Account.Clash} {status : Status}
    {token : Option String → Option String} {connected : Option Time → Option Time} :
    b ∈ Accounts.write accounts k status token connected ↔
      (∃ a ∈ accounts, a.id = k ∧ b = { a with
        status := status, accessTokenEnc := token a.accessTokenEnc,
          connectedAt := connected a.connectedAt }) ∨
      b ∈ accounts ∧ b.id ≠ k := by
  unfold Accounts.write
  rw [Table.mem_update]
  constructor
  · rintro ⟨a, ha, rfl⟩
    by_cases hid : a.id = k
    · rw [if_pos hid]
      exact .inl ⟨a, ha, hid, rfl⟩
    · rw [if_neg hid]
      exact .inr ⟨ha, hid⟩
  · rintro (⟨a, ha, hid, rfl⟩ | ⟨hb, hid⟩)
    · exact ⟨a, ha, if_pos hid⟩
    · exact ⟨b, hb, if_neg hid⟩

theorem Quiet.remap {mappings : Table Mapping Mapping.Clash} {inserted : Uuid → ℕ}
    (h : ∀ m' ∈ mappings, m' ∈ db.mappings ∨
      ∃ a, db.Has a ∧ a.id = m'.account ∧ (a.own = true → holds (.account a.id) = true)) :
    Quiet holds db { db with mappings := mappings, audit := audit, inserted := inserted } where
  merchantOf := rfl
  stays a ha := ⟨a, ha, .refl a⟩
  rows a ha := .inr ⟨a, ha, rfl, fun hp => ⟨hp, rfl⟩, .inl⟩
  mappings m hm := (h m hm).imp_left fun hm => ⟨m, hm, rfl⟩

theorem Quiet.refl (holds : Lock → Bool) (db : Database) : Quiet holds db db :=
  .remap fun _ hm => .inl hm

theorem Quiet.write {status : Status} {token : Option String → Option String}
    {connected : Option Time → Option Time} (hs : status ≠ .pending)
    (hactive : ∀ a ∈ db.accounts, a.id = k → a.status = .active → status = .active ∨
      holds (.account k) = true) :
    Quiet holds db { db with
      accounts := Accounts.write db.accounts k status token connected
      audit := audit } where
  merchantOf := rfl
  stays a ha := by
    by_cases hid : a.id = k
    · exact ⟨_, mem_write.mpr (.inl ⟨a, ha, hid, rfl⟩), rfl, rfl, rfl⟩
    · exact ⟨a, mem_write.mpr (.inr ⟨ha, hid⟩), .refl a⟩
  rows a' ha' := by
    rcases mem_write.mp ha' with ⟨a, ha, hid, rfl⟩ | ⟨ha, hid⟩
    · refine .inr ⟨a, ha, rfl, fun hp => absurd hp hs, fun hact => ?_⟩
      rw [hid]
      exact hactive a ha hid hact
    · exact .inr ⟨a', ha, rfl, fun hp => ⟨hp, rfl⟩, fun hact => .inl hact⟩
  mappings m hm := .inl ⟨m, hm, rfl⟩

theorem Database.Sound.write {status : Status} {token : Option String → Option String}
    {connected : Option Time → Option Time} (hdb : db.Sound)
    (hmapped : ∀ m ∈ db.mappings, ∀ a ∈ db.accounts, a.id = m.account → a.id = k → a.own = false)
    (htoken : ∀ a ∈ db.accounts, a.id = k → status = .active →
      (token a.accessTokenEnc).isSome = true) :
    Database.Sound { db with
      accounts := Accounts.write db.accounts k status token connected
      audit := audit } where
  mapped m hm := by
    obtain ⟨a, ha, hid, hserves⟩ := hdb.mapped m hm
    by_cases hk : a.id = k
    · refine ⟨_, mem_write.mpr (.inl ⟨a, ha, hk, rfl⟩), hid, fun hown => ?_⟩
      have hno : a.own = false := hmapped m hm a ha hid hk
      have hyes : a.own = true := hown
      rw [hno] at hyes
      cases hyes
    · exact ⟨a, mem_write.mpr (.inr ⟨ha, hk⟩), hid, hserves⟩
  tokens b hb hown hactive := by
    rcases mem_write.mp hb with ⟨a, ha, hid, rfl⟩ | ⟨hb, -⟩
    · exact htoken a ha hid hactive
    · exact hdb.tokens b hb hown hactive

theorem Database.Target.serves (h : db.Target location a) (hdb : db.Sound) :
    ∃ b ∈ db.accounts, b.id = a.id ∧ b.Serves (db.merchantOf location) := by
  obtain ⟨b, hb, hab⟩ := h.has
  refine ⟨b, hb, hab.1.symm, fun hown => ?_⟩
  have hown' : a.own = true := by rw [hab.own_eq, hown]
  have hactive := h.active hown' b hb hab.1.symm
  exact ⟨hactive, hdb.tokens b hb hown hactive, hab.2.2.symm.trans (h.merchant hown')⟩

theorem Database.Target.has_holds (h : db.Target location a) :
    ∃ b, db.Has b ∧ b.id = a.id ∧
    (b.own = true → (Tx.setUnmapped location a).holds (.account b.id) = true) :=
  ⟨a, h.has, rfl, fun hown => by simp [Tx.holds, hown]⟩

theorem commit_safe {now : Time} (hdb : db.Sound) (hs : tx.Sound db)
    (hc : db.commit now tx = some db') :
    db'.Sound ∧ Quiet tx.holds db db' := by
  cases tx with
  | setCreated location a =>
    obtain ⟨mappings, hins, rfl⟩ := Option.map_eq_some_iff.mp hc
    have ht : db.Target location a := hs
    constructor
    · refine ⟨fun m hm => ?_, hdb.tokens⟩
      rcases (Table.mem_insert? hins).mp hm with hm | rfl
      · exact hdb.mapped m hm
      · exact ht.serves hdb
    · refine .remap fun m hm => ?_
      rcases (Table.mem_insert? hins).mp hm with hm | rfl
      · exact .inl hm
      · exact .inr ht.has_holds
  | setMapped location a row =>
    have ht : db.Target location a := hs
    by_cases hsame : row.mapping.account = a.id
    · simp only [Database.commit, if_pos hsame, Option.some.injEq] at hc
      exact hc ▸ ⟨hdb, .refl _ _⟩
    · simp only [Database.commit, if_neg hsame, Option.some.injEq] at hc
      subst hc
      have repointed : ∀ m ∈ Mappings.repoint db.mappings location a.id,
          m ∈ db.mappings ∨ m.location = location ∧ m.account = a.id := by
        intro m hm
        obtain ⟨m₀, hm₀, rfl⟩ := Table.mem_update.mp hm
        by_cases hl : m₀.location = location
        · rw [if_pos hl]
          exact .inr ⟨hl, rfl⟩
        · rw [if_neg hl]
          exact .inl hm₀
      constructor
      · refine ⟨fun m hm => ?_, hdb.tokens⟩
        rcases repointed m hm with hm | ⟨hl, hacc⟩
        · exact hdb.mapped m hm
        · rw [hl, hacc]
          exact ht.serves hdb
      · refine .remap fun m hm => ?_
        rcases repointed m hm with hm | ⟨-, hacc⟩
        · exact .inl hm
        · rw [hacc]
          exact .inr ht.has_holds
  | clearMapped location row =>
    cases hc
    exact ⟨⟨fun m hm => hdb.mapped m (Table.mem_delete.mp hm).1, hdb.tokens⟩,
      .remap fun m hm => .inl (Table.mem_delete.mp hm).1⟩
  | disconnectUnused a =>
    cases hc
    obtain ⟨-, hno⟩ := hs
    refine ⟨hdb.write (fun m hm b _ hbm hba => ?_) (fun _ _ _ h => nomatch h),
      .write nofun fun _ _ _ _ => .inr ?_⟩
    · exact absurd (hbm.symm.trans hba) (hno m hm)
    · simp [Tx.holds]
  | activateAnswered a failed =>
    obtain ⟨-, htoken⟩ := hs
    cases hrow : (db.account a.id).filter (·.status == .pending) with
    | none =>
      simp only [Database.commit, hrow, Option.some.injEq] at hc
      exact hc ▸ ⟨hdb, .refl _ _⟩
    | some row =>
      obtain ⟨hfind, hpending⟩ := Option.filter_eq_some_iff.mp hrow
      obtain ⟨hmem, hid⟩ := mem_of_account hfind
      have hstatus : ∀ b ∈ db.accounts, b.id = a.id → b.status = .pending := by
        intro b hb hbid
        rw [account_eq hb hmem (hbid.trans hid.symm)]
        exact beq_iff_eq.mp hpending
      -- a PENDING number is not mapped
      have hunmapped : ∀ m ∈ db.mappings, ∀ b ∈ db.accounts, b.id = m.account → b.id = a.id →
          b.own = false := by
        intro m hm b hb hbm hba
        obtain ⟨c, hc', hcm, hserves⟩ := hdb.mapped m hm
        rw [account_eq hb hc' (hbm.trans hcm.symm)] at hba ⊢
        by_contra hown
        have hactive := (hserves (eq_true_of_ne_false hown)).1
        rw [hstatus c hc' hba] at hactive
        cases hactive
      cases failed with
      | true =>
        simp only [Database.commit, hrow, Option.some.injEq] at hc
        subst hc
        refine ⟨hdb.write hunmapped (fun _ _ _ h => nomatch h),
          .write nofun fun b hb hbid hactive => ?_⟩
        rw [hstatus b hb hbid] at hactive
        cases hactive
      | false =>
        simp only [Database.commit, hrow, Option.some.injEq] at hc
        subst hc
        exact ⟨hdb.write hunmapped fun b hb hbid _ => htoken b hb hbid (hstatus b hb hbid),
          .write nofun fun _ _ _ _ => .inl rfl⟩
  | setSender location a => cases hc
  | setLocked location a waiting => cases hc
  | setUnmapped location a => cases hc
  | setConflict location a waiting => cases hc
  | clearSender location waiting => cases hc
  | disconnect k => cases hc
  | disconnectLocked a => cases hc
  | activate k => cases hc
  | activateCalling a => cases hc
  | done result => cases hc

theorem addAccount_safe (hdb : db.Sound) (a : Account) :
    (db.addAccount a).Sound ∧ ∀ holds, Quiet holds db (db.addAccount a) := by
  unfold Database.addAccount
  split
  case isFalse => exact ⟨hdb, fun holds => .refl holds db⟩
  case isTrue hbegins =>
    cases hins : db.accounts.insert? a with
    | none => exact ⟨hdb, fun holds => .refl holds db⟩
    | some accounts =>
      rw [Option.getD_some]
      have hnew := (Table.insert?_eq_some.mp hins).1
      refine ⟨⟨fun m hm => ?_, fun b hb hown hactive => ?_⟩,
        fun holds => ⟨rfl, fun b hb => ?_, fun b hb => ?_, fun m hm => .inl ⟨m, hm, rfl⟩⟩⟩
      · obtain ⟨b, hb, hid, hserves⟩ := hdb.mapped m hm
        exact ⟨b, (Table.mem_insert? hins).mpr (.inl hb), hid, hserves⟩
      · rcases (Table.mem_insert? hins).mp hb with hb | rfl
        · exact hdb.tokens b hb hown hactive
        · rw [hbegins hown] at hactive
          cases hactive
      · exact ⟨b, (Table.mem_insert? hins).mpr (.inl hb), .refl b⟩
      · rcases (Table.mem_insert? hins).mp hb with hb | rfl
        · exact .inr ⟨b, hb, rfl, fun hp => ⟨hp, rfl⟩, fun hact => .inl hact⟩
        · exact .inl hnew

end Commits

structure Store.Safe (s : Store) : Prop where
  sound : s.db.Sound
  txs : ∀ (i : ℕ) (tx : Tx), s.txs[i]? = some tx → tx.Sound s.db
  exclusive : Exclusive Tx.holds s.txs

section Statements

variable {s : Store} {i : ℕ} {tx : Tx} {a : Account} {location : Uuid}

theorem beginSet_sound (db : Database) (location account : Uuid) :
    (beginSet db location account).Sound db := by
  unfold beginSet
  split
  · trivial
  case h_2 a h =>
    split
    · trivial
    split
    · trivial
    case isFalse hserve =>
      refine ⟨⟨a, (mem_of_account h).1, .refl a⟩, fun hown => ?_⟩
      by_contra hne
      exact hserve ⟨hown, hne⟩

theorem beginSet_holds (db : Database) (location account : Uuid) (l : Lock) :
    (beginSet db location account).holds l = false := by
  unfold beginSet
  split
  · rfl
  split
  · rfl
  split <;> rfl

theorem lockActiveAccount_sound (hs : (Tx.setSender location a).Sound s.db) :
    (s.lockActiveAccount i location a).Sound s.db := by
  unfold Store.lockActiveAccount
  split
  · exact hs
  split
  · trivial
  case h_2 fresh hfresh =>
    split
    · trivial
    case isFalse hactive =>
      obtain ⟨hmem, hid⟩ := mem_of_account hfresh
      have hsame : a.Same fresh := hs.1.same hmem hid.symm
      refine ⟨⟨fresh, hmem, .refl _⟩, fun hown => ?_, fun _ b hb hbid => ?_⟩
      · rw [← hsame.2.2]
        exact hs.2 (by rw [hsame.own_eq, hown])
      · rw [account_eq hb hmem hbid]
        exact not_not.mp hactive

theorem lockActiveAccount_holds (ha : s.db.Has a) (l : Lock)
    (hl : (s.lockActiveAccount i location a).holds l = true) : s.free i l = true := by
  unfold Store.lockActiveAccount at hl
  split at hl
  · cases hl
  case isFalse hfree =>
    split at hl
    · cases hl
    case h_2 fresh hfresh =>
      split at hl
      · cases hl
      obtain ⟨hmem, hid⟩ := mem_of_account hfresh
      have hsame : a.Same fresh := ha.same hmem hid.symm
      cases l with
      | mapping l => cases hl
      | account k =>
        simp only [Tx.holds, Bool.and_eq_true, beq_iff_eq] at hl
        obtain ⟨hown, rfl⟩ := hl
        rw [hsame.own_eq, hown, Bool.true_and] at hfree
        rw [hid]
        simpa using hfree

theorem latest_eq_some {db : Database} {row : Row} {m : Mapping} (h : db.latest row = some m) :
    db.mapping row.mapping.location = some m ∧ m.location = row.mapping.location := by
  have hm := (Option.filter_eq_some_iff.mp h).1
  exact ⟨hm, beq_iff_eq.mp (Table.mem_of_find? hm).2⟩

/-- `_locked_mapping` takes the lock on the mapping only, and returns a row that is as it was. -/
theorem lockedMapping_rule {P : Tx → Prop} {waiting : Option Row} {wait some : Row → Tx} {none : Tx}
    (hnone : P none)
    (hwait : ∀ row, waiting.or (s.db.row location) = .some row →
      s.free i (.mapping location) = false → P (wait row))
    (hsome : ∀ row, waiting.or (s.db.row location) = .some row →
      s.free i (.mapping location) = true →
      s.db.mapping row.mapping.location = .some row.mapping → P (some row)) :
    P (s.lockedMapping i location waiting wait none some) := by
  unfold Store.lockedMapping
  split
  · exact hnone
  case h_2 row hrow =>
    split
    · exact hnone
    case h_2 m hm =>
      split
      case isTrue hfree => exact hwait row hrow (by simpa using hfree)
      split
      case isFalse.isTrue hfree hsame =>
        obtain ⟨hmapping, hlocation⟩ := latest_eq_some hm
        have hm : m = row.mapping := by
          cases m
          cases hrow : row.mapping
          simp only [hrow] at hsame hlocation
          rw [hsame, hlocation]
        exact hsome row hrow (by simpa using hfree) (hm ▸ hmapping)
      · exact hnone

theorem next_holds (hs : ∀ location a, tx = .setSender location a → s.db.Has a) (l : Lock)
    (hl : (s.next i tx).holds l = true) : tx.holds l = true ∨ s.free i l = true := by
  -- the lock on the mapping comes to those on the account
  have taken : ∀ (new : Tx) {location : Uuid}, new.holds l = true →
      s.free i (.mapping location) = true →
      (∀ k, new.holds (.account k) = true → tx.holds (.account k) = true) →
      (∀ l, new.holds (.mapping l) = true → location = l) →
      tx.holds l = true ∨ s.free i l = true := by
    intro new location hl hfree haccount hmapping
    cases l with
    | account k => exact .inl (haccount k hl)
    | mapping l => exact .inr (hmapping l hl ▸ hfree)
  cases tx with
  | setSender location a => exact .inr (lockActiveAccount_holds (hs location a rfl) l hl)
  | setLocked location a waiting =>
    refine lockedMapping_rule (P := fun new => new.holds l = true → _) ?_ ?_ ?_ hl
    · exact fun hl => .inl (by cases l <;> exact hl)
    · exact fun _ _ _ hl => .inl (by cases l <;> exact hl)
    · exact fun row _ hfree _ hl => taken (.setMapped location a row) hl hfree (fun _ h => h)
        fun _ h => beq_iff_eq.mp h
  | setConflict location a waiting =>
    refine lockedMapping_rule (P := fun new => new.holds l = true → _) ?_ ?_ ?_ hl
    · nofun
    · exact fun _ _ _ hl => .inl (by cases l <;> exact hl)
    · exact fun row _ hfree _ hl => taken (.setMapped location a row) hl hfree (fun _ h => h)
        fun _ h => beq_iff_eq.mp h
  | clearSender location waiting =>
    refine lockedMapping_rule (P := fun new => new.holds l = true → _) ?_ ?_ ?_ hl
    · nofun
    · exact fun _ _ _ => nofun
    · exact fun row _ hfree _ hl => taken (.clearMapped location row) hl hfree (fun _ h => h)
        fun _ h => beq_iff_eq.mp h
  | setUnmapped location a =>
    rw [Store.next] at hl
    split at hl
    · exact .inl (by cases l <;> exact hl)
    split at hl
    case isTrue hfree =>
      exact taken (.setCreated location a) hl hfree (fun _ h => h) fun _ h => beq_iff_eq.mp h
    · exact .inl hl
  | disconnect k =>
    rw [Store.next] at hl
    split at hl
    · cases hl
    case h_2 a ha =>
      obtain ⟨-, hid⟩ := mem_of_account (Option.filter_eq_some_iff.mp ha).1
      split at hl
      case isTrue hfree =>
        cases l with
        | account k => exact .inr (beq_iff_eq.mp hl ▸ hid ▸ hfree)
        | mapping l => cases hl
      · cases hl
  | disconnectLocked a =>
    rw [Store.next] at hl
    split at hl
    · cases hl
    split at hl
    · cases hl
    · exact .inl (by cases l <;> exact hl)
  | activate k =>
    rw [Store.next] at hl
    split at hl <;> cases hl
  | setCreated location a => exact .inl hl
  | setMapped location a row => exact .inl hl
  | clearMapped location row => exact .inl hl
  | disconnectUnused a => exact .inl hl
  | activateCalling a => exact .inl hl
  | activateAnswered a failed => exact .inl hl
  | done result => exact .inl hl

theorem next_sound (hs : tx.Sound s.db) : (s.next i tx).Sound s.db := by
  cases tx with
  | setSender location a => exact lockActiveAccount_sound hs
  | setLocked location a waiting =>
    exact lockedMapping_rule (P := Tx.Sound s.db) hs (fun _ _ _ => hs) fun _ _ _ _ => hs
  | setConflict location a waiting =>
    exact lockedMapping_rule (P := Tx.Sound s.db) trivial (fun _ _ _ => hs) fun _ _ _ _ => hs
  | clearSender location waiting =>
    exact lockedMapping_rule (P := Tx.Sound s.db) trivial (fun _ _ _ => trivial)
      fun _ _ _ _ => trivial
  | setUnmapped location a =>
    rw [Store.next]
    split
    · exact hs
    split <;> exact hs
  | disconnect k =>
    rw [Store.next]
    split
    · trivial
    case h_2 a ha =>
      obtain ⟨hfind, hown⟩ := Option.filter_eq_some_iff.mp ha
      split
      · exact ⟨⟨a, (mem_of_account hfind).1, .refl a⟩, hown⟩
      · trivial
  | disconnectLocked a =>
    rw [Store.next]
    split
    · trivial
    split
    · trivial
    case isFalse hany =>
      refine ⟨hs, fun m hm hid => hany ?_⟩
      exact List.any_eq_true.mpr ⟨m, hm, beq_iff_eq.mpr hid⟩
  | activate k =>
    rw [Store.next]
    split
    · trivial
    case h_2 a ha =>
      obtain ⟨hfind, hcond⟩ := Option.filter_eq_some_iff.mp ha
      obtain ⟨hmem, hid⟩ := mem_of_account hfind
      simp only [Bool.and_eq_true] at hcond
      refine ⟨⟨a, hmem, .refl a⟩, fun b hb hbid _ => ?_⟩
      rw [account_eq hb hmem hbid]
      exact hcond.2
  | setCreated location a => exact hs
  | setMapped location a row => exact hs
  | clearMapped location row => exact hs
  | disconnectUnused a => exact hs
  | activateCalling a => exact hs
  | activateAnswered a failed => exact hs
  | done result => exact hs

theorem answered_holds (tx : Tx) (subscribed : Subscribed) (l : Lock)
    (hl : (tx.answered subscribed).holds l = true) : tx.holds l = true := by
  unfold Tx.answered at hl
  split at hl
  · exact hl
  · exact hl
  · cases hl
  · exact hl

theorem answered_sound {db : Database} (hs : tx.Sound db) (subscribed : Subscribed) :
    (tx.answered subscribed).Sound db := by
  unfold Tx.answered
  split
  · exact hs
  · exact hs
  · trivial
  · exact hs

end Statements

def StoreChoice.begins : StoreChoice → Bool
  | .setLocationSender _ _ | .clearLocationSender _ | .disconnectOwnNumber _ |
    .activateOwnNumber _ => true
  | _ => false

inductive Stepped (s : Store) : StoreChoice → Store → Prop
  | setLocationSender (location account : Uuid) : Stepped s (.setLocationSender location account)
      { s with txs := s.txs ++ [beginSet s.db location account] }
  | clearLocationSender (location : Uuid) : Stepped s (.clearLocationSender location)
      { s with txs := s.txs ++ [.clearSender location none] }
  | disconnectOwnNumber (k : Uuid) : Stepped s (.disconnectOwnNumber k)
      { s with txs := s.txs ++ [.disconnect k] }
  | activateOwnNumber (k : Uuid) : Stepped s (.activateOwnNumber k)
      { s with txs := s.txs ++ [.activate k] }
  | advance {i : ℕ} {tx : Tx} (hi : s.txs[i]? = some tx) : Stepped s (.advance i)
      { s with txs := s.txs.set i (s.next i tx) }
  | answer {i : ℕ} {tx : Tx} (subscribed : Subscribed) (hi : s.txs[i]? = some tx) :
      Stepped s (.answer i subscribed) { s with txs := s.txs.set i (tx.answered subscribed) }
  | commit {i : ℕ} {tx : Tx} {db : Database} {now : Time} (hi : s.txs[i]? = some tx)
      (hc : s.db.commit now tx = some db) :
      Stepped s (.commit i now) ⟨db, s.txs.set i (.done (.ok tx.result))⟩
  | rollback {i : ℕ} {tx : Tx} (hi : s.txs[i]? = some tx) (runs : ∀ result, tx ≠ .done result) :
      Stepped s (.rollback i) { s with txs := s.txs.set i (.done (.error .aborted)) }
  | addAccount (a : Account) : Stepped s (.addAccount a) { s with db := s.db.addAccount a }
  /-- There is no such transaction, or it is not at its end, or it waits. -/
  | nothing {choice : StoreChoice} (hbegins : choice.begins = false)
      (hnone : ∀ i, choice = .advance i → s.txs[i]? = none) : Stepped s choice s

theorem step_cases {s s' : Store} {choice : StoreChoice} (h : s.step choice = s') :
    Stepped s choice s' := by
  subst h
  cases choice with
  | setLocationSender location account => exact .setLocationSender location account
  | clearLocationSender location => exact .clearLocationSender location
  | disconnectOwnNumber k => exact .disconnectOwnNumber k
  | activateOwnNumber k => exact .activateOwnNumber k
  | advance i =>
    rw [Store.step]
    split
    · exact .advance ‹_›
    case h_2 hnone => exact .nothing rfl fun j hj => by cases hj; exact hnone
  | answer i subscribed =>
    rw [Store.step]
    split
    · exact .answer subscribed ‹_›
    · exact .nothing rfl nofun
  | commit i now =>
    rw [Store.step]
    split
    case h_1 tx hi =>
      split
      · exact .nothing rfl nofun
      split
      case h_1 db hc => exact .commit hi hc
      · exact .nothing rfl nofun
    · exact .nothing rfl nofun
  | rollback i =>
    rw [Store.step]
    split
    · exact .nothing rfl nofun
    · exact .nothing rfl nofun
    case h_3 tx hruns hi => exact .rollback hi hruns
  | addAccount a => exact .addAccount a

section Steps

variable {s : Store} {i : ℕ} {tx new : Tx}

theorem Store.Safe.begin (h : s.Safe) (new : Tx) (hsound : new.Sound s.db)
    (hholds : ∀ l, new.holds l = false) :
    Store.Safe { s with txs := s.txs ++ [new] } where
  sound := h.sound
  txs j tx hj := by
    rcases getElem?_append_singleton hj with hj | rfl
    · exact h.txs j tx hj
    · exact hsound
  exclusive := h.exclusive.append hholds

theorem Store.Safe.set (h : s.Safe) (hi : s.txs[i]? = some tx) (hsound : new.Sound s.db)
    (hholds : ∀ l, new.holds l = true → tx.holds l = true ∨ s.free i l = true) :
    Store.Safe { s with txs := s.txs.set i new } where
  sound := h.sound
  txs j tx hj := by
    rcases getElem?_set_cases hj with ⟨-, rfl⟩ | ⟨-, hj⟩
    · exact hsound
    · exact h.txs j tx hj
  exclusive := h.exclusive.set hi hholds

theorem Store.Safe.commit {db : Database} {now : Time} (h : s.Safe) (hi : s.txs[i]? = some tx)
    (hc : s.db.commit now tx = some db) : Store.Safe ⟨db, s.txs.set i (.done (.ok tx.result))⟩ := by
  obtain ⟨hsound, hquiet⟩ := commit_safe h.sound (h.txs i tx hi) hc
  refine ⟨hsound, fun j other hj => ?_, h.exclusive.set hi nofun⟩
  rcases getElem?_set_cases hj with ⟨-, rfl⟩ | ⟨hji, hj⟩
  · trivial
  · refine hquiet.sound (h.txs j other hj) fun l hl => ?_
    by_contra hheld
    exact hji (h.exclusive j i other tx l hj hi hl (eq_true_of_ne_false hheld))

theorem Tx.Sound.has {db : Database} (hs : tx.Sound db) {location : Uuid} {a : Account}
    (h : tx = .setSender location a) : db.Has a := by
  subst h
  exact hs.1

theorem step_safe (s : Store) (choice : StoreChoice) (h : s.Safe) : (s.step choice).Safe := by
  generalize hs' : s.step choice = s'
  cases step_cases hs' with
  | setLocationSender location k => exact h.begin _ (beginSet_sound _ _ _) (beginSet_holds _ _ _)
  | clearLocationSender location => exact h.begin (.clearSender location none) trivial fun _ => rfl
  | disconnectOwnNumber k => exact h.begin (.disconnect k) trivial fun _ => rfl
  | activateOwnNumber k => exact h.begin (.activate k) trivial fun _ => rfl
  | advance hi =>
    have hs := h.txs _ _ hi
    exact h.set hi (next_sound hs) fun l hl => next_holds (fun _ _ heq => hs.has heq) l hl
  | answer subscribed hi =>
    exact h.set hi (answered_sound (h.txs _ _ hi) subscribed) fun l hl =>
      .inl (answered_holds _ subscribed l hl)
  | commit hi hc => exact h.commit hi hc
  | rollback hi => exact h.set hi trivial nofun
  | addAccount a =>
    obtain ⟨hsound, hquiet⟩ := addAccount_safe h.sound a
    refine ⟨hsound, fun j tx hj => ?_, h.exclusive⟩
    exact (hquiet fun _ => false).sound (h.txs j tx hj) fun _ _ => rfl
  | nothing => exact h

end Steps

/-- A mapping that refers to an own number refers to one that is ACTIVE, has a token and is the
merchant's of the location. -/
theorem mapped_senders (db : Database) (choices : List StoreChoice)
    (hmapped : ∀ m ∈ db.mappings, ∃ a ∈ db.accounts, a.id = m.account ∧
      a.Serves (db.merchantOf m.location))
    (htokens : ∀ a ∈ db.accounts, a.own = true → a.status = .active →
      a.accessTokenEnc.isSome = true) :
    ∀ t ∈ trace Store.step ⟨db, []⟩ choices, ∀ m ∈ t.after.db.mappings,
      ∃ a ∈ t.after.db.accounts, a.id = m.account ∧
        (a.own = true → a.status = .active ∧ a.accessTokenEnc.isSome = true ∧
          a.merchantId = some (t.after.db.merchantOf m.location)) := by
  intro t ht
  have hsafe : t.before.Safe := reachable_invariant (I := Store.Safe)
    ⟨⟨hmapped, htokens⟩, fun i tx h => by simp at h, .nil⟩ step_safe t ht
  rw [trace_step ht]
  exact (step_safe t.before t.label hsafe).sound.mapped

def twoNumbers : Database where
  accounts := ⟨[⟨1, .ownNumber, some 5, .pending, some "token", none⟩,
    ⟨2, .ownNumber, some 5, .active, some "token", none⟩], by decide⟩
  mappings := ⟨[⟨7, 2⟩], by decide⟩
  merchantOf := fun _ => 5
  audit := []

/-- The number is activated, and a disconnect waits while a location is mapped to it. -/
def mappedFirst : List StoreChoice :=
  [.activateOwnNumber 1, .advance 0, .answer 0 .ok, .commit 0 3, .setLocationSender 8 1,
    .disconnectOwnNumber 1, .advance 1, .advance 2, .advance 1, .advance 1, .commit 1 4, .advance 2,
    .advance 2, .commit 2 5]

theorem mapped_senders_mappedFirst :
    (run Store.step ⟨twoNumbers, []⟩ mappedFirst).db.mappings.rows = [⟨7, 2⟩, ⟨8, 1⟩] ∧
      ∀ t ∈ trace Store.step ⟨twoNumbers, []⟩ mappedFirst, ∀ m ∈ t.after.db.mappings,
        ∃ a ∈ t.after.db.accounts, a.id = m.account ∧
          (a.own = true → a.status = .active ∧ a.accessTokenEnc.isSome = true ∧
            a.merchantId = some (t.after.db.merchantOf m.location)) := by
  refine ⟨by decide, mapped_senders twoNumbers mappedFirst ?_ ?_⟩
  · intro m hm
    obtain rfl := List.mem_singleton.mp hm
    exact ⟨_, List.mem_cons_of_mem _ List.mem_cons_self, rfl, fun _ => ⟨rfl, rfl, rfl⟩⟩
  · intro a ha _ _
    rcases List.mem_cons.mp ha with rfl | ha
    · rfl
    · rw [List.mem_singleton.mp ha]
      rfl

end ReviewFlow.Senders
