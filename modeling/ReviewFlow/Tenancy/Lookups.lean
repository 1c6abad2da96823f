import ReviewFlow.Tenancy.Isolation

/-!
# Transactions without a merchant

A lookup reads the rows that carry the value it looks up and writes nothing. The platform writes
rows without a merchant only, and what it has written to the audit log stays there unread.
-/

namespace ReviewFlow.Tenancy.Schema

open RowSecurity Interleaving

variable {k : Constraints} {s : Settings} {tables : Tables} {db db' : Database k} {w : Work}
    {works : List Work}

section Lookups

theorem merchantIsCurrent_of_none {σ : Scope} {r : Row} (h : σ.1.merchant.nullif = none) :
    merchantIsCurrent σ r = false := by
  by_contra hm
  obtain ⟨m, hm, -⟩ := merchantIsCurrent_iff.mp (by simpa using hm)
  rw [h] at hm
  cases hm

theorem visible_via (hm : s.merchant.nullif = none) (t : Table) (hl : lookup? t = none) (r : Row) :
    visible (policies t) (s, tables) r = false := by
  induction t using parent_induction generalizing r with
  | hroot t ht =>
    by_contra hv
    rcases visible_direct ht (by simpa using hv) with h | ⟨rfl, -⟩ | ⟨k, -, hk, -⟩
    · rw [merchantIsCurrent_of_none hm] at h
      cases h
    · cases hl
    · rw [hl] at hk
      cases hk
  | hvia t fk parent ht ih =>
    have hparent := ih (lookup?_parent ht)
    simp only [visible] at hparent
    simp [visible, policies_via ht, rlsViaParent, hparent]

/-- A row that is readable without a merchant is looked up or an account of the platform. -/
theorem visible_without (hm : s.merchant.nullif = none) {t : Table} {r : Row}
    (h : visible (policies t) (s, tables) r = true) :
    (t = .whatsAppAccount ∧ r "merchant_id" = .null) ∨ lookedUp t s r := by
  cases hl : lookup? t with
  | none =>
    rw [visible_via hm t hl r] at h
    cases h
  | some l =>
    have ht : parent? t = none := by cases t <;> first | rfl | cases hl
    rcases visible_direct ht h with hcurrent | hrest
    · rw [merchantIsCurrent_of_none hm] at hcurrent
      cases hcurrent
    · exact hrest

def Opening.Finds (opening : Opening) (t : Table) (r : Row) : Prop :=
  ∃ l v, opening = .lookup l v ∧ lookup? t = some l ∧ ∃ column ∈ lookupColumns t, holds (r column) v

theorem finds_of_lookedUp {opening : Opening} (hs : opening.Sets s) {t : Table} {r : Row}
    (h : lookedUp t s r) : opening.Finds t r := by
  obtain ⟨l, v, hl, hv, hcolumn⟩ := h
  rw [hs.lookup] at hv
  cases opening with
  | lookup k w =>
    simp only [Opening.value?, Option.ite_none_right_eq_some, Option.some.injEq] at hv
    obtain ⟨rfl, rfl⟩ := hv
    exact ⟨l, w, rfl, hl, hcolumn⟩
  | tenant m => cases hv
  | plain => cases hv

theorem belongs_anybody (hdb : Anchored db.tables) (t : Table) (r : Row) (hr : r ∈ db.tables t) :
    belongs (fun _ => true) t db.tables r = true := by
  have hnobody := belongs_not (Q := fun _ => false) db.keyed hdb t r hr
  have hfalse : belongs (fun _ => false) t db.tables r = false := by
    cases t <;> simp [belongs, viaParent, merchantMeets]
  rw [hfalse] at hnobody
  exact hnobody

theorem unchanged_of_keeps (h : Keeps (fun _ => true) db.tables db'.tables)
    (hdb : Anchored db.tables) (hdb' : Anchored db'.tables) : db' = db := by
  apply Database.ext_tables
  intro t
  have hall : ∀ r ∈ db'.tables t, belongs (fun _ => true) t db.tables r = true := by
    intro r hr
    rw [← h.belongs_eq (fun _ => id) t r]
    exact belongs_anybody hdb' t r hr
  rw [← List.filter_eq_self.mpr hall, h t]
  exact List.filter_eq_self.mpr (belongs_anybody hdb t)

theorem run_anchored (hdb : Anchored db.tables) :
    ∀ t ∈ trace step db works, Anchored t.before.tables :=
  reachable_invariant (I := fun db : Database k => Anchored db.tables) hdb fun db w =>
    step_anchored db w

theorem commit_unchanged (hm : w.opening.merchant? = none)
    (hw : ∀ v, w.opening ≠ .lookup .platformWrite v) (hdb : Anchored db.tables)
    (h : w.commit db = some db') : db' = db := by
  obtain ⟨hperform, hdb'⟩ := commit_eq h
  obtain ⟨session, hsession, hrun⟩ := perform_eq hperform
  have hs := Opening.session_sets hsession
  have hexcludes : Excludes session.settings fun _ => true := by
    constructor
    · intro n hn
      rw [hs.merchant, hm] at hn
      cases hn
    · intro _
      rw [hs.lookup]
      cases ho : w.opening with
      | tenant m => rfl
      | lookup l v =>
        have hne : Lookup.platformWrite ≠ l := by
          intro heq
          exact hw v (by rw [ho, heq])
        simp [Opening.value?, hne]
      | plain => rfl
  exact unchanged_of_keeps (Program.run_keeps hexcludes w.program (Keeps.refl _) hrun) hdb hdb'

/-- In every run a transaction that no merchant opened reads what it looks up and the accounts of
the platform, and changes nothing unless the platform opened it. -/
theorem lookups_read (k : Constraints) (db : Database k) (hdb : Anchored db.tables)
    (works : List Work) (t : Transition (Database k) Work) (ht : t ∈ trace step db works)
    (hm : t.label.opening.merchant? = none) :
    (∀ session, t.label.opening.session t.label.left = some session → ∀ u,
      ∀ r ∈ view session.settings t.before.tables u,
        (u = .whatsAppAccount ∧ r "merchant_id" = .null) ∨ t.label.opening.Finds u r) ∧
      ((∀ v, t.label.opening ≠ .lookup .platformWrite v) → t.after = t.before) := by
  constructor
  · intro session hsession u r hr
    have hs := Opening.session_sets hsession
    have hnone := hs.merchant.trans hm
    exact (visible_without hnone (List.mem_filter.mp hr).2).imp id (finds_of_lookedUp hs)
  · intro hw
    have hstep := congrArg Transition.after (trace_step ht)
    rw [hstep]
    cases hc : t.label.commit t.before with
    | none => simp [transition, step, hc]
    | some after =>
      have := commit_unchanged hm hw (run_anchored hdb t ht) hc
      simp [transition, step, hc, this]

def member (id merchantId userId : Uuid) (role : String) : Row
  | "id" => .uuid id
  | "merchant_id" => .uuid merchantId
  | "user_id" => .uuid userId
  | "role" => .text role
  | _ => .null

def members : Database keysOnly
  | .teamMember =>
    ⟨[member 1 10 7 "VIEWER", member 2 20 7 "OWNER", member 3 10 8 "ADMIN"], by decide⟩
  | t => ⟨[], keysOnly_nil t⟩

/-- It looks up the memberships of user 7 and tries to make them owners. -/
def membershipLookup : Work where
  left := ⟨.unset, fun _ => .unset⟩
  opening := .lookup .userId (.uuid 7)
  program := .write .teamMember
    (.update false (fun _ => true) fun r => Function.update r "role" (.text "OWNER"))
    fun _ => .commit

theorem lookups_read_membership :
    (membershipLookup.opening.session membershipLookup.left).map
        (fun session => view session.settings members.tables .teamMember) =
      some [member 1 10 7 "VIEWER", member 2 20 7 "OWNER"] ∧
    (∀ session, membershipLookup.opening.session membershipLookup.left = some session → ∀ u,
      ∀ r ∈ view session.settings members.tables u,
        (u = .whatsAppAccount ∧ r "merchant_id" = .null) ∨ membershipLookup.opening.Finds u r) ∧
      ((∀ v, membershipLookup.opening ≠ .lookup .platformWrite v) →
        step members membershipLookup = members) :=
  ⟨rfl, lookups_read keysOnly members (foreignKeys_anchored (by decide)) [membershipLookup]
    (transition step members membershipLookup) List.mem_cons_self rfl⟩

end Lookups

section Platform

def withoutMerchant (r : Row) : Bool := r "merchant_id" == .null

theorem settled_audit (σ : Scope) : Settled (policies .auditLog) σ withoutMerchant := by
  have hnot : ∀ r, withoutMerchant r = true → merchantIsCurrent σ r = false := by
    intro r hr
    by_contra h
    obtain ⟨m, -, hm⟩ := merchantIsCurrent_iff.mp (by simpa using h)
    simp [withoutMerchant, hm] at hr
  constructor
  all_goals
    intro r hr
    simp [policies, rlsDirect, hnot r hr]

def platformTrail (db : Database k) : List Row := (db.tables .auditLog).filter withoutMerchant

theorem execute_trail {t : Table} {st : Statement Row} (h : db.execute s t st = some db') :
    platformTrail db <+: platformTrail db' := by
  obtain ⟨rows, hrows, rfl⟩ := execute_eq h
  by_cases ht : t = .auditLog
  · subst ht
    simpa only [platformTrail, Database.tables, Function.update_self] using
      (settled_audit (s, db.tables)).execute st hrows
  · simp only [platformTrail, Database.tables, Function.update_of_ne (Ne.symm ht)]
    exact List.prefix_refl _

theorem step_trail (db : Database k) (w : Work) :
    platformTrail db <+: platformTrail (step db w) := by
  cases hc : w.commit db with
  | none =>
    rw [step, hc]
    exact List.prefix_refl _
  | some after =>
    obtain ⟨session, -, hrun⟩ := perform_eq (commit_eq hc).1
    rw [step, hc]
    exact w.program.run_start (I := fun after => platformTrail db <+: platformTrail after)
      (fun _ _ _ _ htrail h => htrail.trans (execute_trail h)) (List.prefix_refl _) hrun

theorem run_trail (db : Database k) (works : List Work) :
    platformTrail db <+: platformTrail (run step db works) := by
  induction works generalizing db with
  | nil => exact List.prefix_refl _
  | cons w works ih => exact (step_trail db w).trans (ih (step db w))

theorem trail_of_keeps {K : Value → Bool} (hK : K .null = true)
    (h : Keeps K db.tables db'.tables) : platformTrail db' = platformTrail db := by
  have hcut : ∀ l : List Row, l.filter withoutMerchant =
      (l.filter (belongs K .auditLog db.tables)).filter withoutMerchant := by
    intro l
    rw [List.filter_filter]
    apply List.filter_congr
    intro r _
    cases hr : withoutMerchant r with
    | false => rfl
    | true =>
      have hnull : r "merchant_id" = .null := by simpa [withoutMerchant] using hr
      simp [belongs, merchantMeets, hnull, hK]
  rw [platformTrail, hcut, h .auditLog, ← hcut]
  rfl

theorem step_trail_eq (hw : ∀ v, w.opening ≠ .lookup .platformWrite v) :
    platformTrail (step db w) = platformTrail db := by
  cases hc : w.commit db with
  | none => rw [step, hc, Option.getD_none]
  | some after =>
    obtain ⟨session, hsession, hrun⟩ := perform_eq (commit_eq hc).1
    have hs := Opening.session_sets hsession
    have hexcludes : Excludes session.settings fun v => v == .null := by
      constructor
      · exact fun n _ => rfl
      · intro _
        rw [hs.lookup]
        cases ho : w.opening with
        | tenant m => rfl
        | lookup l v =>
          have hne : Lookup.platformWrite ≠ l := by
            intro heq
            exact hw v (by rw [ho, heq])
          simp [Opening.value?, hne]
        | plain => rfl
    rw [step, hc, Option.getD_some]
    exact trail_of_keeps rfl (Program.run_keeps hexcludes w.program (Keeps.refl _) hrun)

theorem not_in_view {r : Row} (hr : withoutMerchant r = true) : r ∉ view s tables .auditLog := by
  intro hmem
  have hnull : r "merchant_id" = .null := by simpa [withoutMerchant] using hr
  rcases visible_direct rfl (List.mem_filter.mp hmem).2 with h | ⟨h, -⟩ | ⟨l, v, hl, -⟩
  · obtain ⟨m, -, hm⟩ := merchantIsCurrent_iff.mp h
    rw [hnull] at hm
    cases hm
  · cases h
  · cases hl

/-- In every run the platform's rows of the audit log are only added to, by the platform alone, and
no transaction reads them. -/
theorem platform_trail (k : Constraints) (db : Database k) (works : List Work) :
    platformTrail db <+: platformTrail (run step db works) ∧
      ∀ t ∈ trace step db works,
        (platformTrail t.after ≠ platformTrail t.before →
          ∃ v, t.label.opening = .lookup .platformWrite v) ∧
        ∀ session, t.label.opening.session t.label.left = some session →
          ∀ r ∈ platformTrail t.before, r ∉ view session.settings t.before.tables .auditLog := by
  refine ⟨run_trail db works, fun t ht => ⟨fun hne => ?_, fun session _ r hr => ?_⟩⟩
  · by_contra hnot
    apply hne
    rw [congrArg Transition.after (trace_step ht)]
    exact step_trail_eq fun v hv => hnot ⟨v, hv⟩
  · exact not_in_view (List.mem_filter.mp hr).2

end Platform

section Accounts

def accountRow (a : WhatsAppAccount) : Row
  | "id" => .uuid a.id
  | "merchant_id" => a.merchantId.elim .null .uuid
  | "sender_type" => .text (if a.senderType = .ownNumber then "OWN_NUMBER" else "SHARED_POOL")
  | "provider" => .text a.provider
  | "phone_number_id" => .text a.phoneNumberId
  | "business_account_id" => a.businessAccountId.elim .null .text
  | "status" => .text a.status
  | "access_token_enc" => a.accessTokenEnc.elim .null .text
  | _ => .null

variable {a : WhatsAppAccount}

theorem accountRow_merchant :
    accountRow a "merchant_id" = a.merchantId.elim .null .uuid := rfl

@[simp] theorem accountRow_isNone :
    (accountRow a "merchant_id" == .null) = a.merchantId.isNone := by
  rw [accountRow_merchant]
  cases a.merchantId <;> rfl

@[simp] theorem accountRow_own :
    (accountRow a "sender_type" == .text "OWN_NUMBER") = (a.senderType == .ownNumber) := by
  have h : accountRow a "sender_type" =
    .text (if a.senderType = .ownNumber then "OWN_NUMBER" else "SHARED_POOL") := rfl
  rw [h]
  cases a.senderType <;> rfl

@[simp] theorem accountRow_shared :
    (accountRow a "sender_type" == .text "SHARED_POOL") = (a.senderType == .sharedPool) := by
  have h : accountRow a "sender_type" =
    .text (if a.senderType = .ownNumber then "OWN_NUMBER" else "SHARED_POOL") := rfl
  rw [h]
  cases a.senderType <;> rfl

theorem value_text (x y : String) : (Value.text x == Value.text y) = (x == y) := by
  rw [Bool.eq_iff_iff, beq_iff_eq, beq_iff_eq, Value.text.injEq]

@[simp] theorem merchantIsCurrent_row : merchantIsCurrent (s, tables) (accountRow a) =
    Tenancy.merchantIsCurrent s a := by
  unfold merchantIsCurrent columnIs CURRENT_MERCHANT Tenancy.merchantIsCurrent
  rw [accountRow_merchant]
  cases s.merchant.nullif with
  | none => rfl
  | some m =>
    cases hm : a.merchantId with
    | none => rfl
    | some n => simp

@[simp] theorem textIs_row (l : Lookup) (column text : String)
    (h : accountRow a column = .text text) :
    columnIs column (textSetting l) (s, tables) (accountRow a) = settingIs (s.lookup l) text := by
  unfold columnIs textSetting settingIs
  rw [h]
  cases (s.lookup l).nullif with
  | none => rfl
  | some v => simp [eq_comm]

@[simp] theorem sharedPoolRow_row : sharedPoolRow (s, tables) (accountRow a) =
    Tenancy.sharedPoolRow s a := by
  have hscope : (textSetting .platformWrite s == some (.text "whatsapp_shared_pool")) =
      settingIs (s.lookup .platformWrite) "whatsapp_shared_pool" := by
    unfold textSetting settingIs
    cases (s.lookup .platformWrite).nullif with
    | none => rfl
    | some v => simp
  simp only [sharedPoolRow, Tenancy.sharedPoolRow, accountRow_isNone, accountRow_shared, hscope]

@[simp] theorem ownNumberRow_row : ownNumberRow (s, tables) (accountRow a) =
    Tenancy.ownNumberRow s a := by
  simp only [ownNumberRow, Tenancy.ownNumberRow, merchantIsCurrent_row, accountRow_own]

theorem accountPolicies_row (c : Command) :
    permits accountPolicies c s a =
        permits (policies .whatsAppAccount) c (s, tables) (accountRow a) ∧
      allows accountPolicies c s a =
        allows (policies .whatsAppAccount) c (s, tables) (accountRow a) := by
  have hprovider : (accountRow a "provider" == .text "meta_cloud") = (a.provider == "meta_cloud") :=
    value_text _ _
  have hphone : columnIs "phone_number_id" (textSetting .phoneNumberId) (s, tables) (accountRow a) =
      settingIs (s.lookup .phoneNumberId) a.phoneNumberId := textIs_row _ _ _ rfl
  constructor
  · cases c <;> simp [permits, accountPolicies, Tenancy.rlsSharedPool,
      Tenancy.rlsSelectByPhoneNumberId, policies, rlsSharedPool, rlsSelectByPhoneNumberId, selectBy,
      hprovider, hphone]
  · cases c <;> simp [allows, accountPolicies, Tenancy.rlsSharedPool,
      Tenancy.rlsSelectByPhoneNumberId, policies, rlsSharedPool, rlsSelectByPhoneNumberId, selectBy]

end Accounts

end ReviewFlow.Tenancy.Schema
