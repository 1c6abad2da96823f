import ReviewFlow.RowSecurity
import ReviewFlow.Table
import ReviewFlow.Tenancy.Context

/-!
# The row policies of `whatsapp_whatsappaccount`

The six policies of `rls_shared_pool` and the one of `rls_select_by_phone_number_id`, on a
table that meets the constraints of the model. A transaction has the settings of one manager.
-/

namespace ReviewFlow.Tenancy

open RowSecurity

inductive SenderType where
  | ownNumber
  | sharedPool
  deriving DecidableEq

structure WhatsAppAccount where
  id : Uuid
  merchantId : Option Uuid
  senderType : SenderType
  provider : String
  phoneNumberId : String
  businessAccountId : Option String
  status : String
  accessTokenEnc : Option String
  deriving DecidableEq

def WhatsAppAccount.Valid (a : WhatsAppAccount) : Prop :=
  (a.senderType = .sharedPool ↔ a.merchantId = none) ∧
    (a.senderType = .sharedPool → a.accessTokenEnc = none)

/-- The primary key, `whatsapp_account_provider_phone_uniq` and
`whatsapp_account_single_shared_pool`. -/
def WhatsAppAccount.Clash (a b : WhatsAppAccount) : Prop :=
  a.id = b.id ∨ (a.provider = b.provider ∧ a.phoneNumberId = b.phoneNumberId) ∨
    (a.senderType = .sharedPool ∧ b.senderType = .sharedPool)

def Constrained (rows : List WhatsAppAccount) : Prop :=
  (∀ a ∈ rows, a.Valid) ∧ rows.Pairwise fun a b => ¬ a.Clash b

instance (a : WhatsAppAccount) : Decidable a.Valid := inferInstanceAs (Decidable (_ ∧ _))
instance : DecidableRel WhatsAppAccount.Clash := fun _ _ => inferInstanceAs (Decidable (_ ∨ _))
instance : DecidablePred Constrained := fun _ => inferInstanceAs (Decidable (_ ∧ _))

abbrev Accounts := Rows Constrained

def Literal.asText : Literal → String
  | .uuid u => toString u
  | .text c cs => String.ofList (c :: cs)

/-- `column = NULLIF(current_setting(..), '')`: NULL where the setting is unset or empty. -/
def settingIs (r : Raw Literal) (column : String) : Bool := r.nullif.any fun v => v.asText == column

def merchantIsCurrent (s : Settings) (a : WhatsAppAccount) : Bool :=
  s.merchant.nullif.any fun m => a.merchantId == some m

def sharedPoolRow (s : Settings) (a : WhatsAppAccount) : Bool :=
  a.merchantId.isNone && a.senderType == .sharedPool &&
    settingIs (s.lookup .platformWrite) "whatsapp_shared_pool"

def ownNumberRow (s : Settings) (a : WhatsAppAccount) : Bool :=
  merchantIsCurrent s a && a.senderType == .ownNumber

def rlsSharedPool : List (Policy Settings WhatsAppAccount) :=
  [⟨"tenant_read", .select, some fun s a => merchantIsCurrent s a || a.merchantId.isNone, none⟩,
   ⟨"tenant_insert", .insert, none, some ownNumberRow⟩,
   ⟨"tenant_update", .update, some merchantIsCurrent, some ownNumberRow⟩,
   ⟨"tenant_delete", .delete, some merchantIsCurrent, none⟩,
   ⟨"platform_insert", .insert, none, some sharedPoolRow⟩,
   ⟨"platform_update", .update, some sharedPoolRow, some sharedPoolRow⟩]

def rlsSelectByPhoneNumberId : Policy Settings WhatsAppAccount :=
  ⟨"whatsapp_number_lookup", .select, some fun s a => a.senderType == .ownNumber &&
    a.provider == "meta_cloud" && settingIs (s.lookup .phoneNumberId) a.phoneNumberId, none⟩

def accountPolicies : List (Policy Settings WhatsAppAccount) :=
  rlsSharedPool ++ [rlsSelectByPhoneNumberId]

inductive Access where
  | tenant (merchantId : Uuid)
  | number (phoneNumberId : String)
  | platform (scope : String)
  deriving DecidableEq

def Access.session (left : Settings) : Access → Option Session
  | .tenant m =>
    ((Session.idle left).enter (.tenantContext (some m))).bind (·.enter (.tenantAtomic false))
  | .number n => (Session.idle left).enter (whatsappNumberLookupAtomic n)
  | .platform scope => (Session.idle left).enter (platformWriteAtomic scope)

def Access.MayRead (access : Access) (a : WhatsAppAccount) : Prop :=
  a.senderType = .sharedPool ∨ match access with
    | .tenant m => a.merchantId = some m
    | .number n => a.senderType = .ownNumber ∧ a.phoneNumberId = n
    | .platform _ => False

structure Access.Isolates (access : Access) (before after : List WhatsAppAccount) : Prop where
  others : ∀ m, access ≠ .tenant m →
    after.filter (·.merchantId == some m) = before.filter (·.merchantId == some m)
  fixed : ∀ a ∈ before, ∀ b ∈ after, a.id = b.id →
    a.merchantId = b.merchantId ∧ a.senderType = b.senderType
  shared : access ≠ .platform "whatsapp_shared_pool" →
    after.filter (·.senderType == .sharedPool) = before.filter (·.senderType == .sharedPool)
  kept : (∃ a ∈ before, a.senderType = .sharedPool) → ∃ a ∈ after, a.senderType = .sharedPool

section Settings

variable {access : Access} {left : Settings} {session : Session} {s : Settings}
    {a b : WhatsAppAccount}

theorem literal_asText {valid : List Char → Bool} {text : String} {v : Literal}
    (h : literal valid text = some v) : v.asText = text := by
  unfold literal at h
  split at h
  · cases h
  case h_2 c cs hl =>
    split at h
    · cases h
      rw [Literal.asText, ← hl, String.ofList_toList]
    · cases h

structure Access.Sets (access : Access) (s : Settings) : Prop where
  merchant : s.merchant.nullif = match access with
    | .tenant m => some m
    | _ => none
  phone : ∀ column, settingIs (s.lookup .phoneNumberId) column = match access with
    | .number n => n == column
    | _ => false
  platform : ∀ column, settingIs (s.lookup .platformWrite) column = match access with
    | .platform scope => scope == column
    | _ => false

@[simp] theorem settingIs_ended (r : Raw Literal) (column : String) :
    settingIs r.ended column = false := by
  simp [settingIs]

theorem lookupAtomic_idle {k : Lookup} {v : Option Literal}
    (h : (Session.idle left).enter (.lookupAtomic k v) = some session) :
    ∃ w, v = some w ∧ session.settings = left.ended.setLookup k w := by
  cases v with
  | none => cases h
  | some w =>
    cases h
    exact ⟨w, rfl, rfl⟩

theorem session_sets (h : access.session left = some session) : access.Sets session.settings := by
  cases access with
  | tenant m =>
    cases h
    exact ⟨rfl, fun _ => settingIs_ended _ _, fun _ => settingIs_ended _ _⟩
  | number n =>
    obtain ⟨w, hw, hs⟩ := lookupAtomic_idle h
    rw [hs]
    refine ⟨Raw.nullif_ended _, fun column => ?_, fun _ => settingIs_ended _ _⟩
    have htext := literal_asText hw
    simp [settingIs, Settings.setLookup, Raw.nullif, htext]
  | platform scope =>
    obtain ⟨w, hw, hs⟩ := lookupAtomic_idle h
    rw [hs]
    refine ⟨Raw.nullif_ended _, fun _ => settingIs_ended _ _, fun column => ?_⟩
    have htext := literal_asText hw
    simp [settingIs, Settings.setLookup, Raw.nullif, htext]

end Settings

section Isolation

variable {access : Access} {left : Settings} {session : Session} {s : Settings}
    {a b : WhatsAppAccount}

theorem permits_update :
    permits accountPolicies .update s a = (merchantIsCurrent s a || sharedPoolRow s a) := by
  simp [permits, accountPolicies, rlsSharedPool, rlsSelectByPhoneNumberId]

theorem allows_update :
    allows accountPolicies .update s a = (ownNumberRow s a || sharedPoolRow s a) := by
  simp [allows, accountPolicies, rlsSharedPool, rlsSelectByPhoneNumberId]

theorem allows_insert :
    allows accountPolicies .insert s a = (ownNumberRow s a || sharedPoolRow s a) := by
  simp [allows, accountPolicies, rlsSharedPool, rlsSelectByPhoneNumberId]

theorem permits_delete : permits accountPolicies .delete s a = merchantIsCurrent s a := by
  simp [permits, accountPolicies, rlsSharedPool, rlsSelectByPhoneNumberId]

theorem visible_iff : visible accountPolicies s a = true ↔
    merchantIsCurrent s a = true ∨ a.merchantId = none ∨
      (a.senderType = .ownNumber ∧ a.provider = "meta_cloud") ∧
        settingIs (s.lookup .phoneNumberId) a.phoneNumberId = true := by
  simp [visible, permits, accountPolicies, rlsSharedPool, rlsSelectByPhoneNumberId, or_assoc]

theorem visible_mayRead (hs : access.Sets s) (ha : a.Valid)
    (h : visible accountPolicies s a = true) :
    access.MayRead a := by
  rcases visible_iff.mp h with h | h | ⟨⟨hown, -⟩, h⟩
  · right
    unfold merchantIsCurrent at h
    rw [hs.merchant] at h
    cases access with
    | tenant m => simpa using h
    | number n => simp at h
    | platform scope => simp at h
  · exact .inl (ha.1.mpr h)
  · right
    rw [hs.phone] at h
    cases access with
    | tenant m => cases h
    | number n => exact ⟨hown, (beq_iff_eq.mp h).symm⟩
    | platform scope => cases h

theorem visible_own {n : String} (hs : (Access.number n).Sets s) (ha : a.Valid)
    (hown : a.senderType = .ownNumber)
    (h : visible accountPolicies s a = true) : a.provider = "meta_cloud" ∧ a.phoneNumberId = n := by
  rcases visible_iff.mp h with h | h | ⟨⟨-, hp⟩, h⟩
  · simp [merchantIsCurrent, hs.merchant] at h
  · have hshared := ha.1.mpr h
    rw [hown] at hshared
    cases hshared
  · rw [hs.phone] at h
    exact ⟨hp, (beq_iff_eq.mp h).symm⟩

def Access.foreign : Access → WhatsAppAccount → Bool
  | .tenant m, a => a.merchantId != some m
  | .number _, _ => true
  | .platform scope, a => a.merchantId.isSome || scope != "whatsapp_shared_pool"

theorem merchantIsCurrent_foreign (hs : access.Sets s) (ha : access.foreign a = true) :
    merchantIsCurrent s a = false := by
  unfold merchantIsCurrent
  rw [hs.merchant]
  cases access with
  | tenant m => simpa [Access.foreign] using ha
  | number n => rfl
  | platform scope => rfl

theorem sharedPoolRow_foreign (hs : access.Sets s) (ha : access.foreign a = true) :
    sharedPoolRow s a = false := by
  unfold sharedPoolRow
  rw [hs.platform]
  cases access with
  | tenant m => simp
  | number n => simp
  | platform scope =>
    rw [Access.foreign, Bool.or_eq_true] at ha
    rcases ha with ha | ha
    · simp [Option.isNone_eq_false_iff.mpr ha]
    · simp [beq_eq_false_iff_ne.mpr (bne_iff_ne.mp ha)]

theorem foreign_frame (hs : access.Sets s) : Foreign accountPolicies s access.foreign where
  insert a ha := by
    simp [allows_insert, ownNumberRow, merchantIsCurrent_foreign hs ha, sharedPoolRow_foreign hs ha]
  taken a ha := by
    simp [permits_update, merchantIsCurrent_foreign hs ha, sharedPoolRow_foreign hs ha]
  given a ha := by
    simp [allows_update, ownNumberRow, merchantIsCurrent_foreign hs ha, sharedPoolRow_foreign hs ha]
  delete a ha := by
    rw [permits_delete]
    exact merchantIsCurrent_foreign hs ha

theorem own_alike (ha : a.Valid) (hb : b.Valid) (hfa : access.foreign a = false)
    (hfb : access.foreign b = false) :
    a.merchantId = b.merchantId ∧ a.senderType = b.senderType := by
  have hmerchant : a.merchantId = b.merchantId := by
    cases access with
    | tenant m =>
      simp only [Access.foreign, bne_eq_false_iff_eq] at hfa hfb
      rw [hfa, hfb]
    | number n => cases hfa
    | platform scope =>
      simp only [Access.foreign, Bool.or_eq_false_iff, Option.isSome_eq_false_iff,
        Option.isNone_iff_eq_none] at hfa hfb
      rw [hfa.1, hfb.1]
  refine ⟨hmerchant, ?_⟩
  have hiff : a.senderType = .sharedPool ↔ b.senderType = .sharedPool := by
    rw [ha.1, hb.1, hmerchant]
  cases ha' : a.senderType <;> cases hb' : b.senderType <;> simp [ha', hb'] at hiff ⊢

theorem WhatsAppAccount.Clash.symm (a b : WhatsAppAccount) (h : a.Clash b) : b.Clash a :=
  h.imp Eq.symm fun h => h.imp (fun h => ⟨h.1.symm, h.2.symm⟩) And.symm

theorem Constrained.eq_of_clash {rows : List WhatsAppAccount} (h : Constrained rows)
    (ha : a ∈ rows) (hb : b ∈ rows)
    (hc : a.Clash b) : a = b :=
  Tables.Table.pairwise_eq_of_clash WhatsAppAccount.Clash.symm h.2 ha hb hc

theorem filter_of_foreign {rows rows' : List WhatsAppAccount} {F G : WhatsAppAccount → Bool}
    (h : rows'.filter F = rows.filter F) (hG : ∀ a ∈ rows ++ rows', G a = true → F a = true) :
    rows'.filter G = rows.filter G := by
  have hcut : ∀ l : List WhatsAppAccount, (∀ a ∈ l, G a = true → F a = true) →
      l.filter G = (l.filter F).filter G := by
    intro l hl
    rw [List.filter_filter]
    apply List.filter_congr
    intro a ha
    cases hGa : G a with
    | false => rfl
    | true => rw [hl a ha hGa, Bool.true_and]
  rw [hcut rows' fun a ha => hG a (List.mem_append_right _ ha), h,
    ← hcut rows fun a ha => hG a (List.mem_append_left _ ha)]

theorem transact_isolates (hs : access.Sets s) {accounts after : Accounts}
    {sts : List (Statement WhatsAppAccount)}
    (h : transact accountPolicies s accounts sts = some after) :
    access.Isolates accounts.1 after.1 := by
  have hframe := (foreign_frame hs).transact h
  have hvalid : ∀ a ∈ accounts.1 ++ after.1, a.Valid := by
    intro a ha
    rcases List.mem_append.mp ha with ha | ha
    · exact accounts.2.1 a ha
    · exact after.2.1 a ha
  have mem_iff : ∀ a, access.foreign a = true → (a ∈ accounts.1 ↔ a ∈ after.1) := by
    intro a hfa
    have hmem : a ∈ after.1.filter access.foreign ↔
      a ∈ accounts.1.filter access.foreign := by rw [hframe]
    simpa [List.mem_filter, hfa] using hmem.symm
  refine ⟨fun m hm => ?_, fun a ha b hb hid => ?_, fun hscope => ?_, ?_⟩
  · apply filter_of_foreign hframe
    intro a _ hG
    have hmerchant := beq_iff_eq.mp hG
    cases access with
    | tenant n =>
      rw [Access.foreign, hmerchant, bne_iff_ne]
      exact fun heq => hm (by rw [Option.some.inj heq])
    | number n => rfl
    | platform scope => simp [Access.foreign, hmerchant]
  · cases hfa : access.foreign a with
    | true => rw [after.2.eq_of_clash ((mem_iff a hfa).mp ha) hb (.inl hid)]; exact ⟨rfl, rfl⟩
    | false =>
      cases hfb : access.foreign b with
      | true => rw [accounts.2.eq_of_clash ha ((mem_iff b hfb).mpr hb) (.inl hid)]; exact ⟨rfl, rfl⟩
      | false => exact own_alike (accounts.2.1 a ha) (after.2.1 b hb) hfa hfb
  · apply filter_of_foreign hframe
    intro a ha hG
    have hnone := (hvalid a ha).1.mp (beq_iff_eq.mp hG)
    cases access with
    | tenant m => simp [Access.foreign, hnone]
    | number n => rfl
    | platform scope =>
      simp only [Access.foreign, Bool.or_eq_true, bne_iff_ne]
      exact .inr fun heq => hscope (by rw [heq])
  · -- A shared row has no merchant, so only `platform_update` takes it, and that leaves it shared.
    intro hex
    have hex' : ∃ a ∈ accounts.1, a.merchantId.isNone = true := by
      obtain ⟨a, ha, hshared⟩ := hex
      exact ⟨a, ha, by rw [(accounts.2.1 a ha).1.mp hshared]; rfl⟩
    have hother : ∀ a : WhatsAppAccount, a.merchantId.isNone = true →
        merchantIsCurrent s a = false := by
      intro a ha
      rw [Option.isNone_iff_eq_none] at ha
      cases hm : s.merchant.nullif <;> simp [merchantIsCurrent, ha, hm]
    have hkept := transact_keeps (F := fun a => a.merchantId.isNone)
      (fun a ha => by rw [permits_delete]; exact hother a ha) ?_ h hex'
    · obtain ⟨a, ha, hnone⟩ := hkept
      exact ⟨a, ha, (after.2.1 a ha).1.mpr (Option.isNone_iff_eq_none.mp hnone)⟩
    · intro a b ha hp hallow
      rw [permits_update, hother a ha, Bool.false_or] at hp
      rw [allows_update, Bool.or_eq_true] at hallow
      rcases hallow with hallow | hallow
      · -- A transaction with a merchant has no platform scope.
        simp only [sharedPoolRow, Bool.and_eq_true] at hp
        simp only [ownNumberRow, merchantIsCurrent, Bool.and_eq_true] at hallow
        rw [hs.platform] at hp
        rw [hs.merchant] at hallow
        cases access with
        | tenant m => exact absurd hp.2 (by simp)
        | number n => exact absurd hallow.1 (by simp)
        | platform scope => exact absurd hallow.1 (by simp)
      · simp only [sharedPoolRow, Bool.and_eq_true] at hallow
        exact hallow.1.1

/-- A transaction opened by one manager reads its own rows and the shared one, and writes no
others. -/
theorem account_isolation (access : Access) (left : Settings) (session : Session)
    (h : access.session left = some session) (accounts : Accounts) :
    (∀ a ∈ accounts.1, visible accountPolicies session.settings a = true → access.MayRead a) ∧
    (∀ n, access = .number n → ∀ a ∈ accounts.1, ∀ b ∈ accounts.1,
      visible accountPolicies session.settings a = true →
        visible accountPolicies session.settings b = true →
      a.senderType = b.senderType → a = b) ∧
    ∀ sts after, transact accountPolicies session.settings accounts sts = some after →
      access.Isolates accounts.1 after.1 := by
  have hs := session_sets h
  refine ⟨fun a ha => visible_mayRead hs (accounts.2.1 a ha), ?_,
    fun sts after => transact_isolates hs⟩
  rintro n rfl a ha b hb hva hvb hsame
  apply accounts.2.eq_of_clash ha hb
  cases hb' : b.senderType with
  | sharedPool => exact .inr (.inr ⟨hsame.trans hb', hb'⟩)
  | ownNumber =>
    obtain ⟨hpa, hna⟩ := visible_own hs (accounts.2.1 a ha) (hsame.trans hb') hva
    obtain ⟨hpb, hnb⟩ := visible_own hs (accounts.2.1 b hb) hb' hvb
    exact .inr (.inl ⟨hpa.trans hpb.symm, hna.trans hnb.symm⟩)

/-- Two merchants' own numbers and the shared one, looked up by the first number. -/
def threeAccounts : Accounts :=
  ⟨[⟨1, some 10, .ownNumber, "meta_cloud", "111", none, "ACTIVE", none⟩,
    ⟨2, some 20, .ownNumber, "meta_cloud", "222", none, "ACTIVE", none⟩,
    ⟨3, none, .sharedPool, "meta_cloud", "999", none, "ACTIVE", none⟩], by decide⟩

def lookupSession : Session :=
  ((Access.number "111").session ⟨.empty, fun _ => .unset⟩).get (by decide)

theorem account_isolation_number :
    (∀ a ∈ threeAccounts.1, visible accountPolicies lookupSession.settings a = true →
      (Access.number "111").MayRead a) ∧
    (∀ n, Access.number "111" = .number n → ∀ a ∈ threeAccounts.1, ∀ b ∈ threeAccounts.1,
      visible accountPolicies lookupSession.settings a = true →
        visible accountPolicies lookupSession.settings b = true →
      a.senderType = b.senderType → a = b) ∧
    ∀ sts after, transact accountPolicies lookupSession.settings threeAccounts sts = some after →
      (Access.number "111").Isolates threeAccounts.1 after.1 :=
  account_isolation (.number "111") ⟨.empty, fun _ => .unset⟩ lookupSession
    (Option.some_get _).symm threeAccounts

end Isolation

end ReviewFlow.Tenancy
