import ReviewFlow.Interleaving
import ReviewFlow.Tenancy.Schema

/-!
# What a merchant hears of the others

A row belongs to the merchant at the end of its foreign keys. Without the rows that belong to
other merchants, the database goes through the same transactions of the merchant and of the
platform in the same way, whatever the transactions of the others do: a constraint that refuses a
statement is all that is heard of them.
-/

namespace ReviewFlow.Tenancy.Schema

open RowSecurity Interleaving

section Belonging

variable {Q K : Value → Bool} {tables tables' : Tables} {t : Table}

def viaParent (fkColumn : String) (parent : Table) (of : Tables → Row → Bool) (tables : Tables)
    (r : Row) : Bool :=
  (tables parent).any fun p => sqlEq (p "id") (r fkColumn) && of tables p

def merchantMeets (Q : Value → Bool) (_ : Tables) (r : Row) : Bool := Q (r "merchant_id")

/-- The merchant at the end of the foreign keys of a row meets `Q`. -/
def belongs (Q : Value → Bool) : Table → Tables → Row → Bool
  | .googleLocation => viaParent "location_id" .location (merchantMeets Q)
  | .whatsAppLocationMapping => viaParent "location_id" .location (merchantMeets Q)
  | .googleReview =>
    viaParent "google_location_id" .googleLocation
      (viaParent "location_id" .location (merchantMeets Q))
  | _ => merchantMeets Q

theorem belongs_root (h : parent? t = none) : belongs Q t = merchantMeets Q := by
  cases t <;> first | rfl | cases h

theorem belongs_via {fk : String} {parent : Table} (h : parent? t = some (fk, parent)) :
    belongs Q t = viaParent fk parent (belongs Q parent) := by
  cases t <;> cases h <;> rfl

theorem parent_induction {P : Table → Prop} (hroot : ∀ t, parent? t = none → P t)
    (hvia : ∀ t fk parent, parent? t = some (fk, parent) → P parent → P t) (t : Table) : P t := by
  have hlocation : P .location := hroot .location rfl
  have hgoogle : P .googleLocation := hvia .googleLocation "location_id" .location rfl hlocation
  cases t
  case googleLocation => exact hgoogle
  case googleReview => exact hvia .googleReview "google_location_id" .googleLocation rfl hgoogle
  case whatsAppLocationMapping =>
    exact hvia .whatsAppLocationMapping "location_id" .location rfl hlocation
  all_goals exact hroot _ rfl

theorem sqlEq_iff {a b : Value} : sqlEq a b = true ↔ a ≠ .null ∧ a = b := by simp [sqlEq]

theorem viaParent_iff {fk : String} {parent : Table} {of : Tables → Row → Bool} {r : Row} :
    viaParent fk parent of tables r = true ↔
      ∃ p ∈ tables parent, sqlEq (p "id") (r fk) = true ∧ of tables p = true := by
  simp [viaParent, List.any_eq_true]

/-- The rows of other tables that belong to what `K` says are the same in both. -/
def Keeps (K : Value → Bool) (tables tables' : Tables) : Prop :=
  ∀ t, (tables' t).filter (belongs K t tables) = (tables t).filter (belongs K t tables)

theorem Keeps.mem_iff (h : Keeps K tables tables') {r : Row} (hr : belongs K t tables r = true) :
    r ∈ tables' t ↔ r ∈ tables t := by
  have hmem : r ∈ (tables' t).filter (belongs K t tables) ↔
      r ∈ (tables t).filter (belongs K t tables) := by rw [h t]
  simpa [List.mem_filter, hr] using hmem

theorem belongs_mono (hQ : ∀ v, Q v = true → K v = true) (t : Table) :
    ∀ r, belongs Q t tables r = true → belongs K t tables r = true := by
  induction t using parent_induction with
  | hroot t ht =>
    rw [belongs_root ht, belongs_root ht]
    exact fun r => hQ _
  | hvia t fk parent ht ih =>
    rw [belongs_via ht, belongs_via ht]
    intro r hr
    obtain ⟨p, hp, hid, hQp⟩ := viaParent_iff.mp hr
    exact viaParent_iff.mpr ⟨p, hp, hid, ih p hQp⟩

/-- Where the rows of `K` are kept, so is what belongs to a part of it. -/
theorem Keeps.belongs_eq (h : Keeps K tables tables') (hQ : ∀ v, Q v = true → K v = true)
    (t : Table) : ∀ r, belongs Q t tables' r = belongs Q t tables r := by
  induction t using parent_induction with
  | hroot t ht =>
    rw [belongs_root ht]
    exact fun r => rfl
  | hvia t fk parent ht ih =>
    intro r
    rw [belongs_via ht, Bool.eq_iff_iff, viaParent_iff, viaParent_iff]
    constructor
    · intro ⟨p, hp, hid, hb⟩
      rw [ih p] at hb
      exact ⟨p, (h.mem_iff (belongs_mono hQ parent p hb)).mp hp, hid, hb⟩
    · intro ⟨p, hp, hid, hb⟩
      refine ⟨p, (h.mem_iff (belongs_mono hQ parent p hb)).mpr hp, hid, ?_⟩
      rw [ih p]
      exact hb

def Keyed (tables : Tables) : Prop := ∀ t, (tables t).Pairwise fun a b => a "id" ≠ b "id"

theorem Keyed.eq (h : Keyed tables) {a b : Row} (ha : a ∈ tables t) (hb : b ∈ tables t)
    (hid : a "id" = b "id") : a = b :=
  Tables.Table.pairwise_eq_of_clash (R := fun a b => a "id" = b "id") (fun _ _ => Eq.symm)
    (h t) ha hb hid

theorem parent_eq (h : Keyed tables) {parent : Table} {a b : Row} {v : Value}
    (ha : a ∈ tables parent) (hb : b ∈ tables parent) (hva : sqlEq (a "id") v = true)
    (hvb : sqlEq (b "id") v = true) : a = b :=
  h.eq ha hb ((sqlEq_iff.mp hva).2.trans (sqlEq_iff.mp hvb).2.symm)

/-- With its foreign keys a row belongs to somebody that meets `Q`, or to somebody that does not. -/
theorem belongs_not (hkeyed : Keyed tables) (hanchored : Anchored tables) (t : Table) :
    ∀ r ∈ tables t, belongs (fun v => !Q v) t tables r = !belongs Q t tables r := by
  induction t using parent_induction with
  | hroot t ht =>
    rw [belongs_root ht, belongs_root ht]
    exact fun r _ => rfl
  | hvia t fk parent ht ih =>
    intro r hr
    obtain ⟨p, hp, hid⟩ := hanchored t fk parent ht r hr
    have honly : ∀ {of : Tables → Row → Bool}, viaParent fk parent of tables r = of tables p := by
      intro of
      rw [Bool.eq_iff_iff, viaParent_iff]
      constructor
      · intro ⟨q, hq, hqid, hof⟩
        rwa [parent_eq hkeyed hp hq hid hqid]
      · exact fun hof => ⟨p, hp, hid, hof⟩
    rw [belongs_via ht, belongs_via ht, honly, honly]
    exact ih p hp

end Belonging

section Predicates

variable {σ : Scope} {s : Settings} {tables tables' : Tables} {r : Row} {t : Table} {c : Command}
    {predicate : Predicate}

@[simp] theorem permits_append (ps qs : List TablePolicy) :
    permits (ps ++ qs) c σ r = (permits ps c σ r || permits qs c σ r) := List.any_append

@[simp] theorem allows_append (ps qs : List TablePolicy) :
    allows (ps ++ qs) c σ r = (allows ps c σ r || allows qs c σ r) := List.any_append

@[simp] theorem permits_tenantPolicy :
    permits (tenantPolicy predicate) c σ r = (decide (c ≠ .insert) && predicate σ r) := by
  cases c <;> simp [permits, tenantPolicy]

@[simp] theorem allows_tenantPolicy : allows (tenantPolicy predicate) c σ r =
    ((decide (c = .insert) || decide (c = .update)) && predicate σ r) := by
  cases c <;> simp [allows, tenantPolicy]

@[simp] theorem permits_selectBy {name : String} :
    permits [selectBy name predicate] c σ r = (decide (c = .select) && predicate σ r) := by
  cases c <;> simp [permits, selectBy]

@[simp] theorem allows_selectBy {name : String} :
    allows [selectBy name predicate] c σ r = false := by
  cases c <;> simp [allows, selectBy]

@[simp] theorem permits_platformInsert : permits [rlsPlatformInsert] c σ r = false := by
  cases c <;> simp [permits, rlsPlatformInsert]

@[simp] theorem allows_platformInsert : allows [rlsPlatformInsert] c σ r =
    (decide (c = .insert) &&
      (r "merchant_id" == .null && (textSetting .platformWrite σ.1).isSome)) := by
  cases c <;> simp [allows, rlsPlatformInsert]

theorem merchantIsCurrent_iff : merchantIsCurrent σ r = true ↔
    ∃ m, σ.1.merchant.nullif = some m ∧ r "merchant_id" = .uuid m := by
  cases h : σ.1.merchant.nullif <;> simp [merchantIsCurrent, columnIs, CURRENT_MERCHANT, h]

def platformRow (s : Settings) (r : Row) : Prop :=
  r "merchant_id" = .null ∧ (s.lookup .platformWrite).nullif ≠ none

theorem platformRow_of_shared (h : sharedPoolRow σ r = true) : platformRow σ.1 r := by
  simp only [sharedPoolRow, Bool.and_eq_true, beq_iff_eq] at h
  refine ⟨h.1.1, fun hnone => ?_⟩
  simp [textSetting, hnone] at h

/-- A write to a table with a merchant of its own is of the current merchant's row or the
platform's. -/
theorem permits_direct (ht : parent? t = none) (hc : c ≠ .select)
    (h : permits (policies t) c σ r = true) : merchantIsCurrent σ r = true ∨ platformRow σ.1 r := by
  cases t
  case whatsAppAccount =>
    cases c <;> simp [policies, permits, rlsSharedPool, rlsSelectByPhoneNumberId, selectBy] at h hc
    case update => exact h.imp id platformRow_of_shared
    case delete => exact .inl h
  case googleLocation => cases ht
  case googleReview => cases ht
  case whatsAppLocationMapping => cases ht
  all_goals
    simp [policies, rlsDirect, rlsSelectByUser, rlsSelectByKeyHash, rlsSelectByIntegrationId,
      rlsSelectByBillingRef, hc] at h
    exact .inl h.2

theorem allows_direct (ht : parent? t = none) (h : allows (policies t) c σ r = true) :
    merchantIsCurrent σ r = true ∨ platformRow σ.1 r := by
  have hown : ownNumberRow σ r = true → merchantIsCurrent σ r = true := by
    intro h
    simp only [ownNumberRow, Bool.and_eq_true] at h
    exact h.1
  cases t
  case whatsAppAccount =>
    cases c <;> simp [policies, allows, rlsSharedPool, rlsSelectByPhoneNumberId, selectBy] at h
    case insert => exact h.imp hown platformRow_of_shared
    case update => exact h.imp hown platformRow_of_shared
  case auditLog =>
    simp [policies, rlsDirect, textSetting] at h
    exact h.imp And.right fun h =>
      ⟨h.2.1, Option.ne_none_iff_exists'.mpr (Option.isSome_iff_exists.mp h.2.2)⟩
  case googleLocation => cases ht
  case googleReview => cases ht
  case whatsAppLocationMapping => cases ht
  all_goals
    simp [policies, rlsDirect, rlsSelectByUser, rlsSelectByKeyHash, rlsSelectByIntegrationId,
      rlsSelectByBillingRef] at h
    exact .inl h.2

/-- The setting that the `SELECT` policy beside those of the tenant reads. -/
def lookup? : Table → Option Lookup
  | .teamMember => some .userId
  | .apiKey => some .apiKeyHash
  | .integration => some .integrationId
  | .subscription => some .billingRef
  | .whatsAppAccount => some .phoneNumberId
  | _ => none

def lookupColumns : Table → List String
  | .teamMember => ["user_id"]
  | .apiKey => ["key_hash"]
  | .integration => ["id"]
  | .subscription => ["payment_provider_ref", "replacement_provider_ref"]
  | .whatsAppAccount => ["phone_number_id"]
  | _ => []

/-- A column holds what a setting names, as a text or as a uuid. -/
def holds (x : Value) (v : Literal) : Prop := x = .text v.asText ∨ ∃ u, v = .uuid u ∧ x = .uuid u

def lookedUp (t : Table) (s : Settings) (r : Row) : Prop :=
  ∃ k v, lookup? t = some k ∧ (s.lookup k).nullif = some v ∧
    ∃ column ∈ lookupColumns t, holds (r column) v

theorem columnIs_uuid {column : String} {k : Lookup}
    (h : columnIs column (uuidSetting k) σ r = true) :
    ∃ v, (σ.1.lookup k).nullif = some v ∧ holds (r column) v := by
  unfold columnIs uuidSetting at h
  split at h
  case h_1 u hu => exact ⟨.uuid u, hu, .inr ⟨u, rfl, by simpa using h⟩⟩
  case h_2 => cases h

theorem columnIs_text {column : String} {k : Lookup}
    (h : columnIs column (textSetting k) σ r = true) :
    ∃ v, (σ.1.lookup k).nullif = some v ∧ holds (r column) v := by
  unfold columnIs textSetting at h
  cases hv : (σ.1.lookup k).nullif with
  | none => simp [hv] at h
  | some v => exact ⟨v, rfl, .inl (by simpa [hv] using h)⟩

theorem lookedUp_of {s : Settings} {k : Lookup} {column : String} (hk : lookup? t = some k)
    (hcolumn : column ∈ lookupColumns t)
    (h : ∃ v, (s.lookup k).nullif = some v ∧ holds (r column) v) : lookedUp t s r := by
  obtain ⟨v, hv, hholds⟩ := h
  exact ⟨k, v, hk, hv, column, hcolumn, hholds⟩

/-- Only what is looked up and an account without a merchant are readable besides the merchant's
rows. -/
theorem visible_direct (ht : parent? t = none) (h : visible (policies t) σ r = true) :
    merchantIsCurrent σ r = true ∨ (t = .whatsAppAccount ∧ r "merchant_id" = .null) ∨
      lookedUp t σ.1 r := by
  cases t
  case googleLocation => cases ht
  case googleReview => cases ht
  case whatsAppLocationMapping => cases ht
  case teamMember =>
    simp only [visible, policies, rlsDirect, rlsSelectByUser, permits_append, permits_tenantPolicy,
      permits_selectBy, Bool.or_eq_true, Bool.and_eq_true] at h
    exact h.imp And.right fun h =>
      .inr (lookedUp_of rfl (List.mem_singleton_self _) (columnIs_uuid h.2))
  case apiKey =>
    simp only [visible, policies, rlsDirect, rlsSelectByKeyHash, permits_append,
      permits_tenantPolicy, permits_selectBy, Bool.or_eq_true, Bool.and_eq_true] at h
    exact h.imp And.right fun h =>
      .inr (lookedUp_of rfl (List.mem_singleton_self _) (columnIs_text h.2))
  case integration =>
    simp only [visible, policies, rlsDirect, rlsSelectByIntegrationId, permits_append,
      permits_tenantPolicy, permits_selectBy, Bool.or_eq_true, Bool.and_eq_true] at h
    exact h.imp And.right fun h =>
      .inr (lookedUp_of rfl (List.mem_singleton_self _) (columnIs_uuid h.2))
  case subscription =>
    simp only [visible, policies, rlsDirect, rlsSelectByBillingRef, permits_append,
      permits_tenantPolicy, permits_selectBy, Bool.or_eq_true, Bool.and_eq_true] at h
    rcases h with h | ⟨-, h⟩
    · exact .inl h.2
    · obtain ⟨column, hcolumn, hc⟩ := List.any_eq_true.mp h
      exact .inr (.inr (lookedUp_of rfl hcolumn (columnIs_text hc)))
  case whatsAppAccount =>
    simp only [visible, policies, rlsSelectByPhoneNumberId, permits_append, permits_selectBy,
      Bool.or_eq_true, Bool.and_eq_true] at h
    rcases h with h | ⟨-, -, h⟩
    · simp [permits, rlsSharedPool] at h
      exact h.imp id fun h => .inl ⟨rfl, h⟩
    · exact .inr (.inr (lookedUp_of rfl (List.mem_singleton_self _) (columnIs_text h)))
  all_goals
    left
    simpa [visible, policies, rlsDirect] using h

theorem policies_root (ht : parent? t = none) (c : Command) (r : Row) :
    permits (policies t) c (s, tables) r = permits (policies t) c (s, tables') r ∧
      allows (policies t) c (s, tables) r = allows (policies t) c (s, tables') r := by
  cases t <;> first | exact ⟨rfl, rfl⟩ | cases ht

theorem policies_via {fk : String} {parent : Table} (ht : parent? t = some (fk, parent)) :
    policies t = rlsViaParent fk parent (policies parent) := by
  cases t <;> cases ht <;> rfl

end Predicates

section Frames

variable {K : Value → Bool} {s : Settings} {before now alone : Tables} {t : Table} {r : Row}

/-- Settings under which no row of `K` can be written. -/
structure Excludes (s : Settings) (K : Value → Bool) : Prop where
  merchant : ∀ n, s.merchant.nullif = some n → K (.uuid n) = false
  platform : K .null = true → (s.lookup .platformWrite).nullif = none

/-- Settings under which no row of `K` can be read either. -/
structure Hides (s : Settings) (K : Value → Bool) : Prop extends Excludes s K where
  null : K .null = false
  lookup : ∀ t k, lookup? t = some k → (s.lookup k).nullif = none

theorem Excludes.not_current (hs : Excludes s K) (h : merchantIsCurrent (s, now) r = true) :
    K (r "merchant_id") = false := by
  obtain ⟨m, hm, hr⟩ := merchantIsCurrent_iff.mp h
  rw [hr]
  exact hs.merchant m hm

theorem Excludes.not_written (hs : Excludes s K)
    (h : merchantIsCurrent (s, now) r = true ∨ platformRow s r) : K (r "merchant_id") = false := by
  rcases h with h | ⟨hnull, hplatform⟩
  · exact hs.not_current h
  · rw [hnull]
    by_contra hK
    exact hplatform (hs.platform (by simpa using hK))

theorem Excludes.foreign_root (hs : Excludes s K) (ht : parent? t = none) :
    Foreign (policies t) (s, now) (belongs K t before) := by
  rw [belongs_root ht]
  have hpermits : ∀ c a, c ≠ .select → merchantMeets K before a = true →
      permits (policies t) c (s, now) a = false := by
    intro c a hc ha
    by_contra hp
    have hK := hs.not_written (permits_direct ht hc (by simpa using hp))
    rw [merchantMeets, hK] at ha
    cases ha
  have hallows : ∀ c a, merchantMeets K before a = true →
      allows (policies t) c (s, now) a = false := by
    intro c a ha
    by_contra hp
    have hK := hs.not_written (allows_direct ht (by simpa using hp))
    rw [merchantMeets, hK] at ha
    cases ha
  exact ⟨hallows .insert, fun a => hpermits .update a (by decide), hallows .update,
    fun a => hpermits .delete a (by decide)⟩

/-- No parent row that can be read is one that a row of `K` hangs on. -/
theorem not_via (hkeep : Keeps K before now) (hkeyed : Keyed now) {fk : String} {parent : Table}
    {ps : List TablePolicy}
    (hhidden : ∀ p, belongs K parent before p = true → visible ps (s, now) p = false)
    (hr : viaParent fk parent (belongs K parent) before r = true) :
    ((now parent).any fun p => sqlEq (p "id") (r fk) && visible ps (s, now) p) = false := by
  obtain ⟨p, hp, hid, hK⟩ := viaParent_iff.mp hr
  apply List.any_eq_false.mpr
  intro q hq
  rw [Bool.and_eq_true]
  intro ⟨hqid, hvisible⟩
  have hpq := parent_eq hkeyed ((hkeep.mem_iff hK).mpr hp) hq hid hqid
  rw [← hpq, hhidden p hK] at hvisible
  cases hvisible

theorem lookup?_parent {fk : String} {parent : Table} (ht : parent? t = some (fk, parent)) :
    lookup? parent = none := by
  cases t <;> cases ht <;> rfl

theorem Excludes.hidden (hs : Excludes s K) (hkeep : Keeps K before now) (hkeyed : Keyed now)
    (t : Table) : (lookup? t = none ∨ Hides s K) →
      ∀ r, belongs K t before r = true → visible (policies t) (s, now) r = false := by
  induction t using parent_induction with
  | hroot t ht =>
    intro hquiet r hr
    rw [belongs_root ht] at hr
    by_contra hv
    have hK : K (r "merchant_id") = false := by
      rcases visible_direct ht (by simpa using hv) with h | ⟨haccount, h⟩ | ⟨k, v, hk, hv, -⟩
      · exact hs.not_current h
      · rw [h]
        rcases hquiet with hnone | hhides
        · rw [haccount] at hnone
          cases hnone
        · exact hhides.null
      · rcases hquiet with hnone | hhides
        · rw [hnone] at hk
          cases hk
        · rw [hhides.lookup t k hk] at hv
          cases hv
    rw [merchantMeets, hK] at hr
    cases hr
  | hvia t fk parent ht ih =>
    intro _ r hr
    rw [belongs_via ht] at hr
    have hparent := ih (.inl (lookup?_parent ht))
    rw [visible, policies_via ht, rlsViaParent, permits_tenantPolicy,
      not_via hkeep hkeyed hparent hr, Bool.and_false]

theorem Excludes.foreign (hs : Excludes s K) (hkeep : Keeps K before now) (hkeyed : Keyed now)
    (t : Table) : Foreign (policies t) (s, now) (belongs K t before) := by
  cases ht : parent? t with
  | none => exact hs.foreign_root ht
  | some key =>
    obtain ⟨fk, parent⟩ := key
    have hparent := hs.hidden hkeep hkeyed parent (.inl (lookup?_parent ht))
    rw [belongs_via ht, policies_via ht]
    have hnone : ∀ a, viaParent fk parent (belongs K parent) before a = true →
        ((now parent).any fun p =>
          sqlEq (p "id") (a fk) && visible (policies parent) (s, now) p) = false :=
      fun a => not_via hkeep hkeyed hparent
    constructor
    all_goals
      intro a ha
      simp [rlsViaParent, hnone a ha]

/-- What is left of the tables without the rows of `K`. -/
def Without (K : Value → Bool) (before now alone : Tables) : Prop :=
  ∀ t, alone t = (now t).filter fun r => !belongs K t before r

theorem any_without (halone : Without K before now alone) {p q : Row → Bool}
    (hK : ∀ r, belongs K t before r = true → p r = false) (hpq : ∀ r, p r = q r) :
    (now t).any p = (alone t).any q := by
  rw [Bool.eq_iff_iff, List.any_eq_true, List.any_eq_true, halone t]
  constructor
  · intro ⟨r, hr, hp⟩
    refine ⟨r, List.mem_filter.mpr ⟨hr, ?_⟩, hpq r ▸ hp⟩
    by_contra hb
    rw [hK r (by simpa using hb)] at hp
    cases hp
  · intro ⟨r, hr, hq⟩
    exact ⟨r, (List.mem_filter.mp hr).1, (hpq r).trans hq⟩

theorem Excludes.alike (hs : Excludes s K) (hkeep : Keeps K before now) (hkeyed : Keyed now)
    (halone : Without K before now alone) (t : Table) : ∀ c r,
      permits (policies t) c (s, now) r = permits (policies t) c (s, alone) r ∧
        allows (policies t) c (s, now) r = allows (policies t) c (s, alone) r := by
  induction t using parent_induction with
  | hroot t ht => exact fun c r => policies_root ht c r
  | hvia t fk parent ht ih =>
    intro c r
    have hparent := hs.hidden hkeep hkeyed parent (.inl (lookup?_parent ht))
    have hany : ((now parent).any fun p => sqlEq (p "id") (r fk) &&
          visible (policies parent) (s, now) p) =
        (alone parent).any fun p => sqlEq (p "id") (r fk) &&
          visible (policies parent) (s, alone) p := by
      apply any_without halone
      · intro p hp
        rw [hparent p hp, Bool.and_false]
      · intro p
        rw [visible, visible, (ih .select p).1]
    simp only [policies_via ht, rlsViaParent, permits_tenantPolicy, allows_tenantPolicy, hany,
      and_self]

theorem Hides.view_eq (hs : Hides s K) (hkeep : Keeps K before now)
    (hkeyed : Keyed now) (halone : Without K before now alone) : view s now = view s alone := by
  funext t
  rw [view, view, halone t, List.filter_filter]
  apply List.filter_congr
  intro r _
  rw [visible, visible, ← (hs.alike hkeep hkeyed halone t .select r).1]
  cases hb : belongs K t before r with
  | false => simp
  | true =>
    have := hs.hidden hkeep hkeyed t (.inr hs) r hb
    rw [visible] at this
    simp [this]

end Frames

section Programs

variable {k : Constraints} {K : Value → Bool} {s : Settings} {before : Tables}
    {db db' alone : Database k}

theorem Database.keyed (db : Database k) : Keyed db.tables := fun t => k.keyed t _ (db t).2

theorem execute_eq {t : Table} {st : Statement Row} (h : db.execute s t st = some db') :
    ∃ rows, st.execute (policies t) (s, db.tables) (db t) = some rows ∧
      db' = Function.update db t rows := by
  obtain ⟨rows, hrows, rfl⟩ := Option.map_eq_some_iff.mp h
  exact ⟨rows, hrows, rfl⟩

theorem execute_keeps (hs : Excludes s K) (hkeep : Keeps K before db.tables) {t : Table}
    {st : Statement Row} (h : db.execute s t st = some db') : Keeps K before db'.tables := by
  obtain ⟨rows, hrows, rfl⟩ := execute_eq h
  intro u
  by_cases hu : u = t
  · subst hu
    have hsame := (hs.foreign hkeep db.keyed u).execute st hrows
    simp only [Database.tables, Function.update_self]
    exact hsame.trans (hkeep u)
  · simp only [Database.tables, Function.update_of_ne hu]
    exact hkeep u

theorem execute_without (hs : Excludes s K) (hkeep : Keeps K before db.tables)
    (halone : Without K before db.tables alone.tables) {t : Table} {st : Statement Row}
    (h : db.execute s t st = some db') :
    ∃ alone', alone.execute s t st = some alone' ∧ Without K before db'.tables alone'.tables := by
  obtain ⟨rows, hrows, rfl⟩ := execute_eq h
  have halike := hs.alike hkeep db.keyed halone t
  obtain ⟨rows', hrows', heq⟩ := (hs.foreign hkeep db.keyed t).execute_project (k.sublist t)
    ⟨fun c a _ => (halike c a).1, fun c a _ => (halike c a).2⟩ (halone t) hrows
  refine ⟨Function.update alone t rows', by simp [Database.execute, hrows'], fun u => ?_⟩
  by_cases hu : u = t
  · subst hu
    simpa only [Database.tables, Function.update_self] using heq
  · simp only [Database.tables, Function.update_of_ne hu]
    exact halone u

theorem Progress.mem_rollbackTo {x : Progress k} (h : db ∈ x.rollbackTo.now) : db ∈ x.saved :=
  List.mem_of_mem_head? h

theorem Progress.mem_saved_savepoint {x : Progress k} (h : db ∈ x.savepoint.saved) :
    db ∈ x.now ∨ db ∈ x.saved := by
  rcases List.mem_append.mp h with h | h
  · exact .inl (Option.mem_toList.mp h)
  · exact .inr h

theorem Progress.mem_saved_release {x : Progress k} (h : db ∈ x.release.saved) : db ∈ x.saved := by
  unfold Progress.release at h
  split at h
  · exact List.mem_of_mem_tail h
  · exact h

theorem Progress.now_release (x : Progress k) : x.release.now = x.now := by
  unfold Progress.release
  split <;> rfl

theorem Program.run_invariant {I : Database k → Prop}
    (hstep : ∀ db db' t st, I db → db.execute s t st = some db' → I db') (program : Program) :
    ∀ {x : Progress k}, (∀ db ∈ x.now, I db) → (∀ db ∈ x.saved, I db) →
      program.run s x = some db' → I db' := by
  induction program with
  | commit => exact fun hnow _ h => hnow _ h
  | rollback =>
    intro x _ _ h
    cases h
  | read rest ih => exact fun hnow hsaved h => ih _ hnow hsaved h
  | write t st rest ih =>
    intro x hnow hsaved h
    refine @ih (x.outcome s t st) (x.write s t st) (fun db hdb => ?_) hsaved h
    obtain ⟨old, hold, hexecute⟩ := Option.bind_eq_some_iff.mp hdb
    exact hstep old db t st (hnow old hold) hexecute
  | savepoint rest ih =>
    intro x hnow hsaved h
    exact @ih x.savepoint hnow
      (fun db hdb => (Progress.mem_saved_savepoint hdb).elim (hnow db) (hsaved db)) h
  | release rest ih =>
    intro x hnow hsaved h
    exact @ih x.release (by rwa [Progress.now_release])
      (fun db hdb => hsaved db (Progress.mem_saved_release hdb)) h
  | rollbackTo rest ih =>
    intro x _ hsaved h
    exact @ih x.rollbackTo (fun db hdb => hsaved db (Progress.mem_rollbackTo hdb)) hsaved h

theorem Program.run_start {I : Database k → Prop}
    (hstep : ∀ db db' t st, I db → db.execute s t st = some db' → I db') (program : Program)
    (hdb : I db) (h : program.run s (.start db) = some db') : I db' :=
  program.run_invariant hstep (by simpa [Progress.start]) (by simp [Progress.start]) h

theorem Program.run_keeps (hs : Excludes s K) (program : Program)
    (hkeep : Keeps K before db.tables) (h : program.run s (.start db) = some db') :
    Keeps K before db'.tables :=
  program.run_start (fun _ _ _ _ hkeep h => execute_keeps hs hkeep h) hkeep h

end Programs

section Refusals

variable {k : Constraints} {K : Value → Bool} {s : Settings} {before : Tables}
    {db db' alone : Database k} {x y : Progress k} {t : Table} {st : Statement Row}

def Outcome.constraint? : Outcome → Option String
  | .violates c => some c
  | _ => none

/-- The constraints that refuse the statements of a transaction, in their order. -/
def Program.refusals (s : Settings) : Program → Progress k → List (Option String)
  | .commit, _ => []
  | .rollback, _ => []
  | .read rest, x => (rest (x.view s)).refusals s x
  | .write t st rest, x =>
    (x.outcome s t st).constraint? :: (rest (x.outcome s t st)).refusals s (x.write s t st)
  | .savepoint rest, x => rest.refusals s x.savepoint
  | .release rest, x => rest.refusals s x.release
  | .rollbackTo rest, x => rest.refusals s x.rollbackTo

/-- A refusal from elsewhere is heard where the policies would let the statement write. -/
def Outcome.hearing (own : Outcome) : Option String → Outcome
  | none => own
  | some c => match own with
    | .denied => .denied
    | .aborted => .aborted
    | _ => .violates c

def Progress.hear (x : Progress k) (s : Settings) (t : Table) (st : Statement Row)
    (refused : Option String) : Progress k :=
  if refused.isSome then { x with now := none } else x.write s t st

/-- A transaction of which some statements are refused from elsewhere. -/
def Program.among (s : Settings) : Program → List (Option String) → Progress k → Option (Database k)
  | .commit, _, x => x.now
  | .rollback, _, _ => none
  | .read rest, refused, x => (rest (x.view s)).among s refused x
  | .write t st rest, refused, x =>
    (rest ((x.outcome s t st).hearing refused.head?.join)).among s refused.tail
      (x.hear s t st refused.head?.join)
  | .savepoint rest, refused, x => rest.among s refused x.savepoint
  | .release rest, refused, x => rest.among s refused x.release
  | .rollbackTo rest, refused, x => rest.among s refused x.rollbackTo

/-- The second database is the first one without the rows of `K`, which are as they were before. -/
structure Beside (K : Value → Bool) (before : Tables) (db alone : Database k) : Prop where
  keeps : Keeps K before db.tables
  without : Without K before db.tables alone.tables

structure Alongside (K : Value → Bool) (before : Tables) (x y : Progress k) : Prop where
  now : Option.Rel (Beside K before) x.now y.now
  saved : List.Forall₂ (Beside K before) x.saved y.saved

theorem outcome_cases (db : Database k) (s : Settings) (t : Table) (st : Statement Row) :
    (st.admitted (policies t) (s, db.tables) (db t).1 = false ∧ db.outcome s t st = .denied ∧
      db.execute s t st = none) ∨
    st.admitted (policies t) (s, db.tables) (db t).1 = true ∧
      ((db.outcome s t st = .done ∧ ∃ db', db.execute s t st = some db') ∨
        ∃ c, db.outcome s t st = .violates c ∧ db.execute s t st = none) := by
  unfold Database.outcome
  cases hadmitted : st.admitted (policies t) (s, db.tables) (db t).1 with
  | false => simp [Database.execute, Statement.execute_eq, hadmitted]
  | true => cases db.execute s t st <;> simp

/-- Without the rows of `K` a statement comes to the same, except where a constraint refuses it. -/
theorem Beside.outcome (hs : Excludes s K) (h : Beside K before db alone) (t : Table)
    (st : Statement Row) :
    db.outcome s t st = (alone.outcome s t st).hearing (db.outcome s t st).constraint? ∧
      Option.Rel (Beside K before) (db.execute s t st)
        (if (db.outcome s t st).constraint?.isSome then none else alone.execute s t st) := by
  have halike := hs.alike h.keeps db.keyed h.without t
  have hadmitted : st.admitted (policies t) (s, alone.tables) (alone t).1 =
      st.admitted (policies t) (s, db.tables) (db t).1 :=
    (hs.foreign h.keeps db.keyed t).admitted_project (fun c a => (halike c a).1)
      (fun c a => (halike c a).2) (h.without t) st
  rcases outcome_cases db s t st with
    ⟨hno, hdenied, hnone⟩ | ⟨hyes, ⟨hdone, db', hdb'⟩ | ⟨c, hviolates, hnone⟩⟩
  · obtain ⟨-, halone, hnone'⟩ | ⟨hyes', -⟩ := outcome_cases alone s t st
    · rw [hdenied, hnone, halone]
      exact ⟨rfl, by rw [hnone', ite_self]; exact .none⟩
    · rw [hadmitted, hno] at hyes'
      cases hyes'
  · obtain ⟨alone', halone', hwithout⟩ := execute_without hs h.keeps h.without hdb'
    have hbeside : Beside K before db' alone' := ⟨execute_keeps hs h.keeps hdb', hwithout⟩
    have hdone' : alone.outcome s t st = .done := by
      simp [Database.outcome, hadmitted, hyes, halone']
    rw [hdone, hdb', hdone', halone']
    exact ⟨rfl, .some hbeside⟩
  · have hheard : (alone.outcome s t st).hearing (some c) = .violates c := by
      rcases outcome_cases alone s t st with ⟨hno', -⟩ | ⟨-, ⟨hown, -⟩ | ⟨c', hown, -⟩⟩
      · rw [hadmitted, hyes] at hno'
        cases hno'
      · rw [hown]
        rfl
      · rw [hown]
        rfl
    rw [hviolates, hnone, show (Outcome.violates c).constraint? = some c from rfl, hheard]
    exact ⟨rfl, .none⟩

theorem Alongside.view (hs : Hides s K) (h : Alongside K before x y) : x.view s = y.view s := by
  obtain ⟨now, saved⟩ := x
  obtain ⟨now', saved'⟩ := y
  obtain ⟨hnow, -⟩ := h
  cases hnow with
  | none => rfl
  | @some db alone hbeside =>
    exact congrArg some (hs.view_eq hbeside.keeps db.keyed hbeside.without)

theorem Alongside.write (hs : Excludes s K) (h : Alongside K before x y) (t : Table)
    (st : Statement Row) :
    x.outcome s t st = (y.outcome s t st).hearing (x.outcome s t st).constraint? ∧
      Alongside K before (x.write s t st) (y.hear s t st (x.outcome s t st).constraint?) := by
  obtain ⟨now, saved⟩ := x
  obtain ⟨now', saved'⟩ := y
  obtain ⟨hnow, hsaved⟩ := h
  cases hnow with
  | none => exact ⟨rfl, .none, hsaved⟩
  | @some db alone hbeside =>
    obtain ⟨houtcome, hexecute⟩ := hbeside.outcome hs t st
    refine ⟨houtcome, ?_⟩
    change Alongside K before ⟨db.execute s t st, saved⟩
      (Progress.hear ⟨some alone, saved'⟩ s t st (db.outcome s t st).constraint?)
    unfold Progress.hear
    split
    case isTrue h =>
      rw [if_pos h] at hexecute
      exact ⟨hexecute, hsaved⟩
    case isFalse h =>
      rw [if_neg h] at hexecute
      exact ⟨hexecute, hsaved⟩

theorem Alongside.savepoint (h : Alongside K before x y) :
    Alongside K before x.savepoint y.savepoint := by
  obtain ⟨now, saved⟩ := x
  obtain ⟨now', saved'⟩ := y
  obtain ⟨hnow, hsaved⟩ := h
  cases hnow with
  | none => exact ⟨.none, hsaved⟩
  | some hbeside => exact ⟨.some hbeside, .cons hbeside hsaved⟩

theorem Alongside.release (h : Alongside K before x y) :
    Alongside K before x.release y.release := by
  obtain ⟨now, saved⟩ := x
  obtain ⟨now', saved'⟩ := y
  obtain ⟨hnow, hsaved⟩ := h
  cases hnow with
  | none => exact ⟨.none, hsaved⟩
  | some hbeside =>
    refine ⟨.some hbeside, ?_⟩
    cases hsaved with
    | nil => exact .nil
    | cons _ hrest => exact hrest

theorem Alongside.rollbackTo (h : Alongside K before x y) :
    Alongside K before x.rollbackTo y.rollbackTo := by
  refine ⟨?_, h.saved⟩
  obtain ⟨now, saved⟩ := x
  obtain ⟨now', saved'⟩ := y
  obtain ⟨-, hsaved⟩ := h
  cases hsaved with
  | nil => exact .none
  | cons hbeside _ => exact .some hbeside

/-- Without the rows of `K` a transaction does the same, where it hears of the refusals. -/
theorem Program.run_among (hs : Hides s K) (program : Program) :
    ∀ {x y : Progress k}, Alongside K before x y →
      Option.Rel (Beside K before) (program.run s x)
        (program.among s (program.refusals s x) y) := by
  induction program with
  | commit => exact fun h => h.now
  | rollback => exact fun _ => .none
  | read rest ih =>
    intro x y h
    rw [Program.run, Program.among, Program.refusals, ← h.view hs]
    exact ih _ h
  | write t st rest ih =>
    intro x y h
    obtain ⟨houtcome, hwrite⟩ := h.write hs.toExcludes t st
    rw [Program.run, Program.among, Program.refusals, List.head?_cons, Option.join_some,
      List.tail_cons, ← houtcome]
    exact ih _ hwrite
  | savepoint rest ih => exact fun h => ih h.savepoint
  | release rest ih => exact fun h => ih h.release
  | rollbackTo rest ih => exact fun h => ih h.rollbackTo

end Refusals

section Worlds

variable {k : Constraints} {m n : Uuid} {K : Value → Bool} {db db' : Database k} {w : Work}
    {works : List Work}

/-- The merchant is not `m`. -/
def other (m : Uuid) (v : Value) : Bool := v != .null && v != .uuid m

/-- The database without the rows of the other merchants. -/
def world (m : Uuid) (db : Database k) : Database k := fun t =>
  ⟨(db t).1.filter fun r => !belongs (other m) t db.tables r,
    k.sublist t _ _ List.filter_sublist (db t).2⟩

/-- The transactions that the world of `m` hears of. -/
def concerns (m : Uuid) (w : Work) : Bool :=
  match w.opening with
  | .tenant n => n == m
  | .lookup k _ => k == .platformWrite
  | .plain => false

def Work.refusals (w : Work) (db : Database k) : List (Option String) :=
  (w.opening.session w.left).elim [] fun session =>
    w.program.refusals session.settings (.start db)

/-- What the world of `m` hears: the transactions that commit, each with its refusals. -/
def heard (m : Uuid) (db : Database k) (works : List Work) : List (Work × List (Option String)) :=
  ((trace step db works).filter fun t =>
    (t.label.commit t.before).isSome && concerns m t.label).map fun t =>
      (t.label, t.label.refusals t.before)

/-- The transaction with these refusals, without the check of the foreign keys. -/
def Work.among (w : Work) (refused : List (Option String)) (db : Database k) :
    Option (Database k) :=
  (w.opening.session w.left).bind fun session =>
    w.program.among session.settings refused (.start db)

def alone (db : Database k) (heard : Work × List (Option String)) : Database k :=
  (heard.1.among heard.2 db).getD db

theorem Database.ext_tables (h : ∀ t, db.tables t = db'.tables t) : db = db' := by
  funext t
  exact Subtype.ext (h t)

theorem Keeps.refl (tables : Tables) : Keeps K tables tables := fun _ => rfl

theorem world_without (m : Uuid) (db : Database k) :
    Without (other m) db.tables db.tables (world m db).tables := fun _ => rfl

/-- Where the rows of the others are kept, the world is what is left of them. -/
theorem world_of_without {alone : Database k} (hkeep : Keeps (other m) db.tables db'.tables)
    (h : Without (other m) db.tables db'.tables alone.tables) : world m db' = alone := by
  apply Database.ext_tables
  intro t
  rw [h t]
  apply List.filter_congr
  intro r _
  rw [hkeep.belongs_eq (fun _ => id) t r]

theorem world_of_keeps (hkeep : Keeps K db.tables db'.tables) (hdb : Anchored db.tables)
    (hdb' : Anchored db'.tables) (hK : ∀ v, other m v = false → K v = true) :
    world m db' = world m db := by
  have hmine : ∀ v, (!other m v) = true → K v = true := fun v hv => hK v (by simpa using hv)
  have hpositive : ∀ {d : Database k}, Anchored d.tables → ∀ t,
      (world m d).tables t = (d.tables t).filter (belongs (fun v => !other m v) t d.tables) := by
    intro d hd t
    apply List.filter_congr
    intro r hr
    exact (belongs_not d.keyed hd t r hr).symm
  apply Database.ext_tables
  intro t
  rw [hpositive hdb, hpositive hdb']
  have hcut : ∀ l : List Row, l.filter (belongs (fun v => !other m v) t db.tables) =
      (l.filter (belongs K t db.tables)).filter (belongs (fun v => !other m v) t db.tables) := by
    intro l
    rw [List.filter_filter]
    apply List.filter_congr
    intro r _
    cases hb : belongs (fun v => !other m v) t db.tables r with
    | false => rfl
    | true => rw [belongs_mono hmine t r hb, Bool.true_and]
  have hsame : belongs (fun v => !other m v) t db'.tables =
      belongs (fun v => !other m v) t db.tables := by
    funext r
    exact hkeep.belongs_eq hmine t r
  rw [hsame, hcut, hkeep t, ← hcut]

section Settings

variable {left : Settings} {session : Session}

def Opening.merchant? : Opening → Option Uuid
  | .tenant m => some m
  | _ => none

def Opening.value? : Opening → Lookup → Option Literal
  | .lookup k v, l => if l = k then some v else none
  | _, _ => none

structure Opening.Sets (opening : Opening) (s : Settings) : Prop where
  merchant : s.merchant.nullif = opening.merchant?
  lookup : ∀ l, (s.lookup l).nullif = opening.value? l

theorem Opening.session_sets {opening : Opening} (h : opening.session left = some session) :
    opening.Sets session.settings := by
  cases opening with
  | tenant m =>
    cases h
    exact ⟨rfl, fun l => Raw.nullif_ended _⟩
  | lookup k v =>
    cases h
    refine ⟨Raw.nullif_ended _, fun l => ?_⟩
    by_cases hl : l = k
    · simp [Opening.value?, hl, Settings.setLookup, Raw.nullif]
    · simp [Opening.value?, hl, Session.idle, Settings.setLookup, Settings.ended]
  | plain =>
    cases h
    exact ⟨Raw.nullif_ended _, fun l => Raw.nullif_ended _⟩

theorem hides_other {s : Settings} (hs : w.opening.Sets s) (h : concerns m w = true) :
    Hides s (other m) where
  merchant n hn := by
    rw [hs.merchant] at hn
    cases ho : w.opening with
    | tenant m' =>
      simp only [concerns, ho, beq_iff_eq, Opening.merchant?, Option.some.injEq] at h hn
      simp [other, ← hn, h]
    | lookup k v => simp [ho, Opening.merchant?] at hn
    | plain => simp [ho, Opening.merchant?] at hn
  platform hnull := absurd hnull (by simp [other])
  null := by simp [other]
  lookup t l hl := by
    have hne : l ≠ .platformWrite := by
      intro heq
      subst heq
      cases t <;> cases hl
    rw [hs.lookup]
    cases ho : w.opening with
    | tenant m' => rfl
    | lookup k v =>
      simp only [concerns, ho, beq_iff_eq] at h
      simp [Opening.value?, h, hne]
    | plain => rfl

def Work.beyond (w : Work) (v : Value) : Bool :=
  match w.opening with
  | .tenant n => v != .uuid n
  | _ => true

theorem excludes_beyond {s : Settings} (hs : w.opening.Sets s) (h : concerns m w = false) :
    Excludes s w.beyond where
  merchant n hn := by
    rw [hs.merchant] at hn
    cases ho : w.opening with
    | tenant n' =>
      rw [ho] at hn
      cases hn
      simp [Work.beyond, ho]
    | lookup k v => simp [ho, Opening.merchant?] at hn
    | plain => simp [ho, Opening.merchant?] at hn
  platform _ := by
    rw [hs.lookup]
    cases ho : w.opening with
    | tenant n' => rfl
    | lookup k v =>
      simp only [concerns, ho, beq_eq_false_iff_ne] at h
      simp [Opening.value?, Ne.symm h]
    | plain => rfl

theorem beyond_of_not_other (h : concerns m w = false) (v : Value) (hv : other m v = false) :
    w.beyond v = true := by
  unfold Work.beyond
  cases ho : w.opening with
  | tenant n =>
    simp only [concerns, ho, beq_eq_false_iff_ne] at h
    cases v with
    | null => rfl
    | uuid u =>
      have hu : u = m := by simpa [other] using hv
      simpa [hu] using Ne.symm h
    | text t => rfl
  | lookup k v => rfl
  | plain => rfl

end Settings

theorem perform_eq (h : w.perform db = some db') : ∃ session,
    w.opening.session w.left = some session ∧
      w.program.run session.settings (.start db) = some db' :=
  Option.bind_eq_some_iff.mp h

/-- A transaction of the merchant or of the platform does in the merchant's world what it does. -/
theorem perform_world (hw : concerns m w = true) (h : w.perform db = some db') :
    w.among (w.refusals db) (world m db) = some (world m db') := by
  obtain ⟨session, hsession, hrun⟩ := perform_eq h
  have hhides := hides_other (Opening.session_sets hsession) hw
  have hstart : Alongside (other m) db.tables (.start db) (.start (world m db)) :=
    ⟨.some ⟨Keeps.refl db.tables, world_without m db⟩, .nil⟩
  have hrel := w.program.run_among hhides hstart
  rw [hrun] at hrel
  simp only [Work.among, Work.refusals, hsession, Option.bind_some, Option.elim_some]
  generalize w.program.among session.settings _ (Progress.start (world m db)) = after at hrel
  cases hrel with
  | some hbeside => rw [world_of_without hbeside.keeps hbeside.without]

theorem world_of_other (hw : concerns m w = false) (hdb : Anchored db.tables)
    (hdb' : Anchored db'.tables) (h : w.perform db = some db') : world m db' = world m db := by
  obtain ⟨session, hsession, hrun⟩ := perform_eq h
  have hexcludes := excludes_beyond (Opening.session_sets hsession) hw
  exact world_of_keeps (Program.run_keeps hexcludes w.program (Keeps.refl db.tables) hrun) hdb hdb'
    (beyond_of_not_other hw)

theorem commit_eq (h : w.commit db = some db') :
    w.perform db = some db' ∧ Anchored db'.tables := by
  obtain ⟨hperform, hdeferred⟩ := Option.filter_eq_some_iff.mp h
  exact ⟨hperform, k.anchored _ hdeferred⟩

theorem step_anchored (db : Database k) (w : Work) (h : Anchored db.tables) :
    Anchored (step db w).tables := by
  cases hc : w.commit db with
  | none =>
    rw [step, hc]
    exact h
  | some after =>
    rw [step, hc]
    exact (commit_eq hc).2

theorem world_run (hdb : Anchored db.tables) (works : List Work) :
    world m (run step db works) =
      run alone (world m db) (heard m db works) := by
  induction works generalizing db with
  | nil => rfl
  | cons w works ih =>
    have hrest := ih (step_anchored db w hdb)
    rw [run, hrest, heard, heard, trace, List.filter_cons]
    cases hc : w.commit db with
    | none =>
      have hstep : step db w = db := by rw [step, hc, Option.getD_none]
      simp [transition, hc, hstep]
    | some after =>
      have hstep : step db w = after := by rw [step, hc, Option.getD_some]
      obtain ⟨hperform, hafter⟩ := commit_eq hc
      cases hw : concerns m w with
      | true =>
        have halone : alone (world m db) (w, w.refusals db) = world m after := by
          rw [alone, perform_world hw hperform, Option.getD_some]
        simp [transition, hc, hstep, hw, run, halone]
      | false => simp [transition, hc, hstep, hw, world_of_other hw hdb hafter hperform]

/-- Whatever the transactions of others do, a merchant's part of the database goes through its own
and the platform's as if it were alone, but for the statements that a constraint refuses, and its
transactions read what they would read alone. -/
theorem merchant_hears (k : Constraints) (m : Uuid) (db : Database k) (hdb : Anchored db.tables)
    (works : List Work) :
    world m (run step db works) = run alone (world m db) (heard m db works) ∧
      ∀ t ∈ trace step db works, ∀ session, t.label.opening = .tenant m →
        t.label.opening.session t.label.left = some session →
          view session.settings t.before.tables =
            view session.settings (world m t.before).tables := by
  refine ⟨world_run hdb works, fun t _ session hopening hsession => ?_⟩
  have hw : concerns m t.label = true := by simp [concerns, hopening]
  exact (hides_other (Opening.session_sets hsession) hw).view_eq (Keeps.refl _) t.before.keyed
    (world_without m t.before)

def foreignKeys (tables : Tables) : Bool :=
  [Table.googleLocation, .googleReview, .whatsAppLocationMapping].all fun t =>
    (parent? t).all fun key =>
      (tables t).all fun r => (tables key.2).any fun p => sqlEq (p "id") (r key.1)

theorem foreignKeys_anchored {tables : Tables} (h : foreignKeys tables = true) :
    Anchored tables := by
  intro t fk parent ht r hr
  have hmem : t ∈ [Table.googleLocation, .googleReview, .whatsAppLocationMapping] := by
    cases t <;> simp_all [parent?]
  have hall := List.all_eq_true.mp h t hmem
  rw [ht, Option.all_some] at hall
  exact List.any_eq_true.mp (List.all_eq_true.mp hall r hr)

def distinctIds (rows : List Row) : Prop := rows.Pairwise fun a b => a "id" ≠ b "id"

instance : DecidablePred distinctIds := fun rows =>
  inferInstanceAs (Decidable (rows.Pairwise fun a b => a "id" ≠ b "id"))

/-- The primary keys and the foreign keys to the parents. -/
def keysOnly : Constraints where
  ok _ := distinctIds
  decidable _ := inferInstance
  sublist _ _ _ hl h := List.Pairwise.sublist hl h
  keyed _ _ h := h
  broken _ _ := "pkey"
  deferred := foreignKeys
  anchored _ := foreignKeys_anchored

theorem keysOnly_nil (t : Table) : keysOnly.ok t [] := List.Pairwise.nil

def location (id merchantId : Uuid) : Row
  | "id" => .uuid id
  | "merchant_id" => .uuid merchantId
  | _ => .null

def googleLocation (id locationId : Uuid) : Row
  | "id" => .uuid id
  | "location_id" => .uuid locationId
  | _ => .null

def twoMerchants : Database keysOnly
  | .location => ⟨[location 1 10, location 2 20], by decide⟩
  | .googleLocation => ⟨[googleLocation 3 1, googleLocation 4 2], by decide⟩
  | t => ⟨[], keysOnly_nil t⟩

def deleteAll : Program :=
  .write .googleLocation (.delete false fun _ => true) fun _ => .commit

def insertOr (first second : Row) : Program :=
  .savepoint (.write .location (.insert first) fun outcome =>
    if outcome = .done then .commit
    else .rollbackTo (.release (.write .location (.insert second) fun _ => .commit)))

def collision : List Work :=
  [⟨⟨.unset, fun _ => .unset⟩, .tenant 20, deleteAll⟩,
   ⟨⟨.empty, fun _ => .unset⟩, .tenant 10, insertOr (location 2 10) (location 5 10)⟩]

theorem merchant_hears_collision :
    world 10 (run step twoMerchants collision) =
        run alone (world 10 twoMerchants) (heard 10 twoMerchants collision) ∧
      ∀ t ∈ trace step twoMerchants collision, ∀ session, t.label.opening = .tenant 10 →
        t.label.opening.session t.label.left = some session →
          view session.settings t.before.tables =
            view session.settings (world 10 t.before).tables :=
  merchant_hears keysOnly 10 twoMerchants (foreignKeys_anchored (by decide)) collision

example : (heard 10 twoMerchants collision).map Prod.snd = [[some "pkey", none]] := by decide

end Worlds

end ReviewFlow.Tenancy.Schema
