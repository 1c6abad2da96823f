import ReviewFlow.Exceptions
import ReviewFlow.Integrations.Mappings

/-!
# The set of active mappings

The external ids of the active mappings stay distinct, a replacement leaves what was asked for,
and the answer for a sale is one of the active mappings, in whatever order they are read.
-/

namespace ReviewFlow.Mappings

open Python Tables Interleaving
open Integrations (Json Dict)
open Exceptions (bind_eq_ok)

/-- The external id of an active mapping is None or a `str`, and `dict.get` finds it. -/
def Mapping.Readable (m : Mapping) : Prop :=
  m.isActive = true →
    externalId m.configJson = .ok m.external ∧ (m.external = .null ∨ ∃ s, m.external = .str s)

def SameExternal (a b : Mapping) : Prop :=
  a.isActive = true ∧ b.isActive = true ∧ ∃ s, a.external = .str s ∧ b.external = .str s

structure Integration.Kept (i : Integration) : Prop where
  readable : ∀ m ∈ i.mappings, m.Readable
  unique : ∀ a ∈ i.mappings, ∀ b ∈ i.mappings, SameExternal a b → a = b

section Checks

variable {config v : Json} {s : Str} {i : Integration} {m : Mapping} {seen : List Str}
    {items : List Item}

theorem isText_iff : isText v s = true ↔ v = .str s := by
  cases v <;> simp [isText]

theorem SameExternal.symm (a b : Mapping) (h : SameExternal a b) : SameExternal b a := by
  obtain ⟨ha, hb, s, hsa, hsb⟩ := h
  exact ⟨hb, ha, s, hsb, hsa⟩

theorem externalId_external (h : externalId m.configJson = .ok v) : v = m.external := by
  unfold externalId at h
  unfold Mapping.external
  cases hc : m.configJson with
  | dict items =>
    rw [hc] at h
    by_cases ht : (Json.dict items).truthy = true
    · rw [if_pos ht] at h
      exact (Except.ok.inj h).symm
    · rw [if_neg ht] at h
      cases items with
      | nil => exact (Except.ok.inj h).symm
      | cons p ps => exact absurd rfl ht
  | null => rw [hc] at h; exact (Except.ok.inj h).symm
  | bool b =>
    rw [hc] at h
    cases b with
    | true => cases h
    | false => exact (Except.ok.inj h).symm
  | int n =>
    rw [hc] at h
    split at h
    · cases h
    · exact (Except.ok.inj h).symm
  | float x =>
    rw [hc] at h
    split at h
    · cases h
    · exact (Except.ok.inj h).symm
  | str t =>
    rw [hc] at h
    split at h
    · cases h
    · exact (Except.ok.inj h).symm
  | list ls =>
    rw [hc] at h
    split at h
    · cases h
    · exact (Except.ok.inj h).symm

theorem externalId_of_falsy (h : config.truthy = false) : externalId config = .ok .null := by
  unfold externalId
  rw [h]
  rfl

theorem externalId_of_truthy (h : config.truthy = true) :
    externalId config = getExternalId config := if_pos h

theorem readable_of_externalId (h : externalId m.configJson = .ok v)
    (hv : v = .null ∨ ∃ s, v = .str s) :
    m.Readable := by
  intro _
  rw [← externalId_external h]
  exact ⟨h, hv⟩

theorem validate_ok (h : validateExternalLocationId i m.configJson m.isActive none = .ok ()) :
    m.Readable ∧ ∀ b ∈ i.mappings, ¬ SameExternal b m := by
  unfold validateExternalLocationId at h
  by_cases hskip : m.isActive = false ∨ m.configJson.truthy = false
  · rcases hskip with hactive | hfalsy
    · constructor
      · intro hyes
        rw [hactive] at hyes
        cases hyes
      · rintro b - ⟨-, hyes, -⟩
        rw [hactive] at hyes
        cases hyes
    · have hnull := externalId_of_falsy hfalsy
      refine ⟨readable_of_externalId hnull (.inl rfl), ?_⟩
      rintro b - ⟨-, -, s, -, hs⟩
      rw [← externalId_external hnull] at hs
      cases hs
  · rw [if_neg hskip] at h
    have htruthy : m.configJson.truthy = true := by
      by_contra hno
      exact hskip (.inr (eq_false_of_ne_true hno))
    obtain ⟨v, hv, hk⟩ := bind_eq_ok.mp h
    rw [← externalId_of_truthy htruthy] at hv
    cases v with
    | null =>
      refine ⟨readable_of_externalId hv (.inl rfl), ?_⟩
      rintro b - ⟨-, -, s, -, hs⟩
      rw [← externalId_external hv] at hs
      cases hs
    | str ext =>
      refine ⟨readable_of_externalId hv (.inr ⟨ext, rfl⟩), ?_⟩
      rintro b hb ⟨hactive, -, s, hbs, hs⟩
      rw [← externalId_external hv] at hs
      obtain rfl := Json.str.inj hs
      have hany : (i.mappings.rows.any fun m =>
        m.isActive && isText m.external ext && none != some m.location) =
          true := by
        apply List.any_eq_true.mpr
        exact ⟨b, hb, by simp [hactive, isText_iff.mpr hbs]⟩
      dsimp only at hk
      rw [if_pos hany] at hk
      cases hk
    | bool b => cases hk
    | int n => cases hk
    | float x => cases hk
    | list ls => cases hk
    | dict d => cases hk

theorem checkExternalIds_ok (h : checkExternalIds seen items = .ok ()) :
    (∀ m ∈ items, m.row.Readable) ∧
      (∀ m ∈ items, m.row.isActive = true → ∀ s, m.row.external = .str s → s ∉ seen) ∧
      items.Pairwise fun a b => ¬ SameExternal a.row b.row := by
  induction items generalizing seen with
  | nil => exact ⟨fun _ hm => (nomatch hm), fun _ hm => (nomatch hm), .nil⟩
  | cons m rest ih =>
    rw [checkExternalIds_cons] at h
    by_cases hactive : m.active = false
    · rw [if_pos hactive] at h
      obtain ⟨hreadable, hseen, hpair⟩ := ih h
      have hno : ¬ m.row.isActive = true := fun hyes => by
        change m.active = true at hyes
        rw [hactive] at hyes
        cases hyes
      refine ⟨?_, ?_, List.pairwise_cons.mpr ⟨fun b _ hsame => hno hsame.1, hpair⟩⟩
      · exact List.forall_mem_cons.mpr ⟨fun hyes => absurd hyes hno, hreadable⟩
      · exact List.forall_mem_cons.mpr ⟨fun hyes => absurd hyes hno, hseen⟩
    · rw [if_neg hactive] at h
      obtain ⟨v, hv, hk⟩ := bind_eq_ok.mp h
      have hext : v = m.row.external := externalId_external (m := m.row) hv
      cases v with
      | null =>
        obtain ⟨hreadable, hseen, hpair⟩ := ih hk
        have hno : ∀ s, m.row.external ≠ .str s := fun s hs => by
          rw [← hext] at hs
          cases hs
        refine ⟨?_, ?_, List.pairwise_cons.mpr ⟨?_, hpair⟩⟩
        · exact List.forall_mem_cons.mpr ⟨readable_of_externalId hv (.inl rfl), hreadable⟩
        · exact List.forall_mem_cons.mpr ⟨fun _ s hs => absurd hs (hno s), hseen⟩
        · rintro b - ⟨-, -, s, hs, -⟩
          exact hno s hs
      | str ext =>
        dsimp only at hk
        by_cases hmem : ext ∈ seen
        · rw [if_pos hmem] at hk
          cases hk
        · rw [if_neg hmem] at hk
          obtain ⟨hreadable, hseen, hpair⟩ := ih hk
          refine ⟨?_, ?_, List.pairwise_cons.mpr ⟨?_, hpair⟩⟩
          · exact List.forall_mem_cons.mpr ⟨readable_of_externalId hv (.inr ⟨ext, rfl⟩), hreadable⟩
          · refine List.forall_mem_cons.mpr ⟨fun _ s hs => ?_, fun b hb hbact s hs hin => ?_⟩
            · rw [← hext] at hs
              exact Json.str.inj hs ▸ hmem
            · exact hseen b hb hbact s hs (List.mem_cons_of_mem _ hin)
          · rintro b hb ⟨-, hbact, s, hs, hbs⟩
            rw [← hext] at hs
            exact hseen b hb hbact s hbs (Json.str.inj hs ▸ List.mem_cons_self)
      | bool b => cases hk
      | int n => cases hk
      | float x => cases hk
      | list ls => cases hk
      | dict d => cases hk

end Checks

section Operations

variable {i i' : Integration} {env : Env} {mappings mappings' : Table Mapping Mapping.Clash}
    {items : List Item}
  {existing : List Uuid} {r : Mapping} {m : Item}

theorem mem_saveItem (hm : ∃ x ∈ mappings, x.location = m.locationId) :
    r ∈ saveItem mappings m ↔ (r ∈ mappings ∧ r.location ≠ m.locationId) ∨ r = m.row := by
  unfold saveItem
  rw [Table.mem_update]
  constructor
  · rintro ⟨x, hx, rfl⟩
    by_cases hloc : x.location = m.locationId
    · rw [if_pos hloc]
      exact .inr rfl
    · rw [if_neg hloc]
      exact .inl ⟨hx, hloc⟩
  · rintro (⟨hr, hne⟩ | rfl)
    · exact ⟨r, hr, if_neg hne⟩
    · obtain ⟨x, hx, hloc⟩ := hm
      exact ⟨x, hx, if_pos hloc⟩

theorem writeItem_spec
    (hexisting : m.locationId ∈ existing ↔ ∃ x ∈ mappings, x.location = m.locationId)
    {rest : List Item} (h : writeItems existing (m :: rest) mappings = .ok mappings') :
    ∃ written, writeItems existing rest written = .ok mappings' ∧
      ∀ r, r ∈ written ↔ (r ∈ mappings ∧ r.location ≠ m.locationId) ∨ r = m.row := by
  rw [writeItems] at h
  by_cases hmem : m.locationId ∈ existing
  · rw [if_pos hmem] at h
    exact ⟨_, h, fun r => mem_saveItem (hexisting.mp hmem)⟩
  · rw [if_neg hmem] at h
    cases hins : mappings.insert? m.row with
    | none =>
      rw [hins] at h
      cases h
    | some written =>
      rw [hins] at h
      refine ⟨written, h, fun r => ?_⟩
      rw [Table.mem_insert? hins]
      constructor
      · rintro (hr | hr)
        · exact .inl ⟨hr, fun hloc => hmem (hexisting.mpr ⟨r, hr, hloc⟩)⟩
        · exact .inr hr
      · exact fun hr => hr.imp_left And.left

theorem writeItems_spec (hdistinct : (items.map Item.locationId).Nodup)
    (hexisting : ∀ m ∈ items, m.locationId ∈ existing ↔ ∃ x ∈ mappings, x.location = m.locationId)
    (h : writeItems existing items mappings = .ok mappings') :
    ∀ r, r ∈ mappings' ↔
      (r ∈ mappings ∧ r.location ∉ items.map Item.locationId) ∨ ∃ m ∈ items, r = m.row := by
  induction items generalizing mappings with
  | nil =>
    obtain rfl := Except.ok.inj h
    simp
  | cons m rest ih =>
    obtain ⟨written, hrest, hwritten⟩ := writeItem_spec (hexisting m List.mem_cons_self) h
    rw [List.map_cons, List.nodup_cons] at hdistinct
    obtain ⟨hfirst, hdistinct⟩ := hdistinct
    have hothers : ∀ b ∈ rest, b.locationId ≠ m.locationId := fun b hb heq =>
      hfirst (heq ▸ List.mem_map_of_mem hb)
    have hexisting' : ∀ b ∈ rest, b.locationId ∈ existing ↔
        ∃ x ∈ written, x.location = b.locationId := by
      intro b hb
      rw [hexisting b (List.mem_cons_of_mem _ hb)]
      constructor
      · rintro ⟨x, hx, hloc⟩
        exact ⟨x, (hwritten x).mpr (.inl ⟨hx, fun h => hothers b hb (hloc.symm.trans h)⟩), hloc⟩
      · rintro ⟨x, hx, hloc⟩
        rcases (hwritten x).mp hx with ⟨hx, -⟩ | rfl
        · exact ⟨x, hx, hloc⟩
        · exact absurd hloc.symm (hothers b hb)
    intro r
    rw [ih hdistinct hexisting' hrest r, hwritten r, List.map_cons, List.mem_cons,
      List.exists_mem_cons_iff]
    constructor
    · rintro (⟨⟨hr, hne⟩ | rfl, hnot⟩ | hr)
      · exact .inl ⟨hr, not_or.mpr ⟨hne, hnot⟩⟩
      · exact .inr (.inl rfl)
      · exact .inr (.inr hr)
    · rintro (⟨hr, hnot⟩ | rfl | hr)
      · exact .inl ⟨.inl ⟨hr, (not_or.mp hnot).1⟩, (not_or.mp hnot).2⟩
      · exact .inl ⟨.inr rfl, hfirst⟩
      · exact .inr hr

theorem raiseIf_bind {α : Type} {c : Prop} [Decidable c] {message : String}
    {f : Except Error α} {a : α} :
    (raiseIf c message >>= fun _ => f) = .ok a ↔ ¬ c ∧ f = .ok a := by
  unfold raiseIf
  by_cases hc : c
  · rw [if_pos hc]
    exact ⟨fun h => (by cases h), fun h => absurd hc h.1⟩
  · rw [if_neg hc]
    exact ⟨fun h => ⟨hc, h⟩, fun h => h.2⟩

theorem replace_spec (h : replaceLocationMappings env i items = .ok i') :
    (∀ r, r ∈ i'.mappings ↔ ∃ m ∈ items, r = m.row) ∧ checkExternalIds [] items = .ok () := by
  unfold replaceLocationMappings at h
  obtain ⟨hdistinct, h⟩ := raiseIf_bind.mp h
  obtain ⟨-, h⟩ := raiseIf_bind.mp h
  obtain ⟨-, -, h⟩ := bind_eq_ok.mp h
  obtain ⟨⟨⟩, hcheck, h⟩ := bind_eq_ok.mp h
  obtain ⟨written, hwritten, h⟩ := bind_eq_ok.mp h
  obtain rfl := Except.ok.inj h
  refine ⟨fun r => ?_, hcheck⟩
  have hspec :=
    writeItems_spec (not_not.mp hdistinct) (fun m _ => by simp [Table.mem_def]) hwritten r
  change r ∈ written.delete _ ↔ _
  rw [Table.mem_delete, hspec]
  constructor
  · rintro ⟨⟨-, hnot⟩ | hr, hkeep⟩
    · simp at hkeep hnot
      exact absurd hkeep (by simpa using hnot)
    · exact hr
  · rintro ⟨m, hm, rfl⟩
    refine ⟨.inr ⟨m, hm, rfl⟩, ?_⟩
    simpa using ⟨m, hm, rfl⟩

theorem replace_kept (h : replaceLocationMappings env i items = .ok i') : i'.Kept := by
  obtain ⟨hmem, hcheck⟩ := replace_spec h
  obtain ⟨hreadable, -, hpair⟩ := checkExternalIds_ok hcheck
  refine ⟨fun r hr => ?_, fun a ha b hb hsame => ?_⟩
  · obtain ⟨m, hm, rfl⟩ := (hmem r).mp hr
    exact hreadable m hm
  · obtain ⟨m, hm, rfl⟩ := (hmem a).mp ha
    obtain ⟨n, hn, rfl⟩ := (hmem b).mp hb
    have hsymm : ∀ a b : Item, SameExternal a.row b.row → SameExternal b.row a.row := fun a b h =>
      SameExternal.symm _ _ h
    rw [Table.pairwise_eq_of_clash (R := fun a b : Item => SameExternal a.row b.row) hsymm
      hpair hm hn hsame]

theorem add_kept {locationId : Uuid} {config : Json} {isActive : Bool} (hk : i.Kept)
    (h : addLocationMapping env i locationId config isActive = .ok i') : i'.Kept := by
  unfold addLocationMapping at h
  cases hloc : env.merchantOf locationId with
  | none =>
    rw [hloc] at h
    cases h
  | some merchant =>
    rw [hloc] at h
    obtain ⟨-, -, h⟩ := bind_eq_ok.mp h
    obtain ⟨⟨⟩, hvalid, h⟩ := bind_eq_ok.mp h
    obtain ⟨hreadable, hnone⟩ := validate_ok (m := ⟨locationId, config, isActive⟩) hvalid
    cases hins : i.mappings.insert? ⟨locationId, config, isActive⟩ with
    | none =>
      rw [hins] at h
      cases h
    | some mappings =>
      rw [hins] at h
      obtain rfl := Except.ok.inj h
      refine ⟨fun m hm => ?_, fun a ha b hb hsame => ?_⟩
      · rcases (Table.mem_insert? hins).mp hm with hm | rfl
        · exact hk.readable m hm
        · exact hreadable
      · rcases (Table.mem_insert? hins).mp ha with ha | rfl <;>
          rcases (Table.mem_insert? hins).mp hb with hb | rfl
        · exact hk.unique a ha b hb hsame
        · exact absurd hsame (hnone a ha)
        · exact absurd (hsame.symm _ _) (hnone b hb)
        · rfl

theorem disconnect_kept (hk : i.Kept) (h : disconnectIntegration env i = .ok i') : i'.Kept := by
  unfold disconnectIntegration at h
  split at h
  · obtain rfl := Except.ok.inj h
    exact hk
  split at h
  · cases h
  · obtain rfl := Except.ok.inj h
    have hoff : ∀ m ∈ i.mappings.update (fun r => { r with isActive := false }) (fun _ _ h => h),
        m.isActive = false := by
      intro m hm
      obtain ⟨x, -, rfl⟩ := Table.mem_update.mp hm
      rfl
    refine ⟨fun m hm hactive => ?_, fun a ha b hb hsame => ?_⟩
    · rw [hoff m hm] at hactive
      cases hactive
    · have hactive := hsame.1
      rw [hoff a ha] at hactive
      cases hactive

theorem step_kept (i : Integration) (label : Operation × Env) (hk : i.Kept) :
    (step i label).Kept := by
  unfold step
  split
  case h_1 i' h =>
    cases hop : label.1 with
    | add locationId config isActive =>
      rw [hop] at h
      exact add_kept hk h
    | replace items =>
      rw [hop] at h
      exact replace_kept h
    | disconnect =>
      rw [hop] at h
      exact disconnect_kept hk h
  · exact hk

end Operations

section Resolution

variable {py : Equality} {active active' : List Mapping} {m : Mapping}
    {ext : Json} {location : Uuid}
  {i : Integration}

theorem active_readable (hk : i.Kept) (hm : m ∈ i.active) :
    externalId m.configJson = .ok m.external := by
  obtain ⟨hmem, hactive⟩ := List.mem_filter.mp hm
  exact (hk.readable m hmem hactive).1

theorem soleLocation_eq (h : ∀ m ∈ active, externalId m.configJson = .ok m.external) :
    (∃ m, active = [m] ∧ m.external.truthy = false ∧ soleLocation active = .ok (some m.location)) ∨
      (∀ m, active = [m] → m.external.truthy = true) ∧ soleLocation active = .ok none := by
  match active with
  | [] => exact .inr ⟨nofun, rfl⟩
  | [m] =>
    have hsole : soleLocation [m] = .ok (if m.external.truthy then none else some m.location) := by
      rw [soleLocation, h m List.mem_cons_self]
      rfl
    cases ht : m.external.truthy with
    | true =>
      rw [ht] at hsole
      refine .inr ⟨fun b hb => ?_, hsole⟩
      rw [← (List.cons.inj hb).1]
      exact ht
    | false =>
      rw [ht] at hsole
      exact .inl ⟨m, rfl, ht, hsole⟩
  | m :: n :: rest => exact .inr ⟨fun b hb => (nomatch (List.cons.inj hb).2), rfl⟩

theorem matching_eq (h : ∀ m ∈ active, externalId m.configJson = .ok m.external) :
    matching py ext active = .ok (active.filter fun m => py.equal m.external ext) := by
  induction active with
  | nil => rfl
  | cons m rest ih =>
    rw [matching, h m List.mem_cons_self,
      ih fun b hb => h b (List.mem_cons_of_mem _ hb), List.filter_cons]
    change Except.ok _ = _
    congr 1

theorem resolveLocation_perm (h : ∀ m ∈ active, externalId m.configJson = .ok m.external)
    (hperm : active'.Perm active) :
    resolveLocation py active' ext = resolveLocation py active ext := by
  have h' : ∀ m ∈ active', externalId m.configJson = .ok m.external :=
    fun m hm => h m (hperm.mem_iff.mp hm)
  have hsole : soleLocation active' = soleLocation active := by
    match active, hperm with
    | [], hperm => rw [hperm.eq_nil]
    | [m], hperm => rw [List.perm_singleton.mp hperm]
    | m :: n :: rest, hperm =>
      match active', hperm.length_eq with
      | _ :: _ :: _, _ => rfl
  have hmatching : ∀ ext, matchedLocation py active' ext = matchedLocation py active ext := by
    intro ext
    have hfilter := hperm.filter fun m => py.equal m.external ext
    rw [matchedLocation, matchedLocation, matching_eq h, matching_eq h']
    generalize active.filter (fun m => py.equal m.external ext) = fs at hfilter ⊢
    generalize active'.filter (fun m => py.equal m.external ext) = fs' at hfilter ⊢
    match fs, hfilter with
    | [], hfilter => rw [hfilter.eq_nil]
    | [m], hfilter => rw [List.perm_singleton.mp hfilter]
    | m :: n :: rest, hfilter =>
      match fs', hfilter.length_eq with
      | _ :: _ :: _, _ => rfl
  unfold resolveLocation
  rw [hsole]
  simp only [hmatching]

theorem resolveLocation_ok (h : ∀ m ∈ active, externalId m.configJson = .ok m.external)
    (hok : resolveLocation py active ext = .ok location) :
    ∃ m ∈ active, m.location = location ∧
      ((ext.truthy = true ∧ py.equal m.external ext = true) ∨
        (active = [m] ∧ m.external.truthy = false)) := by
  obtain ⟨sole, hsole, hok⟩ := bind_eq_ok.mp hok
  rcases soleLocation_eq h with ⟨m, rfl, hfalsy, heq⟩ | ⟨-, heq⟩
  · rw [heq] at hsole
    obtain rfl := Except.ok.inj hsole
    exact ⟨m, List.mem_cons_self, Except.ok.inj hok, .inr ⟨rfl, hfalsy⟩⟩
  · rw [heq] at hsole
    obtain rfl := Except.ok.inj hsole
    change matchedLocation py active ext = .ok location at hok
    unfold matchedLocation at hok
    by_cases htruthy : ext.truthy = true
    · rw [if_pos htruthy, matching_eq h] at hok
      obtain ⟨matched, hmatched, hok⟩ := bind_eq_ok.mp hok
      obtain rfl := Except.ok.inj hmatched
      split at hok
      case h_1 m hone =>
        have hm : m ∈ active.filter fun m => py.equal m.external ext := hone ▸ List.mem_cons_self
        obtain ⟨hmem, hequal⟩ := List.mem_filter.mp hm
        exact ⟨m, hmem, Except.ok.inj hok, .inl ⟨htruthy, hequal⟩⟩
      · cases hok
    · rw [if_neg htruthy] at hok
      cases hok

end Resolution

structure MappingsKept (t : MappingTransition) : Prop where
  external : ∀ a ∈ t.after.mappings, ∀ b ∈ t.after.mappings, a.isActive = true → b.isActive = true →
    a.external ≠ .null → a.external = b.external → a = b
  location : ∀ a ∈ t.after.mappings, ∀ b ∈ t.after.mappings, a.location = b.location → a = b
  replaced : ∀ items, t.label.1 = .replace items →
    t.after = t.before ∧ (∃ e, replaceLocationMappings t.label.2 t.before items = .error e) ∨
      ∀ r, r ∈ t.after.mappings ↔
        ∃ m ∈ items, r = ⟨m.locationId, m.configJson, m.isActive.getD true⟩
  order : ∀ py active ext, active.Nodup →
    (∀ m, m ∈ active ↔ m ∈ t.after.mappings ∧ m.isActive = true) →
    resolveLocation py active ext = resolveLocation py t.after.active ext
  resolved : ∀ py ext location, resolveLocation py t.after.active ext = .ok location →
    ∃ m ∈ t.after.mappings, m.isActive = true ∧ m.location = location ∧
      ((ext.truthy = true ∧ py.equal m.external ext = true ∧ ∀ s, ext = .str s →
        m.external = .str s) ∨
        (t.after.active = [m] ∧ m.external.truthy = false))

theorem Integration.Kept.mappingsKept {t : MappingTransition} (hk : t.after.Kept)
    (ht : t.after = step t.before t.label) : MappingsKept t where
  external a ha b hb haact hbact hne heq := by
    obtain ⟨-, hnull | ⟨s, hs⟩⟩ := hk.readable a ha haact
    · exact absurd hnull hne
    · exact hk.unique a ha b hb ⟨haact, hbact, s, hs, heq ▸ hs⟩
  location a ha b hb heq := Table.eq_of_clash (fun _ _ => Eq.symm) ha hb heq
  replaced items hlabel := by
    rw [ht]
    unfold step
    rw [hlabel]
    cases hrun : replaceLocationMappings t.label.2 t.before items with
    | error e => exact .inl ⟨by rw [Operation.run, hrun], e, rfl⟩
    | ok i' =>
      right
      rw [Operation.run, hrun]
      exact (replace_spec hrun).1
  order py active ext hnodup hmem := by
    refine resolveLocation_perm (fun m hm => active_readable hk hm) ?_
    have hrows : t.after.mappings.rows.Nodup :=
      t.after.mappings.unique.imp fun hne heq => hne (congrArg Mapping.location heq)
    refine (List.perm_ext_iff_of_nodup hnodup (hrows.filter _)).mpr fun m => ?_
    rw [hmem m, List.mem_filter]
    rfl
  resolved py ext location hok := by
    obtain ⟨m, hm, hloc, hcases⟩ := resolveLocation_ok (fun m hm => active_readable hk hm) hok
    obtain ⟨hmem, hactive⟩ := List.mem_filter.mp hm
    refine ⟨m, hmem, hactive, hloc, hcases.imp_left fun ⟨htruthy, hequal⟩ => ⟨htruthy, hequal, ?_⟩⟩
    rintro s rfl
    rw [py.equal_str] at hequal
    exact isText_iff.mp hequal

/-- In every order of the operations on one integration. -/
theorem mappings_kept (merchantId : Uuid) (credentialsEncrypted : Option String)
    (labels : List (Operation × Env)) :
    ∀ t ∈ trace step (connected merchantId credentialsEncrypted) labels, MappingsKept t := by
  intro t ht
  have hstart : (connected merchantId credentialsEncrypted).Kept :=
    ⟨fun m hm => absurd hm List.not_mem_nil, fun a ha => absurd ha List.not_mem_nil⟩
  have hk : t.before.Kept := reachable_invariant (I := Integration.Kept) hstart step_kept t ht
  have hstep : t.after = step t.before t.label := by
    conv_lhs => rw [trace_step ht]
    rfl
  exact Integration.Kept.mappingsKept (hstep ▸ step_kept t.before t.label hk) hstep

def textEquality : Equality where
  equal v w := match w with
    | .str s => isText v s
    | _ => false
  equal_str _ _ := rfl

/-- Two locations with one id, of which one is active, and the replacement of both. -/
def twoLocations : List (Operation × Env) :=
  let env : Env := ⟨5, fun _ => some 5, true⟩
  let config := fun s : Str => Json.dict [(externalKey, .str s)]
  [(.add 1 (config [65]) true, env), (.add 2 (config [65]) false, env),
    (.replace [⟨1, config [65], none⟩, ⟨2, config [65], none⟩], env),
    (.replace [⟨2, config [66], none⟩, ⟨3, config [67], some true⟩], env)]

theorem mappings_kept_twoLocations :
    resolveLocation textEquality (run step (connected 5 none) twoLocations).active (.str [66]) =
    .ok 2 ∧
      ∀ t ∈ trace step (connected 5 none) twoLocations, MappingsKept t :=
  ⟨by decide, mappings_kept 5 none twoLocations⟩

end ReviewFlow.Mappings
