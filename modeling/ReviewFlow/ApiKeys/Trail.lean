import ReviewFlow.ApiKeys.Served

/-!
# What is left of a key

Its audit rows, which tell the whole of its life, and the stamps of its use.
-/

namespace ReviewFlow.ApiKeys

open Tables Accounts Interleaving

variable {hash : String → String} {db db' : Database} {m : TeamMember} {raw : String}
  {id keyId : Uuid}

def Database.key (db : Database) (keyId : Uuid) : Option ApiKey := db.keys.find? (·.id == keyId)

section Trail

def Database.trail (db : Database) (keyId : Uuid) : List (Uuid × Action) :=
  (db.audit.filter (·.target == keyId)).map fun row => (row.merchantId, row.action)

def ApiKey.trail (key : ApiKey) : List (Uuid × Action) :=
  (key.merchantId, .created key.scopesJson) ::
    if key.isActive then [] else [(key.merchantId, .revoked)]

/-- Each key has the rows that tell what became of it, and nothing else has rows. -/
def Database.Trailed (db : Database) : Prop :=
  ∀ keyId, db.trail keyId = (db.key keyId).elim [] ApiKey.trail

theorem trail_append {row : AuditRow} (haudit : db'.audit = db.audit ++ [row]) :
    db'.trail keyId = db.trail keyId ++
      if row.target = keyId then [(row.merchantId, row.action)] else [] := by
  rw [Database.trail, haudit, List.filter_append, List.map_append, Database.trail]
  congr 1
  rw [List.filter_singleton]
  by_cases h : row.target = keyId
  · simp [h]
  · rw [beq_false_of_ne h, if_neg h]
    rfl

theorem key_eq_some {key : ApiKey} : db.key keyId = some key ↔ key ∈ db.keys ∧ key.id = keyId := by
  constructor
  · intro h
    obtain ⟨hm, hk⟩ := Table.mem_of_find? h
    exact ⟨hm, beq_iff_eq.mp hk⟩
  · rintro ⟨hm, rfl⟩
    exact Table.find?_eq_some_of_mem ApiKey.Clash.symm hm (beq_self_eq_true _)
      fun a b ha hb => .inl ((beq_iff_eq.mp ha).trans (beq_iff_eq.mp hb).symm)

theorem find_map {t u : Table ApiKey ApiKey.Clash} {f : ApiKey → ApiKey}
    (hid : ∀ key, (f key).id = key.id) (h : u.rows = t.rows.map f) :
    u.find? (·.id == keyId) = (t.find? (·.id == keyId)).map f := by
  rw [Table.find?, h, List.find?_map, Table.find?]
  congr 2
  funext key
  simp only [Function.comp_apply, hid]

theorem find_insert {t u : Table ApiKey ApiKey.Clash} {key : ApiKey}
    (h : u.rows = t.rows ++ [key]) : u.find? (·.id == keyId) =
      (t.find? (·.id == keyId)).or (if key.id = keyId then some key else none) := by
  rw [Table.find?, h, List.find?_append, List.find?_singleton, Table.find?]
  congr 1
  by_cases h : key.id = keyId <;> simp [h]

theorem key_revoked (db : Database) (merchantId revokedId keyId : Uuid) :
    (db.updateKeys (·.revoked merchantId revokedId) (fun _ => ApiKey.revoked_id)
      (fun _ => ApiKey.revoked_keyHash)).key keyId =
      (db.key keyId).map (·.revoked merchantId revokedId) :=
  find_map (fun _ => ApiKey.revoked_id) rfl

theorem Unmanaged.trailed (h : Unmanaged db db') (ht : db.Trailed) : db'.Trailed := by
  obtain ⟨f, hkeys, hf⟩ := h.keys
  have hid : ∀ key, (f key).id = key.id := by
    intro key
    obtain ⟨stamp, hstamp⟩ := hf key
    rw [hstamp]
  intro keyId
  rw [Database.trail, h.audit, Database.key, find_map hid hkeys]
  refine (ht keyId).trans ?_
  rw [Database.key]
  cases hk : db.keys.find? (·.id == keyId) with
  | none => rfl
  | some key =>
    obtain ⟨stamp, hstamp⟩ := hf key
    simp only [Option.map_some, Option.elim_some, hstamp]
    rfl

theorem Managed.trailed (h : Managed hash m raw id db db') (ht : db.Trailed) : db'.Trailed := by
  intro keyId
  cases h with
  | created texts keys scopes inserted =>
    rw [trail_append rfl, ht keyId, Database.key, Database.key, find_insert inserted]
    by_cases hid : id = keyId
    · -- a row with this key was not there, since the insert went through
      have hnone : db.key keyId = none := by
        by_contra hsome
        obtain ⟨key, hk⟩ := Option.ne_none_iff_exists'.mp hsome
        obtain ⟨hmem, hkid⟩ := key_eq_some.mp hk
        have hunique := keys.unique
        rw [inserted, List.pairwise_append] at hunique
        exact hunique.2.2 key hmem _ (List.mem_singleton_self _) (.inl (hkid.trans hid.symm))
      rw [Database.key] at hnone
      simp [hnone, hid, ApiKey.trail]
    · simp [hid]
  | revoked keyId' live =>
    have hkey := key_revoked db m.merchantId keyId' keyId
    rw [trail_append rfl, ht keyId]
    refine Eq.trans ?_ (congrArg (Option.elim · [] ApiKey.trail) hkey.symm)
    by_cases hid : keyId' = keyId
    · subst hid
      obtain ⟨key, hmem, hm, hkid, hactive⟩ := live
      rw [key_eq_some.mpr ⟨hmem, hkid⟩]
      simp [ApiKey.trail, ApiKey.revoked, hm, hkid, hactive]
    · cases hk : db.key keyId with
      | none => simp [hid]
      | some key =>
        have hkid : key.id ≠ keyId' := fun h => hid (h.symm.trans (key_eq_some.mp hk).2)
        simp [hid, ApiKey.revoked, hkid]

def Database.new (teamMembers : List TeamMember) (status : Uuid → MerchantStatus) : Database :=
  ⟨.empty, status, teamMembers, []⟩

/-- In every run from a database without keys, the audit rows of a key are its creation, with the
scopes that it has, and one revocation if it is revoked, all for its merchant. -/
theorem keys_trailed (hash : String → String) (teamMembers : List TeamMember)
    (status : Uuid → MerchantStatus) (ls : List Label) :
    (System.after hash (.new teamMembers status) ls).db.Trailed := by
  have hrun : System.after hash (.new teamMembers status) ls =
      System.after hash (.new teamMembers status) ls ∧
      (System.after hash (.new teamMembers status) ls).db.Trailed := by
    apply run_history
      (P := fun h s => s = System.after hash (.new teamMembers status) h ∧ s.db.Trailed)
    · exact ⟨rfl, fun keyId => rfl⟩
    · rintro h s l ⟨rfl, ht⟩
      refine ⟨(after_snoc l).symm, ?_⟩
      rcases step_managed hash (.new teamMembers status) h l with hu | hm
      · exact hu.trailed ht
      · obtain ⟨n, raw, id, r, a, m, -, -, -, -, -, -, -, -, hm⟩ := hm
        exact hm.trailed ht
  exact hrun.2

end Trail

section Stamps

variable {s : System} {l : Label} {ls : List Label}

def Database.lastUsed (db : Database) (keyId : Uuid) : Option Time :=
  (db.key keyId).bind ApiKey.lastUsedAt

/-- What a step writes to `last_used_at`. -/
def stamp? (keyId : Uuid) (t : Transition System Label) : Option Time :=
  if t.after.db.lastUsed keyId = t.before.db.lastUsed keyId then none
  else t.after.db.lastUsed keyId

/-- The clock does not go back between the two readings of one call. -/
def Label.ClockForward : Label → Prop
  | .touch _ (some (now, stamp)) => now ≤ stamp
  | _ => True

instance : DecidablePred Label.ClockForward
  | .touch _ (some (now, stamp)) => inferInstanceAs (Decidable (now ≤ stamp))
  | .arrive _ | .middleware _ _ | .touch _ none | .initial _ _ _ | .handle _ _ _ | .others _ _ =>
    isTrue trivial

def interval : Time := 60 * 1000000

def Spaced (before after : Option Time) : Prop :=
  after = before ∨ ∃ b, after = some b ∧ ∀ a, before = some a → a + interval < b

theorem lastUsed_touch {key : ApiKey} {now stamp : Time} (h : now ≤ stamp) :
    Spaced (db.lastUsed keyId) ((db.touchLastUsed key now stamp).lastUsed keyId) := by
  have hkey : (db.touchLastUsed key now stamp).key keyId =
      (db.key keyId).map (·.touched key.merchantId key.id now stamp) :=
    find_map (fun _ => ApiKey.touched_id) rfl
  rw [Database.lastUsed, Database.lastUsed, hkey]
  cases db.key keyId with
  | none => exact .inl rfl
  | some row =>
    simp only [Option.map_some, Option.bind_some, ApiKey.touched]
    split
    case isTrue hold =>
      refine .inr ⟨stamp, rfl, fun a ha => ?_⟩
      have hlt : a < now - 60 * 1000000 := by simpa [ha] using hold.2.2
      simp only [interval]
      linarith
    · exact .inl rfl

theorem lastUsed_handle (v : View) (r : HttpRequest) (a : Attributes) (p : Principal) :
    (handle hash db v r a p raw id).2.lastUsed keyId = db.lastUsed keyId := by
  rcases handle_cases hash db v r a p raw id with
    h | ⟨m, merchantId, -, -, ⟨-, scopes, h⟩ | ⟨pk, -, key, -, h⟩⟩
  · rw [h]
  · obtain ⟨texts, keys, -, hi, -, heq⟩ := createApiKey_eq_ok h
    rw [heq, Database.lastUsed, Database.key, find_insert (Table.insert?_eq_some.mp hi).2,
      Database.lastUsed, Database.key]
    cases db.keys.find? (·.id == keyId) with
    | some key => rfl
    | none =>
      rw [Option.none_or]
      split <;> rfl
  · rcases revokeApiKey_eq_ok h with ⟨h, -⟩ | ⟨-, -, heq⟩
    · rw [h]
    · have hkey := key_revoked db merchantId key.id keyId
      rw [heq]
      refine (congrArg (Option.bind · ApiKey.lastUsedAt) hkey).trans ?_
      rw [Database.lastUsed]
      cases db.key keyId with
      | none => rfl
      | some row =>
        simp only [Option.map_some, Option.bind_some, ApiKey.revoked]
        split <;> rfl

theorem step_spaced (hash : String → String) (s : System) (hl : l.ClockForward)
    (keyId : Uuid) :
    Spaced (s.db.lastUsed keyId) ((s.step hash l).db.lastUsed keyId) := by
  cases l with
  | arrive r => exact .inl rfl
  | middleware n throttled =>
    simp only [System.step]
    split <;> exact .inl rfl
  | touch n clock =>
    simp only [System.step]
    split
    · cases clock with
      | none => exact .inl rfl
      | some clock => exact lastUsed_touch hl
    · exact .inl rfl
  | initial n csrf allowed =>
    simp only [System.step]
    split
    · split
      · exact .inl rfl
      · split <;> exact .inl rfl
    · exact .inl rfl
  | handle n raw id =>
    simp only [System.step]
    split
    · split
      · exact .inl rfl
      · exact .inl (lastUsed_handle _ _ _ _)
    · exact .inl rfl
  | others teamMembers status => exact .inl rfl

/-- The stamps that a run writes to a key, from the first on, with what it had before. -/
theorem stamps_spaced (hls : ∀ l ∈ ls, l.ClockForward) :
    ((trace (System.step hash) s ls).filterMap (stamp? keyId)).Pairwise (· + interval < ·) ∧
      ∀ a, s.db.lastUsed keyId = some a →
        ∀ b ∈ (trace (System.step hash) s ls).filterMap (stamp? keyId), a + interval < b := by
  induction ls generalizing s with
  | nil => simp [trace]
  | cons l ls ih =>
    obtain ⟨hl, hls⟩ := List.forall_mem_cons.mp hls
    obtain ⟨hpairwise, hlater⟩ := ih (s := s.step hash l) hls
    rw [trace, List.filterMap_cons]
    split
    case h_1 hnone =>
      refine ⟨hpairwise, fun a ha => hlater a ?_⟩
      -- no stamp was written, so the first one is still there
      unfold stamp? at hnone
      split at hnone
      case isTrue hsame => exact hsame.trans ha
      case isFalse hne =>
        rcases step_spaced hash s hl keyId with h | ⟨b, hb, -⟩
        · exact absurd h hne
        · exact absurd (hnone.symm.trans hb) (by simp)
    case h_2 b hsome =>
      unfold stamp? at hsome
      split at hsome
      · cases hsome
      case isFalse hne =>
        rcases step_spaced hash s hl keyId with h | ⟨b', hb', hspaced⟩
        · exact absurd h hne
        · obtain rfl : b = b' := Option.some.inj (hsome.symm.trans hb')
          have hrest := hlater b hb'
          refine ⟨List.pairwise_cons.mpr ⟨hrest, hpairwise⟩, fun a ha c hc => ?_⟩
          have hab := hspaced a ha
          rcases List.mem_cons.mp hc with rfl | hc
          · exact hab
          · have hbc := hrest c hc
            simp only [interval] at hab hbc ⊢
            linarith

/-- However many requests use a key, and in whichever order their transactions commit, the stamps
that are written to it are more than a minute apart. -/
theorem last_used_spaced (hash : String → String) (db : Database) (ls : List Label)
    (keyId : Uuid) (hls : ∀ l ∈ ls, l.ClockForward) :
    ((trace (System.step hash) db.idle ls).filterMap (stamp? keyId)).Pairwise
      fun a b => a + 60 * 1000000 < b :=
  (stamps_spaced hls).1

def salesInARow : List Label :=
  [.arrive postedSale, .arrive postedSale, .arrive postedSale,
    .middleware 0 false, .middleware 1 false, .middleware 2 false,
    .touch 1 (some (90, 95)), .touch 0 (some (40 * 1000000, 40 * 1000000 + 5)),
    .touch 2 (some (70 * 1000000, 70 * 1000000 + 5))]

theorem last_used_spaced_sale :
    (trace (System.step fun text => text) shop.idle salesInARow).filterMap (stamp? 1) =
      [95, 70 * 1000000 + 5] ∧
    ((trace (System.step fun text => text) shop.idle salesInARow).filterMap (stamp? 1)).Pairwise
      fun a b => a + 60 * 1000000 < b :=
  ⟨by decide, last_used_spaced _ shop _ 1 (by decide)⟩

end Stamps

end ReviewFlow.ApiKeys
