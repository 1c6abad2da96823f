import ReviewFlow.ApiKeys.Requests

/-!
# Who is served for a key, and who writes one

A row of a key keeps all its columns but two, and what is revoked stays revoked. From this a
run says of each request that is served whose credential it was judged by.
-/

namespace ReviewFlow.ApiKeys

open Tables Accounts Interleaving

variable {hash : String → String} {db db' : Database} {s s' : System}

section Rows

variable {merchantId actor keyId id : Uuid} {raw : String} {action : Action} {scopes : Json}
  {key : ApiKey}

theorem ApiKey.Clash.symm (a b : ApiKey) (h : a.Clash b) : b.Clash a := h.imp Eq.symm Eq.symm

theorem keys_eq {a b : ApiKey} (ha : a ∈ db.keys) (hb : b ∈ db.keys) (h : a.id = b.id) : a = b :=
  Table.eq_of_clash ApiKey.Clash.symm ha hb (.inl h)

def Database.Belongs (db : Database) (merchantId user : Uuid) : Prop :=
  ∃ m ∈ db.teamMembers, m.merchantId = merchantId ∧ m.userId = user

theorem record_eq_ok : db.record merchantId actor keyId action = .ok db' ↔
    db.Belongs merchantId actor ∧
      db' = { db with audit := db.audit ++ [⟨merchantId, actor, keyId, action⟩] } := by
  have hany : (db.teamMembers.any fun m => m.merchantId == merchantId && m.userId == actor) =
      true ↔ db.Belongs merchantId actor := by
    simp [Database.Belongs]
  unfold Database.record
  split
  case isTrue h =>
    rw [Except.ok.injEq, eq_comm]
    exact ⟨fun h' => ⟨hany.mp h, h'⟩, fun h' => h'.2⟩
  case isFalse h =>
    simp only [reduceCtorEq, false_iff, not_and]
    intro hb
    exact absurd (hany.mpr hb) h

theorem createApiKey_eq_ok
    (h : db.createApiKey hash merchantId actor scopes raw id = .ok db') :
    ∃ texts keys, validateScopes scopes = .ok texts ∧
      db.keys.insert? ⟨id, merchantId, hash raw, texts, true, none⟩ = some keys ∧
      db.Belongs merchantId actor ∧
      db' = { db with
        keys := keys
        audit := db.audit ++ [⟨merchantId, actor, id, .created texts⟩] } := by
  unfold Database.createApiKey at h
  cases hv : validateScopes scopes with
  | error e => rw [hv] at h; cases h
  | ok texts =>
    simp only [hv, bind, Except.bind] at h
    split at h
    · cases h
    case h_2 keys hi =>
      obtain ⟨hb, rfl⟩ := record_eq_ok.mp h
      exact ⟨texts, keys, rfl, hi, hb, rfl⟩

theorem validateScopes_eq_ok {texts : List String} (h : validateScopes scopes = .ok texts) :
    texts ≠ [] ∧ texts.Nodup ∧ ∀ text ∈ texts, text ∈ Scope.values := by
  unfold validateScopes at h
  split at h
  · cases h
  case h_2 item items =>
    split at h
    · cases h
    case h_2 texts' hm =>
      split at h
      · cases h
      case isFalse hall =>
        split at h
        · cases h
        case isFalse hdup =>
          cases h
          refine ⟨?_, not_not.mp hdup, by simpa using hall⟩
          rintro rfl
          rw [List.mapM_cons] at hm
          obtain ⟨text, -, hm⟩ := Option.bind_eq_some_iff.mp hm
          obtain ⟨rest, -, hm⟩ := Option.bind_eq_some_iff.mp hm
          cases hm
  · cases h

def Database.Live (db : Database) (merchantId keyId : Uuid) : Prop :=
  ∃ key ∈ db.keys, key.merchantId = merchantId ∧ key.id = keyId ∧ key.isActive = true

theorem revokeApiKey_eq_ok (h : db.revokeApiKey merchantId actor keyId = .ok db') :
    db' = db ∧ ¬ db.Live merchantId keyId ∨
    db.Live merchantId keyId ∧ db.Belongs merchantId actor ∧
      db' = { db.updateKeys (·.revoked merchantId keyId) (fun _ => ApiKey.revoked_id)
          (fun _ => ApiKey.revoked_keyHash) with
        audit := db.audit ++ [⟨merchantId, actor, keyId, .revoked⟩] } := by
  have hany : (db.keys.rows.any fun key =>
      key.merchantId == merchantId && key.id == keyId && key.isActive) = true ↔
      db.Live merchantId keyId := by
    simp [Database.Live, Table.mem_def, and_assoc]
  simp only [Database.revokeApiKey] at h
  split at h
  case isTrue hup =>
    obtain ⟨hb, rfl⟩ := record_eq_ok.mp h
    exact .inr ⟨hany.mp hup, hb, rfl⟩
  case isFalse hup =>
    cases h
    exact .inl ⟨rfl, fun hl => hup (hany.mpr hl)⟩

theorem authenticateApiKey_eq_some (h : db.authenticateApiKey hash raw = some key) :
    isKey raw = true ∧ key ∈ db.keys ∧ key.keyHash = hash raw ∧ key.isActive = true ∧
      db.status key.merchantId = .active := by
  unfold Database.authenticateApiKey at h
  split at h
  case isTrue hk =>
    obtain ⟨hf, hp⟩ := Option.filter_eq_some_iff.mp h
    obtain ⟨hmem, hh⟩ := Table.mem_of_find? hf
    rw [Bool.and_eq_true] at hp
    exact ⟨hk, hmem, beq_iff_eq.mp hh, hp.1, beq_iff_eq.mp hp.2⟩
  · cases h

theorem handle_cases (hash : String → String) (db : Database) (v : View) (r : HttpRequest)
    (a : Attributes) (p : Principal) (raw : String) (id : Uuid) :
    (handle hash db v r a p raw id).2 = db ∨
    ∃ m merchantId, p = .member m ∧ a.merchantId = some merchantId ∧
      ((v = .apiKeyList ∧ ∃ scopes, db.createApiKey hash merchantId m.userId scopes raw id =
          .ok (handle hash db v r a p raw id).2) ∨
        ∃ pk, v = .apiKeyDetail pk ∧ (∃ key, db.getApiKey merchantId pk = .ok key ∧
          db.revokeApiKey merchantId m.userId key.id =
            .ok (handle hash db v r a p raw id).2)) := by
  unfold handle
  split
  case h_1 m merchantId hm =>
    split
    case isTrue hpost =>
      split
      · exact .inl rfl
      case h_2 scopes hs =>
        split
        · exact .inl rfl
        case h_2 db' hc => exact .inr ⟨m, merchantId, rfl, hm, .inl ⟨rfl, _, hc⟩⟩
    · exact .inl rfl
  case h_2 pk m merchantId hm =>
    split
    case isTrue hdelete =>
      split
      · exact .inl rfl
      case h_2 db' hr =>
        cases hg : db.getApiKey merchantId pk with
        | error e => rw [hg] at hr; cases hr
        | ok key =>
          rw [hg] at hr
          exact .inr ⟨m, merchantId, rfl, hm, .inr ⟨pk, rfl, key, hg, hr⟩⟩
    · exact .inl rfl
  · exact .inl rfl

end Rows

structure ApiKey.Became (a b : ApiKey) : Prop where
  id : b.id = a.id
  merchantId : b.merchantId = a.merchantId
  keyHash : b.keyHash = a.keyHash
  scopesJson : b.scopesJson = a.scopesJson
  isActive : b.isActive = true → a.isActive = true

theorem ApiKey.Became.refl (a : ApiKey) : a.Became a := ⟨rfl, rfl, rfl, rfl, fun h => h⟩

theorem ApiKey.Became.trans {a b c : ApiKey} (h : a.Became b) (h' : b.Became c) : a.Became c where
  id := h'.id.trans h.id
  merchantId := h'.merchantId.trans h.merchantId
  keyHash := h'.keyHash.trans h.keyHash
  scopesJson := h'.scopesJson.trans h.scopesJson
  isActive := fun hc => h.isActive (h'.isActive hc)

theorem became_revoked (a : ApiKey) (merchantId keyId : Uuid) :
    a.Became (a.revoked merchantId keyId) := by
  unfold ApiKey.revoked
  split
  · exact ⟨rfl, rfl, rfl, rfl, nofun⟩
  · exact .refl a

theorem became_touched (a : ApiKey) (merchantId keyId : Uuid) (now stamp : Time) :
    a.Became (a.touched merchantId keyId now stamp) := by
  unfold ApiKey.touched
  split
  · exact ⟨rfl, rfl, rfl, rfl, fun h => h⟩
  · exact .refl a

/-- No row goes, and none is given to another merchant or back to use. -/
def Database.Became (db db' : Database) : Prop := ∀ a ∈ db.keys, ∃ b ∈ db'.keys, a.Became b

theorem Database.Became.of_keys (h : db'.keys = db.keys) : db.Became db' := by
  intro a ha
  exact ⟨a, h ▸ ha, .refl a⟩

theorem handle_became (v : View) (r : HttpRequest) (a : Attributes) (p : Principal) (raw : String)
    (id : Uuid) : db.Became (handle hash db v r a p raw id).2 := by
  rcases handle_cases hash db v r a p raw id with
    h | ⟨m, merchantId, -, -, ⟨-, scopes, h⟩ | ⟨pk, -, key, -, h⟩⟩
  · exact .of_keys (congrArg Database.keys h)
  · obtain ⟨texts, keys, -, hi, -, heq⟩ := createApiKey_eq_ok h
    intro row hrow
    rw [heq]
    exact ⟨row, (Table.mem_insert? hi).mpr (.inl hrow), .refl row⟩
  · rcases revokeApiKey_eq_ok h with ⟨h, -⟩ | ⟨-, -, heq⟩
    · exact .of_keys (congrArg Database.keys h)
    · intro row hrow
      rw [heq]
      exact ⟨_, List.mem_map.mpr ⟨row, hrow, rfl⟩, became_revoked row _ _⟩

theorem step_became (hash : String → String) (s : System) (l : Label) :
    s.db.Became (s.step hash l).db := by
  cases l with
  | arrive r => exact .of_keys rfl
  | middleware n throttled =>
    simp only [System.step]
    split <;> exact .of_keys rfl
  | touch n clock =>
    simp only [System.step]
    split
    case h_1 r key hn =>
      cases clock with
      | none => exact .of_keys rfl
      | some clock =>
        intro row hrow
        exact ⟨_, List.mem_map.mpr ⟨row, hrow, rfl⟩, became_touched row _ _ _ _⟩
    · exact .of_keys rfl
  | initial n csrf allowed =>
    simp only [System.step]
    split
    · split
      · exact .of_keys rfl
      · split <;> exact .of_keys rfl
    · exact .of_keys rfl
  | handle n raw id =>
    simp only [System.step]
    split
    · split
      · exact .of_keys rfl
      · exact handle_became _ _ _ _ _ _
    · exact .of_keys rfl
  | others teamMembers status => exact .of_keys rfl

theorem run_became (s : System) (ls : List Label) :
    s.db.Became (run (System.step hash) s ls).db := by
  induction ls generalizing s with
  | nil => exact .of_keys rfl
  | cons l ls ih =>
    intro a ha
    obtain ⟨b, hb, hab⟩ := step_became hash s l a ha
    obtain ⟨c, hc, hbc⟩ := ih (s.step hash l) b hb
    exact ⟨c, hc, hab.trans hbc⟩

end ReviewFlow.ApiKeys
