import ReviewFlow.ApiKeys.Keys

/-!
# The credential that a request is served for

The request carries what it was judged by; the invariant ties it to the step of the same
request that judged it, and to the state of that moment.
-/

namespace ReviewFlow.ApiKeys

open Tables Accounts Interleaving

variable {hash : String → String} {db : Database} {s : System} {ls : List Label} {n : ℕ}
  {r : HttpRequest} {a : Attributes} {p : Principal} {v : View} {key : ApiKey} {m : TeamMember}

def Database.idle (db : Database) : System := ⟨db, []⟩

def System.after (hash : String → String) (db : Database) (ls : List Label) : System :=
  run (System.step hash) db.idle ls

theorem after_snoc (l : Label) :
    System.after hash db (ls ++ [l]) = (System.after hash db ls).step hash l := run_snoc _ _ _ _

/-- `ApiKeyMiddleware` finds the key of request `n`. -/
structure Looked (hash : String → String) (n : ℕ) (r : HttpRequest) (key : ApiKey)
    (s : System) (l : Label) : Prop where
  step : l = .middleware n false
  request : s.requests[n]? = some (.received r)
  attempt : r.apiKeyAttempt = true
  token : isKey r.token = true
  stored : key ∈ s.db.keys
  keyHash : key.keyHash = hash r.token
  isActive : key.isActive = true
  merchant : s.db.status key.merchantId = .active

/-- `get_active_membership` finds the membership for request `n`. -/
structure Joined (n : ℕ) (m : TeamMember) (s : System) (l : Label) : Prop where
  step : ∃ csrf, l = .initial n csrf true
  stored : m ∈ s.db.teamMembers
  merchant : s.db.status m.merchantId = .active

def View.NeedsScope (v : View) (method scope : String) : Prop :=
  v.permission method = .hasApiKeyScope scope ∨
    v.permission method = .hasApiKeyScopeOrMember scope

structure SoundAttributes (hash : String → String) (db : Database) (ls : List Label) (n : ℕ)
    (r : HttpRequest) (a : Attributes) : Prop where
  attempt : a.apiKeyAttempt = r.apiKeyAttempt
  key : r.apiKeyAttempt = true → a.apiKeyThrottled = true ∨ a.apiKeyError = true ∨
    ∃ key, a = keyAttributes key ∧ Earlier (System.step hash) db.idle ls (Looked hash n r key)
  session : r.apiKeyAttempt = false → a.merchantId = r.sessionMerchant

def SoundPrincipal (hash : String → String) (db : Database) (ls : List Label) (n : ℕ)
    (r : HttpRequest) (a : Attributes) : Principal → Prop
  | .key key => a = keyAttributes key ∧
      Earlier (System.step hash) db.idle ls (Looked hash n r key) ∧
      ∀ v scope, r.view = some v → v.NeedsScope r.method scope → scope ∈ key.scopesJson
  | .member m => a.apiKeyAttempt = false ∧ a.merchantId = some m.merchantId ∧
      r.user = some m.userId ∧ Earlier (System.step hash) db.idle ls (Joined n m) ∧
      ∀ v roles, r.view = some v → v.permission r.method = .hasRole roles → m.role ∈ roles
  | _ => a.apiKeyAttempt = false

def SoundStage (hash : String → String) (db : Database) (ls : List Label) (n : ℕ) : Stage → Prop
  | .touching r key => Earlier (System.step hash) db.idle ls (Looked hash n r key)
  | .wrapped r a => SoundAttributes hash db ls n r a
  | .admitted r a p => SoundAttributes hash db ls n r a ∧ SoundPrincipal hash db ls n r a p
  | _ => True

section Grows

variable {stage : Stage}

theorem SoundAttributes.snoc (h : SoundAttributes hash db ls n r a) (l : Label) :
    SoundAttributes hash db (ls ++ [l]) n r a where
  attempt := h.attempt
  key hr := by
    rcases h.key hr with ht | he | ⟨key, hkey, hl⟩
    · exact .inl ht
    · exact .inr (.inl he)
    · exact .inr (.inr ⟨key, hkey, hl.append [l]⟩)
  session := h.session

theorem SoundPrincipal.snoc (h : SoundPrincipal hash db ls n r a p) (l : Label) :
    SoundPrincipal hash db (ls ++ [l]) n r a p := by
  cases p with
  | key key => exact ⟨h.1, h.2.1.append [l], h.2.2⟩
  | member m => exact ⟨h.1, h.2.1, h.2.2.1, h.2.2.2.1.append [l], h.2.2.2.2⟩
  | user user => exact h
  | anonymous => exact h

theorem SoundStage.snoc (h : SoundStage hash db ls n stage) (l : Label) :
    SoundStage hash db (ls ++ [l]) n stage := by
  cases stage with
  | received r => trivial
  | touching r key => exact Earlier.append h [l]
  | wrapped r a => exact SoundAttributes.snoc h l
  | admitted r a p => exact ⟨h.1.snoc l, h.2.snoc l⟩
  | answered status => trivial

end Grows

section Checks

variable {auth : Authenticated} {permission : Permission}

theorem membership_eq_some (h : membership db a auth = some m) :
    auth = .user m.userId ∧ a.merchantId = some m.merchantId ∧ m ∈ db.teamMembers ∧
      db.status m.merchantId = .active := by
  cases auth with
  | key key => cases h
  | no => cases h
  | user user =>
    obtain ⟨merchantId, ha, hm⟩ := Option.bind_eq_some_iff.mp h
    obtain ⟨hf, hs⟩ := Option.filter_eq_some_iff.mp hm
    have hids := List.find?_some hf
    simp only [Bool.and_eq_true, beq_iff_eq] at hids
    obtain ⟨rfl, rfl⟩ := hids
    exact ⟨rfl, ha, List.mem_of_find?_eq_some hf, beq_iff_eq.mp hs⟩

theorem keyWithScope_eq_some {scope : String} (h : keyWithScope scope auth = some p) :
    ∃ key, auth = .key key ∧ p = .key key ∧ scope ∈ key.scopesJson := by
  cases auth with
  | key key =>
    simp only [keyWithScope] at h
    split at h
    case isTrue hs =>
      cases h
      rw [Bool.and_eq_true] at hs
      exact ⟨key, rfl, rfl, by simpa using hs.2⟩
    · cases h
  | user user => cases h
  | no => cases h

theorem check_key (h : permission.check db a (.key key) = some p) :
    p = .key key ∧ ∀ scope, permission = .hasApiKeyScope scope ∨
      permission = .hasApiKeyScopeOrMember scope → scope ∈ key.scopesJson := by
  cases permission with
  | allowAny => cases h; exact ⟨rfl, by simp⟩
  | isAuthenticated => cases h; exact ⟨rfl, by simp⟩
  | isMerchantMember => cases h
  | hasRole roles => cases h
  | isMerchantMemberOrApiKey => cases h; exact ⟨rfl, by simp⟩
  | hasApiKeyScope scope =>
    change keyWithScope scope (.key key) = some p at h
    obtain ⟨key', heq, rfl, hs⟩ := keyWithScope_eq_some h
    cases heq
    exact ⟨rfl, by simpa using hs⟩
  | hasApiKeyScopeOrMember scope =>
    change keyWithScope scope (.key key) = some p at h
    obtain ⟨key', heq, rfl, hs⟩ := keyWithScope_eq_some h
    cases heq
    exact ⟨rfl, by simpa using hs⟩

theorem check_no_key (h : permission.check db a auth = some p) (hno : ∀ key, auth ≠ .key key) :
    p = .anonymous ∨ (∃ user, p = .user user) ∨ ∃ m, p = .member m ∧
      membership db a auth = some m ∧ ∀ roles, permission = .hasRole roles → m.role ∈ roles := by
  cases permission with
  | allowAny =>
    cases auth with
    | key key => exact absurd rfl (hno key)
    | user user => cases h; exact .inr (.inl ⟨user, rfl⟩)
    | no => cases h; exact .inl rfl
  | isAuthenticated =>
    cases auth with
    | key key => exact absurd rfl (hno key)
    | user user => cases h; exact .inr (.inl ⟨user, rfl⟩)
    | no => cases h
  | isMerchantMember =>
    obtain ⟨m, hm, rfl⟩ := Option.map_eq_some_iff.mp h
    exact .inr (.inr ⟨m, rfl, hm, by simp⟩)
  | hasRole roles =>
    obtain ⟨m, hm, rfl⟩ := Option.map_eq_some_iff.mp h
    obtain ⟨hm, hrole⟩ := Option.filter_eq_some_iff.mp hm
    exact .inr (.inr ⟨m, rfl, hm, by simpa using hrole⟩)
  | isMerchantMemberOrApiKey =>
    cases auth with
    | key key => exact absurd rfl (hno key)
    | user user =>
      obtain ⟨m, hm, rfl⟩ := Option.map_eq_some_iff.mp h
      exact .inr (.inr ⟨m, rfl, hm, by simp⟩)
    | no => cases h
  | hasApiKeyScope scope =>
    obtain ⟨key, rfl, -⟩ := keyWithScope_eq_some h
    exact absurd rfl (hno key)
  | hasApiKeyScopeOrMember scope =>
    cases auth with
    | key key => exact absurd rfl (hno key)
    | user user =>
      obtain ⟨m, hm, rfl⟩ := Option.map_eq_some_iff.mp h
      exact .inr (.inr ⟨m, rfl, hm, by simp⟩)
    | no => cases h

theorem initial_eq_ok {csrf allowed : Bool} (h : initial db v r a csrf allowed = .ok p) :
    allowed = true ∧ ∃ auth, authenticate v r a csrf = .ok auth ∧
      (v.permission r.method).check db a auth = some p := by
  unfold initial at h
  cases ha : authenticate v r a csrf with
  | error status => rw [ha] at h; cases h
  | ok auth =>
    simp only [ha, bind, Except.bind] at h
    split at h
    · cases h
    case h_2 p' hc =>
      split at h
      case isTrue hallowed => cases h; exact ⟨hallowed, auth, rfl, hc⟩
      · cases h

theorem authenticate_session {csrf : Bool} (ha : a.apiKeyAttempt = false)
    (h : authenticate v r a csrf = .ok auth) :
    auth = .no ∨ ∃ user, auth = .user user ∧ r.user = some user := by
  rw [authenticate, ha, if_neg Bool.false_ne_true] at h
  split at h
  · cases h
    exact .inl rfl
  case h_2 user hu =>
    split at h
    · cases h
      exact .inr ⟨user, rfl, (Option.filter_eq_some_iff.mp hu).1⟩
    · cases h

end Checks

section Steps

theorem apiKeyMiddleware_sound {throttled : Bool}
    (hr : (System.after hash db ls).requests[n]? = some (.received r)) :
    SoundStage hash db (ls ++ [.middleware n throttled]) n
      (apiKeyMiddleware hash (System.after hash db ls).db throttled r) := by
  unfold apiKeyMiddleware
  split
  case isTrue hattempt =>
    split
    case isTrue hthrottled => exact ⟨hattempt.symm, fun _ => .inl rfl, by simp [hattempt]⟩
    case isFalse hthrottled =>
      split
      · exact ⟨hattempt.symm, fun _ => .inr (.inl rfl), by simp [hattempt]⟩
      case h_2 key hkey =>
        obtain ⟨htoken, hstored, hhash, hactive, hmerchant⟩ := authenticateApiKey_eq_some hkey
        rw [Bool.not_eq_true] at hthrottled
        rw [hthrottled]
        exact Earlier.last ⟨rfl, hr, hattempt, htoken, hstored, hhash, hactive, hmerchant⟩
  case isFalse hattempt =>
    rw [Bool.not_eq_true] at hattempt
    exact ⟨hattempt.symm, by simp [hattempt], fun _ => rfl⟩

theorem keyAttributes_sound (h : Earlier (System.step hash) db.idle ls (Looked hash n r key)) :
    SoundAttributes hash db ls n r (keyAttributes key) := by
  have hattempt : r.apiKeyAttempt = true := by
    obtain ⟨ls₁, l, ls₂, -, hl⟩ := h
    exact hl.attempt
  exact ⟨hattempt.symm, fun _ => .inr (.inr ⟨key, rfl, h⟩), by simp [hattempt]⟩

theorem initial_sound {csrf allowed : Bool} (ha : SoundAttributes hash db ls n r a)
    (hv : r.view = some v)
    (h : initial (System.after hash db ls).db v r a csrf allowed = .ok p) :
    SoundPrincipal hash db (ls ++ [.initial n csrf allowed]) n r a p := by
  obtain ⟨rfl, auth, hauth, hcheck⟩ := initial_eq_ok h
  cases hr : r.apiKeyAttempt with
  | true =>
    have hattempt : a.apiKeyAttempt = true := ha.attempt.trans hr
    have hkey : ∃ key, a = keyAttributes key ∧
        Earlier (System.step hash) db.idle ls (Looked hash n r key) := by
      rcases ha.key hr with ht | he | hkey
      · rw [authenticate, hattempt, if_pos rfl, if_pos ht] at hauth
        cases hauth
      · rw [authenticate, hattempt, if_pos rfl, he] at hauth
        split at hauth <;> cases hauth
      · exact hkey
    obtain ⟨key, rfl, hl⟩ := hkey
    cases hauth
    obtain ⟨rfl, hscope⟩ := check_key hcheck
    refine ⟨rfl, hl.append _, fun v' scope hv' hneeds => hscope scope ?_⟩
    rw [hv, Option.some.injEq] at hv'
    subst hv'
    exact hneeds
  | false =>
    have hno : a.apiKeyAttempt = false := ha.attempt.trans hr
    have hauth' := authenticate_session hno hauth
    have hnokey : ∀ key, auth ≠ .key key := by
      rintro key rfl
      rcases hauth' with h | ⟨user, h, -⟩ <;> cases h
    rcases check_no_key hcheck hnokey with rfl | ⟨user, rfl⟩ | ⟨m, rfl, hm, hroles⟩
    · exact hno
    · exact hno
    · obtain ⟨rfl, hmerchant, hstored, hactive⟩ := membership_eq_some hm
      have huser : r.user = some m.userId := by
        rcases hauth' with h | ⟨user, h, hu⟩
        · cases h
        · cases h
          exact hu
      refine ⟨hno, hmerchant, huser, Earlier.last ⟨⟨csrf, rfl⟩, hstored, hactive⟩, ?_⟩
      intro v' roles hv' hperm
      rw [hv, Option.some.injEq] at hv'
      subst hv'
      exact hroles roles hperm

theorem session_of_sound (h : SoundAttributes hash db ls n r a) (hno : a.apiKeyAttempt = false)
    {merchantId : Uuid} (ha : a.merchantId = some merchantId) :
    r.apiKeyAttempt = false ∧ r.session = some merchantId := by
  have hattempt : r.apiKeyAttempt = false := h.attempt.symm.trans hno
  have hsession : r.sessionMerchant = some merchantId := (h.session hattempt).symm.trans ha
  refine ⟨hattempt, ?_⟩
  unfold HttpRequest.sessionMerchant at hsession
  split at hsession
  · cases hsession
  · split at hsession
    · cases hsession
    · exact hsession

def Sound (hash : String → String) (db : Database) (ls : List Label) (s : System) : Prop :=
  ∀ n stage, s.requests[n]? = some stage → SoundStage hash db ls n stage

theorem Sound.snoc (h : Sound hash db ls s) (l : Label) : Sound hash db (ls ++ [l]) s :=
  fun n stage hn => (h n stage hn).snoc l

theorem Sound.put {stage : Stage} (h : Sound hash db ls s) (hs : SoundStage hash db ls n stage) :
    Sound hash db ls (s.put n stage) := by
  intro i stage' hi
  rw [System.put, List.getElem?_set] at hi
  split at hi
  case isTrue heq =>
    split at hi
    · cases hi
      exact heq ▸ hs
    · cases hi
  · exact h i stage' hi

theorem step_sound (h : Sound hash db ls (System.after hash db ls)) (l : Label) :
    Sound hash db (ls ++ [l]) ((System.after hash db ls).step hash l) := by
  cases l with
  | arrive r =>
    intro i stage hi
    simp only [System.step, List.getElem?_append] at hi
    split at hi
    · exact (h i stage hi).snoc _
    · rw [List.getElem?_singleton] at hi
      split at hi
      · cases hi
        trivial
      · cases hi
  | middleware n throttled =>
    simp only [System.step]
    split
    case h_1 r hn => exact (h.snoc _).put (apiKeyMiddleware_sound hn)
    · exact h.snoc _
  | touch n clock =>
    simp only [System.step]
    split
    case h_1 r key hn =>
      have hlooked : Earlier (System.step hash) db.idle ls (Looked hash n r key) := h n _ hn
      have hwrapped : SoundStage hash db (ls ++ [.touch n clock]) n
          (.wrapped r (keyAttributes key)) :=
        keyAttributes_sound (hlooked.append _)
      have hput := (h.snoc (.touch n clock)).put hwrapped
      cases clock with
      | none => exact hput
      | some clock => exact hput
    · exact h.snoc _
  | initial n csrf allowed =>
    simp only [System.step]
    split
    case h_1 r a hn =>
      split
      · exact (h.snoc _).put trivial
      case h_2 v hv =>
        have ha : SoundAttributes hash db ls n r a := h n _ hn
        split
        · exact (h.snoc _).put trivial
        case h_2 p hp =>
          have hadmitted : SoundStage hash db (ls ++ [.initial n csrf allowed]) n
              (.admitted r a p) := ⟨ha.snoc _, initial_sound ha hv hp⟩
          exact (h.snoc _).put hadmitted
    · exact h.snoc _
  | handle n raw id =>
    simp only [System.step]
    split
    · split
      · exact h.snoc _
      · exact (h.snoc _).put trivial
    · exact h.snoc _
  | others teamMembers status => exact h.snoc _

theorem run_sound (hash : String → String) (db : Database) (ls : List Label) :
    Sound hash db ls (System.after hash db ls) := by
  have hrun : System.after hash db ls = System.after hash db ls ∧
      Sound hash db ls (System.after hash db ls) := by
    apply run_history (P := fun h s => s = System.after hash db h ∧ Sound hash db h s)
    · exact ⟨rfl, by simp [Sound, Database.idle]⟩
    · rintro h s l ⟨rfl, hs⟩
      exact ⟨(after_snoc l).symm, step_sound hs l⟩
  exact hrun.2

end Steps

section Served

/-- Whenever a view serves a request that came with a key, some step of the same request looked
the key up, and it was live in that state and in every state before it. -/
theorem served_for_key (hash : String → String) (db : Database) (ls : List Label) (n : ℕ)
    (r : HttpRequest) (a : Attributes) (p : Principal)
    (hserved : (System.after hash db ls).requests[n]? = some (.admitted r a p))
    (hattempt : r.apiKeyAttempt = true) :
    ∃ key, p = .key key ∧ a.merchantId = some key.merchantId ∧
      (∀ v scope, r.view = some v → v.NeedsScope r.method scope → scope ∈ key.scopesJson) ∧
      (∃ ls₁ l ls₂, ls = ls₁ ++ l :: ls₂ ∧ Looked hash n r key (System.after hash db ls₁) l ∧
        ∀ ls₀, ls₀ <+: ls₁ → ∀ row ∈ (System.after hash db ls₀).db.keys,
          row.id = key.id → row.isActive = true) ∧
      ∃ row ∈ (System.after hash db ls).db.keys, key.Became row := by
  obtain ⟨ha, hp⟩ := run_sound hash db ls n _ hserved
  have hkeyed : a.apiKeyAttempt = true := ha.attempt.trans hattempt
  cases p with
  | key key =>
    obtain ⟨rfl, ⟨ls₁, l, ls₂, rfl, hl⟩, hscope⟩ := hp
    refine ⟨key, rfl, rfl, hscope, ⟨ls₁, l, ls₂, rfl, hl, ?_⟩, ?_⟩
    · rintro ls₀ ⟨ls', rfl⟩ row hrow hid
      -- the row of that state has become the one that was looked up
      have hlater : (System.after hash db (ls₀ ++ ls')).db =
          (run (System.step hash) (System.after hash db ls₀) ls').db := by
        rw [System.after, run_append]
        rfl
      obtain ⟨row', hrow', hbecame⟩ := run_became (System.after hash db ls₀) ls' row hrow
      rw [← hlater] at hrow'
      have heq : row' = key := keys_eq hrow' hl.stored (hbecame.id.trans hid)
      exact hbecame.isActive (heq ▸ hl.isActive)
    · have hlater : (System.after hash db (ls₁ ++ l :: ls₂)).db =
          (run (System.step hash) (System.after hash db ls₁) (l :: ls₂)).db := by
        rw [System.after, run_append]
        rfl
      rw [hlater]
      exact run_became _ _ key hl.stored
  | member m => exact absurd (hkeyed.symm.trans hp.1) (by simp)
  | user user => exact absurd (hkeyed.symm.trans hp) (by simp)
  | anonymous => exact absurd (hkeyed.symm.trans hp) (by simp)

/-- A sale is posted with a key, by a browser that is logged in elsewhere. -/
def postedSale : HttpRequest :=
  ⟨"POST", "/api/v1/sales", some .sales, "bearer rf_live_0123456789abcdefghijABCDEFGHIJ-_", some 9,
    some 8, .null⟩

def salesKey : ApiKey := ⟨1, 7, postedSale.token, ["sales:write"], true, none⟩

def shop : Database := ⟨⟨[salesKey], by simp⟩, fun _ => .active, [⟨9, 8, .owner⟩], []⟩

theorem served_for_key_sale : ∃ key, Principal.key salesKey = .key key ∧
    (keyAttributes salesKey).merchantId = some key.merchantId ∧ "sales:write" ∈ key.scopesJson := by
  obtain ⟨key, hp, hmerchant, hscopes, -⟩ :=
    served_for_key id shop [.arrive postedSale, .middleware 0 false, .touch 0 (some (5, 6)),
      .initial 0 false true] 0 postedSale (keyAttributes salesKey) (.key salesKey) rfl rfl
  exact ⟨key, hp, hmerchant, hscopes .sales "sales:write" rfl (.inl rfl)⟩

inductive Managed (hash : String → String) (m : TeamMember) (raw : String) (id : Uuid) :
    Database → Database → Prop
  | created (db : Database) (texts : List String) (keys : Table ApiKey ApiKey.Clash)
      (scopes : texts ≠ [] ∧ texts.Nodup ∧ ∀ text ∈ texts, text ∈ Scope.values)
      (inserted : keys.rows =
        db.keys.rows ++ [⟨id, m.merchantId, hash raw, texts, true, none⟩]) :
      Managed hash m raw id db { db with
        keys := keys
        audit := db.audit ++ [⟨m.merchantId, m.userId, id, .created texts⟩] }
  | revoked (db : Database) (keyId : Uuid) (live : db.Live m.merchantId keyId) :
      Managed hash m raw id db { db.updateKeys (·.revoked m.merchantId keyId)
          (fun _ => ApiKey.revoked_id) (fun _ => ApiKey.revoked_keyHash) with
        audit := db.audit ++ [⟨m.merchantId, m.userId, keyId, .revoked⟩] }

/-- The stamps of use apart, the keys and their trail are as they were. -/
structure Unmanaged (db db' : Database) : Prop where
  keys : ∃ f : ApiKey → ApiKey, db'.keys.rows = db.keys.rows.map f ∧
    ∀ key, ∃ stamp, f key = { key with lastUsedAt := stamp }
  audit : db'.audit = db.audit

theorem Unmanaged.of_eq {db db' : Database} (hkeys : db'.keys = db.keys)
    (haudit : db'.audit = db.audit) : Unmanaged db db' where
  keys := ⟨id, by rw [hkeys, List.map_id], fun key => ⟨key.lastUsedAt, rfl⟩⟩
  audit := haudit

theorem touchLastUsed_unmanaged (db : Database) (key : ApiKey) (now stamp : Time) :
    Unmanaged db (db.touchLastUsed key now stamp) where
  keys := by
    refine ⟨(·.touched key.merchantId key.id now stamp), rfl, fun row => ?_⟩
    dsimp only [ApiKey.touched]
    split
    · exact ⟨_, rfl⟩
    · exact ⟨row.lastUsedAt, rfl⟩
  audit := rfl

theorem handle_managed (hash : String → String) (db : Database) (v : View) (r : HttpRequest)
    (a : Attributes) (p : Principal) (raw : String) (id : Uuid) :
    Unmanaged db (handle hash db v r a p raw id).2 ∨
    ∃ m merchantId, p = .member m ∧ a.merchantId = some merchantId ∧
      (v = .apiKeyList ∨ ∃ pk, v = .apiKeyDetail pk) ∧ db.Belongs merchantId m.userId ∧
      (m.merchantId = merchantId →
        Managed hash m raw id db (handle hash db v r a p raw id).2) := by
  rcases handle_cases hash db v r a p raw id with
    h | ⟨m, merchantId, rfl, ha, ⟨hv, scopes, h⟩ | ⟨pk, hv, key, -, h⟩⟩
  · exact .inl (.of_eq (congrArg Database.keys h) (congrArg Database.audit h))
  · obtain ⟨texts, keys, hvalid, hi, hb, heq⟩ := createApiKey_eq_ok h
    refine .inr ⟨m, merchantId, rfl, ha, .inl hv, hb, ?_⟩
    rintro rfl
    rw [heq]
    exact .created db texts keys (validateScopes_eq_ok hvalid) (Table.insert?_eq_some.mp hi).2
  · rcases revokeApiKey_eq_ok h with ⟨h, -⟩ | ⟨hlive, hb, heq⟩
    · exact .inl (.of_eq (congrArg Database.keys h) (congrArg Database.audit h))
    · refine .inr ⟨m, merchantId, rfl, ha, .inr ⟨pk, hv⟩, hb, ?_⟩
      rintro rfl
      rw [heq]
      exact .revoked db key.id hlive

theorem step_managed (hash : String → String) (db : Database) (ls : List Label) (l : Label) :
    Unmanaged (System.after hash db ls).db ((System.after hash db ls).step hash l).db ∨
    ∃ n raw id r a m, l = .handle n raw id ∧
      (System.after hash db ls).requests[n]? = some (.admitted r a (.member m)) ∧
      r.apiKeyAttempt = false ∧ r.session = some m.merchantId ∧ r.user = some m.userId ∧
      (m.role = .owner ∨ m.role = .admin) ∧
      (System.after hash db ls).db.Belongs m.merchantId m.userId ∧
      Earlier (System.step hash) db.idle ls (Joined n m) ∧
      Managed hash m raw id (System.after hash db ls).db
        ((System.after hash db ls).step hash l).db := by
  have hsound : Sound hash db ls (System.after hash db ls) := run_sound hash db ls
  cases l with
  | arrive r => exact .inl (.of_eq rfl rfl)
  | middleware n throttled =>
    simp only [System.step]
    split <;> exact .inl (.of_eq rfl rfl)
  | touch n clock =>
    simp only [System.step]
    split
    · cases clock with
      | none => exact .inl (.of_eq rfl rfl)
      | some clock => exact .inl (touchLastUsed_unmanaged (System.after hash db ls).db _ _ _)
    · exact .inl (.of_eq rfl rfl)
  | initial n csrf allowed =>
    simp only [System.step]
    split
    · split
      · exact .inl (.of_eq rfl rfl)
      · split <;> exact .inl (.of_eq rfl rfl)
    · exact .inl (.of_eq rfl rfl)
  | handle n raw id =>
    simp only [System.step]
    split
    case h_1 r a p hn =>
      split
      · exact .inl (.of_eq rfl rfl)
      case h_2 v hv =>
        rcases handle_managed hash (System.after hash db ls).db v r a p raw id with
          h | ⟨m, merchantId, rfl, ha, hview, hb, hmanaged⟩
        · exact .inl h
        · obtain ⟨hattributes, hno, hmerchant, huser, hjoined, hroles⟩ := hsound n _ hn
          obtain rfl : merchantId = m.merchantId := by
            rw [ha, Option.some.injEq] at hmerchant
            exact hmerchant
          have hrole := hroles v [.owner, .admin] hv (by rcases hview with rfl | ⟨pk, rfl⟩ <;> rfl)
          obtain ⟨hattempt, hsession⟩ := session_of_sound hattributes hno hmerchant
          exact .inr ⟨n, raw, id, r, a, m, rfl, hn, hattempt, hsession, huser, by simpa using hrole,
            hb, hjoined, hmanaged rfl⟩
    · exact .inl (.of_eq rfl rfl)
  | others teamMembers status => exact .inl (.of_eq rfl rfl)

/-- In every run, whatever writes a key or its trail is the view of a session request, never of
one that came with a key: it was admitted as an owner or administrator of the key's merchant,
which its session selects, and belongs to it at the write. -/
theorem keys_managed (hash : String → String) (db : Database) (ls : List Label) :
    ∀ t ∈ trace (System.step hash) db.idle ls,
      Unmanaged t.before.db t.after.db ∨
      ∃ n raw id r a m, t.label = .handle n raw id ∧
        t.before.requests[n]? = some (.admitted r a (.member m)) ∧
        r.apiKeyAttempt = false ∧ r.session = some m.merchantId ∧ r.user = some m.userId ∧
        (m.role = .owner ∨ m.role = .admin) ∧ t.before.db.Belongs m.merchantId m.userId ∧
        (∃ ls₁ l ls₂, ls₁ ++ l :: ls₂ <+: ls ∧ Joined n m (System.after hash db ls₁) l) ∧
        Managed hash m raw id t.before.db t.after.db := by
  intro t ht
  obtain ⟨ls₁, ls₂, rfl, hbefore⟩ := trace_split ht
  have hafter : t.after = (System.after hash db ls₁).step hash t.label := by
    rw [trace_step ht]
    exact congrArg (System.step hash · t.label) hbefore
  rw [hafter, hbefore]
  rcases step_managed hash db ls₁ t.label with
    h | ⟨n, raw, id, r, a, m, hl, hn, hattempt, hsession, huser, hrole, hb, hjoined, hm⟩
  · exact .inl h
  · obtain ⟨ls₀, l, ls', hsplit, hj⟩ := hjoined
    exact .inr ⟨n, raw, id, r, a, m, hl, hn, hattempt, hsession, huser, hrole, hb,
      ⟨ls₀, l, ls', hsplit ▸ List.prefix_append _ _, hj⟩, hm⟩

def postedKey : HttpRequest :=
  ⟨"POST", "/api/v1/api-keys", some .apiKeyList, "", some 9, some 8, .arr [.str "sales:write"]⟩

def keyAdmission : List Label := [.arrive postedKey, .middleware 0 false, .initial 0 true true]

theorem keys_managed_creation : ∃ m raw key, Managed id m raw key
    (System.after id shop keyAdmission).db
      (System.after id shop (keyAdmission ++ [.handle 0 "raw" 2])).db := by
  rcases keys_managed id shop (keyAdmission ++ [.handle 0 "raw" 2])
    (transition (System.step id) (System.after id shop keyAdmission) (.handle 0 "raw" 2))
    (.tail _ (.tail _ (.tail _ (.head _)))) with
    h | ⟨n, raw, key, r, a, m, -, -, -, -, -, -, -, -, hm⟩
  · exact absurd (congrArg List.length h.audit) (by decide)
  · exact ⟨m, raw, key, hm⟩

end Served

end ReviewFlow.ApiKeys
