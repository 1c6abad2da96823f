import ReviewFlow.GoogleReviews.Services

/-!
# What one part of a task does to the rows
-/

namespace ReviewFlow.GoogleReviews

open Savepoint Tables Program

def GoogleOAuthState.Unspent (a : GoogleOAuthState) : Prop := a.status = .issued ∨ a.codeEnc ≠ none

def FailureCode.IsExpiry (code : FailureCode) : Prop :=
  code = .oauthExpired ∨ code = .exchangeInterrupted

/-- The transitions of an attempt but the last, with the clock and the grace of the step. -/
inductive GoogleOAuthState.Moves (env : Env) (a : GoogleOAuthState) : GoogleOAuthState → Prop where
  | same : a.Moves env a
  | claimed (codeEnc : Ciphertext) (h : a.status = .issued) :
      a.Moves env { a with status := .pending, codeEnc := some codeEnc }
  | taken (h : a.status = .pending) : a.Moves env { a with codeEnc := none }
  | expired (h : a.status = .issued ∨ a.status = .pending ∧ a.codeEnc ≠ none)
    (late : a.expiresAt ≤ env.now) :
      a.Moves env { a with
        status := .failed, failureCode := some .oauthExpired, codeEnc := none,
          completedAt := some env.now }
  | interrupted (h : a.status = .pending) (taken : a.codeEnc = none)
      (late : a.expiresAt + env.exchangeGrace ≤ env.now) : a.Moves env { a with
        status := .failed, failureCode := some .exchangeInterrupted, completedAt := some env.now }
  | failed (code : FailureCode) (h : a.status = .pending) (hcode : ¬ code.IsExpiry) :
    a.Moves env { a with
      status := .failed, failureCode := some code, completedAt := some env.now, codeEnc := none }

structure Quiet (env : Env) (db db' : Database) : Prop where
  connections : db'.connections = db.connections
  attempts : ∀ b ∈ db'.attempts, (∃ a ∈ db.attempts, a.Moves env b) ∨
    db.nextId = b.id ∧ db.nextId < db'.nextId ∧ b.status = .issued ∧ b.codeEnc = none ∧
    b.failureCode = none
  nextId : db.nextId ≤ db'.nextId
  drawn : db.drawn ≤ db'.drawn

def Ciphertext.Drawn (lo hi : ℕ) (c : Ciphertext) : Prop := lo ≤ c.nonce ∧ c.nonce < hi

inductive Origin (db db' : Database) (result : ExchangeResult) (c : GoogleConnection) : Prop where
  | created (new : c.id = db.nextId) (next : db.nextId < db'.nextId)
    (drawn : c.refreshTokenEnc.Drawn db.drawn db'.drawn)
  | renewed (e : GoogleConnection) (he : e ∈ db.connections) (id : e.id = c.id)
      (given : result.refreshToken ≠ none) (drawn : c.refreshTokenEnc.Drawn db.drawn db'.drawn)
  | kept (e : GoogleConnection) (he : e ∈ db.connections) (id : e.id = c.id)
      (given : result.refreshToken = none) (same : c.refreshTokenEnc = e.refreshTokenEnc)
      (active : e.status = .active)

structure Upserted (env : Env) (result : ExchangeResult) (c : GoogleConnection)
    (db db' : Database) : Prop where
  mem : c ∈ db'.connections
  others : ∀ d, d.id ≠ c.id → (d ∈ db'.connections ↔ d ∈ db.connections)
  access : c.accessTokenEnc.Drawn db.drawn db'.drawn
  active : c.status = .active
  connectedAt : c.connectedAt = some env.now
  origin : Origin db db' result c
  nextId : db.nextId ≤ db'.nextId

def completes (attemptId : Uuid) (a : GoogleOAuthState) : Bool :=
  a.id == attemptId && a.status == .pending

def GoogleOAuthState.completed (connectionId : Uuid) (now : Time) (a : GoogleOAuthState) :
    GoogleOAuthState :=
  { a with
    status := .completed
    googleConnectionId := some connectionId
    completedAt := some now
    codeEnc := none }

/-- A finish that commits: the attempt was PENDING, and the connection is written with it. -/
structure Finished (env : Env) (attemptId : Uuid) (result : ExchangeResult) (c : GoogleConnection)
    (db db' : Database) : Prop where
  pending : ∃ a ∈ db.attempts, a.id = attemptId ∧ a.status = .pending
  upserted : Upserted env result c db db'
  attempts : ∀ b, b ∈ db'.attempts ↔
    ∃ a ∈ db.attempts, (if completes attemptId a then a.completed c.id env.now else a) = b

inductive TokenWrite (lo hi : ℕ) (c : GoogleConnection) : GoogleConnection → Prop where
  | marked : TokenWrite lo hi c { c with status := .needsReauth }
  | stored (access : Ciphertext) (expiresAt : Time) (drawn : access.Drawn lo hi) :
      TokenWrite lo hi c { c with accessTokenEnc := access, expiresAt := expiresAt }
  | rotated (access refresh : Ciphertext) (expiresAt : Time) (drawn : access.Drawn lo hi)
      (drawn' : refresh.Drawn lo hi) : TokenWrite lo hi c { c with
        accessTokenEnc := access, expiresAt := expiresAt, refreshTokenEnc := refresh }

structure Refreshed (connectionId : Uuid) (seen : Ciphertext) (db db' : Database) : Prop where
  attempts : db'.attempts = db.attempts
  nextId : db'.nextId = db.nextId
  drawn : db.drawn ≤ db'.drawn
  connections : ∀ d, d ∈ db'.connections → ∃ c ∈ db.connections,
    if unrenewed connectionId seen c then TokenWrite db.drawn db'.drawn c d else d = c
  kept : ∀ c ∈ db.connections, ∃ d ∈ db'.connections,
    if unrenewed connectionId seen c then TokenWrite db.drawn db'.drawn c d else d = c

section Statements

variable {env : Env} {db db' : Database} {s : Store Database Unit} {a b : GoogleOAuthState}
  {attemptId : Uuid}

@[simp] theorem wp_updateAttempts {Q : ℕ → Store Database Unit → Prop} {E p f h} :
    wp env (updateAttempts p f h) Q E s ↔ Q (s.data.attempts.rows.countP p)
      ⟨{ s.data with attempts := s.data.attempts.updateWhere p f h }, s.journal⟩ := Iff.rfl

@[simp] theorem wp_updateConnections {Q : ℕ → Store Database Unit → Prop} {E p f h} :
    wp env (updateConnections p f h) Q E s ↔ Q (s.data.connections.rows.countP p)
      ⟨{ s.data with connections := s.data.connections.updateWhere p f h }, s.journal⟩ := Iff.rfl

@[simp] theorem wp_encrypt {Q : Ciphertext → Store Database Unit → Prop} {E} {text : String} :
    wp env (encrypt text) Q E s ↔
      Q ⟨s.data.drawn, text⟩ ⟨{ s.data with drawn := s.data.drawn + 1 }, s.journal⟩ := Iff.rfl

theorem GoogleOAuthState.Moves.id (h : a.Moves env b) : b.id = a.id := by
  cases h <;> rfl

theorem GoogleOAuthState.Moves.unspent (h : a.Moves env b) (hb : b.Unspent) : a.Unspent := by
  cases h with
  | same => exact hb
  | claimed _ h => exact .inl h
  | taken h => simp [Unspent, h] at hb
  | expired => simp [Unspent] at hb
  | interrupted _ taken => simp [Unspent, taken] at hb
  | failed => simp [Unspent] at hb

theorem GoogleOAuthState.Moves.checks (h : a.Moves env b) (ha : a.Checks) : b.Checks := by
  obtain ⟨code, failure, connection⟩ := ha
  cases h with
  | same => exact ⟨code, failure, connection⟩
  | claimed _ h =>
    refine ⟨.inr rfl, ?_, by simp⟩
    simpa [h] using failure
  | taken h => exact ⟨.inl rfl, failure, connection⟩
  | expired => exact ⟨.inl rfl, by simp, by simp⟩
  | interrupted _ taken => exact ⟨.inl taken, by simp, by simp⟩
  | failed => exact ⟨.inl rfl, by simp, by simp⟩

theorem GoogleOAuthState.Moves.absorbs (h : a.Moves env b)
    (ha : a.status = .completed ∨ a.status = .failed) : b = a := by
  cases h with
  | same => rfl
  | claimed _ h => simp [h] at ha
  | taken h => simp [h] at ha
  | expired h => rcases h with h | ⟨h, -⟩ <;> simp [h] at ha
  | interrupted h => simp [h] at ha
  | failed _ h => simp [h] at ha

theorem Quiet.refl : Quiet env db db where
  connections := rfl
  attempts b hb := .inl ⟨b, hb, .same⟩
  nextId := le_refl _
  drawn := le_refl _

theorem quiet_of_moves (connections : db'.connections = db.connections)
    (attempts : ∀ b ∈ db'.attempts, ∃ a ∈ db.attempts, a.Moves env b)
    (nextId : db'.nextId = db.nextId)
    (drawn : db.drawn ≤ db'.drawn) : Quiet env db db' :=
  ⟨connections, fun b hb => .inl (attempts b hb), nextId.ge, drawn⟩

theorem quiet_updateWhere {p : GoogleOAuthState → Bool}
    {f : GoogleOAuthState → GoogleOAuthState} {h}
    {n : ℕ} (hm : ∀ a, p a = true → a.Moves env (f a)) (hn : db.drawn ≤ n) :
    Quiet env db { db with attempts := db.attempts.updateWhere p f h, drawn := n } := by
  refine quiet_of_moves rfl (fun b hb => ?_) rfl hn
  change b ∈ db.attempts.updateWhere p f h at hb
  obtain ⟨a, ha, rfl⟩ := Attempts.mem_updateWhere.mp hb
  refine ⟨a, ha, ?_⟩
  split
  case isTrue hp => exact hm a hp
  case isFalse => exact .same

theorem completes_iff : completes attemptId a = true ↔ a.id = attemptId ∧ a.status = .pending := by
  simp [completes]

end Statements

section Attempts

variable {env : Env} {db : Database} {attemptId actor : Uuid}
    {E : Error → Store Database Unit → Prop}

theorem expireAttempts_spec (target : Option Uuid) : wp env (expireAttempts target env.now)
    (fun _ t => t.data.connections = db.connections ∧ t.data.nextId = db.nextId ∧
      t.data.drawn = db.drawn ∧
      ∀ b ∈ t.data.attempts, ∃ a ∈ db.attempts, a.Moves env b) E ⟨db, ()⟩ := by
  simp only [expireAttempts, wp_bind, wp_ask, wp_updateAttempts, wp_pure]
  refine ⟨trivial, trivial, trivial, fun b hb => ?_⟩
  obtain ⟨c, hc, rfl⟩ := Attempts.mem_updateWhere.mp hb
  obtain ⟨a, ha, rfl⟩ := Attempts.mem_updateWhere.mp hc
  refine ⟨a, ha, ?_⟩
  by_cases hexp : expires target env.now a = true
  · rw [if_pos hexp, if_neg (by simp [interrupts])]
    simp only [expires, Bool.and_eq_true, Bool.or_eq_true, beq_iff_eq, decide_eq_true_eq,
      Option.isSome_iff_ne_none] at hexp
    exact .expired hexp.1.2 hexp.2
  · rw [if_neg hexp]
    by_cases hint : interrupts target env.now env.exchangeGrace a = true
    · rw [if_pos hint]
      simp only [interrupts, Bool.and_eq_true, beq_iff_eq, decide_eq_true_eq,
        Option.isNone_iff_eq_none] at hint
      exact .interrupted hint.1.2.1 hint.1.2.2 (le_sub_iff_add_le.mp hint.2)
    · rw [if_neg hint]
      exact .same

theorem sweepOauthAttempts_spec : wp env sweepOauthAttempts (fun _ t => Quiet env db t.data)
    (fun _ t => t.data = db) ⟨db, ()⟩ := by
  simp only [sweepOauthAttempts, wp_bind, wp_ask]
  refine wp_of_savepoint (s := ⟨db, ()⟩) ?_
  refine returns_bind (expireAttempts_spec none) ?_
  rintro - ⟨d, u⟩ ⟨connections, nextId, drawn, attempts⟩
  simp only [purgeAttempts, wp_bind, wp_ask, wp_modify]
  refine quiet_of_moves connections ?_ nextId drawn.ge
  exact fun b hb => attempts b (Table.mem_delete.mp hb).1

theorem issueOauthState_spec (actor : Uuid) (state nonce : String) :
    wp env (issueOauthState actor state nonce) (fun _ t => Quiet env db t.data)
    (fun _ t => t.data = db) ⟨db, ()⟩ := by
  simp only [issueOauthState, wp_bind, wp_ask]
  refine wp_of_savepoint (s := ⟨db, ()⟩) ?_
  refine returns_bind (expireAttempts_spec none) ?_
  rintro - ⟨d, u⟩ ⟨connections, nextId, drawn, attempts⟩
  simp only [purgeAttempts, wp_bind, wp_ask, wp_modify, createAttempt, wp_query]
  refine ⟨fun _ => ?_, fun _ _ => trivial⟩
  split
  case h_2 => intro h; cases h
  case h_1 table hinsert =>
    intro _
    refine ⟨connections, fun b hb => ?_, nextId ▸ Nat.le_succ _, drawn.ge⟩
    rcases (Table.mem_insert? hinsert).mp hb with hb | rfl
    · exact .inl (attempts b (Table.mem_delete.mp hb).1)
    · exact .inr ⟨nextId.symm, nextId ▸ Nat.lt_succ_self _, rfl, rfl, rfl⟩

theorem beginGoogleOauth_spec (actor : Uuid) (state nonce : String) :
    wp env (beginGoogleOauth actor state nonce) (fun _ t => Quiet env db t.data)
    (fun _ t => t.data = db) ⟨db, ()⟩ := by
  simp only [beginGoogleOauth, wp_bind, wp_ask, wp_whenever, wp_raise]
  exact ⟨fun _ => trivial, fun _ => issueOauthState_spec actor state nonce⟩

theorem completeGoogleOauth_spec (actor : Uuid) (code state : String) :
    wp env (completeGoogleOauth actor code state) (fun _ t => Quiet env db t.data)
      (fun _ t => Quiet env db t.data) ⟨db, ()⟩ := by
  simp only [completeGoogleOauth, wp_bind, wp_ask, wp_whenever, wp_raise, wp_encrypt, wp_savepoint,
    wp_updateAttempts]
  refine ⟨fun _ => .refl, fun _ => ⟨fun _ => ?_, fun _ => ?_⟩⟩
  · exact quiet_of_moves rfl (fun b hb => ⟨b, hb, .same⟩) rfl (Nat.le_succ _)
  · refine quiet_updateWhere (fun a h => ?_) (Nat.le_succ _)
    simp only [Bool.and_eq_true, beq_iff_eq, decide_eq_true_eq] at h
    exact .claimed _ h.1.2

theorem getOauthAttempt_spec (actor attemptId : Uuid) : wp env (getOauthAttempt actor attemptId)
    (fun _ t => Quiet env db t.data) (fun _ t => Quiet env db t.data) ⟨db, ()⟩ := by
  simp only [getOauthAttempt, wp_bind, wp_ask, wp_savepoint]
  apply wp_mono
    (expireAttempts_spec (E := fun _ t => Quiet env db ⟨db.connections, db.attempts, db.audit,
    db.nextId, db.drawn⟩) (some attemptId))
  · rintro - ⟨d, u⟩ ⟨connections, nextId, drawn, attempts⟩
    have hq : Quiet env db d := quiet_of_moves connections attempts nextId drawn.ge
    simp only [wp_get, wp_pure]
    split
    · exact hq
    · exact hq
  · exact fun _ _ h => h

end Attempts

section Exchange

variable {env : Env} {db : Database} {attemptId userId : Uuid} {row : TakenCode}

theorem takeCode_spec : wp env (takeCode attemptId)
    (fun next t => t.data = db ∧ ∀ task ∈ next, ∃ row now, task = .swapCode attemptId row now)
    (fun _ _ => False) ⟨db, ()⟩ := by
  simp only [takeCode, wp_bind, wp_ask, wp_get, wp_pure]
  refine ⟨trivial, fun task htask => ?_⟩
  simp only [Option.mem_def, Option.bind_eq_some_iff, Option.map_eq_some_iff] at htask
  obtain ⟨a, -, code, -, rfl⟩ := htask
  exact ⟨_, _, rfl⟩

theorem swapCode_spec {now : Time} : wp env (swapCode attemptId row now)
    (fun next t => Quiet env db t.data ∧ ∀ task ∈ next, task = .exchangeCode attemptId row ∧
      (∃ a ∈ db.attempts, a.id = attemptId ∧ a.Unspent) ∧
      ∀ b ∈ t.data.attempts, b.id = attemptId → ¬ b.Unspent)
    (fun _ _ => False) ⟨db, ()⟩ := by
  simp only [swapCode, wp_bind, wp_updateAttempts, wp_pure]
  refine ⟨quiet_updateWhere (fun a h => ?_) (le_refl _), fun task htask => ?_⟩
  · simp only [Bool.and_eq_true, beq_iff_eq, decide_eq_true_eq] at h
    exact .taken h.1.1.2
  · split at htask
    case isFalse => cases htask
    case isTrue hone =>
      cases htask
      have hpos := List.countP_pos_iff.mp (hone ▸ Nat.one_pos)
      obtain ⟨a, ha, hp⟩ := hpos
      have hkey := hp
      simp only [Bool.and_eq_true, beq_iff_eq, decide_eq_true_eq] at hkey
      obtain ⟨⟨⟨hid, hpending⟩, hcode⟩, -⟩ := hkey
      refine ⟨rfl, ⟨a, ha, hid, .inr (by simp [hcode])⟩, fun b hb hbid => ?_⟩
      obtain ⟨a', ha', rfl⟩ := Attempts.mem_updateWhere.mp hb
      have heq : a' = a := by
        apply attempts_eq ha' ha
        rw [hid, ← hbid]
        split <;> rfl
      subst heq
      rw [if_pos hp]
      simp [GoogleOAuthState.Unspent, hpending]

theorem validateExchange_expiry {result : ExchangeResult} {nonceHash : String} {code : FailureCode}
    (h : validateExchange env result nonceHash = .error code) : ¬ code.IsExpiry := by
  unfold validateExchange at h
  unfold FailureCode.IsExpiry
  grind

theorem exchangeCode_spec : wp env (exchangeCode attemptId row)
    (fun next t => t.data = db ∧
      ∀ task ∈ next, (∃ code, task = .fail attemptId code ∧ ¬ code.IsExpiry) ∨
      ∃ claims result, task = .finishOk attemptId row.userId claims result)
    (fun _ t => t.data = db) ⟨db, ()⟩ := by
  simp only [exchangeCode, wp_bind, wp_ask]
  split
  · exact ⟨rfl,
      fun task htask => .inl ⟨_, (Option.mem_some.mp htask).symm, by simp [FailureCode.IsExpiry]⟩⟩
  split
  · rfl
  · exact ⟨rfl,
      fun task htask => .inl ⟨_, (Option.mem_some.mp htask).symm, by simp [FailureCode.IsExpiry]⟩⟩
  split
  case h_1 hvalid =>
    exact ⟨rfl, fun task htask =>
      .inl ⟨_, (Option.mem_some.mp htask).symm, validateExchange_expiry hvalid⟩⟩
  case h_2 => exact ⟨rfl, fun task htask => .inr ⟨_, _, (Option.mem_some.mp htask).symm⟩⟩

theorem markFailed_spec {code : FailureCode} {E : Error → Store Database Unit → Prop}
    (hcode : ¬ code.IsExpiry) :
    wp env (markFailed attemptId code env.now) (fun _ t => Quiet env db t.data) E ⟨db, ()⟩ := by
  simp only [markFailed, wp_updateAttempts]
  refine quiet_updateWhere (fun a h => ?_) (le_refl _)
  simp only [Bool.and_eq_true, beq_iff_eq] at h
  exact .failed _ h.2 hcode

theorem Upserted.of_store {result : ExchangeResult} {c : GoogleConnection} {d d' : Database}
    (h : Upserted env result c db d) (connections : d'.connections = d.connections)
    (nextId : d'.nextId = d.nextId) (drawn : d'.drawn = d.drawn) : Upserted env result c db d' where
  mem := connections ▸ h.mem
  others := connections ▸ h.others
  access := drawn ▸ h.access
  active := h.active
  connectedAt := h.connectedAt
  origin := by
    cases h.origin with
    | created new next hd => exact .created new (nextId ▸ next) (drawn ▸ hd)
    | renewed e he id given hd => exact .renewed e he id given (drawn ▸ hd)
    | kept e he id given same active => exact .kept e he id given same active
  nextId := nextId ▸ h.nextId

theorem createConnection_spec (db : Database) {claims : Identity} {result : ExchangeResult}
    {access refresh : Ciphertext}
    {d : Database} (connections : d.connections = db.connections) (nextId : d.nextId = db.nextId)
    (haccess : access.Drawn db.drawn d.drawn) (hrefresh : refresh.Drawn db.drawn d.drawn) :
    wp env (createConnection claims access refresh result.expiresAt env.now)
      (fun c t => Upserted env result c db t.data ∧ t.data.attempts = d.attempts)
      (fun e _ => e = .integrityError connectionUnique) ⟨d, ()⟩ := by
  simp only [createConnection, wp_query]
  split
  case h_2 =>
    refine ⟨fun _ hc => absurd hc (by simp), fun e he => ?_⟩
    cases he
    rfl
  case h_1 table hinsert =>
    refine ⟨fun c hc => ?_, fun _ he => absurd he (by simp)⟩
    cases hc
    refine ⟨⟨(Table.mem_insert? hinsert).mpr (.inr rfl), fun d hne => ?_, haccess, rfl, rfl,
      .created nextId (nextId ▸ Nat.lt_succ_self _) hrefresh, nextId ▸ Nat.le_succ _⟩, rfl⟩
    rw [Table.mem_insert? hinsert, connections]
    refine or_iff_left ?_
    rintro rfl
    exact hne rfl

theorem saveConnection_spec (db : Database) {result : ExchangeResult}
    {c e : GoogleConnection} {d : Database}
    (connections : d.connections = db.connections) (nextId : d.nextId = db.nextId)
    (he : e ∈ db.connections) (hid : c.id = e.id) (hsub : c.googleAccountSub = e.googleAccountSub)
    (haccess : c.accessTokenEnc.Drawn db.drawn d.drawn) (active : c.status = .active)
    (connectedAt : c.connectedAt = some env.now) (origin : Origin db d result c) :
    wp env (saveConnection c)
    (fun _ t => Upserted env result c db t.data ∧ t.data.attempts = d.attempts)
      (fun _ _ => False) ⟨d, ()⟩ := by
  simp only [saveConnection, wp_bind, wp_updateConnections, wp_pure]
  refine ⟨⟨?_, fun x hne => ?_, haccess, active, connectedAt, ?_, nextId.ge⟩, trivial⟩
  · refine List.mem_map.mpr ⟨e, connections ▸ he, ?_⟩
    rw [if_pos (beq_iff_eq.mpr hid.symm)]
    simp only [← hid, ← hsub]
  · rw [← connections]
    refine List.mem_map.trans ⟨?_, fun hx => ⟨x, hx, if_neg (by simpa using hne)⟩⟩
    rintro ⟨y, hy, hxy⟩
    split at hxy
    case isTrue hyc => exact absurd (by rw [← hxy]; exact beq_iff_eq.mp hyc) hne
    case isFalse => exact hxy ▸ hy
  · cases origin with
    | created new next hd => exact .created new next hd
    | renewed e he id given hd => exact .renewed e he id given hd
    | kept e he id given same active => exact .kept e he id given same active

theorem upsertConnection_spec {claims : Identity} {result : ExchangeResult} :
    wp env (upsertConnection claims result env.now)
      (fun r t => match r with
        | .error code => t.data = db ∧ ¬ code.IsExpiry
        | .ok (c, _) => Upserted env result c db t.data ∧ t.data.attempts = db.attempts)
      (fun e _ => e = .integrityError connectionUnique) ⟨db, ()⟩ := by
  simp only [upsertConnection, wp_bind, wp_ask, wp_get]
  have hexpiry : ¬ FailureCode.IsExpiry .refreshTokenMissing := by simp [FailureCode.IsExpiry]
  split
  · split
    · exact ⟨rfl, hexpiry⟩
    · simp only [wp_bind, wp_encrypt]
      refine wp_mono (createConnection_spec db rfl rfl ⟨le_refl _, ?_⟩ ⟨Nat.le_succ _, ?_⟩)
        (fun _ _ h => h) (fun _ _ h => h)
      · exact Nat.lt_succ_of_lt (Nat.lt_succ_self _)
      · exact Nat.lt_succ_self _
  case h_2 existing hfind =>
    have he : existing ∈ db.connections := by
      split at hfind
      · cases hfind
      · exact (Table.mem_of_find? hfind).1
    split
    · exact ⟨rfl, hexpiry⟩
    case isFalse hkeep =>
      simp only [wp_bind, wp_encrypt]
      split
      case h_1 token hr =>
        have given : result.refreshToken ≠ none := by simp [hr]
        simp only [wp_bind, wp_encrypt]
        refine wp_mono (saveConnection_spec db rfl rfl he rfl rfl ⟨le_refl _, ?_⟩ rfl rfl
          (.renewed existing he rfl given ⟨Nat.le_succ _, ?_⟩))
          (fun _ _ h => h) (fun _ _ h => h.elim)
        · exact Nat.lt_succ_of_lt (Nat.lt_succ_self _)
        · exact Nat.lt_succ_self _
      case h_2 hr =>
        have hactive : existing.status = .active := by
          by_contra hne
          exact hkeep ⟨hr, hne⟩
        simp only [wp_bind, wp_pure]
        refine wp_mono (saveConnection_spec db rfl rfl he rfl rfl ⟨le_refl _, ?_⟩ rfl rfl
          (.kept existing he rfl hr rfl hactive)) (fun _ _ h => h) (fun _ _ h => h.elim)
        exact Nat.lt_succ_self _

theorem record_spec {action : String} {target : Uuid} {d : Database} :
    wp env (record action userId target)
    (fun _ t => t.data.connections = d.connections ∧ t.data.attempts = d.attempts ∧
      t.data.nextId = d.nextId ∧ t.data.drawn = d.drawn)
    (fun e _ => e = .actorNotMember) ⟨d, ()⟩ := by
  simp only [record, wp_bind, wp_ask, wp_savepoint, wp_whenever, wp_raise, wp_modify]
  exact ⟨fun _ => trivial, fun _ => ⟨trivial, trivial, trivial, trivial⟩⟩

def Error.RollsBack (e : Error) : Prop :=
  e = .attemptNoLongerPending ∨ e = .actorNotMember ∨ e = .integrityError connectionUnique

theorem finishOk_spec {claims : Identity} {result : ExchangeResult} :
    wp env (finishOk attemptId userId claims result)
      (fun _ t => Quiet env db t.data ∨ ∃ c, Finished env attemptId result c db t.data)
      (fun e _ => e.RollsBack) ⟨db, ()⟩ := by
  simp only [finishOk, wp_bind, wp_ask, wp_ite]
  refine ⟨fun _ => ?_, fun _ => ?_⟩
  · have hcode : ¬ FailureCode.IsExpiry .actorNotMember := by simp [FailureCode.IsExpiry]
    exact wp_mono (markFailed_spec hcode) (fun _ _ h => .inl h) (fun _ _ h => h)
  refine wp_mono upsertConnection_spec ?_ (fun _ _ h => .inr (.inr h))
  rintro (code | ⟨c, created⟩) ⟨d, u⟩ h
  · obtain ⟨rfl, hcode⟩ := h
    exact wp_mono (markFailed_spec (E := fun e _ => e.RollsBack) hcode)
      (fun _ _ h => .inl h) (fun _ _ h => h)
  · obtain ⟨upserted, attempts⟩ := h
    simp only [wp_bind]
    refine wp_mono record_spec ?_ (fun _ _ h => .inr (.inl h))
    rintro - ⟨d', u'⟩ ⟨hconnections, hattempts, hnext, hdrawn⟩
    simp only [completeAttempt, wp_updateAttempts, wp_whenever, wp_raise]
    refine ⟨fun _ => .inl rfl, fun hone => .inr ⟨c, ?_,
      upserted.of_store hconnections hnext hdrawn, fun b => ?_⟩⟩
    · have hpos := List.countP_pos_iff.mp ((not_ne_iff.mp hone) ▸ Nat.one_pos)
      obtain ⟨a, ha, hp⟩ := hpos
      exact ⟨a, attempts ▸ hattempts ▸ ha, completes_iff.mp hp⟩
    · rw [← attempts, ← hattempts]
      exact List.mem_map

theorem afterRollback_spec {e : Error} (he : e.RollsBack) :
    wp env (afterRollback attemptId e)
      (fun next t => t.data = db ∧
        ∀ task ∈ next, ∃ code, task = .fail attemptId code ∧ ¬ code.IsExpiry)
      (fun _ _ => False) ⟨db, ()⟩ := by
  rcases he with rfl | rfl | rfl
  · exact ⟨rfl, forall_none⟩
  · exact ⟨rfl, fun _ htask => ⟨_, (Option.mem_some.mp htask).symm, by simp [FailureCode.IsExpiry]⟩⟩
  · exact ⟨rfl, fun _ htask => ⟨_, (Option.mem_some.mp htask).symm, by simp [FailureCode.IsExpiry]⟩⟩

end Exchange

section Refresh

variable {env : Env} {db : Database} {k : Uuid} {seen : Ciphertext}

theorem readConnection_spec : wp env (readConnection k)
    (fun next t => t.data = db ∧ ∀ task ∈ next, ∃ c ∈ db.connections, c.id = k ∧
      c.status = .active ∧
      task = .refresh k c.refreshTokenEnc)
    (fun _ _ => False) ⟨db, ()⟩ := by
  simp only [readConnection, wp_bind, wp_ask, wp_get]
  split
  · exact ⟨rfl, forall_none⟩
  case h_2 c hc =>
    obtain ⟨hmem, hid⟩ := Connections.byId_eq_some.mp hc
    split
    · exact ⟨rfl, forall_none⟩
    case isFalse hactive =>
      refine ⟨rfl, fun task htask => ⟨c, hmem, hid, ?_, (Option.mem_some.mp htask).symm⟩⟩
      by_contra hne
      exact hactive (.inl hne)

theorem refresh_spec : wp env (refresh k seen)
    (fun next t => t.data = db ∧ ∀ task ∈ next, (∃ reason, task = .markNeedsReauth k seen reason) ∨
      ∃ tokens, task = .persist k seen tokens)
    (fun _ t => t.data = db) ⟨db, ()⟩ := by
  simp only [refresh, wp_bind, wp_ask]
  split
  · exact ⟨rfl, forall_none⟩
  split
  · exact ⟨rfl, fun _ htask => .inl ⟨_, (Option.mem_some.mp htask).symm⟩⟩
  · rfl
  · exact ⟨rfl, fun _ htask => .inr ⟨_, (Option.mem_some.mp htask).symm⟩⟩

theorem refreshed_updateWhere {f : GoogleConnection → GoogleConnection} {h} {n : ℕ}
    (hn : db.drawn ≤ n)
    (hf : ∀ c, TokenWrite db.drawn n c (f c)) :
    Refreshed k seen db { db with
      connections := db.connections.updateWhere (unrenewed k seen) f h, drawn := n } := by
  have hrow : ∀ c, if unrenewed k seen c then TokenWrite db.drawn n c
      (if unrenewed k seen c then f c else c) else (if unrenewed k seen c then f c else c) = c := by
    intro c
    split
    · exact hf c
    · rfl
  refine ⟨rfl, rfl, hn, fun d hd => ?_, fun c hc => ⟨_, List.mem_map.mpr ⟨c, hc, rfl⟩, hrow c⟩⟩
  obtain ⟨c, hc, rfl⟩ := List.mem_map.mp hd
  exact ⟨c, hc, hrow c⟩

theorem markNeedsReauth_spec {E : Error → Store Database Unit → Prop} :
    wp env (markNeedsReauth k seen) (fun _ t => Refreshed k seen db t.data) E ⟨db, ()⟩ := by
  simp only [markNeedsReauth, wp_updateConnections]
  exact refreshed_updateWhere (le_refl _) fun _ => .marked

theorem persist_spec {tokens : TokenSet} {E : Error → Store Database Unit → Prop} :
    wp env (persist k seen tokens) (fun _ t => Refreshed k seen db t.data) E ⟨db, ()⟩ := by
  simp only [persist, wp_bind, wp_encrypt]
  split
  · simp only [wp_bind, wp_encrypt, wp_updateConnections]
    refine refreshed_updateWhere (n := db.drawn + 1 + 1) (by omega) fun c => ?_
    exact .rotated _ _ _ ⟨le_refl _, by simp⟩ ⟨Nat.le_succ _, by simp⟩
  · simp only [wp_updateConnections]
    refine refreshed_updateWhere (n := db.drawn + 1) (by omega) fun c => ?_
    exact .stored _ _ ⟨le_refl _, by simp⟩

end Refresh

inductive Task.WritesBack (k : Uuid) (seen : Ciphertext) : Task → Prop where
  | marks (reason : String) : WritesBack k seen (.markNeedsReauth k seen reason)
  | persists (tokens : TokenSet) : WritesBack k seen (.persist k seen tokens)

inductive Task.Effect (env : Env) (db db' : Database) : Task → Prop where
  | quiet {task : Task} (hno : ∀ k seen, ¬ task.WritesBack k seen) (h : Quiet env db db') :
    Effect env db db' task
  | finished {attemptId userId : Uuid} {claims : Identity} {result : ExchangeResult}
    (c : GoogleConnection)
      (h : Finished env attemptId result c db db') : Effect env db db'
        (.finishOk attemptId userId claims result)
  | marked {k : Uuid} {seen : Ciphertext} {reason : String} (h : Refreshed k seen db db') :
      Effect env db db' (.markNeedsReauth k seen reason)
  | persisted {k : Uuid} {seen : Ciphertext} {tokens : TokenSet} (h : Refreshed k seen db db') :
      Effect env db db' (.persist k seen tokens)

inductive Task.Next (db db' : Database) : Task → Task → Prop where
  | swap {a : Uuid} {row : TakenCode} {now : Time} : Next db db' (.takeCode a) (.swapCode a row now)
  | exchange {k : Uuid} {row : TakenCode} {now : Time}
    (found : ∃ a ∈ db.attempts, a.id = k ∧ a.Unspent)
      (spent : ∀ b ∈ db'.attempts, b.id = k → ¬ b.Unspent) :
      Next db db' (.swapCode k row now) (.exchangeCode k row)
  | refused {a : Uuid} {row : TakenCode} {code : FailureCode} (h : ¬ code.IsExpiry) :
      Next db db' (.exchangeCode a row) (.fail a code)
  | finish {a : Uuid} {row : TakenCode} {claims : Identity} {result : ExchangeResult} :
      Next db db' (.exchangeCode a row) (.finishOk a row.userId claims result)
  | failFinish {a userId : Uuid} {claims : Identity} {result : ExchangeResult} {code : FailureCode}
      (h : ¬ code.IsExpiry) : Next db db' (.finishOk a userId claims result) (.fail a code)
  | refresh {c : GoogleConnection} (h : c ∈ db.connections) (active : c.status = .active)
    (same : db' = db) :
      Next db db' (.readConnection c.id) (.refresh c.id c.refreshTokenEnc)
  | mark {k : Uuid} {seen : Ciphertext} {reason : String} (same : db' = db) :
      Next db db' (.refresh k seen) (.markNeedsReauth k seen reason)
  | persist {k : Uuid} {seen : Ciphertext} {tokens : TokenSet} (same : db' = db) :
      Next db db' (.refresh k seen) (.persist k seen tokens)

def Task.Sound : Task → Prop
  | .fail _ code => ¬ code.IsExpiry
  | _ => True

section Tasks

theorem Task.Next.sound {db db' : Database} {task next : Task}
    (h : Task.Next db db' task next) : next.Sound := by
  cases h with
  | refused h => exact h
  | failFinish h => exact h
  | _ => trivial

theorem taskProgram_spec (env : Env) (db : Database) {task : Task} (hs : task.Sound) :
    wp env (taskProgram task)
    (fun next t => task.Effect env db t.data ∧ ∀ n ∈ next, task.Next db t.data n)
    (fun _ t => task.Effect env db t.data) ⟨db, ()⟩ := by
  cases task with
  | takeCode a =>
    refine wp_mono takeCode_spec ?_ (fun _ _ h => h.elim)
    rintro next ⟨d, u⟩ ⟨rfl, hn⟩
    refine ⟨.quiet (fun _ _ h => by cases h) .refl, fun n hmem => ?_⟩
    obtain ⟨row, now, rfl⟩ := hn n hmem
    exact .swap
  | swapCode a row now =>
    refine wp_mono swapCode_spec ?_ (fun _ _ h => h.elim)
    rintro next ⟨d, u⟩ ⟨hq, hn⟩
    refine ⟨.quiet (fun _ _ h => by cases h) hq, fun n hmem => ?_⟩
    obtain ⟨rfl, found, spent⟩ := hn n hmem
    exact .exchange found spent
  | exchangeCode a row =>
    refine wp_mono exchangeCode_spec ?_ ?_
    · rintro next ⟨d, u⟩ ⟨rfl, hn⟩
      refine ⟨.quiet (fun _ _ h => by cases h) .refl, fun n hmem => ?_⟩
      rcases hn n hmem with ⟨code, rfl, hcode⟩ | ⟨claims, result, rfl⟩
      · exact .refused hcode
      · exact .finish
    · rintro e ⟨d, u⟩ rfl
      exact .quiet (fun _ _ h => by cases h) .refl
  | finishOk a userId claims result =>
    simp only [taskProgram, wp_handle, wp_bind, wp_pure]
    refine wp_mono (wp_atomic finishOk_spec) ?_ ?_
    · rintro - ⟨d, u⟩ (hq | ⟨c, hf⟩)
      · exact ⟨.quiet (fun _ _ h => by cases h) hq, forall_none⟩
      · exact ⟨.finished c hf, forall_none⟩
    · rintro e ⟨d, u⟩ ⟨hd, he⟩
      cases hd
      refine wp_mono (afterRollback_spec he) ?_ (fun _ _ h => h.elim)
      rintro next ⟨d, u⟩ ⟨rfl, hn⟩
      refine ⟨.quiet (fun _ _ h => by cases h) .refl, fun n hmem => ?_⟩
      obtain ⟨code, rfl, hcode⟩ := hn n hmem
      exact .failFinish hcode
  | fail a code =>
    simp only [taskProgram, wp_bind, wp_ask]
    refine wp_mono (markFailed_spec (E := fun _ _ => False) hs) ?_ (fun _ _ h => h.elim)
    exact fun _ _ hq => ⟨.quiet (fun _ _ h => by cases h) hq, forall_none⟩
  | readConnection k =>
    refine wp_mono readConnection_spec ?_ (fun _ _ h => h.elim)
    rintro next ⟨d, u⟩ ⟨rfl, hn⟩
    refine ⟨.quiet (fun _ _ h => by cases h) .refl, fun n hmem => ?_⟩
    obtain ⟨c, hc, rfl, active, rfl⟩ := hn n hmem
    exact .refresh hc active rfl
  | refresh k seen =>
    refine wp_mono refresh_spec ?_ ?_
    · rintro next ⟨d, u⟩ ⟨rfl, hn⟩
      refine ⟨.quiet (fun _ _ h => by cases h) .refl, fun n hmem => ?_⟩
      rcases hn n hmem with ⟨reason, rfl⟩ | ⟨tokens, rfl⟩
      · exact .mark rfl
      · exact .persist rfl
    · rintro e ⟨d, u⟩ rfl
      exact .quiet (fun _ _ h => by cases h) .refl
  | markNeedsReauth k seen reason =>
    simp only [taskProgram, wp_bind]
    refine wp_mono (markNeedsReauth_spec (E := fun _ _ => False)) ?_ (fun _ _ h => h.elim)
    exact fun _ _ hr => ⟨.marked hr, forall_none⟩
  | persist k seen tokens =>
    simp only [taskProgram, wp_bind]
    refine wp_mono (persist_spec (E := fun _ _ => False)) ?_ (fun _ _ h => h.elim)
    exact fun _ _ hr => ⟨.persisted hr, forall_none⟩

end Tasks

end ReviewFlow.GoogleReviews
