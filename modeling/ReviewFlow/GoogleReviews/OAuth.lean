import ReviewFlow.Interleaving
import ReviewFlow.RowLocks
import ReviewFlow.GoogleReviews.Effects

/-!
# Connect attempts in any interleaving

Tasks are delivered any number of times, move one part at a time and stop for good where
the process crashes.
-/

namespace ReviewFlow.GoogleReviews

open Savepoint Tables Program Interleaving

structure System where
  db : Database
  /-- All tasks so far. None is one that ended. -/
  threads : List (Option Task)

inductive Choice where
  | start (actor : Uuid) (state nonce : String) (env : Env)
  | complete (actor : Uuid) (code state : String) (env : Env)
  | getAttempt (actor attemptId : Uuid) (env : Env)
  | sweep (env : Env)
  | exchange (attemptId : Uuid)
  | refresh (connectionId : Uuid)
  | advance (i : ℕ) (env : Env)
  | crash (i : ℕ)

def Choice.env : Choice → Option Env
  | .start _ _ _ env | .complete _ _ _ env | .getAttempt _ _ env | .sweep env | .advance _ env =>
    some env
  | .exchange _ | .refresh _ | .crash _ => none

def execute {α : Type} (m : GoogleM α) (env : Env) (db : Database) : Database :=
  (m.run env ⟨db, ()⟩).2.data

def following : Except Error (Option Task) → Option Task
  | .ok next => next
  | .error _ => none

def System.step (s : System) : Choice → System
  | .start actor state nonce env =>
    { s with db := execute (beginGoogleOauth actor state nonce) env s.db }
  | .complete actor code state env =>
    { s with db := execute (completeGoogleOauth actor code state) env s.db }
  | .getAttempt actor attemptId env =>
    { s with db := execute (getOauthAttempt actor attemptId) env s.db }
  | .sweep env => { s with db := execute sweepOauthAttempts env s.db }
  | .exchange attemptId => { s with threads := s.threads ++ [some (.takeCode attemptId)] }
  | .refresh connectionId =>
    { s with threads := s.threads ++ [some (.readConnection connectionId)] }
  | .advance i env => match s.threads[i]? with
    | some (some task) =>
      let r := (taskProgram task).run env ⟨s.db, ()⟩
      ⟨r.2.data, s.threads.set i (following r.1)⟩
    | _ => s
  | .crash i => { s with threads := s.threads.set i none }

abbrev OAuthTransition := Transition System Choice

def Database.start (db : Database) : Database := { db with
  nextId := (db.attempts.rows.map GoogleOAuthState.id ++
    db.connections.rows.map GoogleConnection.id).foldr max 0 + 1
  drawn := (db.connections.rows.map (fun c => c.accessTokenEnc.nonce) ++
    db.connections.rows.map (fun c => c.refreshTokenEnc.nonce)).foldr max 0 + 1 }

def oauthRun (db : Database) (choices : List Choice) : List OAuthTransition :=
  trace System.step ⟨db.start, []⟩ choices

def Database.Checked (db : Database) : Prop := ∀ a ∈ db.attempts, a.Checks

structure Database.Fresh (db : Database) : Prop where
  attempts : ∀ a ∈ db.attempts, a.id < db.nextId
  connections : ∀ c ∈ db.connections, c.id < db.nextId
  access : ∀ c ∈ db.connections, c.accessTokenEnc.nonce < db.drawn
  refresh : ∀ c ∈ db.connections, c.refreshTokenEnc.nonce < db.drawn

def OAuthTransition.Advances (t : OAuthTransition) (i : ℕ) (env : Env) (task : Task) : Prop :=
  t.label = .advance i env ∧ t.before.threads[i]? = some (some task)

/-- `provider.exchange_code` is called with the code of the attempt. -/
def OAuthTransition.Exchanges (t : OAuthTransition) (a : Uuid) : Prop :=
  ∃ i env row, t.Advances i env (.exchangeCode a row) ∧ env.decrypt row.codeEnc ≠ none

def Task.attempt? : Task → Option Uuid
  | .takeCode a | .swapCode a _ _ | .exchangeCode a _ | .finishOk a _ _ _ | .fail a _ => some a
  | .readConnection _ | .refresh _ _ | .markNeedsReauth _ _ _ | .persist _ _ _ => none

def OAuthTransition.OnBehalf (t : OAuthTransition) (a : Uuid) : Prop :=
  ∃ i env task, t.Advances i env task ∧ task.attempt? = some a

def OAuthTransition.Completes (t : OAuthTransition) (a : Uuid) : Prop :=
  (∃ y ∈ t.after.db.attempts, y.id = a ∧ y.status = .completed) ∧
    ∀ x ∈ t.before.db.attempts, x.id = a → x.status ≠ .completed

structure OAuthTransition.Lifecycle (t : OAuthTransition) : Prop where
  absorbs : ∀ x ∈ t.before.db.attempts, x.status = .completed ∨ x.status = .failed →
    ∀ y ∈ t.after.db.attempts, y.id = x.id → y = x
  codes : ∀ y ∈ t.after.db.attempts, y.codeEnc ≠ none → y.status = .pending
  /-- A connection is written for an attempt exactly in the transaction that completes it. -/
  connects : ∀ a, (t.OnBehalf a ∧ t.after.db.connections ≠ t.before.db.connections) ↔ t.Completes a
  written : ∀ a, t.Completes a → ∃ c ∈ t.after.db.connections, c ∉ t.before.db.connections ∧
    (∀ d, d.id ≠ c.id → (d ∈ t.after.db.connections ↔ d ∈ t.before.db.connections)) ∧
    ∀ y ∈ t.after.db.attempts, y.id = a → y.googleConnectionId = some c.id
  /-- Once its code is taken, an attempt does not expire before the grace period. -/
  grace : ∀ x ∈ t.before.db.attempts, x.status = .pending → x.codeEnc = none →
    ∀ y ∈ t.after.db.attempts, y.id = x.id → ∀ code ∈ y.failureCode, code.IsExpiry →
      ∃ env, t.label.env = some env ∧ x.expiresAt + env.exchangeGrace ≤ env.now

section Steps

variable {db db' : Database} {s s' : System} {choice : Choice} {env : Env}

def System.Sound (s : System) : Prop :=
  ∀ (i : ℕ) (task : Task), s.threads[i]? = some (some task) → task.Sound

def System.Unmoved (s : System) (choice : Choice) : Prop :=
  ∀ i env task, choice = .advance i env → s.threads[i]? ≠ some (some task)

inductive System.Steps (s : System) (choice : Choice) : System → Prop where
  | idle (h : s.Unmoved choice) : Steps s choice s
  | request {env : Env} {db' : Database} (hunmoved : s.Unmoved choice)
    (henv : choice.env = some env)
      (h : Quiet env s.db db') : Steps s choice { s with db := db' }
  | spawned (task : Task) (hunmoved : s.Unmoved choice)
      (h : (∃ a, task = .takeCode a) ∨ ∃ k, task = .readConnection k) :
      Steps s choice { s with threads := s.threads ++ [some task] }
  | crashed (i : ℕ) (hunmoved : s.Unmoved choice) : Steps s choice
    { s with threads := s.threads.set i none }
  | advanced {i : ℕ} {env : Env} {task : Task} {db' : Database} {next : Option Task}
      (hchoice : choice = .advance i env) (htask : s.threads[i]? = some (some task))
      (heffect : task.Effect env s.db db') (hnext : ∀ n ∈ next, task.Next s.db db' n) :
      Steps s choice ⟨db', s.threads.set i next⟩

theorem execute_of_wp {α : Type} {m : GoogleM α} {P : Database → Prop}
    (h : wp env m (fun _ t => P t.data) (fun _ t => P t.data) ⟨db, ()⟩) : P (execute m env db) := by
  revert h
  unfold wp execute
  rcases m.run env ⟨db, ()⟩ with ⟨_ | _, _⟩ <;> exact id

theorem System.step_steps (hs : s.Sound) : s.Steps choice (s.step choice) := by
  cases choice with
  | start actor state nonce env =>
    refine .request (fun _ _ _ h => nomatch h) rfl
      (execute_of_wp (P := fun d => Quiet env s.db d) ?_)
    exact wp_mono (beginGoogleOauth_spec actor state nonce) (fun _ _ h => h)
      (fun _ _ h => h ▸ .refl)
  | complete actor code state env =>
    exact .request (fun _ _ _ h => nomatch h) rfl
      (execute_of_wp (P := fun d => Quiet env s.db d) (completeGoogleOauth_spec actor code state))
  | getAttempt actor attemptId env =>
    exact .request (fun _ _ _ h => nomatch h) rfl
      (execute_of_wp (P := fun d => Quiet env s.db d) (getOauthAttempt_spec actor attemptId))
  | sweep env =>
    refine .request (fun _ _ _ h => nomatch h) rfl
      (execute_of_wp (P := fun d => Quiet env s.db d) ?_)
    exact wp_mono sweepOauthAttempts_spec (fun _ _ h => h) (fun _ _ h => h ▸ .refl)
  | exchange attemptId => exact .spawned _ (fun _ _ _ h => nomatch h) (.inl ⟨_, rfl⟩)
  | refresh connectionId => exact .spawned _ (fun _ _ _ h => nomatch h) (.inr ⟨_, rfl⟩)
  | crash i => exact .crashed i (fun _ _ _ h => nomatch h)
  | advance i env =>
    simp only [step]
    split
    case h_2 hno =>
      refine .idle fun j env' task hj => ?_
      cases hj
      exact hno task
    case h_1 task htask =>
      have h := taskProgram_spec env s.db (hs i task htask)
      rw [wp_iff_run] at h
      rcases hrun : (taskProgram task).run env ⟨s.db, ()⟩ with ⟨e | next, t⟩
      · exact .advanced rfl htask (h.2 e t hrun) forall_none
      · exact .advanced rfl htask (h.1 next t hrun).1 (h.1 next t hrun).2

theorem GoogleOAuthState.completed_checks {x : GoogleOAuthState} {k : Uuid}
    {now : Time} (hx : x.Checks)
    (h : x.status = .pending) : (x.completed k now).Checks := by
  refine ⟨.inl rfl, ?_, fun _ => by simp [completed]⟩
  simpa [completed, h] using hx.failureCodeIffFailed

theorem Quiet.checked (h : Quiet env db db') (hc : db.Checked) : db'.Checked := by
  intro b hb
  rcases h.attempts b hb with ⟨a, ha, hm⟩ | ⟨-, -, hs, hcode, hfail⟩
  · exact hm.checks (hc a ha)
  · exact ⟨.inl hcode, by simp [hs, hfail], by simp [hs]⟩

theorem Quiet.fresh (h : Quiet env db db') (hf : db.Fresh) : db'.Fresh where
  attempts b hb := by
    rcases h.attempts b hb with ⟨a, ha, hm⟩ | ⟨hid, hlt, -⟩
    · exact hm.id ▸ (hf.attempts a ha).trans_le h.nextId
    · exact hid ▸ hlt
  connections c hc := (hf.connections c (h.connections ▸ hc)).trans_le h.nextId
  access c hc := (hf.access c (h.connections ▸ hc)).trans_le h.drawn
  refresh c hc := (hf.refresh c (h.connections ▸ hc)).trans_le h.drawn

theorem Finished.row {attemptId : Uuid} {result : ExchangeResult} {c : GoogleConnection}
    {y : GoogleOAuthState}
    (h : Finished env attemptId result c db db') (hy : y ∈ db'.attempts) :
    (∃ x ∈ db.attempts, x.id = attemptId ∧ x.status = .pending ∧ y = x.completed c.id env.now) ∨
      y ∈ db.attempts := by
  obtain ⟨x, hx, rfl⟩ := (h.attempts y).mp hy
  by_cases hc : completes attemptId x = true
  · rw [if_pos hc]
    obtain ⟨hid, hpending⟩ := completes_iff.mp hc
    exact .inl ⟨x, hx, hid, hpending, rfl⟩
  · rw [if_neg hc]
    exact .inr hx

theorem Finished.checked {attemptId : Uuid} {result : ExchangeResult} {c : GoogleConnection}
    (h : Finished env attemptId result c db db') (hc : db.Checked) : db'.Checked := by
  intro y hy
  rcases h.row hy with ⟨x, hx, -, hpending, rfl⟩ | hy
  · exact GoogleOAuthState.completed_checks (hc x hx) hpending
  · exact hc y hy

theorem Upserted.drawn {result : ExchangeResult} {c : GoogleConnection}
    (h : Upserted env result c db db') :
    db.drawn ≤ db'.drawn := le_of_lt (h.access.1.trans_lt h.access.2)

theorem Upserted.id_lt {result : ExchangeResult} {c : GoogleConnection}
    (h : Upserted env result c db db')
    (hf : db.Fresh) : c.id < db'.nextId := by
  cases h.origin with
  | created new next => exact new ▸ next
  | renewed e he id => exact id ▸ (hf.connections e he).trans_le h.nextId
  | kept e he id => exact id ▸ (hf.connections e he).trans_le h.nextId

theorem Upserted.refresh_lt {result : ExchangeResult} {c : GoogleConnection}
    (h : Upserted env result c db db')
    (hf : db.Fresh) : c.refreshTokenEnc.nonce < db'.drawn := by
  cases h.origin with
  | created _ _ drawn => exact drawn.2
  | renewed e _ _ _ drawn => exact drawn.2
  | kept e he _ _ same => exact same ▸ (hf.refresh e he).trans_le h.drawn

theorem Upserted.not_mem {result : ExchangeResult} {c : GoogleConnection}
    (h : Upserted env result c db db')
    (hf : db.Fresh) : c ∉ db.connections := by
  intro hc
  have := hf.access c hc
  have := h.access.1
  omega

theorem Finished.fresh {attemptId : Uuid} {result : ExchangeResult} {c : GoogleConnection}
    (h : Finished env attemptId result c db db') (hf : db.Fresh) : db'.Fresh := by
  have hu := h.upserted
  have hone : ∀ d ∈ db'.connections, d = c ∨ d ∈ db.connections := by
    intro d hd
    by_cases hid : d.id = c.id
    · exact .inl (connections_eq hd hu.mem hid)
    · exact .inr ((hu.others d hid).mp hd)
  refine ⟨fun y hy => ?_, fun d hd => ?_, fun d hd => ?_, fun d hd => ?_⟩
  · rcases h.row hy with ⟨x, hx, -, -, rfl⟩ | hy
    · exact (hf.attempts x hx).trans_le hu.nextId
    · exact (hf.attempts y hy).trans_le hu.nextId
  · rcases hone d hd with rfl | hd
    · exact hu.id_lt hf
    · exact (hf.connections d hd).trans_le hu.nextId
  · rcases hone d hd with rfl | hd
    · exact hu.access.2
    · exact (hf.access d hd).trans_le hu.drawn
  · rcases hone d hd with rfl | hd
    · exact hu.refresh_lt hf
    · exact (hf.refresh d hd).trans_le hu.drawn

theorem TokenWrite.fresh {lo hi : ℕ} {c d : GoogleConnection}
    (h : TokenWrite lo hi c d) (hle : lo ≤ hi)
    (access : c.accessTokenEnc.nonce < lo) (refresh : c.refreshTokenEnc.nonce < lo) :
    d.id = c.id ∧ d.accessTokenEnc.nonce < hi ∧ d.refreshTokenEnc.nonce < hi := by
  cases h with
  | marked => exact ⟨rfl, access.trans_le hle, refresh.trans_le hle⟩
  | stored _ _ drawn => exact ⟨rfl, drawn.2, refresh.trans_le hle⟩
  | rotated _ _ _ drawn drawn' => exact ⟨rfl, drawn.2, drawn'.2⟩

theorem Refreshed.fresh {k : Uuid} {seen : Ciphertext}
    (h : Refreshed k seen db db') (hf : db.Fresh) :
    db'.Fresh := by
  have hrow : ∀ d ∈ db'.connections, ∃ c ∈ db.connections,
      d.id = c.id ∧ d.accessTokenEnc.nonce < db'.drawn ∧ d.refreshTokenEnc.nonce < db'.drawn := by
    intro d hd
    obtain ⟨c, hc, hcd⟩ := h.connections d hd
    refine ⟨c, hc, ?_⟩
    split at hcd
    · exact hcd.fresh h.drawn (hf.access c hc) (hf.refresh c hc)
    · rw [hcd]
      exact ⟨rfl, (hf.access c hc).trans_le h.drawn, (hf.refresh c hc).trans_le h.drawn⟩
  refine ⟨fun a ha => ?_, fun d hd => ?_, fun d hd => ?_, fun d hd => ?_⟩
  · exact h.nextId ▸ hf.attempts a (h.attempts ▸ ha)
  · obtain ⟨c, hc, hid, -, -⟩ := hrow d hd
    exact h.nextId ▸ hid ▸ hf.connections c hc
  · obtain ⟨c, hc, -, hlt, -⟩ := hrow d hd
    exact hlt
  · obtain ⟨c, hc, -, -, hlt⟩ := hrow d hd
    exact hlt

theorem Task.Effect.keeps {task : Task} (h : task.Effect env db db')
    (hc : db.Checked) (hf : db.Fresh) :
    db'.Checked ∧ db'.Fresh := by
  cases h with
  | quiet _ h => exact ⟨h.checked hc, h.fresh hf⟩
  | finished c h => exact ⟨h.checked hc, h.fresh hf⟩
  | marked h => exact ⟨fun a ha => hc a (h.attempts ▸ ha), h.fresh hf⟩
  | persisted h => exact ⟨fun a ha => hc a (h.attempts ▸ ha), h.fresh hf⟩

structure System.Wf (s : System) : Prop where
  checked : s.db.Checked
  fresh : s.db.Fresh
  sound : s.Sound

theorem System.Steps.wf (h : s.Steps choice s') (hs : s.Wf) : s'.Wf := by
  cases h with
  | idle => exact hs
  | request _ _ h => exact ⟨h.checked hs.checked, h.fresh hs.fresh, hs.sound⟩
  | spawned task _ h =>
    refine ⟨hs.checked, hs.fresh, fun i u hu => ?_⟩
    rcases RowLocks.getElem?_append_singleton hu with hu | hu
    · exact hs.sound i u hu
    · cases hu
      rcases h with ⟨a, rfl⟩ | ⟨k, rfl⟩ <;> trivial
  | crashed i =>
    refine ⟨hs.checked, hs.fresh, fun j u hu => ?_⟩
    rcases RowLocks.getElem?_set_cases hu with ⟨-, hn⟩ | ⟨-, hu⟩
    · cases hn
    · exact hs.sound j u hu
  | advanced _ _ heffect hnext =>
    obtain ⟨checked, fresh⟩ := heffect.keeps hs.checked hs.fresh
    refine ⟨checked, fresh, fun j u hu => ?_⟩
    rcases RowLocks.getElem?_set_cases hu with ⟨-, hn⟩ | ⟨-, hu⟩
    · exact (hnext u hn.symm).sound
    · exact hs.sound j u hu

theorem start_wf (hc : db.Checked) : System.Wf ⟨db.start, []⟩ where
  checked := hc
  fresh := by
    refine ⟨fun a ha => ?_, fun c hc => ?_, fun c hc => ?_, fun c hc => ?_⟩
    · exact Nat.lt_succ_of_le (le_foldr_max (List.mem_append_left _ (List.mem_map_of_mem ha)))
    · exact Nat.lt_succ_of_le (le_foldr_max (List.mem_append_right _ (List.mem_map_of_mem hc)))
    · exact Nat.lt_succ_of_le
        (le_foldr_max (List.mem_append_left _ (List.mem_map.mpr ⟨c, hc, rfl⟩)))
    · exact Nat.lt_succ_of_le
        (le_foldr_max (List.mem_append_right _ (List.mem_map.mpr ⟨c, hc, rfl⟩)))
  sound i task h := by simp at h

end Steps

section Lifecycle

variable {db db' : Database} {s s' : System} {choice : Choice} {env : Env} {x y : GoogleOAuthState}

inductive Evolves (env : Env) (x y : GoogleOAuthState) : Prop where
  | moves (h : x.Moves env y)
  | completed (c : GoogleConnection) (h : x.status = .pending) (row : y = x.completed c.id env.now)

theorem Evolves.absorbs (h : Evolves env x y)
    (hx : x.status = .completed ∨ x.status = .failed) : y = x := by
  cases h with
  | moves h => exact h.absorbs hx
  | completed _ h => simp [h] at hx

theorem Evolves.unspent (h : Evolves env x y) (hy : y.Unspent) : x.Unspent := by
  cases h with
  | moves h => exact h.unspent hy
  | completed c h row =>
    rw [row] at hy
    simp [GoogleOAuthState.Unspent, GoogleOAuthState.completed] at hy

theorem Evolves.grace (h : Evolves env x y) (hc : x.Checks) (hx : x.status = .pending)
    (hcode : x.codeEnc = none)
    {code : FailureCode} (hy : y.failureCode = some code) (he : code.IsExpiry) :
    x.expiresAt + env.exchangeGrace ≤ env.now := by
  have hnone : x.failureCode = none := by
    by_contra hne
    have := hc.failureCodeIffFailed.mpr hne
    simp [hx] at this
  cases h with
  | moves h =>
    cases h with
    | same => simp [hnone] at hy
    | claimed => simp [hnone] at hy
    | taken => simp [hnone] at hy
    | expired h => simp [hx, hcode] at h
    | interrupted _ _ late => exact late
    | failed code' _ hno =>
      cases hy
      exact absurd he hno
  | completed c _ row => simp [row, GoogleOAuthState.completed, hnone] at hy

/-- Every row of the tables after a part is new, or one of the rows before. -/
theorem Task.Effect.row {task : Task} (h : task.Effect env db db') (hy : y ∈ db'.attempts) :
    (∃ x ∈ db.attempts, x.id = y.id ∧ Evolves env x y) ∨ db.nextId = y.id ∧ y.status = .issued := by
  cases h with
  | quiet _ h =>
    rcases h.attempts y hy with ⟨x, hx, hm⟩ | ⟨hid, -, hs, -, -⟩
    · exact .inl ⟨x, hx, hm.id.symm, .moves hm⟩
    · exact .inr ⟨hid, hs⟩
  | finished c h =>
    rcases h.row hy with ⟨x, hx, -, hp, rfl⟩ | hy
    · exact .inl ⟨x, hx, rfl, .completed c hp rfl⟩
    · exact .inl ⟨y, hy, rfl, .moves .same⟩
  | marked h => exact .inl ⟨y, h.attempts ▸ hy, rfl, .moves .same⟩
  | persisted h => exact .inl ⟨y, h.attempts ▸ hy, rfl, .moves .same⟩

theorem System.Steps.row (h : s.Steps choice s') (hy : y ∈ s'.db.attempts) : y ∈ s.db.attempts ∨
    (∃ env, choice.env = some env ∧ ∃ x ∈ s.db.attempts, x.id = y.id ∧ Evolves env x y) ∨
    s.db.nextId = y.id ∧ y.status = .issued := by
  cases h with
  | idle => exact .inl hy
  | spawned => exact .inl hy
  | crashed => exact .inl hy
  | request _ henv h =>
    have he : (Task.takeCode 0).Effect _ s.db _ := .quiet (fun _ _ h => by cases h) h
    rcases he.row hy with hx | hnew
    · exact .inr (.inl ⟨_, henv, hx⟩)
    · exact .inr (.inr hnew)
  | advanced hchoice _ heffect =>
    rcases heffect.row hy with hx | hnew
    · exact .inr (.inl ⟨_, hchoice ▸ rfl, hx⟩)
    · exact .inr (.inr hnew)

/-- The row with the key of an earlier row is that row, or what became of it. -/
theorem System.Steps.evolves (h : s.Steps choice s') (hs : s.Wf) (hx : x ∈ s.db.attempts)
    (hy : y ∈ s'.db.attempts) (hid : y.id = x.id) :
    y = x ∨ ∃ env, choice.env = some env ∧ Evolves env x y := by
  rcases h.row hy with hy | ⟨env, henv, x', hx', hid', he⟩ | ⟨hnew, -⟩
  · exact .inl (attempts_eq hy hx hid)
  · exact .inr ⟨env, henv, attempts_eq hx' hx (hid'.trans hid) ▸ he⟩
  · exact ((hs.fresh.attempts x hx).ne (hnew.trans hid).symm).elim

theorem GoogleOAuthState.Moves.completed (h : x.Moves env y)
    (hy : y.status = .completed) : y = x := by
  cases h with
  | same => rfl
  | taken h => simp [h] at hy
  | _ => simp at hy

theorem Quiet.not_completes (h : Quiet env s.db s'.db) (a : Uuid) :
    ¬ OAuthTransition.Completes ⟨s, choice, s'⟩ a := by
  rintro ⟨⟨y, hy, hid, hc⟩, hno⟩
  rcases h.attempts y hy with ⟨x, hx, hm⟩ | ⟨-, -, hs, -, -⟩
  · cases hm.completed hc
    exact hno y hx hid hc
  · simp [hc] at hs

theorem not_completes_of_attempts (h : s'.db.attempts = s.db.attempts) (a : Uuid) :
    ¬ OAuthTransition.Completes ⟨s, choice, s'⟩ a := by
  rintro ⟨⟨y, hy, hid, hc⟩, hno⟩
  exact hno y (h ▸ hy) hid hc

theorem Finished.completes {a : Uuid} {result : ExchangeResult} {c : GoogleConnection}
    (h : Finished env a result c s.db s'.db) : OAuthTransition.Completes ⟨s, choice, s'⟩ a := by
  obtain ⟨x, hx, hid, hpending⟩ := h.pending
  refine ⟨⟨x.completed c.id env.now, ?_, hid, rfl⟩, fun x' hx' hid' hc => ?_⟩
  · exact (h.attempts _).mpr ⟨x, hx, if_pos (completes_iff.mpr ⟨hid, hpending⟩)⟩
  · rw [attempts_eq hx' hx (hid'.trans hid.symm), hpending] at hc
    cases hc

theorem Finished.only {a b : Uuid} {result : ExchangeResult} {c : GoogleConnection}
    (h : Finished env a result c s.db s'.db)
    (hb : OAuthTransition.Completes ⟨s, choice, s'⟩ b) : b = a := by
  obtain ⟨⟨y, hy, hid, hc⟩, hno⟩ := hb
  rcases h.row hy with ⟨x, hx, hx', -, rfl⟩ | hy
  · exact hid.symm.trans hx'
  · exact absurd hc (hno y hy hid)

theorem System.Steps.finished (h : s.Steps choice s') (a : Uuid)
    (ha : OAuthTransition.Completes ⟨s, choice, s'⟩ a ∨
      OAuthTransition.OnBehalf ⟨s, choice, s'⟩ a ∧ s'.db.connections ≠ s.db.connections) :
    ∃ (i : ℕ) (env : Env) (userId : Uuid) (claims : Identity) (result : ExchangeResult)
    (c : GoogleConnection),
      OAuthTransition.Advances ⟨s, choice, s'⟩ i env (.finishOk a userId claims result) ∧
        Finished env a result c s.db s'.db := by
  have hsame : s'.db ≠ s.db := by
    intro heq
    rcases ha with hc | hb
    · exact not_completes_of_attempts (congrArg _ heq) a hc
    · exact hb.2 (congrArg _ heq)
  cases h with
  | idle => exact absurd rfl hsame
  | spawned => exact absurd rfl hsame
  | crashed => exact absurd rfl hsame
  | request _ _ h =>
    exact ha.elim (fun hc => (h.not_completes a hc).elim) (fun hb => (hb.2 h.connections).elim)
  | @advanced i env task db' next hchoice htask heffect hnext =>
    subst hchoice
    have same : ∀ {j env' u b},
      OAuthTransition.Advances ⟨s, .advance i env, ⟨db', s.threads.set i next⟩⟩ j env' u →
        u.attempt? = some b → task.attempt? = some b := by
      rintro j env' u b ⟨hl, hu⟩ hb
      cases hl
      rw [htask] at hu
      cases hu
      exact hb
    cases heffect with
    | quiet _ h =>
      exact ha.elim (fun hc => (h.not_completes a hc).elim) (fun hb => (hb.2 h.connections).elim)
    | finished c hf =>
      have hb : _ = a := ha.elim (fun hc => (hf.only hc).symm) fun ⟨⟨j, env', u, hadv, hu⟩, _⟩ =>
        Option.some.inj (same hadv hu)
      subst hb
      exact ⟨i, env, _, _, _, c, ⟨rfl, htask⟩, hf⟩
    | marked h =>
      exact ha.elim (fun hc => (not_completes_of_attempts h.attempts a hc).elim)
        fun ⟨⟨j, env', u, hadv, hu⟩, _⟩ => nomatch same hadv hu
    | persisted h =>
      exact ha.elim (fun hc => (not_completes_of_attempts h.attempts a hc).elim)
        fun ⟨⟨j, env', u, hadv, hu⟩, _⟩ => nomatch same hadv hu

theorem System.Steps.lifecycle (h : s.Steps choice s') (hs : s.Wf) :
    OAuthTransition.Lifecycle ⟨s, choice, s'⟩ where
  absorbs x hx hterminal y hy hid := by
    rcases h.evolves hs hx hy hid with rfl | ⟨env, -, he⟩
    · rfl
    · exact he.absorbs hterminal
  codes y hy hcode := ((h.wf hs).checked y hy).codeOnlyPending.resolve_left hcode
  connects a := by
    constructor
    · intro hb
      obtain ⟨i, env, u, cl, r, c, -, hf⟩ := h.finished a (.inr hb)
      exact hf.completes
    · intro hc
      obtain ⟨i, env, u, cl, r, c, hadv, hf⟩ := h.finished a (.inl hc)
      refine ⟨⟨i, env, _, hadv, rfl⟩, fun heq => ?_⟩
      exact hf.upserted.not_mem hs.fresh (heq ▸ hf.upserted.mem)
  written a hc := by
    obtain ⟨i, env, u, cl, r, c, -, hf⟩ := h.finished a (.inl hc)
    refine ⟨c, hf.upserted.mem, hf.upserted.not_mem hs.fresh, hf.upserted.others,
      fun y hy hid => ?_⟩
    obtain ⟨x, hx, hxid, hpending⟩ := hf.pending
    obtain ⟨x', hx', rfl⟩ := (hf.attempts y).mp hy
    have hkey : x'.id = a := by
      split at hid <;> exact hid
    rw [attempts_eq hx' hx (hkey.trans hxid.symm), if_pos (completes_iff.mpr ⟨hxid, hpending⟩)]
    rfl
  grace x hx hpending hcode y hy hid code hy' he := by
    rcases h.evolves hs hx hy hid with rfl | ⟨env, henv, hev⟩
    · have := (hs.checked y hx).failureCodeIffFailed.mpr (by rw [Option.mem_def.mp hy']; simp)
      simp [hpending] at this
    · exact ⟨env, henv, hev.grace (hs.checked x hx) hpending hcode hy' he⟩

end Lifecycle

section Once

variable {s s' : System} {choice : Choice} {h : List OAuthTransition} {i k : ℕ} {row : TakenCode}

/-- The attempt is not new, and its code is neither stored nor still to come. -/
def System.Spent (s : System) (k : Uuid) : Prop :=
  k < s.db.nextId ∧ ∀ a ∈ s.db.attempts, a.id = k → ¬ a.Unspent

def System.Holds (s : System) (i : ℕ) (k : Uuid) : Prop :=
  ∃ row, s.threads[i]? = some (some (.exchangeCode k row))

theorem Task.Effect.nextId {env : Env} {db db' : Database} {task : Task}
    (h : task.Effect env db db') :
    db.nextId ≤ db'.nextId := by
  cases h with
  | quiet _ h => exact h.nextId
  | finished c h => exact h.upserted.nextId
  | marked h => exact h.nextId.ge
  | persisted h => exact h.nextId.ge

theorem System.Steps.nextId (hstep : s.Steps choice s') : s.db.nextId ≤ s'.db.nextId := by
  cases hstep with
  | request _ _ h => exact h.nextId
  | advanced _ _ heffect => exact heffect.nextId
  | _ => exact le_refl _

theorem Task.Effect.drawn {env : Env} {db db' : Database} {task : Task}
    (h : task.Effect env db db') :
    db.drawn ≤ db'.drawn := by
  cases h with
  | quiet _ h => exact h.drawn
  | finished c h => exact h.upserted.drawn
  | marked h => exact h.drawn
  | persisted h => exact h.drawn

theorem System.Steps.drawn (hstep : s.Steps choice s') : s.db.drawn ≤ s'.db.drawn := by
  cases hstep with
  | request _ _ h => exact h.drawn
  | advanced _ _ heffect => exact heffect.drawn
  | _ => exact le_refl _

theorem System.Steps.spent (hstep : s.Steps choice s') (hk : s.Spent k) : s'.Spent k := by
  refine ⟨hk.1.trans_le hstep.nextId, fun y hy hid hun => ?_⟩
  rcases hstep.row hy with hy | ⟨env, -, x, hx, hxid, he⟩ | ⟨hnew, -⟩
  · exact hk.2 y hy hid hun
  · exact hk.2 x hx (hxid.trans hid) (he.unspent hun)
  · exact hk.1.ne (hid.symm.trans hnew.symm)

theorem System.Steps.holds (hstep : s.Steps choice s') (hi : s'.Holds i k) :
    (s.Holds i k ∧ ∀ env, ∀ task, choice = .advance i env → s.threads[i]? ≠ some (some task)) ∨
    (∃ env, choice = .advance i env) ∧ (∃ a ∈ s.db.attempts, a.id = k ∧ a.Unspent) ∧
      ∀ b ∈ s'.db.attempts, b.id = k → ¬ b.Unspent := by
  obtain ⟨row, hrow⟩ := hi
  cases hstep with
  | idle hunmoved => exact .inl ⟨⟨row, hrow⟩, hunmoved i⟩
  | request hunmoved => exact .inl ⟨⟨row, hrow⟩, hunmoved i⟩
  | spawned task hunmoved htask =>
    refine .inl ⟨⟨row, ?_⟩, hunmoved i⟩
    rcases RowLocks.getElem?_append_singleton hrow with h | h
    · exact h
    · rcases htask with ⟨a, rfl⟩ | ⟨c, rfl⟩ <;> cases h
  | crashed j hunmoved =>
    refine .inl ⟨⟨row, ?_⟩, hunmoved i⟩
    rcases RowLocks.getElem?_set_cases hrow with ⟨-, h⟩ | ⟨-, h⟩
    · cases h
    · exact h
  | advanced hchoice htask heffect hnext =>
    rcases RowLocks.getElem?_set_cases hrow with ⟨rfl, h⟩ | ⟨hne, h⟩
    · have hn := hnext _ h.symm
      cases hn with
      | exchange found spent => exact .inr ⟨⟨_, hchoice⟩, found, spent⟩
    · refine .inl ⟨⟨row, h⟩, fun env' task' heq => ?_⟩
      rw [hchoice] at heq
      cases heq
      exact absurd rfl hne

theorem exchanges_holds {s s' : System} (he : OAuthTransition.Exchanges ⟨s, choice, s'⟩ k) :
    ∃ i env task, s.Holds i k ∧ choice = .advance i env ∧ s.threads[i]? = some (some task) := by
  obtain ⟨i, env, row, ⟨hl, ht⟩, -⟩ := he
  exact ⟨i, env, _, ⟨row, ht⟩, hl, ht⟩

structure TakenOnce (h : List OAuthTransition) (s : System) : Prop where
  held : ∀ i k, s.Holds i k → s.Spent k ∧ ∀ t ∈ h, ¬ t.Exchanges k
  alone : ∀ i j k, s.Holds i k → s.Holds j k → i = j
  sent : ∀ t ∈ h, ∀ k, t.Exchanges k → s.Spent k
  once : h.Pairwise fun t u => ∀ k, ¬ (t.Exchanges k ∧ u.Exchanges k)

theorem System.Spent.not_unspent (hk : s.Spent k) : ¬ ∃ a ∈ s.db.attempts, a.id = k ∧ a.Unspent :=
  fun ⟨a, ha, hid, hun⟩ => hk.2 a ha hid hun

theorem TakenOnce.step (ht : TakenOnce h s) (hs : s.Wf) (hstep : s.Steps choice s') :
    TakenOnce (h ++ [⟨s, choice, s'⟩]) s' := by
  have sends : ∀ {k}, OAuthTransition.Exchanges ⟨s, choice, s'⟩ k → s.Spent k := by
    intro k he
    obtain ⟨i, -, -, hi, -⟩ := exchanges_holds he
    exact (ht.held i k hi).1
  refine ⟨fun i k hi => ?_, fun i j k hi hj => ?_, fun t htm k he => ?_, ?_⟩
  · rcases hstep.holds hi with ⟨hold, hstill⟩ | ⟨-, found, spent⟩
    · obtain ⟨hspent, hnot⟩ := ht.held i k hold
      refine ⟨hstep.spent hspent, fun t htm he => ?_⟩
      rcases List.mem_append.mp htm with htm | htm
      · exact hnot t htm he
      · cases List.mem_singleton.mp htm
        obtain ⟨j, env, task, hj, hl, htask⟩ := exchanges_holds he
        cases ht.alone i j k hold hj
        exact hstill env task hl htask
    · have hnot : ¬ s.Spent k := fun hk => hk.not_unspent found
      obtain ⟨a, ha, hid, -⟩ := found
      refine ⟨⟨hid ▸ (hs.fresh.attempts a ha).trans_le hstep.nextId, spent⟩, fun t htm he => ?_⟩
      rcases List.mem_append.mp htm with htm | htm
      · exact hnot (ht.sent t htm k he)
      · cases List.mem_singleton.mp htm
        exact hnot (sends he)
  · rcases hstep.holds hi with ⟨hi, -⟩ | ⟨⟨env, hc⟩, found, -⟩ <;>
      rcases hstep.holds hj with ⟨hj, -⟩ | ⟨⟨env', hc'⟩, found', -⟩
    · exact ht.alone i j k hi hj
    · exact absurd found' (ht.held i k hi).1.not_unspent
    · exact absurd found (ht.held j k hj).1.not_unspent
    · cases hc.symm.trans hc'
      rfl
  · rcases List.mem_append.mp htm with htm | htm
    · exact hstep.spent (ht.sent t htm k he)
    · cases List.mem_singleton.mp htm
      exact hstep.spent (sends he)
  · refine List.pairwise_append.mpr
      ⟨ht.once, List.pairwise_singleton _ _, fun t htm u hu k ⟨he, he'⟩ => ?_⟩
    cases List.mem_singleton.mp hu
    obtain ⟨i, -, -, hi, -⟩ := exchanges_holds he'
    exact (ht.held i k hi).2 t htm he

end Once

theorem oauthRun_wf {db : Database} {choices : List Choice} (hdb : db.Checked) :
    ∀ t ∈ oauthRun db choices, t.before.Wf :=
  reachable_invariant (start_wf hdb) fun _ _ hs => (System.step_steps hs.sound).wf hs

/-- In any interleaving a code is sent once at most, and every step keeps the life cycle of
the attempts. -/
theorem oauth_attempt_lifecycle (db : Database) (choices : List Choice) (hdb : db.Checked) :
    (oauthRun db choices).Pairwise (fun t u => ∀ a, ¬ (t.Exchanges a ∧ u.Exchanges a)) ∧
      ∀ t ∈ oauthRun db choices, t.Lifecycle := by
  constructor
  · have hrun : System.Wf (run System.step ⟨db.start, []⟩ choices) ∧
        TakenOnce ([] ++ oauthRun db choices) (run System.step ⟨db.start, []⟩ choices) := by
      refine trace_history (P := fun h s => s.Wf ∧ TakenOnce h s) (C := fun _ _ => True)
        ⟨start_wf hdb, ?_⟩ ?_ (MeetsFrom.of_forall (fun _ _ => trivial) _)
      · exact ⟨fun i k ⟨_, hi⟩ => by simp at hi, fun i j k ⟨_, hi⟩ => by simp at hi,
          fun _ ht => (nomatch ht), .nil⟩
      · intro h s choice ⟨hs, ht⟩ _
        have hstep : s.Steps choice (s.step choice) := System.step_steps hs.sound
        exact ⟨hstep.wf hs, ht.step hs hstep⟩
    exact hrun.2.once
  · intro t ht
    have hs := oauthRun_wf hdb t ht
    rw [trace_step ht]
    exact (System.step_steps hs.sound).lifecycle hs

def granting (now : Time) (refreshToken : Option String) : Env where
  now := now
  enabled := true
  exchangeGrace := 60
  attemptRetention := 1000
  stateMaxAge := 600
  refreshMargin := 100
  hash := fun text => text ++ "'"
  decrypt := fun c => some c.text
  exchangeCode := fun _ => .ok ⟨"access", refreshToken, now + 50, [businessScope], some "token"⟩
  verifyIdToken := fun _ => .ok ⟨some "sub", some "owner", some "n"⟩
  refresh := fun _ => .ok ⟨"refreshed", none, now + 50⟩
  member := true
  recordsMember := true
  raced := false

def noTables : Database := ⟨Table.empty, Table.empty, [], 0, 0⟩

/-- Two deliveries of one exchange, the second between the take and the call of the first. -/
def connecting : List Choice :=
  [.start 5 "s" "n" (granting 10 none), .complete 5 "code" "s" (granting 20 none),
    .exchange 1, .exchange 1,
    .advance 0 (granting 30 none), .advance 0 (granting 30 none), .advance 1 (granting 31 none),
    .advance 0 (granting 32 (some "refresh")), .advance 0 (granting 33 none)]

example : ((run System.step ⟨noTables.start, []⟩ connecting).db.attempts.rows.map fun a =>
    (a.status, a.googleConnectionId)) = [(.completed, some 2)] := by decide

theorem oauth_attempt_lifecycle_connecting :
    (oauthRun noTables connecting).Pairwise (fun t u => ∀ a, ¬ (t.Exchanges a ∧ u.Exchanges a)) ∧
      ∀ t ∈ oauthRun noTables connecting, t.Lifecycle :=
  oauth_attempt_lifecycle noTables connecting fun _ ha => nomatch ha

end ReviewFlow.GoogleReviews
