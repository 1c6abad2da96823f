import ReviewFlow.Interleaving
import ReviewFlow.Billing.TaskSteps

/-!
# The runs of one merchant's billing

Background operations run as threads, one step at a time, in any order. A request
holds the row lock from its first read to its commit, so it is one step: other
transactions that lock the row wait for it, and reads that do not lock see the row
as it was before. A choice brings the provider's answers, the clock, the settings
and the other merchants' unique values with it.
-/

namespace ReviewFlow.Billing

open Savepoint Interleaving

inductive OwnerRequest where
  | checkout (actor planId : ℕ) (acknowledged : Bool)
  | cancel (actor : ℕ)
  | cancelReplacement (actor : ℕ)
  deriving DecidableEq

def discard {α : Type} (m : Prog α) : Prog Unit := do
  let _ ← m
  pure ()

def OwnerRequest.program : OwnerRequest → Prog Unit
  | .checkout actor planId acknowledged => discard (startCheckout actor planId acknowledged)
  | .cancel actor => discard (cancelSubscription actor)
  | .cancelReplacement actor => discard (Billing.cancelReplacement actor)

inductive Job where
  | sync
  | dunning
  | webhook (ref : Ref) (eventId eventType : String)

/-- The steps of `sync_subscription` run one after the other, also when one raises. -/
def Job.tasks : Job → List Task
  | .sync => [.replacementRead, .mainRead, .retiredRead]
  | .dunning => [.dunning]
  | .webhook ref eventId eventType => [.webhookLookup ref eventId eventType]

structure Thread where
  todo : List Task
  journal : Journal

structure System where
  db : Database
  threads : List Thread

/-- A request commits, also when it raises a domain error, unless its process dies. -/
inductive Choice where
  | spawn (job : Job)
  | advance (thread : ℕ) (env : Env)
  | crash (thread : ℕ)
  | request (request : OwnerRequest) (env : Env) (commits : Bool)

/-- What is left to do after a step: a step that raises ends its task. -/
def remaining (next : Except Error (Option Task)) (rest : List Task) : List Task :=
  match next with
  | .ok (some task) => task :: rest
  | _ => rest

def Thread.advance (thread : Thread) (db : Database) (env : Env) : Option (State × Thread) :=
  match thread.todo with
  | [] => none
  | task :: rest =>
    let out := task.step.run env ⟨db, thread.journal⟩
    some (out.2, ⟨remaining out.1 rest, out.2.journal⟩)

def OwnerRequest.run (request : OwnerRequest) (db : Database) (env : Env) :
    Except Error Unit × State :=
  request.program.run env ⟨db, Journal.empty⟩

def System.advance (sys : System) (i : ℕ) (env : Env) : Option (State × Thread) :=
  sys.threads[i]?.bind fun thread => thread.advance sys.db env

def System.step (sys : System) : Choice → System
  | .spawn job => { sys with threads := sys.threads ++ [⟨job.tasks, Journal.empty⟩] }
  | .advance i env => match sys.advance i env with
    | some (state, thread) => ⟨state.data, sys.threads.set i thread⟩
    | none => sys
  | .crash i => { sys with threads := sys.threads.set i ⟨[], Journal.empty⟩ }
  | .request request env commits =>
    { sys with db := if commits then (request.run sys.db env).2.data else sys.db }

/-- What the provider has answered to the operation that took the step, the step included. -/
def System.calls (sys : System) : Choice → List Call
  | .spawn _ | .crash _ => []
  | .advance i env => ((sys.advance i env).map fun p => p.1.journal.calls).getD []
  | .request request env _ => (request.run sys.db env).2.journal.calls

def System.stepCalls (sys : System) (choice : Choice) : List Call :=
  match choice with
  | .advance i _ =>
    (sys.calls choice).drop
      (((sys.threads[i]?).map fun thread => thread.journal.calls.length).getD 0)
  | _ => sys.calls choice

abbrev Transition := Interleaving.Transition System Choice

def Transition.calls (t : Transition) : List Call := t.before.calls t.label

def Transition.stepCalls (t : Transition) : List Call := t.before.stepCalls t.label

/-- A run from a given database, with no operation under way. -/
def runFrom (db : Database) (choices : List Choice) : List Transition :=
  trace System.step ⟨db, []⟩ choices

def System.Sound (sys : System) : Prop :=
  ∀ thread ∈ sys.threads, ∀ task ∈ thread.todo, task.Sound thread.journal.calls

theorem Job.tasks_sound (job : Job) (calls : List Call) : ∀ task ∈ job.tasks, task.Sound calls := by
  cases job <;> simp [Job.tasks, Task.Sound]

theorem discard_wp {α : Type} {m : Prog α} {env : Env} {s : State} {Q : State → Prop}
    (h : Program.wp env m (fun _ t => Q t) (fun _ t => Q t) s) :
    Program.wp env (discard m) (fun _ t => Q t) (fun _ t => Q t) s :=
  Program.wp_bind_of h (fun _ _ h => h) (fun _ _ h => h)

theorem OwnerRequest.program_spec {request : OwnerRequest} {env : Env} {s : State} :
    Program.wp env request.program (fun _ t => Course t.journal.calls s.data t.data)
      (fun _ t => Course t.journal.calls s.data t.data) s := by
  cases request with
  | checkout actor planId acknowledged =>
    exact discard_wp (Program.wp_mono startCheckout_spec (fun _ _ h => h.course)
      (fun _ _ h => h.course))
  | cancel actor =>
    exact discard_wp (Program.wp_mono cancelSubscription_spec (fun _ _ h => h.course)
      (fun _ _ h => h.course))
  | cancelReplacement actor =>
    exact discard_wp (Program.wp_mono cancelReplacement_spec (fun _ _ h => .of_keeping h.keeping)
      (fun _ _ h => h ▸ .refl _ _))

theorem wp_state {α : Type} {m : Prog α} {env : Env} {s : State} {Q : State → Prop}
    (h : Program.wp env m (fun _ t => Q t) (fun _ t => Q t) s) : Q (m.run env s).2 := by
  obtain ⟨ho, he⟩ := (Program.wp_iff_run m).mp h
  rcases hr : m.run env s with ⟨r, t⟩
  cases r with
  | ok a => exact ho a t hr
  | error e => exact he e t hr

theorem OwnerRequest.run_spec (request : OwnerRequest) (db : Database) (env : Env) :
    Course (request.run db env).2.journal.calls db (request.run db env).2.data :=
  wp_state (Q := fun t => Course t.journal.calls db t.data) request.program_spec

theorem Thread.advance_post {thread thread' : Thread} {db : Database} {env : Env} {t : State}
    (h : thread.advance db env = some (t, thread')) :
    ∃ task rest, thread.todo = task :: rest ∧ thread'.journal = t.journal ∧
      thread.journal ≤ t.journal ∧
      ((∃ next, task.Post env ⟨db, thread.journal⟩ next t ∧ thread'.todo = next.toList ++ rest) ∨
        (t.data = db ∧ thread'.todo = rest)) := by
  unfold Thread.advance at h
  cases htodo : thread.todo with
  | nil => simp [htodo] at h
  | cons task rest =>
    rw [htodo] at h
    obtain ⟨rfl, rfl⟩ := Prod.mk.inj (Option.some.inj h)
    refine ⟨task, rest, rfl, rfl, task.step.grows env ⟨db, thread.journal⟩, ?_⟩
    rcases hr : task.step.run env ⟨db, thread.journal⟩ with ⟨r, t⟩
    cases r with
    | error e => exact Or.inr ⟨Program.wp_error (Task.step_spec task) hr, rfl⟩
    | ok next =>
      refine Or.inl ⟨next, Program.wp_ok (Task.step_spec task) hr, ?_⟩
      cases next <;> rfl

theorem Thread.advance_spec {thread thread' : Thread} {db : Database} {env : Env} {t : State}
    (hs : ∀ task ∈ thread.todo, task.Sound thread.journal.calls)
    (h : thread.advance db env = some (t, thread')) :
    Tended t.journal.calls db t.data ∧
      ∀ task ∈ thread'.todo, task.Sound thread'.journal.calls := by
  obtain ⟨task, rest, htodo, hj, hle, hpost⟩ := Thread.advance_post h
  rw [htodo] at hs
  have hrest : ∀ u ∈ rest, u.Sound thread'.journal.calls := fun u hu => by
    rw [hj]
    exact (hs u (List.mem_cons_of_mem _ hu)).mono hle
  have htask := hs task List.mem_cons_self
  rcases hpost with ⟨next, hp, htodo'⟩ | ⟨hd, htodo'⟩
  · refine ⟨hp.tended htask hle, fun u hu => ?_⟩
    rw [htodo'] at hu
    rcases List.mem_append.mp hu with hu | hu
    · rw [hj]
      exact hp.sound htask hle u (Option.mem_toList.mp hu)
    · exact hrest u hu
  · exact ⟨.of_eq hd, htodo' ▸ hrest⟩

theorem System.advance_eq {sys : System} {i : ℕ} {env : Env} {t : State} {thread' : Thread}
    (h : sys.advance i env = some (t, thread')) :
    ∃ thread, sys.threads[i]? = some thread ∧ thread.advance sys.db env = some (t, thread') :=
  Option.bind_eq_some_iff.mp h

theorem System.step_tended {sys : System} (h : sys.Sound) {choice : Choice}
    (hc : ∀ request env commits, choice ≠ .request request env commits) :
    Tended (sys.calls choice) sys.db (sys.step choice).db := by
  cases choice with
  | spawn job => exact .of_eq rfl
  | crash i => exact .of_eq rfl
  | advance i env =>
    cases ha : sys.advance i env with
    | none =>
      simp only [System.step, ha]
      exact .of_eq rfl
    | some p =>
      obtain ⟨thread, hi, hadv⟩ := System.advance_eq ha
      simp only [System.step, System.calls, ha, Option.map_some, Option.getD_some]
      exact (Thread.advance_spec (h thread (List.mem_of_getElem? hi)) hadv).1
  | request request env commits => exact absurd rfl (hc request env commits)

theorem System.step_sound {sys : System} (h : sys.Sound) (choice : Choice) :
    (sys.step choice).Sound := by
  cases choice with
  | spawn job =>
    intro thread ht
    rcases List.mem_append.mp ht with ht | ht
    · exact h thread ht
    · obtain rfl := List.mem_singleton.mp ht
      exact job.tasks_sound _
  | crash i =>
    intro thread ht
    rcases List.mem_or_eq_of_mem_set ht with ht | rfl
    · exact h thread ht
    · simp
  | advance i env =>
    cases ha : sys.advance i env with
    | none => simpa [System.step, ha] using h
    | some p =>
      obtain ⟨thread, hi, hadv⟩ := System.advance_eq ha
      simp only [System.step, ha]
      intro u hu
      rcases List.mem_or_eq_of_mem_set hu with hu | rfl
      · exact h u hu
      · exact (Thread.advance_spec (h thread (List.mem_of_getElem? hi)) hadv).2
  | request request env commits => exact h

theorem System.step_stepped {sys : System} (h : sys.Sound) (choice : Choice) :
    Stepped (sys.calls choice) sys.db (sys.step choice).db := by
  cases choice with
  | request request env commits =>
    cases commits with
    | true => exact .of_course (request.run_spec sys.db env)
    | false => exact .of_eq rfl
  | spawn job => exact (step_tended h (by simp)).stepped
  | crash i => exact (step_tended h (by simp)).stepped
  | advance i env => exact (step_tended h (by simp)).stepped

theorem runFrom_sound {db : Database} {choices : List Choice} {t : Transition}
    (h : t ∈ runFrom db choices) : t.before.Sound :=
  reachable_invariant (I := System.Sound) (by simp [System.Sound])
    (fun _ choice hs => System.step_sound hs choice) t h

theorem runFrom_stepped {db : Database} {choices : List Choice} {t : Transition}
    (h : t ∈ runFrom db choices) : Stepped t.calls t.before.db t.after.db := by
  have := System.step_stepped (runFrom_sound h) t.label
  rw [trace_step h]
  exact this

/-! A small merchant for concrete runs: two plans, and a provider that answers each
call from one entity and one invoice. -/

def starter : Plan := ⟨1, "Starter", 100000, 100, some "plan_s", true⟩
def growth : Plan := ⟨2, "Growth", 300000, 500, some "plan_g", true⟩

def refA : Ref := ⟨"sub_a", by decide⟩
def refB : Ref := ⟨"sub_b", by decide⟩
def refC : Ref := ⟨"sub_c", by decide⟩

def entityOf (id plan status : String) (start stop : ℤ) : Dict :=
  [("id", .str id), ("plan_id", .str plan), ("status", .str status),
    ("current_start", .int start), ("current_end", .int stop)]

def invoiceFields (id payment : String) (start stop : ℤ) : Dict :=
  [("subscription_id", .str id), ("status", .str "paid"), ("amount_due", .int 0),
    ("payment_id", .str payment), ("billing_start", .int start), ("billing_end", .int stop),
    ("paid_at", .int start)]

def invoiceOf (id payment : String) (start stop : ℤ) : Json :=
  .obj (invoiceFields id payment start stop)

def someSettings : Settings where
  plans := [starter, growth]
  razorpayKeyId := "key"
  razorpayKeySecret := "secret"
  replacementUpgradeEnabled := .bool true
  replacementDowngradeEnabled := .bool true
  replacementUpgradeAuthWindow := .int 100
  replacementDowngradeExpireMargin := .int 100
  updateUnsupportedRefusals := [(400, "BAD_REQUEST_ERROR", "upi")]
  downgradeStartField := some "start_at"
  downgradeExpiryField := some "expire_by"

/-- A clock that starts at `now` seconds and moves on by one at each reading. -/
def envAt (now : ℤ) (subscription : Request → Except ProviderFailure Dict)
    (invoices : Except ProviderFailure (List Json)) : Env where
  settings := someSettings
  others := ⟨[], [], [], [], []⟩
  oracle := ⟨fun _ => subscription, fun _ _ => invoices,
    fun n => seconds (now + n), fun _ _ => true⟩

structure Answers where
  fetch : Ref → Except ProviderFailure Dict := fun _ => .error .unavailable
  create : Except ProviderFailure Dict := .error .unavailable
  update : Except ProviderFailure Dict :=
    .error (.rejected (some "BAD_REQUEST_ERROR") (some 400) (some "upi"))
  cancel : Except ProviderFailure Dict := .error .unavailable
  invoices : Except ProviderFailure (List Json) := .ok []

def Answers.at (answers : Answers) (now : ℤ) : Env :=
  envAt now (fun request => match request with
    | .fetchSubscription ref => answers.fetch ref
    | .createSubscription _ _ _ => answers.create
    | .updateSubscription _ _ _ => answers.update
    | .cancelSubscription _ _ => answers.cancel) answers.invoices

def entityA (status : String) (start stop : ℤ) : Dict := entityOf "sub_a" "plan_s" status start stop

def onlyA (entity : Dict) : Ref → Except ProviderFailure Dict := fun ref =>
  if ref = refA then .ok entity else .error .unavailable

def rowless : Database := ⟨none, [], [], [], []⟩

def subscribed : List Choice :=
  let created : Answers := { create := .ok (entityA "created" 0 0) }
  let paid : Answers :=
    { fetch := onlyA (entityA "active" 1000 2000)
      invoices := .ok [invoiceOf "sub_a" "pay_1" 1000 2000] }
  [.request (.checkout 7 1 false) (created.at 1000) true, .spawn .sync] ++
    List.replicate 6 (.advance 0 (paid.at 1500))

def upgradeStarted : List Choice :=
  let refused : Answers :=
    { fetch := onlyA (entityA "active" 1000 2000)
      create := .ok (entityOf "sub_b" "plan_g" "created" 0 0) }
  [.request (.checkout 7 2 true) (refused.at 1600) true]

/-- The renewal fails while the replacement cannot be read, and the grace runs out. -/
def graceOver : List Choice :=
  let pending : Answers := { fetch := onlyA (entityA "pending" 1000 2000) }
  [.spawn .sync] ++ List.replicate 6 (.advance 1 (pending.at 1700)) ++
    [.spawn .dunning, .advance 2 (pending.at 700000)]

def Database.withRow (db : Database) (sub : Subscription) (h : sub.Checks) : Database :=
  { db with subscription := some ⟨sub, h⟩ }

def owedRow : Database :=
  rowless.withRow
    { plan := starter
      status := .expired
      currentPeriodStart := some (seconds 1000)
      currentPeriodEnd := some (seconds 2000)
      paymentProviderRef := some refA
      providerStatus := some "halted" } (by decide)

end ReviewFlow.Billing
