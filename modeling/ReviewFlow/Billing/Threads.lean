import ReviewFlow.Billing.System

/-!
# Where the threads stand

Only the first task of a thread has gone beyond its start, so an invariant about
what is under way is one about `System.taskAt`. `System.taskAt_step` says how a
thread comes to stand where it does, and `System.db_step` what changed the tables.
-/

namespace ReviewFlow.Billing

open Savepoint Interleaving

def Task.Initial : Task → Prop
  | .replacementRead | .mainRead | .retiredRead | .dunning | .webhookLookup _ _ _ => True
  | _ => False

theorem Job.tasks_initial (job : Job) : ∀ task ∈ job.tasks, task.Initial := by
  cases job <;> simp [Job.tasks, Task.Initial]

def System.Ordered (sys : System) : Prop :=
  ∀ thread ∈ sys.threads, ∀ task ∈ thread.todo.tail, task.Initial

def System.taskAt (sys : System) (i : ℕ) : Option Task :=
  sys.threads[i]?.bind fun thread => thread.todo.head?

/-- The thread's first task runs to its end, and the thread goes on with `next`. -/
def System.Takes (sys : System) (i : ℕ) (env : Env) (task : Task) (next : Option Task)
    (db' : Database) : Prop :=
  ∃ thread rest t, sys.threads[i]? = some thread ∧ thread.todo = task :: rest ∧
    task.Post env ⟨sys.db, thread.journal⟩ next t ∧ t.data = db' ∧
    sys.calls (.advance i env) = t.journal.calls

theorem System.Takes.taskAt {sys : System} {i : ℕ} {env : Env} {task : Task} {next : Option Task}
    {db' : Database} (h : sys.Takes i env task next db') : sys.taskAt i = some task := by
  obtain ⟨thread, rest, t, hi, htodo, -⟩ := h
  simp [System.taskAt, hi, htodo]

/-- An advance of a thread: its task runs to its end, or raises and leaves the tables. -/
theorem System.advance_takes {sys : System} {i : ℕ} {env : Env} {t : State} {thread' : Thread}
    (h : sys.advance i env = some (t, thread')) :
    ∃ thread task rest, sys.threads[i]? = some thread ∧ thread.todo = task :: rest ∧
      ((∃ next, sys.Takes i env task next t.data ∧ thread'.todo = next.toList ++ rest) ∨
        (t.data = sys.db ∧ thread'.todo = rest)) := by
  have hcalls : sys.calls (.advance i env) = t.journal.calls := by simp [System.calls, h]
  obtain ⟨thread, hi, hadv⟩ := System.advance_eq h
  obtain ⟨task, rest, htodo, -, -, hpost⟩ := Thread.advance_post hadv
  refine ⟨thread, task, rest, hi, htodo, hpost.imp_left ?_⟩
  rintro ⟨next, hp, htodo'⟩
  exact ⟨next, ⟨thread, rest, t, hi, htodo, hp, rfl, hcalls⟩, htodo'⟩

theorem System.step_ordered {sys : System} (h : sys.Ordered) (choice : Choice) :
    (sys.step choice).Ordered := by
  cases choice with
  | spawn job =>
    intro thread ht task htask
    rcases List.mem_append.mp ht with ht | ht
    · exact h thread ht task htask
    · obtain rfl := List.mem_singleton.mp ht
      exact job.tasks_initial task (List.mem_of_mem_tail htask)
  | crash i =>
    intro thread ht task htask
    rcases List.mem_or_eq_of_mem_set ht with ht | rfl
    · exact h thread ht task htask
    · cases htask
  | request request env commits => exact h
  | advance i env =>
    cases ha : sys.advance i env with
    | none => simpa [System.step, ha] using h
    | some p =>
      obtain ⟨thread, task₀, rest, hi, htodo, hnext⟩ := System.advance_takes ha
      have hrest : ∀ u ∈ rest, u.Initial := fun u hu =>
        h thread (List.mem_of_getElem? hi) u (by rw [htodo]; exact hu)
      simp only [System.step, ha]
      intro thread' ht task htask
      rcases List.mem_or_eq_of_mem_set ht with ht | rfl
      · exact h thread' ht task htask
      · rcases hnext with ⟨next, -, htodo'⟩ | ⟨-, htodo'⟩
        · rw [htodo'] at htask
          cases next with
          | none => exact hrest task (List.mem_of_mem_tail htask)
          | some n => exact hrest task htask
        · rw [htodo'] at htask
          exact hrest task (List.mem_of_mem_tail htask)

theorem System.taskAt_of_thread {sys : System} {i : ℕ} {thread : Thread}
    (h : sys.threads[i]? = some thread) : sys.taskAt i = thread.todo.head? := by
  rw [System.taskAt, h]
  rfl

def Task.Follows : Task → Task → Prop
  | .replacementRead, .replacementFetch _ _ _ => True
  | .replacementFetch _ _ _, .replacementInvoices _ _ _ _ _ => True
  | .replacementInvoices _ _ _ _ _, .replacementApply _ _ _ _ => True
  | .replacementApply _ _ _ _, .commitFirst => True
  | .commitFirst, .commitCancel _ => True
  | .commitFirst, .reissueRead => True
  | .commitCancel _, .commitSecond _ _ => True
  | .commitSecond _ _, .reissueRead => True
  | .reissueRead, .reissueCancel _ => True
  | .reissueCancel _, .reissueConfirm _ => True
  | .mainRead, .mainFetch _ _ _ => True
  | .mainFetch _ _ _, .mainInvoices _ _ _ _ _ => True
  | .mainInvoices _ _ _ _ _, .mainApply _ _ _ _ => True
  | .retiredRead, .retiredFetch _ _ => True
  | .retiredFetch _ _, .retiredCancel _ => True
  | .retiredFetch _ _, .retiredClear _ => True
  | .retiredCancel _, .retiredClear _ => True
  | .dunning, .owedRead => True
  | .owedRead, .owedCancel _ => True
  | .owedCancel _, .owedStore _ _ => True
  | .webhookLookup _ _ _, .webhookInsert _ _ _ => True
  | _, _ => False

theorem Task.Post.follows {env : Env} {s t : State} {task next : Task}
    (h : task.Post env s (some next) t) : task.Follows next := by
  cases task with
  | replacementRead | mainRead | retiredRead =>
    obtain ⟨sub, -, hg⟩ := h.2 next rfl
    obtain ⟨ref, -, rfl⟩ := Option.map_eq_some_iff.mp hg
    trivial
  | replacementFetch ref oldStatus oldStart =>
    obtain ⟨entity, -, -, hg⟩ := h.2 next rfl
    obtain ⟨-, rfl⟩ := mem_ite_some hg
    trivial
  | mainFetch ref oldStatus oldStart =>
    obtain ⟨entity, -, -, hg⟩ := h.2 next rfl
    obtain rfl := Option.some.inj hg
    trivial
  | replacementInvoices ref oldStatus oldStart started entity =>
    obtain ⟨invoices, -, rfl⟩ := h.2 next rfl
    trivial
  | mainInvoices ref oldStatus oldStart started entity =>
    obtain ⟨invoices, -, rfl⟩ := h.2 next rfl
    trivial
  | replacementApply ref started entity invoices =>
    obtain rfl := h.1 next rfl
    trivial
  | commitFirst =>
    obtain ⟨refs, hnext, -⟩ := h
    cases refs <;> cases hnext <;> trivial
  | commitCancel refs =>
    obtain ⟨old, refused, -, rfl, -⟩ := h.2 next rfl
    trivial
  | commitSecond refs refused =>
    obtain rfl := h.1 next rfl
    trivial
  | reissueRead =>
    obtain ⟨sub, -, hg⟩ := h.2 next rfl
    dsimp only at hg
    split at hg
    · obtain ⟨refs, -, rfl⟩ := Option.map_eq_some_iff.mp hg
      trivial
    · cases hg
  | reissueCancel refs =>
    obtain rfl := h.2 next rfl
    trivial
  | retiredFetch ref kind =>
    obtain ⟨entity, -, -, hg⟩ := h.2 next rfl
    dsimp only [afterRetiredFetch] at hg
    split at hg
    · cases hg
    · split at hg
      · cases hg
        trivial
      · split at hg <;> cases hg
        trivial
  | retiredCancel ref =>
    obtain ⟨entity, -, -, hg⟩ := h.2 next rfl
    obtain ⟨-, rfl⟩ := mem_ite_some hg
    trivial
  | dunning =>
    obtain ⟨hnext, -⟩ := h
    cases hnext
    trivial
  | owedRead =>
    obtain ⟨sub, -, hg⟩ := h.2 next rfl
    dsimp only at hg
    split at hg
    · obtain ⟨ref, -, rfl⟩ := Option.map_eq_some_iff.mp hg
      trivial
    · cases hg
  | owedCancel ref =>
    obtain ⟨entity, -, -, hg⟩ := h.2 next rfl
    obtain ⟨status, -, rfl⟩ := Option.map_eq_some_iff.mp hg
    trivial
  | webhookLookup ref eventId eventType =>
    obtain ⟨sub, -, hg⟩ := h.2 next rfl
    obtain ⟨-, rfl⟩ := mem_ite_some hg
    trivial
  | mainApply | reissueConfirm | retiredClear | owedStore | webhookInsert =>
    obtain ⟨hnext, -⟩ := h
    cases hnext

/-- How a thread comes to be at a task: the task is the first of its kind, the thread was
there already, or its step led there. -/
theorem System.taskAt_step {sys : System} (ho : sys.Ordered) {choice : Choice} {i : ℕ} {task : Task}
    (h : (sys.step choice).taskAt i = some task) :
    task.Initial ∨ (sys.taskAt i = some task ∧ ∀ env, choice ≠ .advance i env) ∨
      ∃ env task₀, choice = .advance i env ∧
        sys.Takes i env task₀ (some task) (sys.step choice).db := by
  cases choice with
  | request request env commits => exact Or.inr (Or.inl ⟨h, by simp⟩)
  | spawn job =>
    simp only [System.step, System.taskAt] at h
    obtain ⟨thread, hi, hhead⟩ := Option.bind_eq_some_iff.mp h
    rw [List.getElem?_append] at hi
    split at hi
    · exact Or.inr (Or.inl ⟨by rw [System.taskAt_of_thread hi, hhead], by simp⟩)
    · obtain rfl : thread = ⟨job.tasks, Journal.empty⟩ := by
        have := List.mem_of_getElem? hi
        exact List.mem_singleton.mp this
      exact Or.inl (job.tasks_initial task (List.mem_of_mem_head? hhead))
  | crash k =>
    simp only [System.step, System.taskAt] at h
    obtain ⟨thread, hi, hhead⟩ := Option.bind_eq_some_iff.mp h
    by_cases hk : k = i
    · subst hk
      rw [List.getElem?_set] at hi
      split at hi
      · split at hi
        · cases hi
          cases hhead
        · cases hi
      · exact absurd rfl ‹_›
    · rw [List.getElem?_set_ne hk] at hi
      exact Or.inr (Or.inl ⟨by rw [System.taskAt_of_thread hi, hhead], by simp⟩)
  | advance k env =>
    cases ha : sys.advance k env with
    | none =>
      simp only [System.step, ha] at h
      refine Or.inr (Or.inl ⟨h, fun env' he => ?_⟩)
      cases he
      obtain ⟨thread, hi, hhead⟩ := Option.bind_eq_some_iff.mp h
      rw [System.advance, hi, Option.bind_some, Thread.advance] at ha
      cases htodo : thread.todo with
      | nil =>
        rw [htodo] at hhead
        cases hhead
      | cons task₀ rest => simp [htodo] at ha
    | some p =>
      obtain ⟨t, thread'⟩ := p
      obtain ⟨thread, task₀, rest, hi, htodo, hnext⟩ := System.advance_takes ha
      have hdb : (sys.step (.advance k env)).db = t.data := by simp only [System.step, ha]
      simp only [System.step, System.taskAt, ha] at h
      obtain ⟨thread₁, hi₁, hhead⟩ := Option.bind_eq_some_iff.mp h
      by_cases hk : k = i
      · subst hk
        obtain rfl : thread₁ = thread' := by
          rw [List.getElem?_set_self (List.getElem?_eq_some_iff.mp hi).1] at hi₁
          exact (Option.some.inj hi₁).symm
        have hrest : ∀ u ∈ rest, u.Initial := fun u hu =>
          ho thread (List.mem_of_getElem? hi) u (by rw [htodo]; exact hu)
        rcases hnext with ⟨next, htakes, htodo'⟩ | ⟨-, htodo'⟩
        · rw [htodo'] at hhead
          cases next with
          | none => exact Or.inl (hrest task (List.mem_of_mem_head? hhead))
          | some n =>
            cases hhead
            exact Or.inr (Or.inr ⟨env, task₀, rfl, hdb ▸ htakes⟩)
        · rw [htodo'] at hhead
          exact Or.inl (hrest task (List.mem_of_mem_head? hhead))
      · rw [List.getElem?_set_ne hk] at hi₁
        refine Or.inr (Or.inl ⟨by rw [System.taskAt_of_thread hi₁, hhead], fun env' he => ?_⟩)
        cases he
        exact hk rfl

/-- How a thread comes to be at a task that is not the first of its kind. -/
theorem System.taskAt_follows {sys : System} (ho : sys.Ordered) {choice : Choice} {i : ℕ}
    {task : Task} (h : (sys.step choice).taskAt i = some task) (hlater : ¬ task.Initial) :
    (sys.taskAt i = some task ∧ ∀ env, choice ≠ .advance i env) ∨
      ∃ env task₀, choice = .advance i env ∧ task₀.Follows task ∧
        sys.Takes i env task₀ (some task) (sys.step choice).db := by
  rcases System.taskAt_step ho h with hinit | hsame | ⟨env, task₀, hchoice, htakes⟩
  · exact absurd hinit hlater
  · exact Or.inl hsame
  · have ⟨_, _, _, _, _, hpost, _⟩ := htakes
    exact Or.inr ⟨env, task₀, hchoice, hpost.follows, htakes⟩

theorem System.db_step (sys : System) (choice : Choice) :
    (sys.step choice).db = sys.db ∨
      (∃ i env task next, choice = .advance i env ∧
        sys.Takes i env task next (sys.step choice).db) ∨
      ∃ request env, choice = .request request env true ∧
        (sys.step choice).db = (request.run sys.db env).2.data := by
  cases choice with
  | spawn job => exact Or.inl rfl
  | crash i => exact Or.inl rfl
  | request request env commits =>
    cases commits with
    | false => exact Or.inl rfl
    | true => exact Or.inr (Or.inr ⟨request, env, rfl, rfl⟩)
  | advance i env =>
    cases ha : sys.advance i env with
    | none => exact Or.inl (by simp only [System.step, ha])
    | some p =>
      have hdb : (sys.step (.advance i env)).db = p.1.data := by simp only [System.step, ha]
      obtain ⟨thread, task, rest, hi, htodo, ⟨next, htakes, -⟩ | ⟨hd, -⟩⟩ := System.advance_takes ha
      · exact Or.inr (Or.inl ⟨i, env, task, next, rfl, hdb ▸ htakes⟩)
      · exact Or.inl (hdb.trans hd)

end ReviewFlow.Billing
