import ReviewFlow.Billing.TaskSaves

/-!
# What a retired sync stands on

`Task.Trail` keeps, for the tasks that cancel a reference or clear the retired slot,
the answer that led there: it is the last one of the thread. `old` holds of the
references that were once the row's payment reference.
-/

namespace ReviewFlow.Billing

open Savepoint Interleaving

def LastTerminal (calls : List Call) (ref : Ref) : Prop :=
  ∃ pre entity,
    (calls = pre ++ [.subscription (.fetchSubscription ref) (.ok entity)] ∧
      ∃ status ∈ terminalProviderStatuses, retiredStatus ref entity = some status) ∨
    (calls = pre ++ [.subscription (.cancelSubscription ref false) (.ok entity)] ∧
      statusIn terminalProviderStatuses entity = true)

def LastRead (statuses : List String) (calls : List Call) (ref : Ref) : Prop :=
  ∃ pre entity status, calls = pre ++ [.subscription (.fetchSubscription ref) (.ok entity)] ∧
    retiredStatus ref entity = some status ∧ status ∈ statuses

def Task.Trail (old : Ref → Prop) (calls : List Call) : Task → Prop
  | .retiredFetch ref kind => kind = some .switchedOld → old ref
  | .retiredCancel ref => old ref ∨ LastRead ["created", "authenticated"] calls ref
  | .retiredClear ref => LastTerminal calls ref
  | .owedCancel ref => old ref
  | _ => True

structure Subscription.Known (old : Ref → Prop) (sub : Subscription) : Prop where
  payment : ∀ ref, sub.paymentProviderRef = some ref → old ref
  switched : ∀ ref, sub.retiredProviderRef = some ref →
    sub.retiredKind = some .switchedOld → old ref

def System.Trailed (old : Ref → Prop) (sys : System) : Prop :=
  ∀ thread ∈ sys.threads, ∀ task ∈ thread.todo, task.Trail old thread.journal.calls

theorem Task.Initial.trail {old : Ref → Prop} {calls : List Call} {task : Task}
    (h : task.Initial) : task.Trail old calls := by
  cases task <;> trivial

theorem Task.Trail.mono {old old' : Ref → Prop} {calls : List Call} {task : Task}
    (h : task.Trail old calls) (ho : ∀ ref, old ref → old' ref) : task.Trail old' calls := by
  cases task with
  | retiredFetch ref kind => exact fun hk => ho ref (h hk)
  | retiredCancel ref => exact h.imp_left (ho ref)
  | retiredClear ref => exact h
  | owedCancel ref => exact ho ref h
  | _ => trivial

section Rules

variable {old : Ref → Prop} {env : Env} {s : State}

theorem orNone_razorpay_last {request : Request} :
    Program.returns env (orNone (razorpay request)) (fun r t => ∀ entity, r = some entity →
      t.journal.calls = s.journal.calls ++ [.subscription request (.ok entity)]) s := by
  rw [Program.returns, wp_orNone, wp_razorpay]
  refine ⟨fun entity _ => ?_, fun failure _ => ⟨fun _ => by simp, fun _ => trivial⟩⟩
  rintro _ ⟨⟩
  rfl

theorem retiredFetch_trail {ref : Ref} {kind : Option RetiredKind}
    (h : kind = some .switchedOld → old ref) :
    Program.returns env (Task.retiredFetch ref kind).step
      (fun next t => ∀ task ∈ next, task.Trail old t.journal.calls) s := by
  refine Program.returns_bind orNone_razorpay_last fun answer t ht task htask => ?_
  cases answer with
  | none => cases htask
  | some entity =>
    have hlast := ht entity rfl
    dsimp only [Option.bind_some, afterRetiredFetch] at htask
    split at htask
    · cases htask
    rename_i status hstatus
    split at htask
    · rename_i hterm
      cases htask
      exact ⟨_, entity, Or.inl ⟨hlast, status, hterm, hstatus⟩⟩
    rename_i hterm
    split at htask
    · rename_i hmay
      cases htask
      unfold retiredMayBeCancelled at hmay
      rw [if_neg hterm] at hmay
      split at hmay
      · exact Or.inl (h rfl)
      · exact Or.inr ⟨_, entity, status, hlast, hstatus, of_decide_eq_true hmay⟩
    · cases htask

theorem retiredCancel_trail {ref : Ref} :
    Program.returns env (Task.retiredCancel ref).step
      (fun next t => ∀ task ∈ next, task.Trail old t.journal.calls) s := by
  refine Program.returns_bind orNone_razorpay_last fun answer t ht task htask => ?_
  obtain ⟨hany, rfl⟩ := mem_ite_some htask
  cases answer with
  | none => cases hany
  | some entity => exact ⟨_, entity, Or.inr ⟨ht entity rfl, by simpa using hany⟩⟩

/-- A task that stands on nothing leads to one that does only by reading the row. -/
theorem Task.Post.trail {task next : Task} {t : State} (h : task.Post env s (some next) t)
    (hrow : ∀ sub ∈ s.data.sub?, sub.Known old)
    (hfetch : ∀ ref kind, task ≠ .retiredFetch ref kind)
    (hcancel : ∀ ref, task ≠ .retiredCancel ref) :
    next.Trail old t.journal.calls := by
  have hfollows := h.follows
  cases next with
  | retiredFetch ref kind =>
    cases task with
    | retiredRead =>
      obtain ⟨sub, hsub, hg⟩ := h.2 _ rfl
      obtain ⟨r, hr, he⟩ := Option.map_eq_some_iff.mp hg
      obtain ⟨rfl, rfl⟩ := Task.retiredFetch.inj he
      exact (hrow sub hsub).switched r hr
    | _ => exact hfollows.elim
  | owedCancel ref =>
    cases task with
    | owedRead =>
      obtain ⟨sub, hsub, hg⟩ := h.2 _ rfl
      dsimp only at hg
      split at hg
      · obtain ⟨r, hr, he⟩ := Option.map_eq_some_iff.mp hg
        obtain rfl := Task.owedCancel.inj he
        exact (hrow sub hsub).payment r hr
      · cases hg
    | _ => exact hfollows.elim
  | retiredCancel ref =>
    cases task with
    | retiredFetch r kind => exact absurd rfl (hfetch r kind)
    | _ => exact hfollows.elim
  | retiredClear ref =>
    cases task with
    | retiredFetch r kind => exact absurd rfl (hfetch r kind)
    | retiredCancel r => exact absurd rfl (hcancel r)
    | _ => exact hfollows.elim
  | _ => trivial

theorem Task.step_trail {task : Task} (h : task.Trail old s.journal.calls)
    (hrow : ∀ sub ∈ s.data.sub?, sub.Known old) :
    Program.returns env task.step (fun next t => ∀ n ∈ next, n.Trail old t.journal.calls) s := by
  by_cases hfetch : ∃ ref kind, task = .retiredFetch ref kind
  · obtain ⟨ref, kind, rfl⟩ := hfetch
    exact retiredFetch_trail h
  by_cases hcancel : ∃ ref, task = .retiredCancel ref
  · obtain ⟨ref, rfl⟩ := hcancel
    exact retiredCancel_trail
  refine Program.returns_mono (Program.returns_of_wp (Task.step_spec task)) fun next t ht n hn => ?_
  obtain rfl := Option.mem_def.mp hn
  exact ht.trail hrow (fun ref kind he => hfetch ⟨ref, kind, he⟩) fun ref he => hcancel ⟨ref, he⟩

end Rules

theorem System.step_trailed {old : Ref → Prop} {sys : System} (ho : sys.Ordered)
    (h : sys.Trailed old) (hrow : ∀ sub ∈ sys.db.sub?, sub.Known old) (choice : Choice) :
    (sys.step choice).Trailed old := by
  cases choice with
  | request request env commits => exact h
  | spawn job =>
    intro thread ht task htask
    rcases List.mem_append.mp ht with ht | ht
    · exact h thread ht task htask
    · obtain rfl := List.mem_singleton.mp ht
      exact (job.tasks_initial task htask).trail
  | crash i =>
    intro thread ht task htask
    rcases List.mem_or_eq_of_mem_set ht with ht | rfl
    · exact h thread ht task htask
    · cases htask
  | advance i env =>
    cases ha : sys.advance i env with
    | none => simpa [System.step, ha] using h
    | some p =>
      obtain ⟨thread, hi, hadv⟩ := System.advance_eq ha
      have hmem := List.mem_of_getElem? hi
      simp only [System.step, ha]
      intro thread' ht task htask
      rcases List.mem_or_eq_of_mem_set ht with ht | rfl
      · exact h thread' ht task htask
      unfold Thread.advance at hadv
      cases htodo : thread.todo with
      | nil => simp [htodo] at hadv
      | cons first rest =>
        simp only [htodo, Option.some.injEq] at hadv
        have hrest : ∀ u ∈ rest, u.Initial := fun u hu => ho thread hmem u (by rw [htodo]; exact hu)
        have hfirst := h thread hmem first (by rw [htodo]; exact List.mem_cons_self)
        obtain ⟨-, hthread⟩ := Prod.mk.inj hadv
        rw [← hthread] at htask ⊢
        have hstep : Program.returns env first.step
          (fun next t => ∀ n ∈ next, n.Trail old t.journal.calls)
            ⟨sys.db, thread.journal⟩ := Task.step_trail hfirst hrow
        rcases hrun : first.step.run env ⟨sys.db, thread.journal⟩ with ⟨_ | next, t⟩
        · rw [hrun] at htask
          exact (hrest task htask).trail
        · rw [hrun] at htask
          cases next with
          | none => exact (hrest task htask).trail
          | some n =>
            rcases List.mem_cons.mp htask with rfl | htask
            · exact Program.wp_ok hstep hrun _ rfl
            · exact (hrest task htask).trail

end ReviewFlow.Billing
