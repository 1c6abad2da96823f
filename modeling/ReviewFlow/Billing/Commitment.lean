import ReviewFlow.Billing.References
import ReviewFlow.Billing.Threads

/-!
# A downgrade whose old subscription ends is not undone

For one replacement, `Phase` follows a run through the commit: nothing committed,
one thread that may be refused between T1 and T2, committed with no refusal under way,
and the two ways out. The race that breaks it is a re-issued cancel that is
accepted while a commit of the same replacement is about to be refused.
-/

namespace ReviewFlow.Billing

open Savepoint Interleaving

/-- The thread is between T1 and the storing of a refusal. -/
def System.Refusing (sys : System) (i : ℕ) (repl : Ref) : Prop :=
  ∃ refs, refs.replRef = repl ∧
    (sys.taskAt i = some (.commitCancel refs) ∨ sys.taskAt i = some (.commitSecond refs true))

/-- The thread has had its cancel refused, and is about to store that. -/
def System.Refused (sys : System) (i : ℕ) (repl : Ref) : Prop :=
  ∃ refs, refs.replRef = repl ∧ sys.taskAt i = some (.commitSecond refs true)

/-- The thread is about to issue the cancel once more. -/
def System.Reissuing (sys : System) (i : ℕ) (repl : Ref) : Prop :=
  ∃ refs, refs.replRef = repl ∧ sys.taskAt i = some (.reissueCancel refs)

/-- The thread is about to cancel the old subscription at its cycle end. -/
def System.Cancelling (sys : System) (i : ℕ) (repl : Ref) : Prop :=
  ∃ refs, refs.replRef = repl ∧
    (sys.taskAt i = some (.commitCancel refs) ∨ sys.taskAt i = some (.reissueCancel refs))

/-- A cycle-end cancel of the old subscription, issued for the replacement, is accepted. -/
def Transition.AcceptsCancel (t : Transition) (repl : Ref) : Prop :=
  ∃ i env thread refs old entity, t.label = .advance i env ∧ t.before.threads[i]? = some thread ∧
    (thread.todo.head? = some (.commitCancel refs) ∨
      thread.todo.head? = some (.reissueCancel refs)) ∧
    refs.replRef = repl ∧ refs.oldRef = some old ∧
    env.oracle.subscription thread.journal.calls.length (.cancelSubscription old true) = .ok entity

/-- A commit's cancel of the old subscription, issued for the replacement, is refused. -/
def Transition.RefusesCancel (t : Transition) (repl : Ref) : Prop :=
  ∃ i env thread refs old code status reason, t.label = .advance i env ∧
    t.before.threads[i]? = some thread ∧ thread.todo.head? = some (.commitCancel refs) ∧
    refs.replRef = repl ∧ refs.oldRef = some old ∧
    env.oracle.subscription thread.journal.calls.length (.cancelSubscription old true) =
      .error (.rejected code status reason)

/-- T2 of a refused cancel clears the commit mark, or abandons the replacement. -/
def Transition.Undoes (t : Transition) (repl : Ref) : Prop :=
  ∃ i env refs, t.label = .advance i env ∧ t.before.taskAt i = some (.commitSecond refs true) ∧
    refs.replRef = repl ∧ t.before.db.CommittedTo repl ∧ ¬ t.after.db.CommittedTo repl

inductive Transition.LeavesProperly (t : Transition) (repl : Ref) : Prop
  | switched {i : ℕ} {env : Env} {ref : Ref} {started : Time} {entity : Dict}
      {invoices : Option (List Json)} (label : t.label = .advance i env)
      (task : t.before.taskAt i = some (.replacementApply ref started entity invoices))
      (took : t.after.db.payment? = some repl)
  | failed {i : ℕ} {env : Env} {ref : Ref} {started : Time} {entity : Dict}
      {invoices : Option (List Json)} {sub : Subscription} {reread : Dict}
      (label : t.label = .advance i env)
      (task : t.before.taskAt i = some (.replacementApply ref started entity invoices))
      (before : t.before.db.sub? = some sub) (read : ReRead t.calls sub reread)
      (fails : statusIn replacementFailed reread = true)
  | cancelled {actor : ℕ} {env : Env} (label : t.label = .request (.cancel actor) env true)

/-- T2 stores a refusal on the committed row while another thread is about to issue the cancel
once more. -/
def Transition.StoresEarly (t : Transition) : Prop :=
  ∃ i j env repl, t.label = .advance i env ∧ t.before.Refused i repl ∧
    t.before.db.CommittedTo repl ∧ t.before.Reissuing j repl

/-- T2 stores a refusal while the replacement cannot be abandoned. -/
def Transition.ClearsUnread (t : Transition) : Prop :=
  ∃ i env thread refs sub, t.label = .advance i env ∧ t.before.threads[i]? = some thread ∧
    thread.todo.head? = some (.commitSecond refs true) ∧ t.before.db.sub? = some sub ∧
    stillCommitted sub refs = true ∧ ¬ Abandonable env sub thread.journal.calls.length

def Transition.OverwritesCommitted (t : Transition) : Prop :=
  t.Overwrites ∧ ∃ repl, t.before.db.CommittedTo repl

/-- A subscription that the provider creates was in no slot before. -/
def Transition.Fresh (history : List Transition) (t : Transition) : Prop :=
  ∀ created, CreatedBy t.stepCalls created →
    ∀ u ∈ history ++ [t], ¬ u.before.db.Tracks created.ref

theorem stillCommitted_iff {sub : Subscription} {refs : CommitRefs} :
    stillCommitted sub refs = true ↔ sub.paymentProviderRef = refs.oldRef ∧
      sub.replacementProviderRef = some refs.replRef ∧
      sub.replacementCommittedAt.isSome = true := by
  simp [stillCommitted, and_assoc]

section Committed

variable {a b : Database} {sub sub' : Subscription} {repl : Ref}

theorem Database.CommittedTo.row (h : a.CommittedTo repl) (ha : a.sub? = some sub) :
    sub.replacementProviderRef = some repl ∧ sub.replacementCommittedAt.isSome = true := by
  obtain ⟨x, hx, hr⟩ := h
  rw [ha] at hx
  cases hx
  exact hr

theorem Database.CommittedTo.replacement (h : a.CommittedTo repl) : a.replacement? = some repl := by
  obtain ⟨x, hx, hr, -⟩ := h
  rw [Database.replacement?_of hx, hr]

theorem Database.CommittedTo.tracks (h : a.CommittedTo repl) : a.Tracks repl := by
  obtain ⟨x, hx, hr, -⟩ := h
  exact ⟨x, hx, Or.inl (Or.inr hr)⟩

theorem steady_of_sub? (h : b.sub? = a.sub?) : Steady a b := by
  rintro ref ⟨x, hx, hr⟩
  exact ⟨x, h.trans hx, hr⟩

end Committed

section Steps

variable {env : Env} {s t : State}

/-- What a task's step does to a committed downgrade: nothing, a switch, a failure, or the
undoing of T2. -/
theorem Task.Post.committed {task : Task} {next : Option Task} {repl : Ref}
    (h : task.Post env s next t) (hc : s.data.CommittedTo repl) :
    t.data.CommittedTo repl ∨
      (∃ ref started entity invoices, task = .replacementApply ref started entity invoices ∧
        t.data.replacement? = none ∧ (t.data.payment? = some repl ∨
          ∃ sub reread, s.data.sub? = some sub ∧ ReRead t.journal.calls sub reread ∧
            statusIn replacementFailed reread = true)) ∨
      ∃ refs sub, task = .commitSecond refs true ∧ refs.replRef = repl ∧ s.data.sub? = some sub ∧
        stillCommitted sub refs = true ∧
        (t.data.replacement? = none ∨ ¬ Abandonable env sub s.journal.calls.length) := by
  have steady : Steady s.data t.data → t.data.CommittedTo repl := fun h => h repl hc
  have plain : ∀ {P : Prop}, t.data = s.data ∧ P → t.data.CommittedTo repl := fun h => h.1 ▸ hc
  have untouched : Untouched s.data t.data → t.data.CommittedTo repl := fun h =>
    steady (steady_of_sub? h.sub?)
  cases task with
  | replacementApply ref started entity invoices =>
    obtain ⟨-, result, u, hu⟩ := h
    have hmarks : t.data.sub? = u.data.sub? := hu.marks.sub?
    cases hu.post with
    | kept same => exact Or.inl (steady (steady_of_sub? (hmarks.trans same.sub?)))
    | abandoned sub sub' uncommitted done =>
      have := (hc.row done.before).2
      rw [uncommitted] at this
      cases this
    | failed sub sub' reread read fails done =>
      refine Or.inr (Or.inl ⟨ref, started, entity, invoices, rfl, ?_, Or.inr ⟨sub, reread,
        done.before, read.mono hu.later, fails⟩⟩)
      rw [Database.replacement?_of (hmarks.trans done.after)]
      exact done.row.replacement
    | switched sub plan status start stop done =>
      refine Or.inr (Or.inl ⟨ref, started, entity, invoices, rfl, ?_, Or.inl ?_⟩)
      · rw [Database.replacement?_of (hmarks.trans done.after)]
        rfl
      · rw [Database.payment?_of (hmarks.trans done.after)]
        exact (activated_slots ..).replacement.trans (hc.row done.before).1
  | mainApply ref started entity invoices =>
    obtain ⟨-, result, u, hu⟩ := h
    have hmarks : t.data.sub? = u.data.sub? := hu.marks.sub?
    refine Or.inl (steady (Steady.trans ?_ (steady_of_sub? hmarks)))
    cases hu.post with
    | dropped _ _ _ data _ => exact data ▸ .refl _
    | applied _ _ _ _ _ done _ => exact done.steady
  | commitFirst =>
    obtain ⟨refs, -, hpost⟩ := h
    cases hpost with
    | kept none same => exact Or.inl (untouched same)
    | abandoned sub sub' none uncommitted done =>
      have := (hc.row done.before).2
      rw [uncommitted] at this
      cases this
    | committed sub now refs result candidate hrefs done =>
      have := (hc.row done.before).2
      simp only [commitCandidate, Bool.and_eq_true, Option.isNone_iff_eq_none] at candidate
      rw [candidate.2] at this
      cases this
  | commitSecond refs refused =>
    obtain ⟨-, hpost⟩ := h
    cases hpost with
    | kept same => exact Or.inl (untouched same)
    | confirmed sub now accepted still done =>
      exact Or.inl (steady (.of_row done.before done.after rfl id))
    | cleared sub hr still kept done =>
      subst hr
      refine Or.inr (Or.inr ⟨refs, sub, rfl, ?_, done.before, still, Or.inr kept⟩)
      have := (stillCommitted_iff.mp still).2.1
      rw [(hc.row done.before).1] at this
      exact (Option.some.inj this).symm
    | undone sub sub' hr still before row after usage events =>
      subst hr
      refine Or.inr (Or.inr ⟨refs, sub, rfl, ?_, before, still, Or.inl ?_⟩)
      · have := (stillCommitted_iff.mp still).2.1
        rw [(hc.row before).1] at this
        exact (Option.some.inj this).symm
      · rw [Database.replacement?_of after]
        exact row.replacement
  | reissueConfirm refs =>
    obtain ⟨-, same | ⟨sub, now, -, done⟩⟩ := h
    · exact Or.inl (untouched same)
    · exact Or.inl (steady (confirmed_plain done).steady)
  | retiredClear ref =>
    obtain ⟨-, same | ⟨sub, done⟩, -⟩ := h
    · exact Or.inl (untouched same)
    · exact Or.inl (steady (.of_row done.before done.after rfl id))
  | dunning =>
    obtain ⟨-, same | ⟨sub, sub', done⟩⟩ := h
    · exact Or.inl (untouched same)
    · exact Or.inl (steady done.steady)
  | owedStore ref status =>
    obtain ⟨-, same | ⟨sub, done⟩⟩ := h
    · exact Or.inl (same ▸ hc)
    · obtain ⟨sub', done⟩ := done.plain
      exact Or.inl (steady done.steady)
  | webhookInsert ref eventId eventType =>
    exact Or.inl (steady (steady_of_sub? h.2.toInbox.sub?))
  | _ => exact Or.inl (plain h)

end Steps

/-- What a request does to a committed downgrade: only the merchant's cancel ends it, and
only a checkout that overwrites the replacement loses it. -/
theorem OwnerRequest.committed (request : OwnerRequest) {db : Database} (env : Env) {repl : Ref}
    (hc : db.CommittedTo repl) :
    (request.run db env).2.data.CommittedTo repl ∨
      (∃ actor, request = .cancel actor ∧ (request.run db env).2.data.replacement? = none) ∨
      ∃ actor planId acknowledged sub ref plan known start stop,
        request = .checkout actor planId acknowledged ∧ db.sub? = some sub ∧
        Overwrites env sub planId acknowledged ref plan known start stop := by
  cases request with
  | checkout actor planId acknowledged =>
    have hpost : StartPost env planId acknowledged ⟨db, Journal.empty⟩
        (OwnerRequest.run (.checkout actor planId acknowledged) db env).2 :=
      wp_state (discard_wp (Program.wp_mono startCheckout_spec (fun _ _ h => h) (fun _ _ h => h)))
    rcases hpost.cases rfl with ⟨-, hs⟩ | ⟨hnone, -⟩ |
      ⟨sub, ref, plan, known, start, stop, hsub, ho⟩
    · exact Or.inl (hs repl hc)
    · have := hc.replacement
      rw [hnone] at this
      cases this
    · exact Or.inr (Or.inr ⟨actor, planId, acknowledged, sub, ref, plan, known, start, stop, rfl,
        hsub, ho⟩)
  | cancel actor =>
    have hpost : CancelPost ⟨db, Journal.empty⟩ (OwnerRequest.run (.cancel actor) db env).2 :=
      wp_state (discard_wp (Program.wp_mono cancelSubscription_spec (fun _ _ h => h)
        (fun _ _ h => h)))
    obtain ⟨mid, hfirst, hk⟩ := hpost.path
    rcases hfirst with rfl | ⟨sub, sub', done⟩
    · exact Or.inl (hk.steady repl hc)
    · have hmid : mid.replacement? = none := by
        rw [Database.replacement?_of done.after]
        exact done.row.replacement
      refine Or.inr (Or.inl ⟨actor, rfl, ?_⟩)
      rcases hk.careful.replacement with h | h
      · exact h.trans hmid
      · exact h
  | cancelReplacement actor =>
    have hk : Keeping (OwnerRequest.run (.cancelReplacement actor) db env).2.journal.calls db
        (OwnerRequest.run (.cancelReplacement actor) db env).2.data :=
      wp_state (Q := fun t => Keeping t.journal.calls db t.data) (discard_wp
        (Program.wp_mono cancelReplacement_spec (fun _ _ h => h.keeping)
          (fun _ _ h => h ▸ .refl _ _)))
    exact Or.inl (hk.steady repl hc)

section System

variable {sys : System} {choice : Choice} {repl : Ref}

/-- A committed downgrade leaves the committed state by a switch, a failure or the merchant's
cancel, or T2 undoes it, or a checkout overwrites the replacement. -/
theorem committed_step (choice : Choice) (hc : sys.db.CommittedTo repl) :
    (sys.step choice).db.CommittedTo repl ∨
      (Transition.LeavesProperly (transition System.step sys choice) repl ∧
        (sys.step choice).db.replacement? ≠ some repl) ∨
      ((∃ i env refs, choice = .advance i env ∧ sys.taskAt i = some (.commitSecond refs true) ∧
          refs.replRef = repl) ∧
        ((sys.step choice).db.replacement? = none ∨
          Transition.ClearsUnread (transition System.step sys choice))) ∨
      Transition.OverwritesCommitted (transition System.step sys choice) := by
  rcases sys.db_step choice with hsame | ⟨i, env, task, next, rfl, htakes⟩ |
    ⟨request, env, rfl, hdb⟩
  · exact Or.inl (hsame ▸ hc)
  · have hat := htakes.taskAt
    obtain ⟨thread, rest, t, hi, htodo, hpost, hdb, hcalls⟩ := htakes
    rcases hpost.committed hc with h | ⟨ref, started, entity, invoices, rfl, hnone, hleft⟩ |
      ⟨refs, sub, rfl, hrefs, hsub, hstill, hkept⟩
    · exact Or.inl (hdb ▸ h)
    · refine Or.inr (Or.inl ⟨?_, by rw [← hdb, hnone]; simp⟩)
      rcases hleft with hpay | ⟨sub, reread, hsub, hread, hfails⟩
      · exact .switched rfl hat (by rw [← hpay, hdb]; rfl)
      · refine .failed rfl hat hsub ?_ hfails
        rwa [← hcalls] at hread
    · refine Or.inr (Or.inr (Or.inl ⟨⟨i, env, refs, rfl, hat, hrefs⟩, ?_⟩))
      rcases hkept with hnone | hkept
      · exact Or.inl (hdb ▸ hnone)
      · exact Or.inr ⟨i, env, thread, refs, sub, rfl, hi, by rw [htodo]; rfl, hsub, hstill, hkept⟩
  · rcases request.committed env hc with h | ⟨actor, rfl, hnone⟩ |
      ⟨actor, planId, acknowledged, sub, ref, plan, known, start, stop, rfl, hsub, ho⟩
    · exact Or.inl (hdb ▸ h)
    · exact Or.inr (Or.inl ⟨.cancelled rfl, by rw [hdb, hnone]; simp⟩)
    · exact Or.inr (Or.inr (Or.inr ⟨⟨actor, planId, acknowledged, env, sub, ref, plan, known, start,
        stop, rfl, hsub, ho⟩, repl, hc⟩))

def System.Commits (sys : System) (choice : Choice) (i : ℕ) (repl : Ref) : Prop :=
  (∃ env, choice = .advance i env) ∧ sys.taskAt i = some .commitFirst ∧
    ¬ sys.db.CommittedTo repl ∧ sys.db.replacement? = some repl ∧
    (sys.step choice).db.CommittedTo repl

theorem commitCancel_step (ho : sys.Ordered) {i : ℕ} {refs : CommitRefs}
    (h : (sys.step choice).taskAt i = some (.commitCancel refs)) :
    (sys.taskAt i = some (.commitCancel refs) ∧ ∀ env, choice ≠ .advance i env) ∨
      sys.Commits choice i refs.replRef := by
  rcases System.taskAt_follows ho h id with hsame | ⟨env, task, rfl, hfollows, htakes⟩
  · exact Or.inl hsame
  · have hat := htakes.taskAt
    obtain ⟨thread, rest, t, hi, htodo, hpost, hdb, hcalls⟩ := htakes
    cases task <;> first | exact hfollows.elim | skip
    obtain ⟨refs', hnext, hcommit⟩ := hpost
    cases refs' with
    | none => cases hnext
    | some refs' =>
      cases hnext
      cases hcommit with
      | kept none same => cases none
      | abandoned sub sub' none uncommitted done => cases none
      | committed sub now refs' result candidate hrefs done =>
        cases result
        obtain ⟨ref, href, rfl⟩ := Option.map_eq_some_iff.mp hrefs
        simp only [commitCandidate, Bool.and_eq_true, Option.isNone_iff_eq_none] at candidate
        refine Or.inr ⟨⟨env, rfl⟩, hat, fun hc => ?_, ?_, hdb ▸ ⟨_, done.after, href, rfl⟩⟩
        · have := (hc.row done.before).2
          rw [candidate.2] at this
          cases this
        · exact (Database.replacement?_of done.before).trans href

theorem commitSecond_step (ho : sys.Ordered) {i : ℕ} {refs : CommitRefs}
    (h : (sys.step choice).taskAt i = some (.commitSecond refs true)) :
    (sys.taskAt i = some (.commitSecond refs true) ∧ ∀ env, choice ≠ .advance i env) ∨
      (sys.taskAt i = some (.commitCancel refs) ∧
        Transition.RefusesCancel (transition System.step sys choice) refs.replRef) := by
  rcases System.taskAt_follows ho h id with hsame | ⟨env, task, rfl, hfollows, htakes⟩
  · exact Or.inl hsame
  · have hat := htakes.taskAt
    obtain ⟨thread, rest, t, hi, htodo, hpost, hdb, hcalls⟩ := htakes
    cases task <;> first | exact hfollows.elim | skip
    obtain ⟨-, hnext⟩ := hpost
    obtain ⟨old, refused, hold, heq, -, hrefused⟩ := hnext _ rfl
    cases heq
    obtain ⟨code, status, reason, hans⟩ := hrefused rfl
    exact Or.inr ⟨hat, i, env, thread, refs, old, code, status, reason, rfl, hi,
      by rw [htodo]; rfl, rfl, hold, hans⟩

/-- How a thread comes to re-issue the cancel: it has just read the row as unconfirmed. -/
theorem reissueCancel_step (ho : sys.Ordered) {i : ℕ} {refs : CommitRefs}
    (h : (sys.step choice).taskAt i = some (.reissueCancel refs)) :
    (sys.taskAt i = some (.reissueCancel refs) ∧ ∀ env, choice ≠ .advance i env) ∨
      ∃ env sub, choice = .advance i env ∧ sys.taskAt i = some .reissueRead ∧
        sys.db.sub? = some sub ∧ unconfirmed sub = true ∧ commitRefs sub = some refs ∧
        sys.db.CommittedTo refs.replRef := by
  rcases System.taskAt_follows ho h id with hsame | ⟨env, task, rfl, hfollows, htakes⟩
  · exact Or.inl hsame
  · have hat := htakes.taskAt
    obtain ⟨thread, rest, t, hi, htodo, hpost, hdb, hcalls⟩ := htakes
    cases task <;> first | exact hfollows.elim | skip
    obtain ⟨sub, hsub, hg⟩ := hpost.2 _ rfl
    dsimp only at hg
    split at hg
    · rename_i hu
      obtain ⟨refs', hrefs, heq⟩ := Option.map_eq_some_iff.mp hg
      cases heq
      obtain ⟨ref, href, rfl⟩ := Option.map_eq_some_iff.mp hrefs
      have hu' := hu
      simp only [unconfirmed, Bool.and_eq_true] at hu'
      exact Or.inr ⟨env, sub, rfl, hat, hsub, hu, hrefs, sub, hsub, href, hu'.1.2⟩
    · cases hg

theorem System.Refused.refusing {i : ℕ} (h : sys.Refused i repl) : sys.Refusing i repl := by
  obtain ⟨refs, hrefs, hat⟩ := h
  exact ⟨refs, hrefs, Or.inr hat⟩

theorem refused_step (ho : sys.Ordered) {i : ℕ} (h : (sys.step choice).Refused i repl) :
    sys.Refused i repl ∨
      (sys.Refusing i repl ∧
        Transition.RefusesCancel (transition System.step sys choice) repl) := by
  obtain ⟨refs, rfl, h⟩ := h
  rcases commitSecond_step ho h with ⟨hat, -⟩ | ⟨hat, hrefuses⟩
  · exact Or.inl ⟨refs, rfl, hat⟩
  · exact Or.inr ⟨⟨refs, rfl, Or.inl hat⟩, hrefuses⟩

theorem refusing_step (ho : sys.Ordered) {i : ℕ} (h : (sys.step choice).Refusing i repl) :
    sys.Refusing i repl ∨ sys.Commits choice i repl := by
  obtain ⟨refs, hrefs, h | h⟩ := h
  · subst hrefs
    rcases commitCancel_step ho h with ⟨hat, -⟩ | hcommits
    · exact Or.inl ⟨refs, rfl, Or.inl hat⟩
    · exact Or.inr hcommits
  · rcases refused_step ho ⟨refs, hrefs, h⟩ with hrefused | ⟨hrefusing, -⟩
    · exact Or.inl hrefused.refusing
    · exact Or.inl hrefusing

theorem Transition.RefusesCancel.not_accepts {t : Transition} {repl' : Ref}
    (h : t.RefusesCancel repl) : ¬ t.AcceptsCancel repl' := by
  obtain ⟨i, env, thread, refs, old, code, status, reason, hl, hi, hhead, -, hold, hans⟩ := h
  rintro ⟨i', env', thread', refs', old', entity, hl', hi', hhead', -, hold', hans'⟩
  rw [hl] at hl'
  cases hl'
  rw [hi] at hi'
  cases hi'
  rw [hhead] at hhead'
  rcases hhead' with hhead' | hhead' <;> cases hhead'
  rw [hold] at hold'
  cases hold'
  rw [hans] at hans'
  cases hans'

def System.Reissues (sys : System) (choice : Choice) (i : ℕ) (repl : Ref) : Prop :=
  ∃ env sub refs, choice = .advance i env ∧ sys.taskAt i = some .reissueRead ∧
    sys.db.sub? = some sub ∧ unconfirmed sub = true ∧ commitRefs sub = some refs ∧
    refs.replRef = repl ∧ sys.db.CommittedTo repl

theorem cancelling_step (ho : sys.Ordered) {i : ℕ} (h : (sys.step choice).Cancelling i repl) :
    (sys.Cancelling i repl ∧ ∀ env, choice ≠ .advance i env) ∨ sys.Commits choice i repl ∨
      sys.Reissues choice i repl := by
  obtain ⟨refs, rfl, h | h⟩ := h
  · rcases commitCancel_step ho h with ⟨hat, hne⟩ | hcommits
    · exact Or.inl ⟨⟨refs, rfl, Or.inl hat⟩, hne⟩
    · exact Or.inr (Or.inl hcommits)
  · rcases reissueCancel_step ho h with ⟨hat, hne⟩ | ⟨env, sub, hl, hat, hsub, hu, hrefs, hc⟩
    · exact Or.inl ⟨⟨refs, rfl, Or.inr hat⟩, hne⟩
    · exact Or.inr (Or.inr ⟨env, sub, refs, hl, hat, hsub, hu, hrefs, rfl, hc⟩)

theorem acceptsCancel_cancelling
    (h : Transition.AcceptsCancel (transition System.step sys choice) repl) :
    ∃ i env, choice = .advance i env ∧ sys.Cancelling i repl := by
  obtain ⟨i, env, thread, refs, old, entity, hl, hi, hhead, hrefs, -, -⟩ := h
  have hi' : sys.threads[i]? = some thread := hi
  refine ⟨i, env, hl, refs, hrefs, ?_⟩
  rw [System.taskAt_of_thread hi']
  exact hhead

theorem undoes_refused (h : Transition.Undoes (transition System.step sys choice) repl) :
    ∃ i env, choice = .advance i env ∧ sys.Refused i repl := by
  obtain ⟨i, env, refs, hl, hat, hrefs, -, -⟩ := h
  exact ⟨i, env, hl, refs, hrefs, hat⟩

end System

def Accepted (history : List Transition) (repl : Ref) : Prop :=
  ∃ t ∈ history, t.AcceptsCancel repl

def Undone (history : List Transition) (repl : Ref) : Prop :=
  ∃ t ∈ history, t.Undoes repl

theorem accepted_append {h : List Transition} {t : Transition} {repl : Ref} :
    Accepted (h ++ [t]) repl ↔ Accepted h repl ∨ t.AcceptsCancel repl := by
  simp [Accepted, or_and_right, exists_or]

theorem undone_append {h : List Transition} {t : Transition} {repl : Ref} :
    Undone (h ++ [t]) repl ↔ Undone h repl ∨ t.Undoes repl := by
  simp [Undone, or_and_right, exists_or]

def Departed (history : List Transition) (sys : System) (repl : Ref) : Prop :=
  sys.db.replacement? ≠ some repl ∧ ∃ t ∈ history, t.before.db.Tracks repl

inductive Phase (history : List Transition) (sys : System) (repl : Ref) : Prop
  | uncommitted (accepted : ¬ Accepted history repl) (undone : ¬ Undone history repl)
      (row : ¬ sys.db.CommittedTo repl)
      (idle : ∀ i, ¬ sys.Refusing i repl ∧ ¬ sys.Cancelling i repl)
  | committing (i : ℕ) (undone : ¬ Undone history repl) (row : sys.db.CommittedTo repl)
      (only : ∀ j, sys.Refusing j repl → j = i)
      (refused : sys.Refused i repl → ¬ Accepted history repl)
  | committed (undone : ¬ Undone history repl) (row : sys.db.CommittedTo repl)
      (settled : ∀ i, ¬ sys.Refusing i repl)
  | left (undone : ¬ Undone history repl) (departed : Departed history sys repl)
  | undone (accepted : ¬ Accepted history repl) (departed : Departed history sys repl)
      (settled : ∀ i, ¬ sys.Cancelling i repl)

theorem Phase.initial (db : Database) (repl : Ref) : Phase [] ⟨db, []⟩ repl := by
  have hat : ∀ i, (⟨db, []⟩ : System).taskAt i = none := fun i => by simp [System.taskAt]
  have hr : ∀ i, ¬ (⟨db, []⟩ : System).Refusing i repl := by
    rintro i ⟨refs, -, h | h⟩ <;> simp [hat] at h
  have hc : ∀ i, ¬ (⟨db, []⟩ : System).Cancelling i repl := by
    rintro i ⟨refs, -, h | h⟩ <;> simp [hat] at h
  by_cases h : db.CommittedTo repl
  · exact .committed (by simp [Undone]) h hr
  · exact .uncommitted (by simp [Accepted]) (by simp [Undone]) h fun i => ⟨hr i, hc i⟩

structure Orderly (history : List Transition) (t : Transition) : Prop where
  fresh : t.Fresh history
  /-- The provider refuses no commit's cancel after it has accepted one. -/
  steady : ∀ repl, Accepted history repl → ¬ t.RefusesCancel repl
  /-- It accepts none between a refusal and the storing of it. -/
  reissue : ∀ repl i, t.before.Refused i repl → ¬ t.AcceptsCancel repl
  stores : ¬ t.StoresEarly
  read : ¬ t.ClearsUnread
  kept : ¬ t.OverwritesCommitted

section Phases

variable {h : List Transition} {sys : System} {choice : Choice} {repl : Ref}

theorem Departed.step (hs : sys.Sound) (hd : Departed h sys repl)
    (hfresh : Transition.Fresh h (transition System.step sys choice)) :
    Departed (h ++ [transition System.step sys choice]) (sys.step choice) repl := by
  obtain ⟨hrow, u, hu, htracks⟩ := hd
  refine ⟨?_, u, List.mem_append_left _ hu, htracks⟩
  rcases System.replacement_step hs choice with hr | hr | ⟨created, hcreated, hr⟩
  · rwa [hr]
  · simp [hr]
  · rw [hr]
    rintro heq
    cases heq
    exact hfresh created hcreated u (List.mem_append_left _ hu) htracks

theorem Departed.of_committed (hc : sys.db.CommittedTo repl)
    (hrow : (sys.step choice).db.replacement? ≠ some repl) :
    Departed (h ++ [transition System.step sys choice]) (sys.step choice) repl :=
  ⟨hrow, _, List.mem_append_right _ (List.mem_singleton.mpr rfl), hc.tracks⟩

theorem Phase.step_uncommitted (ho : sys.Ordered) (accepted : ¬ Accepted h repl)
    (undone : ¬ Undone h repl) (row : ¬ sys.db.CommittedTo repl)
    (idle : ∀ i, ¬ sys.Refusing i repl ∧ ¬ sys.Cancelling i repl) :
    Phase (h ++ [transition System.step sys choice]) (sys.step choice) repl := by
  have hacc : ¬ Accepted (h ++ [transition System.step sys choice]) repl := by
    rw [accepted_append]
    rintro (ha | ha)
    · exact accepted ha
    · obtain ⟨i, -, -, hc⟩ := acceptsCancel_cancelling ha
      exact (idle i).2 hc
  have hund : ¬ Undone (h ++ [transition System.step sys choice]) repl := by
    rw [undone_append]
    rintro (hu | hu)
    · exact undone hu
    · obtain ⟨i, -, -, hr⟩ := undoes_refused hu
      exact (idle i).1 hr.refusing
  have commits : ∀ i, (sys.step choice).Refusing i repl ∨ (sys.step choice).Cancelling i repl →
      sys.Commits choice i repl := by
    rintro i (hr | hc)
    · exact (refusing_step ho hr).resolve_left (idle i).1
    · rcases cancelling_step ho hc with h | h | ⟨_, _, _, _, _, _, _, _, _, hrow⟩
      · exact absurd h.1 (idle i).2
      · exact h
      · exact absurd hrow row
  by_cases hrow : (sys.step choice).db.CommittedTo repl
  · by_cases href : ∃ i, (sys.step choice).Refusing i repl
    · obtain ⟨i, hr⟩ := href
      obtain ⟨⟨env, hl⟩, -⟩ := commits i (Or.inl hr)
      refine .committing i hund hrow (fun j hj => ?_) fun _ => hacc
      obtain ⟨⟨env', hl'⟩, -⟩ := commits j (Or.inl hj)
      rw [hl] at hl'
      cases hl'
      rfl
    · exact .committed hund hrow fun i hr => href ⟨i, hr⟩
  · refine .uncommitted hacc hund hrow fun i => ⟨fun hr => ?_, fun hc => ?_⟩
    · exact hrow (commits i (Or.inl hr)).2.2.2.2
    · exact hrow (commits i (Or.inr hc)).2.2.2.2

theorem Phase.step_committed (ho : sys.Ordered) (undone : ¬ Undone h repl)
    (row : sys.db.CommittedTo repl) (settled : ∀ i, ¬ sys.Refusing i repl)
    (hok : Orderly h (transition System.step sys choice)) :
    Phase (h ++ [transition System.step sys choice]) (sys.step choice) repl ∧
      (¬ (sys.step choice).db.CommittedTo repl →
        Transition.LeavesProperly (transition System.step sys choice) repl) := by
  have hund : ¬ Undone (h ++ [transition System.step sys choice]) repl := by
    rw [undone_append]
    rintro (hu | hu)
    · exact undone hu
    · obtain ⟨i, -, -, hr⟩ := undoes_refused hu
      exact settled i hr.refusing
  have hsettled : ∀ i, ¬ (sys.step choice).Refusing i repl := by
    intro i hr
    rcases refusing_step ho hr with h | ⟨-, -, hno, -⟩
    · exact settled i h
    · exact hno row
  rcases committed_step choice row with hrow | ⟨hleft, hrow⟩ |
    ⟨⟨i, env, refs, -, hat, hrefs⟩, -⟩ | hover
  · exact ⟨.committed hund hrow hsettled, fun hn => absurd hrow hn⟩
  · exact ⟨.left hund (.of_committed row hrow), fun _ => hleft⟩
  · exact absurd ⟨refs, hrefs, Or.inr hat⟩ (settled i)
  · exact absurd hover hok.kept

/-- T2 of the one thread that was refused abandons the replacement, and nobody cancels any more. -/
theorem Phase.step_undone (ho : sys.Ordered) {i : ℕ} (row : sys.db.CommittedTo repl)
    (only : ∀ j, sys.Refusing j repl → j = i) (refused : sys.Refused i repl → ¬ Accepted h repl)
    (hok : Orderly h (transition System.step sys choice))
    (hund : Transition.Undoes (transition System.step sys choice) repl) :
    Phase (h ++ [transition System.step sys choice]) (sys.step choice) repl := by
  obtain ⟨k, env, hl, hk⟩ := undoes_refused hund
  have hki := only k hk.refusing
  subst hki
  have hat : ∃ refs, sys.taskAt k = some (.commitSecond refs true) := hk.imp fun _ h => h.2
  obtain ⟨refs, hat⟩ := hat
  have hrow : (sys.step choice).db.replacement? ≠ some repl := by
    obtain ⟨_, _, _, _, _, _, _, hnot⟩ := hund
    rcases committed_step choice row with hc | ⟨-, hr⟩ | ⟨-, hr | hr⟩ | hr
    · exact absurd hc hnot
    · exact hr
    · rw [hr]
      simp
    · exact absurd hr hok.read
    · exact absurd hr hok.kept
  refine .undone ?_ (.of_committed row hrow) fun j hc => ?_
  · rw [accepted_append]
    rintro (ha | ha)
    · exact refused hk ha
    · exact hok.reissue repl k hk ha
  · rcases cancelling_step ho hc with ⟨⟨refs', hrefs', hj | hj⟩, hne⟩ | hcommits |
      ⟨env', _, _, hl', hj, -⟩
    · have := only j ⟨refs', hrefs', Or.inl hj⟩
      subst this
      exact hne env hl
    · exact hok.stores ⟨k, j, env, repl, hl, hk, row, refs', hrefs', hj⟩
    · exact hcommits.2.2.1 row
    · rw [hl] at hl'
      cases hl'
      rw [hat] at hj
      cases hj

theorem Phase.step_committing (ho : sys.Ordered) {i : ℕ} (undone : ¬ Undone h repl)
    (row : sys.db.CommittedTo repl) (only : ∀ j, sys.Refusing j repl → j = i)
    (refused : sys.Refused i repl → ¬ Accepted h repl)
    (hok : Orderly h (transition System.step sys choice)) :
    Phase (h ++ [transition System.step sys choice]) (sys.step choice) repl ∧
      (Accepted h repl → ¬ (sys.step choice).db.CommittedTo repl →
        Transition.LeavesProperly (transition System.step sys choice) repl) := by
  have stays : ∀ j, (sys.step choice).Refusing j repl → j = i := fun j hr =>
    only j ((refusing_step ho hr).resolve_right fun hc => hc.2.2.1 row)
  have hrefused : (sys.step choice).Refused i repl →
      ¬ Accepted (h ++ [transition System.step sys choice]) repl := by
    intro hr
    rw [accepted_append]
    rcases refused_step ho hr with hr | ⟨-, hrefuses⟩
    · exact not_or.mpr ⟨refused hr, hok.reissue repl i hr⟩
    · exact not_or.mpr ⟨fun ha => hok.steady repl ha hrefuses, hrefuses.not_accepts⟩
  by_cases hund : Transition.Undoes (transition System.step sys choice) repl
  · refine ⟨Phase.step_undone ho row only refused hok hund, fun ha _ => ?_⟩
    obtain ⟨k, -, -, hk⟩ := undoes_refused hund
    have hki := only k hk.refusing
    subst hki
    exact absurd ha (refused hk)
  · have hund' : ¬ Undone (h ++ [transition System.step sys choice]) repl := by
      rw [undone_append]
      exact fun hu => hu.elim undone hund
    rcases committed_step choice row with hrow | ⟨hleft, hr⟩ |
      ⟨⟨k, env, refs, hl, hat, hrefs⟩, -⟩ | hover
    · exact ⟨.committing i hund' hrow stays hrefused, fun _ hn => absurd hrow hn⟩
    · exact ⟨.left hund' (.of_committed row hr), fun _ _ => hleft⟩
    · have hrow : (sys.step choice).db.CommittedTo repl :=
        by_contra fun hn => hund ⟨k, env, refs, hl, hat, hrefs, row, hn⟩
      exact ⟨.committing i hund' hrow stays hrefused, fun _ hn => absurd hrow hn⟩
    · exact absurd hover hok.kept

theorem Departed.uncommitted (hd : Departed h sys repl) : ¬ sys.db.CommittedTo repl :=
  fun hc => hd.1 hc.replacement

theorem Phase.step (hs : sys.Sound) (ho : sys.Ordered) (hp : Phase h sys repl)
    (hok : Orderly h (transition System.step sys choice)) :
    Phase (h ++ [transition System.step sys choice]) (sys.step choice) repl ∧
      (Accepted h repl → sys.db.CommittedTo repl → ¬ (sys.step choice).db.CommittedTo repl →
        Transition.LeavesProperly (transition System.step sys choice) repl) := by
  cases hp with
  | uncommitted accepted undone row idle =>
    exact ⟨Phase.step_uncommitted ho accepted undone row idle, fun ha => absurd ha accepted⟩
  | committing i undone row only refused =>
    obtain ⟨hp, hleft⟩ := Phase.step_committing ho undone row only refused hok
    exact ⟨hp, fun ha _ => hleft ha⟩
  | committed undone row settled =>
    obtain ⟨hp, hleft⟩ := Phase.step_committed ho undone row settled hok
    exact ⟨hp, fun _ _ => hleft⟩
  | left undone departed =>
    refine ⟨.left ?_ (departed.step hs hok.fresh), fun _ hc => absurd hc departed.uncommitted⟩
    rw [undone_append]
    rintro (hu | ⟨_, _, _, _, _, _, hc, _⟩)
    · exact undone hu
    · exact departed.uncommitted hc
  | undone accepted departed settled =>
    refine ⟨.undone ?_ (departed.step hs hok.fresh) ?_,
      fun _ hc => absurd hc departed.uncommitted⟩
    · rw [accepted_append]
      rintro (ha | ha)
      · exact accepted ha
      · obtain ⟨i, -, -, hc⟩ := acceptsCancel_cancelling ha
        exact settled i hc
    · intro i hc
      rcases cancelling_step ho hc with h | h | ⟨_, _, _, _, _, _, _, _, _, hrow⟩
      · exact settled i h.1
      · exact departed.1 h.2.2.2.1
      · exact departed.uncommitted hrow

theorem Phase.exclusive (hp : Phase h sys repl) : ¬ (Accepted h repl ∧ Undone h repl) := by
  rintro ⟨ha, hu⟩
  cases hp with
  | uncommitted accepted undone row idle => exact accepted ha
  | committing i undone row only refused => exact undone hu
  | committed undone row settled => exact undone hu
  | left undone departed => exact undone hu
  | undone accepted departed settled => exact accepted ha

end Phases

/-- In an orderly run no replacement has both an accepted cancel of the old subscription and
an undone commit; and after an accepted cancel the committed state is only left by a
switch, a failed replacement or the merchant's cancel. -/
theorem downgrade_kept (db : Database) (choices : List Choice) (repl : Ref)
    (horderly : Meets Orderly (runFrom db choices)) :
    ¬ (Accepted (runFrom db choices) repl ∧ Undone (runFrom db choices) repl) ∧
      Meets (fun h (t : Transition) => Accepted h repl → t.before.db.CommittedTo repl →
        ¬ t.after.db.CommittedTo repl → t.LeavesProperly repl) (runFrom db choices) := by
  have hinit : (⟨db, []⟩ : System).Sound ∧ (⟨db, []⟩ : System).Ordered ∧
      Phase [] ⟨db, []⟩ repl :=
    ⟨by simp [System.Sound], by simp [System.Ordered], .initial db repl⟩
  have hstep : ∀ h sys choice, (System.Sound sys ∧ sys.Ordered ∧ Phase h sys repl) →
      Orderly h (transition System.step sys choice) →
      ((sys.step choice).Sound ∧ (sys.step choice).Ordered ∧
        Phase (h ++ [transition System.step sys choice]) (sys.step choice) repl) ∧
      (Accepted h repl → sys.db.CommittedTo repl → ¬ (sys.step choice).db.CommittedTo repl →
        Transition.LeavesProperly (transition System.step sys choice) repl) := by
    rintro h sys choice ⟨hs, ho, hp⟩ hok
    obtain ⟨hp', hleft⟩ := hp.step hs ho hok
    exact ⟨⟨System.step_sound hs choice, System.step_ordered ho choice, hp'⟩, hleft⟩
  refine ⟨?_, MeetsFrom.of_invariant hinit hstep horderly⟩
  exact (trace_history hinit (fun h sys choice hp hok => (hstep h sys choice hp hok).1)
    horderly).2.2.exclusive

instance (db : Database) (repl : Ref) : Decidable (db.CommittedTo repl) :=
  decidable_of_iff (db.sub?.any (fun sub => decide (sub.replacementProviderRef = some repl ∧
    sub.replacementCommittedAt.isSome = true)) = true) (by
    unfold Database.CommittedTo
    cases db.sub? <;> simp)

def Transition.harmless (t : Transition) : Bool :=
  (match t.label with
    | .request _ _ _ => false
    | .advance _ env => t.before.threads.all fun thread => match thread.todo.head? with
      | some (.commitSecond _ true) => false
      | some (.commitCancel refs) => refs.oldRef.all fun old =>
        (env.oracle.subscription thread.journal.calls.length (.cancelSubscription old true)).isOk
      | _ => true
    | _ => true) &&
  !t.stepCalls.any Call.creates

theorem Transition.harmless.not_refused {t : Transition} {i j : ℕ} {env : Env} {repl : Ref}
    (hb : t.harmless = true) (hlabel : t.label = .advance j env) : ¬ t.before.Refused i repl := by
  rintro ⟨refs, -, hat⟩
  obtain ⟨thread, hi, hhead⟩ := Option.bind_eq_some_iff.mp hat
  rw [Transition.harmless, Bool.and_eq_true, hlabel] at hb
  have hthread := List.all_eq_true.mp hb.1 thread (List.mem_of_getElem? hi)
  simp [hhead] at hthread

theorem Orderly.of_harmless {h : List Transition} {t : Transition} (hb : t.harmless = true) :
    Orderly h t := by
  have hrefused : ∀ i j env repl, t.label = .advance j env → ¬ t.before.Refused i repl :=
    fun _ _ _ _ hlabel => Transition.harmless.not_refused hb hlabel
  rw [Transition.harmless, Bool.and_eq_true, Bool.not_eq_true'] at hb
  obtain ⟨hl, hc⟩ := hb
  refine ⟨?_, ?_, ?_, ?_, ?_, ?_⟩
  · exact fun created hcreated => absurd hcreated (not_createdBy hc)
  · rintro repl - ⟨i, env, thread, refs, old, code, status, reason, hlabel, hi, hhead, -, hold,
      hans⟩
    rw [hlabel] at hl
    have hthread := List.all_eq_true.mp hl thread (List.mem_of_getElem? hi)
    simp [hhead, hold, hans, Except.isOk, Except.toBool] at hthread
  · rintro repl i hr ⟨j, env, _, _, _, _, hlabel, -⟩
    exact hrefused i j env repl hlabel hr
  · rintro ⟨i, j, env, repl, hlabel, hr, -⟩
    exact hrefused i i env repl hlabel hr
  · rintro ⟨i, env, thread, refs, sub, hlabel, hi, hhead, -⟩
    exact hrefused i i env refs.replRef hlabel ⟨refs, rfl, by
      rw [System.taskAt_of_thread hi, hhead]⟩
  · rintro ⟨⟨_, _, _, _, _, _, _, _, _, _, hlabel, -⟩, -⟩
    simp [hlabel] at hl

def downgradePending : Database :=
  rowless.withRow
    { plan := growth
      status := .active
      currentPeriodStart := some (seconds 1000)
      currentPeriodEnd := some (seconds 2000)
      paymentProviderRef := some refA
      pendingPlan := some starter
      replacementProviderRef := some refB
      replacementPlan := some starter
      replacementExpiresAt := some (seconds 1899) } (by decide)

def authenticatedB : Dict :=
  entityOf "sub_b" "plan_s" "authenticated" 0 0 ++
    [("start_at", .int 2000), ("expire_by", .int 1899)]

/-- The replacement can be read, and a cancel is answered with `cancel`. -/
def answersCancel (cancel : Except ProviderFailure Dict) : Env :=
  ({ fetch := fun _ => .ok authenticatedB, cancel := cancel } : Answers).at 1500

def acceptsCancel : Env := answersCancel (.ok (entityOf "sub_a" "plan_g" "active" 1000 2000))

def refusesCancel : Env :=
  answersCancel (.error (.rejected (some "BAD_REQUEST_ERROR") (some 400) none))

/-- One sweep commits the downgrade, and its cancel is accepted, beside another sweep and
dunning. -/
def commitBeside : List Choice :=
  [.spawn .sync, .spawn .sync, .spawn .dunning] ++ List.replicate 3 (.advance 0 acceptsCancel) ++
    List.replicate 2 (.advance 1 acceptsCancel) ++ List.replicate 2 (.advance 0 acceptsCancel) ++
    .advance 2 acceptsCancel :: List.replicate 2 (.advance 0 acceptsCancel) ++
    List.replicate 2 (.advance 1 acceptsCancel)

theorem downgrade_kept_beside : Accepted (runFrom downgradePending commitBeside) refB ∧
    ¬ Undone (runFrom downgradePending commitBeside) refB := by
  have hok : Meets Orderly (runFrom downgradePending commitBeside) :=
    MeetsFrom.mono (MeetsFrom.of_forall (C := fun t => Transition.harmless t = true)
      (by decide) []) fun _ _ hb => .of_harmless hb
  have ha : Accepted (runFrom downgradePending commitBeside) refB :=
    ⟨_, (runFrom downgradePending commitBeside).get_mem ⟨11, by decide⟩,
      0, _, _, _, _, _, rfl, rfl, Or.inl rfl, rfl, rfl, rfl⟩
  exact ⟨ha, fun hu => (downgrade_kept _ _ _ hok).1 ⟨ha, hu⟩⟩

/-- Between T1 and the refused cancel of one sweep, another re-issues the cancel and has it
accepted. -/
def commitRace : List Choice :=
  [.spawn .sync, .spawn .sync] ++ List.replicate 5 (.advance 0 refusesCancel) ++
    List.replicate 7 (.advance 1 acceptsCancel) ++ List.replicate 2 (.advance 0 refusesCancel)

theorem downgrade_undone : Accepted (runFrom downgradePending commitRace) refB ∧
    Undone (runFrom downgradePending commitRace) refB := by
  constructor
  · exact ⟨_, (runFrom downgradePending commitRace).get_mem ⟨13, by decide⟩,
      1, _, _, _, _, _, rfl, rfl, Or.inr rfl, rfl, rfl, rfl⟩
  · exact ⟨_, (runFrom downgradePending commitRace).get_mem ⟨15, by decide⟩,
      0, _, _, rfl, rfl, rfl, by decide, by decide⟩

end ReviewFlow.Billing
