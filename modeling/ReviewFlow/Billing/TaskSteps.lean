import ReviewFlow.Billing.Tasks

/-!
# What each step of a task does

`Task.step_spec` is the specification of all of them. From it follow the two facts
that hold of any step: it tends the tables, and the next task is sound.
-/

namespace ReviewFlow.Billing

open Savepoint

section Rules

variable {env : Env} {s : State}

theorem orNone_razorpay_spec {request : Request} :
    Program.wp env (orNone (razorpay request))
      (fun r t => t.data = s.data ∧ ∀ entity ∈ r,
        env.oracle.subscription s.journal.calls.length request = .ok entity ∧
        .subscription request (.ok entity) ∈ t.journal.calls)
      (fun _ t => t.data = s.data) s := by
  rw [wp_orNone, wp_razorpay]
  refine ⟨fun entity h => ⟨rfl, ?_⟩, fun failure _ => ⟨fun _ => ⟨rfl, by simp⟩, fun _ => rfl⟩⟩
  rintro _ ⟨⟩
  exact ⟨h, by simp⟩

theorem syncInvoices_spec {ref : Ref} {oldStatus : Status} {oldStart : Option Time}
    {entity : Dict} :
    Program.wp env (syncInvoices ref oldStatus oldStart entity)
      (fun r t => t.data = s.data ∧ ∀ invoices ∈ r, Invoiced t.journal.calls invoices)
      (fun _ t => t.data = s.data) s := by
  unfold syncInvoices
  rw [wp_orNone]
  refine Program.wp_mono fetchInvoicesIfNeeded_spec ?_ ?_
  · rintro invoices t ⟨ht, hi⟩
    refine ⟨ht, ?_⟩
    rintro _ ⟨⟩
    exact hi
  · exact fun e t ht => ⟨fun _ => ⟨ht, by simp⟩, fun _ => ht⟩

/-- The outcome of the cancel between T1 and T2, if it is known: accepted or rejected. -/
theorem cancelOutcome_spec {ref : Ref} :
    Program.wp env (cancelOutcome ref)
      (fun outcome t => t.data = s.data ∧ ∀ refused ∈ outcome, (refused = false ↔
        ∃ entity, env.oracle.subscription s.journal.calls.length (.cancelSubscription ref true) =
          .ok entity) ∧ (refused = true → ∃ code status reason,
        env.oracle.subscription s.journal.calls.length (.cancelSubscription ref true) =
          .error (.rejected code status reason)))
      (fun _ t => t.data = s.data) s := by
  unfold cancelOutcome
  rw [Program.wp_handle, Program.wp_bind, wp_razorpay]
  refine ⟨fun entity h => ⟨rfl, ?_⟩, fun failure h => ?_⟩
  · rintro _ ⟨⟩
    exact ⟨⟨fun _ => ⟨entity, h⟩, fun _ => rfl⟩, fun h => nomatch h⟩
  · split
    case h_1 code status reason heq =>
      cases heq
      refine ⟨rfl, ?_⟩
      rintro _ ⟨⟩
      refine ⟨⟨fun h => (nomatch h), fun hok => ?_⟩, fun _ => ⟨code, status, reason, h⟩⟩
      obtain ⟨e, he⟩ := hok
      rw [h] at he
      cases he
    · rw [Program.wp_ite]
      exact ⟨fun _ => ⟨rfl, by simp⟩, fun _ => rfl⟩

theorem commitT1_wp : Program.wp env commitT1 (fun r t => CommitPost r s t)
    (fun _ t => t.data = s.data) s :=
  Program.wp_mono (Program.wp_and commitT1_spec (Program.savepoint_raises _))
    (fun _ _ h => h.1) (fun _ _ h => h.2)

theorem commitT2_wp {refs : CommitRefs} {refused : Bool} :
    Program.wp env (commitT2 refs refused) (fun _ t => OutcomePost env refs refused s t)
      (fun _ t => t.data = s.data) s :=
  Program.wp_mono (Program.wp_and commitT2_spec (Program.savepoint_raises _))
    (fun _ _ h => h.1) (fun _ _ h => h.2)

theorem insertEvent_spec {ref : Ref} {eventId eventType : String} :
    Program.wp env (insertEvent ref eventId eventType)
      (fun _ t => Inserts ref s.data t.data) (fun _ t => t.data = s.data) s := by
  unfold insertEvent
  rw [Program.wp_bind, wp_timezoneNow, Program.wp_query]
  split
  · exact ⟨fun _ _ => ⟨.refl _, Or.inl rfl⟩, by simp⟩
  · exact ⟨fun _ _ => ⟨⟨rfl, rfl⟩, Or.inr ⟨_, rfl, rfl, rfl⟩⟩, by simp⟩

theorem dunningTransaction_wp : Program.wp env dunningTransaction
    (fun _ t => Untouched s.data t.data ∨ ∃ sub sub', Plain sub sub' s.data t.data)
    (fun _ t => t.data = s.data) s := by
  have hraise : Program.wp env dunningTransaction (fun _ _ => True)
      (fun _ t => t.data = s.data) s := by
    unfold dunningTransaction
    rw [Program.wp_bind, wp_timezoneNow]
    exact Program.savepoint_raises (s := s.tick) _
  exact Program.wp_mono (Program.wp_and dunningTransaction_spec hraise) (fun _ _ h => h.1)
    (fun _ _ h => h.2)

theorem wp_transaction {α : Type} {m : Prog α} {f : α → Option Task} {Q : α → State → Prop}
    {R : Option Task → State → Prop} (h : Program.wp env m Q (fun _ t => t.data = s.data) s)
    (hf : ∀ a t, Q a t → R (f a) t) :
    Program.wp env (do let a ← m; pure (f a)) R (fun _ t => t.data = s.data) s :=
  Program.wp_bind_of h hf (fun _ _ h => h)

theorem wp_read {f : Option Subscription → Option Task} {g : Subscription → Option Task}
    (hf : ∀ row, ∀ task ∈ f row, ∃ sub, row = some sub ∧ task ∈ g sub) :
    Program.wp env (do let row ← firstSubscription; pure (f row)) (Reads g s)
      (fun _ t => t.data = s.data) s := by
  rw [Program.wp_bind, wp_firstSubscription]
  exact ⟨rfl, hf s.data.sub?⟩

theorem wp_call {request : Request} {f : Option Dict → Option Task} {g : Dict → Option Task}
    (hf : ∀ answer, ∀ task ∈ f answer, ∃ entity, answer = some entity ∧ task ∈ g entity) :
    Program.wp env (do let answer ← orNone (razorpay request); pure (f answer))
      (Fetches env request g s) (fun _ t => t.data = s.data) s := by
  refine Program.wp_bind_of orNone_razorpay_spec ?_ (fun _ _ h => h)
  rintro answer t ⟨ht, ha⟩
  refine ⟨ht, fun task htask => ?_⟩
  obtain ⟨entity, rfl, hg⟩ := hf answer task htask
  exact ⟨entity, (ha entity rfl).1, (ha entity rfl).2, hg⟩

theorem mainApply_spec {entity : Dict} {invoices : Option (List Json)} {started : Time} :
    Program.wp env (mainApply entity invoices started)
      (fun _ t => ∃ result u, MainApplied env entity invoices started s u t result)
      (fun _ t => t.data = s.data) s := by
  unfold mainApply
  refine Program.wp_of_savepoint ?_
  refine Program.returns_bind (Program.returns_of_wp (Program.wp_and applySnapshot_wp
    (Program.wp_run _))) ?_
  rintro r u ⟨hu, hrun⟩
  rw [Program.returns, Program.wp_bind, wp_firstSubscription, Program.wp_whenever]
  refine ⟨fun hs => ?_, fun _ => ⟨r, u, hrun, hu, le_refl _, .refl _ u⟩⟩
  refine Program.returns_mono (Program.returns_of_wp (Program.wp_grows markEvents_spec)) ?_
  rintro _ t ⟨⟨-, ht⟩, hg⟩
  exact ⟨r, u, hrun, hu, hg, ht.mono fun _ _ he => ⟨hs, he⟩⟩

theorem replacementApply_spec {ref : Ref} {entity : Dict} {invoices : Option (List Json)}
    {started : Time} :
    Program.wp env (replacementApply ref entity invoices started)
      (fun _ t => ∃ result u, ReplacementApplied env ref entity invoices started s u t result)
      (fun _ t => t.data = s.data) s := by
  unfold replacementApply
  refine Program.wp_of_savepoint ?_
  refine Program.returns_bind (Program.returns_of_wp (Program.wp_and
    (Program.wp_mono applyReplacementSnapshot_spec (fun _ _ h => h) (fun _ _ _ => trivial))
    (Program.wp_run _))) ?_
  rintro r u ⟨hu, hrun⟩
  rw [Program.returns, Program.wp_whenever]
  refine ⟨fun hs => ?_, fun _ => ⟨r, u, hrun, hu, le_refl _, .refl _ u⟩⟩
  refine Program.returns_mono (Program.returns_of_wp (Program.wp_grows markEvents_spec)) ?_
  rintro _ t ⟨⟨-, ht⟩, hg⟩
  exact ⟨r, u, hrun, hu, hg, ht.mono fun _ _ he => ⟨hs, he⟩⟩

theorem clearRetired_wp {ref : Ref} :
    Program.wp env (clearRetired ref)
      (fun _ t => (Untouched s.data t.data ∨ ∃ sub, RetiredCleared ref sub s.data t.data) ∧
        s.journal ≤ t.journal) (fun _ t => t.data = s.data) s :=
  Program.wp_mono (Program.wp_grows (Program.wp_and clearRetired_spec (Program.savepoint_raises _)))
    (fun _ _ h => ⟨h.1.1, h.2⟩) (fun _ _ h => h.1.2)

theorem reissueConfirm_wp {refs : CommitRefs} :
    Program.wp env (Billing.reissueConfirm refs)
      (fun _ t => Untouched s.data t.data ∨ ∃ sub now, stillCommitted sub refs = true ∧
        Stored sub { sub with replacementCancelConfirmedAt := some now } s.data t.data)
      (fun _ t => t.data = s.data) s :=
  Program.wp_mono (Program.wp_and reissueConfirm_spec (Program.savepoint_raises _))
    (fun _ _ h => h.1) (fun _ _ h => h.2)

theorem mem_ite_some {c : Prop} [Decidable c] {a b : Task} (h : a ∈ if c then some b else none) :
    c ∧ a = b := by
  split at h
  · cases h
    exact ⟨‹c›, rfl⟩
  · cases h

theorem Task.step_spec (task : Task) :
    Program.wp env task.step (fun next t => task.Post env s next t)
    (fun _ t => t.data = s.data) s := by
  cases task with
  | replacementRead => exact wp_read fun row task h => Option.bind_eq_some_iff.mp h
  | mainRead => exact wp_read fun row task h => Option.bind_eq_some_iff.mp h
  | retiredRead => exact wp_read fun row task h => Option.bind_eq_some_iff.mp h
  | webhookLookup ref eventId eventType =>
    refine wp_read fun row task h => ?_
    obtain ⟨hany, rfl⟩ := mem_ite_some h
    cases row with
    | none => cases hany
    | some sub => exact ⟨sub, rfl, by rw [if_pos (by simpa using hany)]; rfl⟩
  | owedRead =>
    refine wp_read (f := fun row => ((row.filter owed).bind (·.paymentProviderRef)).map .owedCancel)
      fun row task h => ?_
    obtain ⟨ref, hb, rfl⟩ := Option.map_eq_some_iff.mp h
    obtain ⟨sub, hf, hp⟩ := Option.bind_eq_some_iff.mp hb
    obtain ⟨hs, ho⟩ := Option.filter_eq_some_iff.mp hf
    exact ⟨sub, hs, by rw [if_pos ho, hp]; rfl⟩
  | reissueRead =>
    refine wp_read (f := fun row => ((row.filter unconfirmed).bind commitRefs).map .reissueCancel)
      fun row task h => ?_
    obtain ⟨refs, hb, rfl⟩ := Option.map_eq_some_iff.mp h
    obtain ⟨sub, hf, hp⟩ := Option.bind_eq_some_iff.mp hb
    obtain ⟨hs, hu⟩ := Option.filter_eq_some_iff.mp hf
    exact ⟨sub, hs, by rw [if_pos hu, hp]; rfl⟩
  | replacementFetch ref oldStatus oldStart =>
    simp only [Task.step]
    rw [Program.wp_bind, wp_timezoneNow]
    refine wp_call (s := s.tick) fun answer task h => ?_
    obtain ⟨entity, hf, rfl⟩ := Option.map_eq_some_iff.mp h
    obtain ⟨ha, hid⟩ := Option.filter_eq_some_iff.mp hf
    exact ⟨entity, ha, by rw [if_pos hid]; rfl⟩
  | mainFetch ref oldStatus oldStart =>
    simp only [Task.step]
    rw [Program.wp_bind, wp_timezoneNow]
    refine wp_call (s := s.tick) fun answer task h => ?_
    obtain ⟨entity, ha, rfl⟩ := Option.map_eq_some_iff.mp h
    exact ⟨entity, ha, rfl⟩
  | replacementInvoices ref oldStatus oldStart started entity =>
    refine wp_transaction syncInvoices_spec fun answer t ht => ⟨ht.1, fun task h => ?_⟩
    obtain ⟨invoices, rfl, rfl⟩ := Option.map_eq_some_iff.mp h
    exact ⟨invoices, ht.2 invoices rfl, rfl⟩
  | mainInvoices ref oldStatus oldStart started entity =>
    refine wp_transaction syncInvoices_spec fun answer t ht => ⟨ht.1, fun task h => ?_⟩
    obtain ⟨invoices, rfl, rfl⟩ := Option.map_eq_some_iff.mp h
    exact ⟨invoices, ht.2 invoices rfl, rfl⟩
  | replacementApply ref started entity invoices =>
    exact wp_transaction (f := fun _ => _) replacementApply_spec fun _ t ht =>
      ⟨fun task h => (mem_ite_some h).2, ht⟩
  | mainApply ref started entity invoices =>
    exact wp_transaction (f := fun _ => none) mainApply_spec fun _ t ht => ⟨rfl, ht⟩
  | commitFirst => exact wp_transaction commitT1_wp fun refs t ht => ⟨refs, rfl, ht⟩
  | commitCancel refs =>
    simp only [Task.step]
    split
    · exact rfl
    · rename_i old hold
      refine wp_transaction cancelOutcome_spec fun outcome t ht => ⟨ht.1, fun task h => ?_⟩
      obtain ⟨refused, rfl, rfl⟩ := Option.map_eq_some_iff.mp h
      exact ⟨old, refused, hold, rfl, ht.2 refused rfl⟩
  | commitSecond refs refused =>
    refine wp_transaction
      (f := fun committed => if committed = true then none else some .reissueRead)
      commitT2_wp fun committed t ht => ⟨fun task h => ?_, ht⟩
    split at h
    · cases h
    · cases h
      rfl
  | reissueCancel refs =>
    simp only [Task.step]
    split
    · exact rfl
    · refine wp_transaction orNone_razorpay_spec fun answer t ht => ⟨ht.1, fun task h => ?_⟩
      obtain ⟨entity, -, rfl⟩ := Option.map_eq_some_iff.mp h
      rfl
  | reissueConfirm refs =>
    exact wp_transaction (f := fun _ => none) reissueConfirm_wp fun _ t ht => ⟨rfl, ht⟩
  | retiredFetch ref kind =>
    refine wp_call fun answer task h => ?_
    cases answer with
    | none => cases h
    | some entity => exact ⟨entity, rfl, h⟩
  | retiredCancel ref =>
    refine wp_call fun answer task h => ?_
    obtain ⟨hany, rfl⟩ := mem_ite_some h
    cases answer with
    | none => cases hany
    | some entity => exact ⟨entity, rfl, by rw [if_pos (by simpa using hany)]; rfl⟩
  | retiredClear ref =>
    exact wp_transaction (f := fun _ => none) clearRetired_wp fun _ t ht => ⟨rfl, ht⟩
  | dunning =>
    exact wp_transaction (f := fun _ => some .owedRead) dunningTransaction_wp fun _ t ht =>
      ⟨rfl, ht⟩
  | owedCancel ref =>
    exact wp_call fun answer task h => Option.bind_eq_some_iff.mp h
  | owedStore ref status =>
    exact wp_transaction (f := fun _ => none) updateProviderStatus_spec fun _ t ht => ⟨rfl, ht⟩
  | webhookInsert ref eventId eventType =>
    exact wp_transaction (f := fun _ => none) insertEvent_spec fun _ t ht => ⟨rfl, ht⟩

end Rules

section Sound

variable {env : Env} {s t : State} {next : Option Task}

theorem ReplacementPost.tended {entity : Dict} {invoices : Option (List Json)} {started : Time}
    {settings : Settings} (h : ReplacementPost settings entity invoices started s t)
    (hans : Answered t.journal.calls entity) (hinv : Invoiced t.journal.calls invoices) :
    Tended t.journal.calls s.data t.data := by
  cases h with
  | kept same => exact .of_untouched same
  | abandoned sub sub' uncommitted done => exact .tending (.retires done)
  | failed sub sub' entity' read fails done => exact .tending (.retires done)
  | switched sub plan status start stop done => exact .entitling (.switched hans hinv done)

theorem CommitPost.tended {r : Option CommitRefs} (h : CommitPost r s t) :
    Tended t.journal.calls s.data t.data := by
  cases h with
  | kept none same => exact .of_untouched same
  | abandoned sub sub' none uncommitted done => exact .tending (.retires done)
  | committed sub now refs result candidate hrefs done => exact .tending (.committed candidate done)

theorem confirmed_plain {sub : Subscription} {now : Time} {db db' : Database}
    (h : Stored sub { sub with replacementCancelConfirmedAt := some now } db db') :
    Plain sub { sub with replacementCancelConfirmedAt := some now } db db' :=
  ⟨h, ⟨rfl, rfl, rfl, rfl⟩, rfl, rfl, Or.inl rfl⟩

theorem OutcomePost.tended {refs : CommitRefs} {refused : Bool}
    (h : OutcomePost env refs refused s t) : Tended t.journal.calls s.data t.data := by
  cases h with
  | kept same => exact .of_untouched same
  | confirmed sub now accepted still done => exact .tending (.plain (confirmed_plain done))
  | cleared sub hr still kept done => exact .tending (.uncommitted done)
  | undone sub sub' hr still before row after usage events =>
    exact .tending (.undone before row after usage events)

theorem Beside.inbox {P : BillingEvent → Prop} {s t : State} (h : Beside P s t) :
    Inbox s.data t.data :=
  ⟨h.sub, h.usage⟩

theorem SnapshotPost.tended {settings : Settings} {entity : Dict} {invoices : Option (List Json)}
    {started : Time} {result : SnapshotResult}
    (h : SnapshotPost settings entity invoices started result s t)
    (hans : Answered t.journal.calls entity) (hinv : Invoiced t.journal.calls invoices) :
    Tended t.journal.calls s.data t.data := by
  cases h with
  | dropped _ _ _ data _ => exact .of_eq data
  | applied _ _ _ _ _ done _ => exact .entitling (.snapshot hans hinv done)

theorem Tended.mono {a b : Journal} {db db' : Database} (h : Tended a.calls db db') (hab : a ≤ b) :
    Tended b.calls db db' := by
  obtain ⟨mid, hm, hi⟩ := h
  refine ⟨mid, hm.imp_right fun h => ?_, hi⟩
  exact h.imp (fun he => he.mono hab) (fun ht => ht.mono hab)

theorem Task.Post.tended {task : Task} (h : task.Post env s next t)
    (hs : task.Sound s.journal.calls) (hst : s.journal ≤ t.journal) :
    Tended t.journal.calls s.data t.data := by
  have plain : ∀ {P : Prop}, (t.data = s.data ∧ P) → Tended t.journal.calls s.data t.data :=
    fun h => .of_eq h.1
  cases task with
  | replacementApply ref started entity invoices =>
    obtain ⟨-, result, u, hu⟩ := h
    have hsu : s.journal ≤ u.journal := by
      have := (applyReplacementSnapshot entity invoices started).grows env s
      rwa [hu.ran] at this
    exact ((hu.post.tended (Answered.mono ⟨_, hs.1.1⟩ hsu) (hs.2.mono hsu)).mono hu.later).inbox
      hu.marks.inbox
  | mainApply ref started entity invoices =>
    obtain ⟨-, result, u, hu⟩ := h
    have hsu : s.journal ≤ u.journal := by
      have := (applySnapshot entity invoices started none).grows env s
      rwa [hu.ran] at this
    exact ((hu.post.tended (Answered.mono ⟨_, hs.1⟩ hsu) (hs.2.mono hsu)).mono hu.later).inbox
      hu.marks.inbox
  | commitFirst =>
    obtain ⟨refs, -, hc⟩ := h
    exact hc.tended
  | commitSecond refs refused => exact h.2.tended
  | reissueConfirm refs =>
    obtain ⟨-, same | ⟨sub, now, -, done⟩⟩ := h
    · exact .of_untouched same
    · exact .tending (.plain (confirmed_plain done))
  | retiredClear ref =>
    obtain ⟨-, same | ⟨sub, done⟩, -⟩ := h
    · exact .of_untouched same
    · exact .tending (.retiredCleared (Gone.mono hs hst) done)
  | dunning =>
    obtain ⟨-, same | ⟨sub, sub', done⟩⟩ := h
    · exact .of_untouched same
    · exact .tending (.plain done)
  | owedStore ref status =>
    obtain ⟨-, same | ⟨sub, done⟩⟩ := h
    · exact .of_eq same
    · obtain ⟨sub', done⟩ := done.plain
      exact .tending (.plain done)
  | webhookInsert ref eventId eventType => exact ⟨s.data, Or.inl rfl, h.2.toInbox⟩
  | _ => exact plain h

theorem afterRetiredFetch_sound {ref : Ref} {kind : Option RetiredKind} {entity : Dict}
    {calls : List Call} (h : .subscription (.fetchSubscription ref) (.ok entity) ∈ calls) :
    ∀ task ∈ afterRetiredFetch ref kind (retiredStatus ref entity), task.Sound calls := by
  unfold afterRetiredFetch
  split
  · simp
  · rename_i status hst
    have hstatus : (entity.get "id").isStr ref.val = true ∧
        (entity.get "status").str? = some status := by
      unfold retiredStatus at hst
      split at hst
      · exact ⟨‹_›, hst⟩
      · cases hst
    split
    · rename_i hterm
      rintro _ ⟨⟩
      refine Or.inl ⟨entity, h, ?_, ?_⟩
      · rw [readable, hstatus.1, hstatus.2]
        rfl
      · rw [statusIn, hstatus.2]
        exact decide_eq_true hterm
    · split
      · rintro _ ⟨⟩
        trivial
      · simp

theorem Task.Post.sound {task : Task} (h : task.Post env s next t)
    (hs : task.Sound s.journal.calls) (hst : s.journal ≤ t.journal) :
    ∀ task' ∈ next, task'.Sound t.journal.calls := by
  intro task' ht
  cases task with
  | replacementRead | mainRead | retiredRead =>
    obtain ⟨sub, -, hg⟩ := h.2 task' ht
    obtain ⟨ref, -, rfl⟩ := Option.map_eq_some_iff.mp hg
    trivial
  | replacementFetch ref oldStatus oldStart =>
    obtain ⟨entity, -, hc, hg⟩ := h.2 task' ht
    obtain ⟨hid, rfl⟩ := mem_ite_some hg
    exact ⟨hc, Json.isStr_iff.mp hid⟩
  | mainFetch ref oldStatus oldStart =>
    obtain ⟨entity, -, hc, hg⟩ := h.2 task' ht
    obtain rfl := Option.some.inj hg
    exact hc
  | replacementInvoices ref oldStatus oldStart started entity =>
    obtain ⟨invoices, hi, rfl⟩ := h.2 task' ht
    exact ⟨⟨Journal.mem_of_le hst hs.1, hs.2⟩, hi⟩
  | mainInvoices ref oldStatus oldStart started entity =>
    obtain ⟨invoices, hi, rfl⟩ := h.2 task' ht
    exact ⟨Journal.mem_of_le hst hs, hi⟩
  | replacementApply ref started entity invoices =>
    obtain rfl := h.1 task' ht
    trivial
  | commitFirst =>
    obtain ⟨refs, rfl, -⟩ := h
    cases refs <;> cases ht <;> trivial
  | commitCancel refs =>
    obtain ⟨old, refused, -, rfl, -⟩ := h.2 task' ht
    trivial
  | commitSecond refs refused =>
    obtain rfl := h.1 task' ht
    trivial
  | reissueRead =>
    obtain ⟨sub, -, hg⟩ := h.2 task' ht
    dsimp only at hg
    split at hg
    · obtain ⟨refs, -, rfl⟩ := Option.map_eq_some_iff.mp hg
      trivial
    · cases hg
  | reissueCancel refs =>
    obtain rfl := h.2 task' ht
    trivial
  | retiredFetch ref kind =>
    obtain ⟨entity, -, hc, hg⟩ := h.2 task' ht
    exact afterRetiredFetch_sound hc task' hg
  | retiredCancel ref =>
    obtain ⟨entity, -, hc, hg⟩ := h.2 task' ht
    obtain ⟨-, rfl⟩ := mem_ite_some hg
    exact Or.inr ⟨entity, hc⟩
  | dunning =>
    obtain ⟨rfl, -⟩ := h
    cases ht
    trivial
  | owedRead =>
    obtain ⟨sub, -, hg⟩ := h.2 task' ht
    dsimp only at hg
    split at hg
    · obtain ⟨ref, -, rfl⟩ := Option.map_eq_some_iff.mp hg
      trivial
    · cases hg
  | owedCancel ref =>
    obtain ⟨entity, -, -, hg⟩ := h.2 task' ht
    obtain ⟨status, -, rfl⟩ := Option.map_eq_some_iff.mp hg
    trivial
  | webhookLookup ref eventId eventType =>
    obtain ⟨sub, -, hg⟩ := h.2 task' ht
    obtain ⟨-, rfl⟩ := mem_ite_some hg
    trivial
  | mainApply | reissueConfirm | retiredClear | owedStore | webhookInsert =>
    obtain ⟨rfl, -⟩ := h
    cases ht

end Sound

end ReviewFlow.Billing
