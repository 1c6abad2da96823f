import ReviewFlow.Billing.RequestSaves
import ReviewFlow.Billing.Threads

/-!
# The saves of the tasks, and of every step

A step of a task saves the row at most once. Three saves belong to one task each (`Task.Odd`): the
switch to a paid replacement, the return of a commit mark whose cancel the provider refused, and
the clearing of the retired slot. `runFrom_saves` is what any step of a run does to the row.
-/

namespace ReviewFlow.Billing

open Savepoint Interleaving

/-- What `switch_to_replacement` requires of the row and of the fetched entity. -/
structure Switches (settings : Settings) (sub : Subscription) (entity : Dict)
    (invoices : Option (List Json)) (plan : Plan) (start stop : Time) : Prop where
  names : namesReplacement sub entity = true
  entitled : sub.status = .active ∨ sub.status = .pastDue
  free : sub.retiredProviderRef = none
  known : settings.planFor (entity.get "plan_id") = some plan
  period : usablePeriod entity = some (start, stop)
  moved : sub.currentPeriodStart ≠ some start
  paid : (currentPeriodPaid entity invoices).isSome = true

/-- The saves that only one task makes, after `made` calls of its thread. -/
def Task.Odd (env : Env) (made : ℕ) : Task → Subscription → Subscription → Prop
  | .replacementApply _ started entity invoices, sub, sub' => ∃ plan start stop,
      Switches env.settings sub entity invoices plan start stop ∧
        sub' = switched (activated sub plan start stop) sub.paymentProviderRef "active" started
  | .commitSecond refs true, sub, sub' => stillCommitted sub refs = true ∧
      ¬ Abandonable env sub made ∧ sub' = { sub with replacementCommittedAt := none }
  | .retiredClear ref, sub, sub' => sub.retiredProviderRef = some ref ∧
      sub' = { sub with retiredProviderRef := none, retiredKind := none }
  | _, _, _ => False

def SavedBy (odd : Subscription → Subscription → Prop) (db db' : Database) : Prop :=
  ∃ sub sub', db.sub? = some sub ∧ db'.sub? = some sub' ∧ odd sub sub'

def RefusesBy (env : Env) (odd : Subscription → Subscription → Prop) (db : Database) : Prop :=
  ∃ sub sub', db.sub? = some sub ∧ odd sub sub' ∧
    ¬ (sub'.Checks ∧ ¬ env.others.clash (some sub) sub')

/-- What a step of a task leaves: saves, or one of its own kind. -/
def Stepping {α : Type} (env : Env) (odd : Subscription → Subscription → Prop) (m : Prog α)
    (s : State) : Prop :=
  Program.wp env m
    (fun _ t => Saves t.journal.calls s.data t.data ∨ SavedBy odd s.data t.data)
    (fun e t => (Saves t.journal.calls s.data t.data ∨ SavedBy odd s.data t.data) ∧
      (e = .integrityError → Refused env t.journal.calls s.data ∨ RefusesBy env odd s.data)) s

section Rules

variable {α β : Type} {env : Env} {odd : Subscription → Subscription → Prop} {s : State}

theorem Saving.stepping {m : Prog α} {Q : α → State → Prop} (h : Saving env m Q s) :
    Stepping env odd m s :=
  Program.wp_mono h (fun _ _ h => Or.inl h.1) (fun _ _ h => ⟨Or.inl h.1, fun he => Or.inl (h.2 he)⟩)

theorem Reading.saving {m : Prog α} (h : Reading m) : Saving env m (fun _ _ => True) s :=
  .of_reading h Program.wp_trivial

theorem Stepping.savepoint {m : Prog α} (h : Stepping env odd m s) :
    Stepping env odd (Program.savepoint m) s := by
  unfold Stepping
  rw [Program.wp_savepoint]
  exact Program.wp_mono h (fun _ _ h => h) (fun _ _ h => ⟨Or.inl (.refl _ _), h.2⟩)

theorem SavedBy.of_sub? {db db' db'' : Database} (h : SavedBy odd db db')
    (hs : db''.sub? = db'.sub?) : SavedBy odd db db'' := by
  obtain ⟨sub, sub', hsub, hsub', ho⟩ := h
  exact ⟨sub, sub', hsub, hs.trans hsub', ho⟩

theorem Stepping.then_read {m : Prog α} {f : α → Prog β} (hm : Stepping env odd m s)
    (hf : ∀ a, Reading (f a)) : Stepping env odd (m >>= f) s := by
  refine Program.wp_bind_of hm ?_ fun _ _ h => h
  intro a t ht
  have after : ∀ u : State, u.data.sub? = t.data.sub? → t.journal ≤ u.journal →
      Saves u.journal.calls s.data u.data ∨ SavedBy odd s.data u.data := fun u hu htu =>
    ht.imp (fun h => (h.mono htu).trans (.of_sub? hu)) fun h => h.of_sub? hu
  refine Program.wp_mono (Program.wp_grows (Program.wp_and ((hf a).1.wp env t) ((hf a).2 env t)))
    ?_ ?_
  · exact fun b u h => after u h.1.1 h.2
  · exact fun e u h => ⟨after u h.1.1 h.2, fun he => absurd he h.1.2⟩

theorem Stepping.read {m : Prog α} {f : α → Prog β} {P : α → State → Prop} (hm : Reading m)
    (h : Program.returns env m P s)
    (hf : ∀ a t, P a t → t.data.sub? = s.data.sub? → s.journal ≤ t.journal →
      Stepping env odd (f a) t) : Stepping env odd (m >>= f) s := by
  have hread := Program.wp_grows (Program.wp_and (Program.wp_and (hm.1.wp env s) (hm.2 env s)) h)
  refine Program.wp_bind_of hread ?_
    fun _ _ h => ⟨Or.inl (.of_sub? h.1.1.1), fun he => absurd he h.1.1.2⟩
  rintro a t ⟨⟨⟨ht, -⟩, hp⟩, hst⟩
  have back : ∀ u : State, Saves u.journal.calls t.data u.data ∨ SavedBy odd t.data u.data →
      Saves u.journal.calls s.data u.data ∨ SavedBy odd s.data u.data := by
    intro u hu
    refine hu.imp (fun h => (Saves.of_sub? ht).trans h) ?_
    rintro ⟨sub, sub', hsub, hsub', ho⟩
    exact ⟨sub, sub', ht ▸ hsub, hsub', ho⟩
  refine Program.wp_mono (hf a t hp ht hst) (fun _ u h => back u h) fun e u h => ⟨back u h.1, ?_⟩
  intro he
  refine (h.2 he).imp (fun h => h.after (.of_sub? ht)) ?_
  rintro ⟨sub, sub', hsub, hno⟩
  exact ⟨sub, sub', ht ▸ hsub, hno⟩

theorem Stepping.save {sub sub' : Subscription} (hsub : s.data.sub? = some sub)
    (h : odd sub sub') : Stepping env odd (saveSubscription sub') s := by
  unfold Stepping
  rw [wp_saveSubscription]
  refine ⟨fun _ _ => Or.inr ⟨sub, sub', hsub, rfl, h⟩, fun hno => ?_⟩
  refine ⟨Or.inl (.refl _ _), fun _ => Or.inr ⟨sub, sub', hsub, h, ?_⟩⟩
  rwa [hsub] at hno

end Rules

section Transactions

variable {env : Env} {odd : Subscription → Subscription → Prop} {s : State}

theorem abandonIfWanted_saves {sub : Subscription} {reason : String} {abandonable : Dict → Bool}
    {wanted : Bool} (hsub : s.data.sub? = some sub)
    (hna : ∀ e, abandonable e = true → notActive e = true) :
    Saving env (abandonIfWanted sub reason abandonable wanted) (fun _ _ => True) s := by
  refine Saving.ite (fun _ => .pure trivial) fun _ => ?_
  refine Saving.read (reading_abandonUnlessActive ..) (abandonUnlessActive_spec (by simp)) ?_
  intro a t ht hdata _
  refine Saving.ite (fun _ => .pure trivial) fun ha => ?_
  exact (Saving.abandon (hdata.trans hsub) ht hna (by simpa using ha)).then_read
    fun _ => reading_pure _

theorem clearFailedCommitted_saves {sub : Subscription} (hsub : s.data.sub? = some sub) :
    Saving env (clearFailedCommitted sub) (fun _ _ => True) s := by
  refine Saving.read (reading_refetchReplacement sub) refetchReplacement_spec ?_
  rintro r t ⟨-, hr⟩ ht -
  cases r with
  | none => exact .pure trivial
  | some entity =>
    refine Saving.ite (fun _ => .pure trivial) fun hf => Saving.ite (fun _ => .pure trivial)
      fun hfree => ?_
    refine Saving.read (reading_retireReplacement ..) retireReplacement_spec ?_
    rintro sub' u ⟨⟨target, rfl⟩, -⟩ hu htu
    have hrow : Abandons u.journal.calls sub (retired sub target) :=
      ⟨entity, target, (hr entity rfl).mono htu,
        statusIn_mono (List.subset_append_right _ _) (by simpa using hf), by simpa using hfree, rfl⟩
    exact (Saving.save (hu.trans (ht.trans hsub)) (.retires hrow)).then_read fun _ => reading_pure _

theorem replacementInactive_saves {sub : Subscription} {entity : Dict} {status : String}
    (hsub : s.data.sub? = some sub) :
    Saving env (replacementInactive sub entity status) (fun _ _ => True) s := by
  refine Saving.ite (fun _ => abandonIfWanted_saves hsub fun _ h => h) fun _ => ?_
  refine Saving.read (P := fun _ _ => True) reading_timezoneNow (wp_timezoneNow.mpr trivial) ?_
  exact fun now t _ ht _ => abandonIfWanted_saves (ht.trans hsub) fun _ => failedOrLapsed_notActive

theorem replacementActive_steps {sub : Subscription} {entity : Dict}
    {invoices : Option (List Json)} {started : Time} {ref : Ref} {made : ℕ}
    (hsub : s.data.sub? = some sub) (hnames : namesReplacement sub entity = true) :
    Stepping env ((Task.replacementApply ref started entity invoices).Odd env made)
      (replacementActive sub entity invoices "active" started env.settings) s := by
  unfold replacementActive
  split
  · exact (reading_pure _).saving.stepping
  rename_i hpaid
  split
  · exact (reading_pure _).saving.stepping
  rename_i plan hplan
  split
  · refine (Reading.bind ?_ fun _ => reading_pure _).saving.stepping
    exact reading_get.bind fun _ => Reading.whenever (reading_audit _ _ _)
  split
  · exact (reading_pure _).saving.stepping
  rename_i hst
  rw [not_and_or, not_not, not_not] at hst
  unfold switchToReplacement
  split
  · exact (reading_pure _).saving.stepping
  rename_i start hstart
  split
  · exact (reading_pure _).saving.stepping
  rename_i hmoved
  split
  · exact (reading_pure _).saving.stepping
  rename_i hfree
  refine Stepping.read (reading_applyActive ..) (Program.returns_of_wp applyActive_spec) ?_
  rintro r t ⟨rfl, -⟩ ht -
  split
  · exact (reading_pure _).saving.stepping
  rename_i hadv
  obtain ⟨start', stop, hp, -, -, ho⟩ := activeOutcome_advanced (by simpa using hadv)
  obtain rfl : start' = start :=
    Option.some.inj (((usablePeriod_eq_some.mp hp).1).symm.trans hstart)
  rw [ho]
  refine Stepping.then_read (Stepping.save (ht.trans hsub) ⟨plan, start', stop, ⟨hnames, hst,
    by simpa using hfree, hplan, hp, hmoved, ?_⟩, rfl⟩) fun _ => ?_
  · rwa [Option.isNone_iff_eq_none, ← ne_eq, Option.ne_none_iff_isSome] at hpaid
  · exact (reading_resetUsagePeriod _).bind fun _ =>
      (Reading.whenever (reading_markEventsProcessed _)).bind fun _ => reading_pure _

theorem replacementApply_steps {ref : Ref} {entity : Dict} {invoices : Option (List Json)}
    {started : Time} {made : ℕ} :
    Stepping env ((Task.replacementApply ref started entity invoices).Odd env made)
      (replacementApply ref entity invoices started) s := by
  refine Stepping.savepoint (Stepping.then_read (Stepping.savepoint ?_) fun _ =>
    Reading.whenever (reading_markEvents _))
  refine Stepping.read (P := fun sub t => s = t ∧ s.data.sub? = some sub) reading_lockSubscription
    (wp_lockSubscription.mpr ⟨fun sub h => ⟨rfl, h⟩, fun _ => trivial⟩) ?_
  rintro sub _ ⟨rfl, hsub⟩ - -
  refine Stepping.read (P := fun x t => env = x ∧ s = t) reading_ask ⟨rfl, rfl⟩ ?_
  rintro _ _ ⟨rfl, rfl⟩ - -
  unfold replacementLocked
  split
  · exact (reading_pure _).saving.stepping
  rename_i status hstatus
  split
  · exact (reading_pure _).saving.stepping
  rename_i hnames
  split
  · rename_i ha
    subst ha
    exact replacementActive_steps hsub (by simpa using hnames)
  split
  · split
    · exact (clearFailedCommitted_saves hsub).stepping
    · exact (reading_pure _).saving.stepping
  · exact (replacementInactive_saves hsub).stepping

theorem commitT1_saves : Saving env commitT1 (fun _ _ => True) s := by
  refine Saving.savepoint (Saving.read (P := fun row t => s = t) reading_firstSubscription rfl ?_)
  rintro row _ rfl - -
  refine Saving.ite (fun _ => .pure trivial) fun _ => ?_
  refine Saving.read (P := fun sub t => s = t ∧ s.data.sub? = some sub) reading_lockSubscription
    (wp_lockSubscription.mpr ⟨fun sub h => ⟨rfl, h⟩, fun _ => trivial⟩) ?_
  rintro sub _ ⟨rfl, hsub⟩ - -
  refine Saving.ite (fun _ => .pure trivial) fun hcand => ?_
  rw [not_or, Bool.not_eq_false] at hcand
  refine Saving.read (reading_refetchReplacement sub) refetchReplacement_spec ?_
  rintro r t ⟨-, hr⟩ ht -
  cases r with
  | none => exact .pure trivial
  | some entity =>
    refine Saving.ite (fun _ => .pure trivial) fun _ => ?_
    refine Saving.read (P := fun _ u => t.journal.calls = u.journal.calls) reading_timezoneNow
      (wp_timezoneNow.mpr rfl) ?_
    intro now u hu hut _
    refine Saving.read (P := fun _ v => u = v) reading_ask rfl ?_
    rintro e _ rfl - -
    have hsub' : u.data.sub? = some sub := hut.trans (ht.trans hsub)
    unfold storeCommit
    refine Saving.ite (fun _ => ?_) fun _ => ?_
    · refine Saving.read (reading_abandonUnlessActive ..)
        (abandonUnlessActive_spec (by rintro _ ⟨⟩; exact hu ▸ hr entity rfl)) ?_
      intro a v hv hdata _
      refine Saving.then_read (P := fun _ _ => True) (Saving.whenever (fun ha => ?_)
        fun _ => trivial) fun _ => reading_pure _
      exact (Saving.abandon (hdata.trans hsub') hv (fun _ h => h) ha).mono fun _ _ _ => trivial
    · exact (Saving.save hsub' (.committed hcand.1)).then_read fun _ =>
        (reading_audit _ _ _).bind fun _ => reading_pure _

theorem storeConfirmed_saves {sub : Subscription} (hsub : s.data.sub? = some sub)
    (hc : sub.replacementCommittedAt.isSome = true) :
    Saving env (storeConfirmed sub) (fun _ _ => True) s :=
  Saving.read (P := fun _ _ => True) reading_timezoneNow (wp_timezoneNow.mpr trivial)
    fun _ _ _ ht _ => (Saving.save (ht.trans hsub) (.confirmed hc)).mono fun _ _ _ => trivial

theorem stillCommitted_committed {sub : Subscription} {refs : CommitRefs}
    (h : stillCommitted sub refs = true) : sub.replacementCommittedAt.isSome = true := by
  unfold stillCommitted at h
  simp only [Bool.and_eq_true] at h
  exact h.2

theorem commitT2_steps {refs : CommitRefs} {refused : Bool} :
    Stepping env ((Task.commitSecond refs refused).Odd env s.journal.calls.length)
      (commitT2 refs refused) s := by
  refine Stepping.savepoint (Stepping.read (P := fun sub t => s = t ∧ s.data.sub? = some sub)
    reading_lockSubscription (wp_lockSubscription.mpr ⟨fun sub h => ⟨rfl, h⟩, fun _ => trivial⟩) ?_)
  rintro sub _ ⟨rfl, hsub⟩ - -
  split
  · exact (reading_pure _).saving.stepping
  rename_i hstill
  rw [Bool.not_eq_false] at hstill
  split
  · exact ((storeConfirmed_saves hsub (stillCommitted_committed hstill)).then_read
      fun _ => reading_pure _).stepping
  rename_i hrefused
  rw [Bool.not_eq_false] at hrefused
  subst hrefused
  have hab : Program.returns env (abandonUnlessActive { sub with replacementCommittedAt := none }
      "cancel_refused" notActive none)
      (fun r _ => r.abandoned = true ↔
        GivenUp env { sub with replacementCommittedAt := none } s.journal.calls.length) s :=
    Program.returns_of_wp abandonUnlessActive_iff
  refine Stepping.read (reading_abandonUnlessActive ..)
    (Program.returns_of_wp (Program.wp_and (abandonUnlessActive_spec (by simp)) hab)) ?_
  rintro a t ⟨ha, hgiven⟩ ht -
  refine Stepping.then_read ?_ fun _ => reading_pure _
  cases habandoned : a.abandoned with
  | false =>
    rw [(ha.kept habandoned).1]
    refine Stepping.save (ht.trans hsub) ⟨hstill, fun h => ?_, rfl⟩
    rw [hgiven.mpr ⟨rfl, h⟩] at habandoned
    cases habandoned
  | true =>
    exact (Saving.save (ht.trans hsub)
      (.undone (ha.abandons (fun _ h => h) habandoned))).stepping

theorem reissueConfirm_saves {refs : CommitRefs} :
    Saving env (reissueConfirm refs) (fun _ _ => True) s := by
  refine Saving.savepoint (Saving.read (P := fun sub t => s = t ∧ s.data.sub? = some sub)
    reading_lockSubscription (wp_lockSubscription.mpr ⟨fun sub h => ⟨rfl, h⟩, fun _ => trivial⟩) ?_)
  rintro sub _ ⟨rfl, hsub⟩ - -
  exact Saving.whenever (fun h => storeConfirmed_saves hsub (stillCommitted_committed h.1))
    fun _ => trivial

theorem clearRetired_steps {ref : Ref} {made : ℕ} :
    Stepping env ((Task.retiredClear ref).Odd env made) (clearRetired ref) s := by
  refine Stepping.savepoint (Stepping.read (P := fun sub t => s = t ∧ s.data.sub? = some sub)
    reading_lockSubscription (wp_lockSubscription.mpr ⟨fun sub h => ⟨rfl, h⟩, fun _ => trivial⟩) ?_)
  rintro sub _ ⟨rfl, hsub⟩ - -
  unfold Program.whenever
  split
  · rename_i h
    exact (Stepping.save hsub ⟨h, rfl⟩).then_read fun _ => reading_markEventsProcessed _
  · exact (reading_pure _).saving.stepping

theorem dunningTransaction_saves : Saving env dunningTransaction (fun _ _ => True) s := by
  refine Saving.read (P := fun _ _ => True) reading_timezoneNow (wp_timezoneNow.mpr trivial) ?_
  intro now t _ _ _
  refine Saving.savepoint (Saving.read (P := fun _ _ => True) reading_firstSubscription trivial ?_)
  intro row u _ _ _
  refine Saving.whenever (fun _ => ?_) fun _ => trivial
  refine Saving.read (P := fun sub v => u = v ∧ u.data.sub? = some sub) reading_lockSubscription
    (wp_lockSubscription.mpr ⟨fun sub h => ⟨rfl, h⟩, fun _ => trivial⟩) ?_
  rintro sub _ ⟨rfl, hsub⟩ - -
  refine Saving.whenever (fun hst => ?_) fun _ => trivial
  unfold advancePastDue
  split
  · exact .raise (by simp)
  refine Saving.ite (fun _ => ?_) fun _ => ?_
  · exact (Saving.save hsub (.graceExpired hst)).then_read fun _ => reading_audit _ _ _
  · unfold advanceStage
    split
    · exact .pure trivial
    rename_i stage _ hfind
    refine Saving.whenever (fun _ => ?_) fun _ => trivial
    have hknown : stage ∈ dunningStages.map (·.1) :=
      List.mem_map.mpr ⟨_, List.mem_of_find?_eq_some hfind, rfl⟩
    exact (Saving.save hsub (.atStage hst hknown)).then_read fun _ => reading_audit _ _ _

theorem mainApply_saves {entity : Dict} {invoices : Option (List Json)} {started : Time}
    (hans : Answered s.journal.calls entity) (hinv : Invoiced s.journal.calls invoices) :
    Saving env (mainApply entity invoices started) (fun _ _ => True) s :=
  Saving.savepoint ((applySnapshot_saves hans hinv).then_read fun _ =>
    reading_firstSubscription.bind fun _ => Reading.whenever (reading_markEvents _))

theorem reading_syncInvoices (ref : Ref) (oldStatus : Status) (oldStart : Option Time)
    (entity : Dict) : Reading (syncInvoices ref oldStatus oldStart entity) :=
  reading_orNone (reading_fetchInvoicesIfNeeded ..)

theorem reading_cancelOutcome (ref : Ref) : Reading (cancelOutcome ref) := by
  have hm : Reading (do
      let _ ← razorpay (.cancelSubscription ref true)
      pure (some false)) :=
    (reading_razorpay _).bind fun _ => reading_pure _
  unfold cancelOutcome
  refine hm.rescue fun e => ?_
  split
  · exact .inl ⟨_, rfl⟩
  · split
    · exact .inl ⟨_, rfl⟩
    · exact .inr ⟨_, rfl, id⟩

theorem reading_insertEvent (ref : Ref) (eventId eventType : String) :
    Reading (insertEvent ref eventId eventType) :=
  reading_timezoneNow.bind fun _ => reading_query (fun _ _ => by split <;> rfl)
    fun _ _ => by split <;> simp

/-- What a step of a task makes of the row, and what an integrity error it raises means. -/
theorem Task.steps (task : Task) (hsound : task.Sound s.journal.calls) :
    Stepping env (task.Odd env s.journal.calls.length) task.step s := by
  have call : ∀ (request : Request) (f : Option Dict → Option Task),
      Reading (do let answer ← orNone (razorpay request); pure (f answer)) := fun request f =>
    (reading_orNone (reading_razorpay request)).bind fun _ => reading_pure _
  cases task with
  | replacementRead | mainRead | retiredRead | webhookLookup ref eventId eventType =>
    exact (reading_firstSubscription.bind fun _ => reading_pure _).saving.stepping
  | reissueRead | owedRead =>
    exact ((reading_firstSubscription.bind fun _ => reading_pure _).bind
      fun _ => reading_pure _).saving.stepping
  | replacementFetch ref oldStatus oldStart | mainFetch ref oldStatus oldStart =>
    exact (reading_timezoneNow.bind fun _ => call _ _).saving.stepping
  | replacementInvoices ref oldStatus oldStart started entity
  | mainInvoices ref oldStatus oldStart started entity =>
    exact ((reading_syncInvoices ..).bind fun _ => reading_pure _).saving.stepping
  | replacementApply ref started entity invoices =>
    exact replacementApply_steps.then_read fun _ => reading_pure _
  | commitFirst => exact (commitT1_saves.then_read fun _ => reading_pure _).stepping
  | commitCancel refs =>
    simp only [Task.step]
    split
    · exact (reading_raise (by simp)).saving.stepping
    · exact ((reading_cancelOutcome _).bind fun _ => reading_pure _).saving.stepping
  | commitSecond refs refused => exact commitT2_steps.then_read fun _ => reading_pure _
  | reissueCancel refs =>
    simp only [Task.step]
    split
    · exact (reading_raise (by simp)).saving.stepping
    · exact (call _ _).saving.stepping
  | reissueConfirm refs => exact (reissueConfirm_saves.then_read fun _ => reading_pure _).stepping
  | mainApply ref started entity invoices =>
    exact ((mainApply_saves ⟨_, hsound.1⟩ hsound.2).then_read fun _ => reading_pure _).stepping
  | retiredFetch ref kind | retiredCancel ref | owedCancel ref =>
    exact (call _ _).saving.stepping
  | retiredClear ref => exact clearRetired_steps.then_read fun _ => reading_pure _
  | dunning => exact (dunningTransaction_saves.then_read fun _ => reading_pure _).stepping
  | owedStore ref status =>
    exact (updateProviderStatus_saves.then_read fun _ => reading_pure _).stepping
  | webhookInsert ref eventId eventType =>
    exact ((reading_insertEvent ..).bind fun _ => reading_pure _).saving.stepping

end Transactions

def System.made (sys : System) (i : ℕ) : ℕ :=
  ((sys.threads[i]?).map fun thread => thread.journal.calls.length).getD 0

inductive StepSaves (sys : System) (choice : Choice) : Prop
  | saves (saves : Saves (sys.calls choice) sys.db (sys.step choice).db)
  | checkout {actor planId : ℕ} {acknowledged : Bool} {env : Env}
      (label : choice = .request (.checkout actor planId acknowledged) env true)
      (ends : Ends (sys.calls choice) sys.db (sys.step choice).db)
  | odd {i : ℕ} {env : Env} {task : Task} (label : choice = .advance i env)
      (stands : sys.taskAt i = some task)
      (saved : SavedBy (task.Odd env (sys.made i)) sys.db (sys.step choice).db)

theorem System.step_saves {sys : System} (h : sys.Sound) (choice : Choice) :
    StepSaves sys choice := by
  have idle : (sys.step choice).db = sys.db → StepSaves sys choice := fun he =>
    .saves (.of_sub? (by rw [he]))
  cases choice with
  | spawn job => exact idle rfl
  | crash i => exact idle rfl
  | request request env commits =>
    cases commits with
    | false => exact idle rfl
    | true =>
      cases request with
      | checkout actor planId acknowledged =>
        exact .checkout rfl (OwnerRequest.run_ends _ sys.db env)
      | cancel actor => exact .saves (OwnerRequest.run_saves (by simp) sys.db env)
      | cancelReplacement actor => exact .saves (OwnerRequest.run_saves (by simp) sys.db env)
  | advance i env =>
    cases ha : sys.advance i env with
    | none => exact idle (by simp only [System.step, ha])
    | some p =>
      obtain ⟨thread, hi, hadv⟩ := System.advance_eq ha
      unfold Thread.advance at hadv
      cases htodo : thread.todo with
      | nil => simp [htodo] at hadv
      | cons task rest =>
        simp only [htodo] at hadv
        have hsound : task.Sound thread.journal.calls :=
          h thread (List.mem_of_getElem? hi) task (by rw [htodo]; exact List.mem_cons_self)
        have hmade : sys.made i = thread.journal.calls.length := by simp [System.made, hi]
        have hp : p.1 = (task.step.run env ⟨sys.db, thread.journal⟩).2 :=
          congrArg Prod.fst (Option.some.inj hadv).symm
        have hstep : Saves p.1.journal.calls sys.db p.1.data ∨
            SavedBy (task.Odd env (sys.made i)) sys.db p.1.data := by
          rw [hmade, hp]
          exact wp_state (Q := fun t => Saves t.journal.calls sys.db t.data ∨
            SavedBy (task.Odd env thread.journal.calls.length) sys.db t.data)
            (Program.wp_mono (task.steps (s := ⟨sys.db, thread.journal⟩) hsound) (fun _ _ h => h)
              fun _ _ h => h.1)
        have hdb : (sys.step (.advance i env)).db = p.1.data := by simp only [System.step, ha]
        rcases hstep with hs | hs
        · refine .saves ?_
          rw [hdb]
          simpa only [System.calls, ha, Option.map_some, Option.getD_some] using hs
        · refine .odd rfl (by rw [System.taskAt_of_thread hi, htodo]; rfl) ?_
          rw [hdb]
          exact hs

end ReviewFlow.Billing
