import ReviewFlow.Billing.Reactivation

/-!
# No provider subscription is lost

A reference that leaves the payment or the replacement slot is in one of the three
slots afterwards, or its subscription is gone at the provider. One operation breaks
this: a checkout that reactivates a row which holds a replacement, and then starts
another one (`Overwrites`).
-/

namespace ReviewFlow.Billing

open Savepoint Interleaving

def Subscription.Holds (sub : Subscription) (ref : Ref) : Prop :=
  sub.paymentProviderRef = some ref ∨ sub.replacementProviderRef = some ref

def Subscription.Tracks (sub : Subscription) (ref : Ref) : Prop :=
  sub.Holds ref ∨ sub.retiredProviderRef = some ref

instance (sub : Subscription) (ref : Ref) : Decidable (sub.Tracks ref) :=
  inferInstanceAs (Decidable ((_ ∨ _) ∨ _))

def Database.Holds (db : Database) (ref : Ref) : Prop := ∃ sub, db.sub? = some sub ∧ sub.Holds ref

def Database.Tracks (db : Database) (ref : Ref) : Prop := ∃ sub, db.sub? = some sub ∧ sub.Tracks ref

instance (db : Database) (ref : Ref) : Decidable (db.Holds ref) :=
  decidable_of_iff (db.sub?.any (fun sub => decide (sub.paymentProviderRef = some ref ∨
    sub.replacementProviderRef = some ref)) = true) (by
    unfold Database.Holds Subscription.Holds
    cases db.sub? <;> simp)

instance (db : Database) (ref : Ref) : Decidable (db.Tracks ref) :=
  decidable_of_iff (db.sub?.any (fun sub => decide (sub.Tracks ref)) = true) (by
    unfold Database.Tracks
    cases db.sub? <;> simp)

def Database.replacement? (db : Database) : Option Ref := db.sub?.bind (·.replacementProviderRef)

theorem Database.replacement?_of {db : Database} {sub : Subscription} (h : db.sub? = some sub) :
    db.replacement? = sub.replacementProviderRef := by
  unfold Database.replacement?
  rw [h]
  rfl

section Rows

variable {calls : List Call} {sub sub' : Subscription} {ref : Ref}

theorem SameSlots.tracks (h : SameSlots sub sub') (ht : sub.Tracks ref) : sub'.Tracks ref := by
  unfold Subscription.Tracks Subscription.Holds at *
  rw [h.payment, h.replacement, h.retired]
  exact ht

theorem Abandons.tracks (h : Abandons calls sub sub') (ht : sub.Tracks ref) : sub'.Tracks ref := by
  obtain ⟨entity, target, -, -, hfree, rfl⟩ := h
  rcases ht with (ht | ht) | ht
  · exact Or.inl (Or.inl ht)
  · exact Or.inr ht
  · rw [hfree] at ht
    cases ht

theorem Abandons.replacement (h : Abandons calls sub sub') :
    sub'.replacementProviderRef = none := by
  obtain ⟨_, _, -, -, -, rfl⟩ := h
  rfl

theorem StatusRow.tracks {outcome : Applied} (h : StatusRow calls outcome sub')
    (ho : SameSlots sub outcome.sub) (ht : sub.Tracks ref) : sub'.Tracks ref := by
  rcases h with rfl | ⟨-, -, -, ha⟩
  · exact ho.tracks ht
  · exact ha.tracks (ho.tracks ht)

theorem StatusRow.replacement {outcome : Applied} (h : StatusRow calls outcome sub')
    (ho : SameSlots sub outcome.sub) : sub'.replacementProviderRef = sub.replacementProviderRef ∨
      sub'.replacementProviderRef = none := by
  rcases h with rfl | ⟨-, -, -, ha⟩
  · exact Or.inl ho.replacement
  · exact Or.inr ha.replacement

theorem switched_tracks {plan : Plan} {start stop started : Time} {status : String}
    (hfree : sub.retiredProviderRef = none) (ht : sub.Tracks ref) :
    (switched (activated sub plan start stop) sub.paymentProviderRef status started).Tracks
    ref := by
  rcases ht with (ht | ht) | ht
  · exact Or.inr ht
  · exact Or.inl (Or.inl ((activated_slots sub plan start stop).replacement.trans ht))
  · rw [hfree] at ht
    cases ht

end Rows

section Moves

variable {calls : List Call} {a b c : Database} {sub sub' : Subscription} {ref : Ref}

theorem Database.Tracks.of_row (ht : a.Tracks ref) (ha : a.sub? = some sub)
    (hb : b.sub? = some sub') (h : sub.Tracks ref → sub'.Tracks ref) : b.Tracks ref := by
  obtain ⟨x, hx, ht⟩ := ht
  rw [ha] at hx
  cases hx
  exact ⟨sub', hb, h ht⟩

theorem Database.Tracks.of_sub? (ht : a.Tracks ref) (h : b.sub? = a.sub?) : b.Tracks ref := by
  obtain ⟨x, hx, ht⟩ := ht
  exact ⟨x, h.trans hx, ht⟩

theorem Database.Holds.tracks (h : a.Holds ref) : a.Tracks ref :=
  h.imp fun _ h => ⟨h.1, Or.inl h.2⟩

theorem Entitling.tracks (h : Entitling calls a b) (ht : a.Tracks ref) : b.Tracks ref := by
  cases h with
  | snapshot answered invoiced done =>
    exact ht.of_row done.before done.after fun h => done.row.tracks (statusOutcome_slots ..) h
  | switched answered invoiced done =>
    exact ht.of_row done.before done.after fun h => switched_tracks done.free h

theorem Tending.tracks (h : Tending calls a b) (ht : a.Tracks ref) :
    b.Tracks ref ∨ (Gone calls ref ∧ ¬ a.Holds ref) := by
  cases h with
  | retires done => exact Or.inl (ht.of_row done.before done.after done.row.tracks)
  | committed candidate done => exact Or.inl (ht.of_row done.before done.after id)
  | uncommitted done => exact Or.inl (ht.of_row done.before done.after id)
  | undone before row after usage events =>
    exact Or.inl (ht.of_row before after fun h => row.tracks h)
  | plain done => exact Or.inl (ht.of_row done.before done.after done.slots.tracks)
  | @retiredCleared ref' sub gone done =>
    obtain ⟨x, hx, hheld | hret⟩ := ht
    · rw [done.before] at hx
      cases hx
      exact Or.inl ⟨_, done.after, Or.inl hheld⟩
    · by_cases hh : a.Holds ref
      · exact Or.inl (hh.tracks.of_row done.before done.after fun h => by
          obtain ⟨y, hy, hheld⟩ := hh
          rw [done.before] at hy
          cases hy
          exact Or.inl hheld)
      · rw [done.before] at hx
        cases hx
        rw [done.held] at hret
        cases hret
        exact Or.inr ⟨gone, hh⟩

structure Careful (calls : List Call) (a b : Database) : Prop where
  tracked : ∀ ref, a.Tracks ref → b.Tracks ref ∨ Gone calls ref
  replacement : b.replacement? = a.replacement? ∨ b.replacement? = none

theorem Careful.refl (calls : List Call) (a : Database) : Careful calls a a :=
  ⟨fun _ h => Or.inl h, Or.inl rfl⟩

theorem Careful.trans (h : Careful calls a b) (h' : Careful calls b c) : Careful calls a c where
  tracked ref hr := (h.tracked ref hr).elim (h'.tracked ref) Or.inr
  replacement := by
    rcases h'.replacement with hb | hb
    · exact hb ▸ h.replacement
    · exact Or.inr hb

theorem Database.replacement_of_row (ha : a.sub? = some sub) (hb : b.sub? = some sub')
    (h : sub'.replacementProviderRef = sub.replacementProviderRef ∨
      sub'.replacementProviderRef = none) :
    b.replacement? = a.replacement? ∨ b.replacement? = none := by
  rwa [Database.replacement?_of ha, Database.replacement?_of hb]

theorem Entitling.careful (h : Entitling calls a b) : Careful calls a b := by
  refine ⟨fun _ ht => Or.inl (h.tracks ht), ?_⟩
  cases h with
  | snapshot answered invoiced done =>
    exact Database.replacement_of_row done.before done.after
      (done.row.replacement (statusOutcome_slots ..))
  | switched answered invoiced done =>
    exact Database.replacement_of_row done.before done.after (Or.inr rfl)

theorem Tending.careful (h : Tending calls a b) : Careful calls a b := by
  refine ⟨fun _ ht => (h.tracks ht).imp_right And.left, ?_⟩
  cases h with
  | retires done =>
    exact Database.replacement_of_row done.before done.after (Or.inr done.row.replacement)
  | committed candidate done =>
    exact Database.replacement_of_row done.before done.after (Or.inl rfl)
  | uncommitted done => exact Database.replacement_of_row done.before done.after (Or.inl rfl)
  | undone before row after usage events =>
    exact Database.replacement_of_row before after (Or.inr row.replacement)
  | plain done =>
    exact Database.replacement_of_row done.before done.after (Or.inl done.slots.replacement)
  | retiredCleared gone done =>
    exact Database.replacement_of_row done.before done.after (Or.inl rfl)

theorem Quiet.careful (h : Quiet calls a b) : Careful calls a b := by
  cases h with
  | tending done => exact done.careful
  | stored inactive fresh gone done =>
    refine ⟨fun ref ht => ?_, Database.replacement_of_row done.before done.after (Or.inl rfl)⟩
    obtain ⟨x, hx, (hp | hr) | hret⟩ := ht <;> rw [done.before] at hx <;> cases hx
    · exact Or.inr (gone ref hp)
    · exact Or.inl ⟨_, done.after, Or.inl (Or.inr hr)⟩
    · exact Or.inl ⟨_, done.after, Or.inr hret⟩
  | inserted plan absent after =>
    subst after
    refine ⟨?_, Or.inr rfl⟩
    rintro ref ⟨x, hx, -⟩
    simp [Database.sub?, absent] at hx

theorem Move.careful (h : Move calls a b) : Careful calls a b :=
  h.elim Entitling.careful Quiet.careful

theorem Keeping.careful (h : Keeping calls a b) : Careful calls a b := by
  induction h with
  | refl => exact .refl calls a
  | tail _ hm ih => exact ih.trans (Move.careful hm.1)

theorem QuietPath.careful (h : QuietPath calls a b) : Careful calls a b := by
  induction h with
  | refl => exact .refl calls a
  | tail _ hm ih => exact ih.trans hm.1.careful

theorem Retires.careful (h : Retires calls sub sub' a b) : Careful calls a b :=
  Tending.careful (.retires h)

theorem CourseTail.careful (h : CourseTail calls a b) : Careful calls a b :=
  h.elim Keeping.careful fun hq => hq.2.careful

theorem Starting.tracks (h : Starting calls a b) (hnone : a.replacement? = none) :
    (∀ ref, a.Tracks ref → b.Tracks ref) := by
  obtain ⟨active, free, fresh, done⟩ := h
  rw [Database.replacement?_of done.before] at hnone
  refine fun ref ht => ht.of_row done.before done.after fun h => ?_
  rcases h with (hp | hr) | hret
  · exact Or.inl (Or.inl hp)
  · rw [hnone] at hr
    cases hr
  · exact Or.inr hret

end Moves

/-- The condition of the claim on one step: every reference that was held is tracked or
gone, and a replacement was not written over another. -/
structure KeepsReferences (calls : List Call) (db db' : Database) : Prop where
  tracked : ∀ ref, db.Holds ref → db'.Tracks ref ∨ Gone calls ref
  replacement : ∀ ref ref', db.replacement? = some ref → db'.replacement? = some ref' → ref' = ref

theorem Careful.keepsReferences {calls : List Call} {db db' : Database} (h : Careful calls db db') :
    KeepsReferences calls db db' := by
  refine ⟨fun ref hr => h.tracked ref hr.tracks, fun ref ref' hr hr' => ?_⟩
  rcases h.replacement with hb | hb
  · rw [hb, hr] at hr'
    exact (Option.some.inj hr').symm
  · rw [hb] at hr'
    cases hr'

/-- A checkout that starts a replacement over another: the row holds one and is not ACTIVE,
the reconcile makes it ACTIVE, and the change of plan then falls back to a replacement. -/
structure Overwrites (env : Env) (sub : Subscription) (planId : ℕ) (acknowledged : Bool)
    (ref : Ref) (plan known : Plan) (start stop : Time) : Prop where
  current : sub.status ≠ .pastDue
  replacement : sub.replacementProviderRef.isSome = true
  payment : sub.paymentProviderRef = some ref
  offered : env.settings.offeredPlan planId = some plan
  configured : env.settings.configured = true
  paid : PaidAnswer env sub ref 0 0 known start stop
  falls : FallsBack env (activated sub known start stop) ref plan acknowledged 2 2

theorem FallsBack.of_stamped {env : Env} {sub : Subscription} {ref : Ref} {plan : Plan}
    {acknowledged : Bool} {calls ticks : ℕ} {status : String} {started : Time}
    (h : FallsBack env (stamped sub status started) ref plan acknowledged calls ticks) :
    FallsBack env sub ref plan acknowledged calls ticks :=
  ⟨h.going, h.differs, h.notPending, h.refused, h.enabled,
    ⟨h.replaceable.free, h.replaceable.acknowledged, h.replaceable.created⟩⟩

/-- A checkout is careful and steady, or it starts a first replacement, or it overwrites one. -/
theorem StartPost.cases {env : Env} {planId : ℕ} {acknowledged : Bool} {s t : State}
    (h : StartPost env planId acknowledged s t) (hempty : s.journal = Journal.empty) :
    (Careful t.journal.calls s.data t.data ∧ Steady s.data t.data) ∨
      (s.data.replacement? = none ∧ ∃ mid, Careful t.journal.calls s.data mid ∧
        Starting t.journal.calls mid t.data) ∨
      ∃ sub ref plan known start stop, s.data.sub? = some sub ∧
        Overwrites env sub planId acknowledged ref plan known start stop := by
  cases h with
  | unchanged data =>
    rw [data]
    exact Or.inl ⟨.refl _ _, .refl _⟩
  | first absent path => exact Or.inl ⟨path.careful, path.steady⟩
  | row sub plan stored offered configured post =>
    cases post with
    | settled mid first tail =>
      have hfirst : Careful t.journal.calls s.data mid ∧ Steady s.data mid := by
        rcases first with rfl | ⟨ref, -, hrec⟩
        · exact ⟨.refl _ _, .refl _⟩
        · exact ⟨hrec.keeping.careful, hrec.keeping.steady⟩
      exact Or.inl ⟨hfirst.1.trans tail.course.careful, hfirst.2.trans tail.course.steady⟩
    | replaced ref sub' entity u current free payment ran post active falls later started =>
      cases hrep : s.data.replacement? with
      | none =>
        exact Or.inr (Or.inl ⟨rfl, u.data, (post.reconciled.mono later).keeping.careful, started⟩)
      | some r =>
        rw [Database.replacement?_of stored] at hrep
        have hna : sub.status ≠ .active := fun ha => by
          rw [free ha] at hrep
          cases hrep
        obtain ⟨known, start, stop, hpaid, hsub', hcalls, hticks⟩ :=
          Program.wp_ok (reconcile_reactivates stored hna) ran active
        rw [hcalls, hticks] at falls
        rw [hempty] at hpaid falls
        dsimp only at hsub'
        rw [hsub'] at falls
        exact Or.inr (Or.inr ⟨sub, ref, plan, known, start, stop, stored, current,
          by rw [hrep]; rfl, payment, offered, configured, hpaid, falls.of_stamped⟩)

theorem StartPost.keepsReferences {env : Env} {planId : ℕ} {acknowledged : Bool} {s t : State}
    (h : StartPost env planId acknowledged s t) (hempty : s.journal = Journal.empty)
    (hno : ∀ sub, s.data.sub? = some sub → ∀ ref plan known start stop,
      ¬ Overwrites env sub planId acknowledged ref plan known start stop) :
    KeepsReferences t.journal.calls s.data t.data := by
  rcases h.cases hempty with ⟨hc, -⟩ | ⟨hnone, mid, hc, hstart⟩ |
    ⟨sub, ref, plan, known, start, stop, hsub, ho⟩
  · exact hc.keepsReferences
  · have hmid : mid.replacement? = none := by
      rcases hc.replacement with h | h
      · exact h.trans hnone
      · exact h
    refine ⟨fun r hr => ?_, fun _ _ h => by rw [hnone] at h; cases h⟩
    exact (hc.tracked r hr.tracks).imp_left fun h => hstart.tracks hmid r h
  · exact absurd ho (hno sub hsub ref plan known start stop)

theorem CancelPost.careful {s t : State} (h : CancelPost s t) :
    Careful t.journal.calls s.data t.data := by
  obtain ⟨mid, hfirst, hk⟩ := h.path
  have hmid : Careful t.journal.calls s.data mid := by
    rcases hfirst with rfl | ⟨sub, sub', h⟩
    · exact .refl _ _
    · exact h.careful
  exact hmid.trans hk.careful

theorem Tended.keepsReferences {calls : List Call} (calls' : List Call) {db db' : Database}
    (h : Tended calls db db') : KeepsReferences calls' db db' := by
  obtain ⟨mid, hm, hi⟩ := h
  have hrep : db'.replacement? = mid.replacement? := by
    rw [Database.replacement?, hi.sub?]
    rfl
  have hmid : (∀ ref, db.Holds ref → mid.Tracks ref) ∧
      (mid.replacement? = db.replacement? ∨ mid.replacement? = none) := by
    rcases hm with rfl | hm | hm
    · exact ⟨fun _ h => h.tracks, Or.inl rfl⟩
    · exact ⟨fun _ h => hm.tracks h.tracks, hm.careful.replacement⟩
    · exact ⟨fun _ h => (hm.tracks h.tracks).resolve_right fun hn => hn.2 h,
        hm.careful.replacement⟩
  refine ⟨fun ref hr => Or.inl ((hmid.1 ref hr).of_sub? hi.sub?), fun ref ref' hr hr' => ?_⟩
  rw [hrep] at hr'
  rcases hmid.2 with h | h
  · rw [h, hr] at hr'
    exact (Option.some.inj hr').symm
  · rw [h] at hr'
    cases hr'

theorem Tended.replacement {calls : List Call} {db db' : Database} (h : Tended calls db db') :
    db'.replacement? = db.replacement? ∨ db'.replacement? = none := by
  obtain ⟨mid, hm, hi⟩ := h
  have hrep : db'.replacement? = mid.replacement? := by
    rw [Database.replacement?, hi.sub?]
    rfl
  rw [hrep]
  rcases hm with rfl | hm | hm
  · exact Or.inl rfl
  · exact hm.careful.replacement
  · exact hm.careful.replacement

theorem Course.replacement {calls : List Call} {db db' : Database} (h : Course calls db db') :
    db'.replacement? = db.replacement? ∨ db'.replacement? = none ∨
      ∃ created, CreatedBy calls created ∧ db'.replacement? = some created.ref := by
  obtain ⟨mid, hfirst, htail⟩ := h
  have hmid : Careful calls db mid := by
    rcases hfirst with rfl | hm
    · exact .refl _ _
    · exact Move.careful hm
  rcases htail with htail | hstart
  · rcases (hmid.trans htail.careful).replacement with h | h
    · exact Or.inl h
    · exact Or.inr (Or.inl h)
  · obtain ⟨active, free, fresh, done⟩ := hstart
    exact Or.inr (Or.inr ⟨_, fresh, Database.replacement?_of done.after⟩)

theorem System.replacement_step {sys : System} (hs : sys.Sound) (choice : Choice) :
    (sys.step choice).db.replacement? = sys.db.replacement? ∨
      (sys.step choice).db.replacement? = none ∨ ∃ created,
        CreatedBy (sys.stepCalls choice) created ∧
        (sys.step choice).db.replacement? = some created.ref := by
  have task : (∀ request env commits, choice ≠ .request request env commits) →
      (sys.step choice).db.replacement? = sys.db.replacement? ∨
        (sys.step choice).db.replacement? = none := fun hc => (System.step_tended hs hc).replacement
  cases choice with
  | spawn job => exact (task (by simp)).imp_right Or.inl
  | crash i => exact (task (by simp)).imp_right Or.inl
  | advance i env => exact (task (by simp)).imp_right Or.inl
  | request request env commits =>
    cases commits with
    | false => exact Or.inl rfl
    | true => exact (request.run_spec sys.db env).replacement

/-- The transition is a checkout that commits and overwrites a replacement. -/
def Transition.Overwrites (t : Transition) : Prop :=
  ∃ actor planId acknowledged env sub ref plan known start stop,
    t.label = .request (.checkout actor planId acknowledged) env true ∧
    t.before.db.sub? = some sub ∧
    Billing.Overwrites env sub planId acknowledged ref plan known start stop

def Transition.KeepsReferences (t : Transition) : Prop :=
  Billing.KeepsReferences t.stepCalls t.before.db t.after.db

theorem OwnerRequest.keepsReferences {request : OwnerRequest} {db : Database} {env : Env}
    (hno : ∀ actor planId acknowledged, request = .checkout actor planId acknowledged →
      ∀ sub, db.sub? = some sub → ∀ ref plan known start stop,
        ¬ Billing.Overwrites env sub planId acknowledged ref plan known start stop) :
    KeepsReferences (request.run db env).2.journal.calls db (request.run db env).2.data := by
  refine wp_state (Q := fun t => KeepsReferences t.journal.calls db t.data) ?_
  cases request with
  | checkout actor planId acknowledged =>
    exact discard_wp (Program.wp_mono startCheckout_spec
      (fun _ _ h => h.keepsReferences rfl (hno actor planId acknowledged rfl))
      (fun _ _ h => h.keepsReferences rfl (hno actor planId acknowledged rfl)))
  | cancel actor =>
    exact discard_wp (Program.wp_mono cancelSubscription_spec
      (fun _ _ h => h.careful.keepsReferences) (fun _ _ h => h.careful.keepsReferences))
  | cancelReplacement actor =>
    exact discard_wp (Program.wp_mono cancelReplacement_spec
      (fun _ _ h => h.keeping.careful.keepsReferences)
      (fun _ _ h => h ▸ (Careful.refl _ _).keepsReferences))

theorem System.step_keepsReferences {sys : System} (hs : sys.Sound) (choice : Choice)
    (hno : ¬ Transition.Overwrites (transition System.step sys choice)) :
    KeepsReferences (sys.stepCalls choice) sys.db (sys.step choice).db := by
  cases choice with
  | spawn job => exact (System.step_tended hs (by simp)).keepsReferences _
  | crash i => exact (System.step_tended hs (by simp)).keepsReferences _
  | advance i env => exact (System.step_tended hs (by simp)).keepsReferences _
  | request request env commits =>
    cases commits with
    | false => exact (Careful.refl _ _).keepsReferences
    | true =>
      refine OwnerRequest.keepsReferences ?_
      rintro actor planId acknowledged rfl sub hsub ref plan known start stop ho
      exact hno ⟨actor, planId, acknowledged, env, sub, ref, plan, known, start,
        stop, rfl, hsub, ho⟩

/-- In a run in which no checkout overwrites a replacement, no step loses a reference. -/
theorem references_kept (db : Database) (choices : List Choice)
    (h : ∀ t ∈ runFrom db choices, ¬ t.Overwrites) :
    ∀ t ∈ runFrom db choices, t.KeepsReferences := by
  intro t ht
  have hstep := trace_step ht
  have hno := h t ht
  rw [hstep] at hno ⊢
  exact System.step_keepsReferences (runFrom_sound ht) t.label hno

def startedAnew : List Choice :=
  let gone : Answers :=
    { fetch := onlyA (entityA "cancelled" 1000 2000)
      create := .ok (entityOf "sub_b" "plan_g" "created" 0 0) }
  [.request (.checkout 7 2 true) (gone.at 2500) true]

def expiredRow : Database :=
  rowless.withRow
    { plan := starter
      status := .expired
      currentPeriodStart := some (seconds 1000)
      currentPeriodEnd := some (seconds 2000)
      paymentProviderRef := some refA } (by decide)

theorem references_kept_started_anew : ∃ t ∈ runFrom expiredRow startedAnew,
    t.KeepsReferences ∧ t.before.db.Holds refA ∧ ¬ t.after.db.Tracks refA := by
  have ht := (runFrom expiredRow startedAnew).get_mem ⟨0, by decide⟩
  refine ⟨_, ht, references_kept _ _ ?_ _ ht, by decide, by decide⟩
  rintro _ ht' ⟨_, _, _, _, sub, _, _, _, _, _, -, hsub, ho⟩
  obtain rfl := List.mem_singleton.mp ht'
  obtain rfl := Option.some.inj hsub
  exact absurd ho.replacement (by decide)

def Call.about : Call → Option Ref
  | .subscription (.fetchSubscription ref) _ => some ref
  | .subscription (.cancelSubscription ref _) _ => some ref
  | _ => none

theorem not_gone {calls : List Call} {ref : Ref} (h : ∀ call ∈ calls, call.about ≠ some ref) :
    ¬ Gone calls ref := by
  rintro (⟨entity, hc, -⟩ | ⟨entity, hc⟩)
  · exact h _ hc rfl
  · exact h _ hc rfl

def Call.creates : Call → Bool
  | .subscription (.createSubscription _ _ _) _ => true
  | _ => false

theorem not_createdBy {calls : List Call} {created : Created}
    (h : calls.any Call.creates = false) : ¬ CreatedBy calls created := by
  rintro ⟨-, plan, startAt, expireBy, hc⟩
  have := List.any_eq_false.mp h _ hc
  exact this rfl

/-- The expired row still holds a replacement, a new checkout finds its subscription paid
again, and the upgrade falls back to a second replacement. -/
def replacedTwice : List Choice :=
  let paid : Answers :=
    { fetch := onlyA (entityA "active" 700000 800000)
      create := .ok (entityOf "sub_c" "plan_g" "created" 0 0)
      invoices := .ok [invoiceOf "sub_a" "pay_2" 700000 800000] }
  subscribed ++ upgradeStarted ++ graceOver ++ [.request (.checkout 7 2 true) (paid.at 700100) true]

theorem reference_lost : ∃ t ∈ runFrom rowless replacedTwice, ¬ t.KeepsReferences := by
  refine ⟨_, (runFrom rowless replacedTwice).get_mem ⟨18, by decide⟩, fun h => ?_⟩
  rcases h.tracked refB (by decide) with ht | hg
  · exact absurd ht (by decide)
  · exact not_gone (by decide) hg

end ReviewFlow.Billing
