import ReviewFlow.Billing.Saves

/-!
# The saves of the requests

Each request is a path of saves, and a checkout may end with one creation.
-/

namespace ReviewFlow.Billing

open Savepoint

theorem Save.free {calls : List Call} {sub sub' : Subscription} (h : Save calls sub sub')
    (hn : sub.replacementProviderRef = none) : sub'.replacementProviderRef = none := by
  have abandons : ∀ {a b : Subscription}, Abandons calls a b → b.replacementProviderRef = none := by
    rintro a b ⟨_, _, -, -, -, rfl⟩
    rfl
  cases h with
  | @snapshot settings _ row entity invoices started now plan status _ _ _ hrow =>
    rcases hrow with rfl | ⟨-, -, -, ha⟩
    · exact (statusOutcome_slots sub entity invoices plan status now).replacement.trans hn
    · exact (abandons ha : row.replacementProviderRef = none)
  | retires row => exact abandons row
  | undone row => exact abandons row
  | _ => exact hn

theorem Save.payment {calls : List Call} {sub sub' : Subscription} (h : Save calls sub sub') :
    sub'.paymentProviderRef = sub.paymentProviderRef := by
  cases h with
  | @snapshot settings _ row entity invoices started now plan status _ _ _ hrow =>
    exact hrow.payment (statusOutcome_slots sub entity invoices plan status now)
  | retires row => exact row.payment
  | undone row => exact row.payment
  | _ => rfl

theorem SavePath.free {calls : List Call} {sub sub' : Subscription} (h : SavePath calls sub sub')
    (hn : sub.replacementProviderRef = none) : sub'.replacementProviderRef = none := by
  induction h with
  | refl => exact hn
  | tail _ hs ih => exact hs.free ih

theorem SavePath.payment {calls : List Call} {sub sub' : Subscription}
    (h : SavePath calls sub sub') : sub'.paymentProviderRef = sub.paymentProviderRef := by
  induction h with
  | refl => rfl
  | tail _ hs ih => exact hs.payment.trans ih

/-- What a checkout makes of the row: saves, and perhaps one creation after them. -/
inductive Ends (calls : List Call) (db db' : Database) : Prop
  | saves (saves : Saves calls db db')
  | creates {sub sub' : Subscription} (mid : Database) (saves : Saves calls db mid)
      (row : mid.sub? = some sub) (creation : Creation calls sub sub')
      (after : db'.sub? = some sub')
  | first {plan : Plan} {created : Created} (absent : db.sub? = none)
      (fresh : CreatedBy calls created)
      (after : db'.sub? = some (newlyStored (freshRow plan).sub plan created))

theorem Ends.after {calls : List Call} {db mid db' : Database} (h : Saves calls db mid)
    (h' : Ends calls mid db') : Ends calls db db' := by
  cases h' with
  | saves saves => exact .saves (h.trans saves)
  | creates mid' saves row creation after => exact .creates mid' (h.trans saves) row creation after
  | first absent fresh after =>
    refine .first ?_ fresh after
    rcases h with h | ⟨_, _, -, h, -⟩
    · exact h ▸ absent
    · rw [absent] at h
      cases h

theorem Ends.of_sub? {calls : List Call} {db db' db'' : Database} (h : Ends calls db db')
    (hs : db''.sub? = db'.sub?) : Ends calls db db'' := by
  cases h with
  | saves saves => exact .saves (saves.trans (.of_sub? hs))
  | creates mid saves row creation after => exact .creates mid saves row creation (hs.trans after)
  | first absent fresh after => exact .first absent fresh (hs.trans after)

theorem Ends.mono {a b : Journal} {db db' : Database} (h : Ends a.calls db db') (hab : a ≤ b) :
    Ends b.calls db db' := by
  cases h with
  | saves saves => exact .saves (saves.mono hab)
  | creates mid saves row creation after =>
    exact .creates mid (saves.mono hab) row (creation.mono hab) after
  | first absent fresh after => exact .first absent (fresh.mono hab) after

def Closing {α : Type} (env : Env) (m : Prog α) (s : State) : Prop :=
  Program.wp env m (fun _ t => Ends t.journal.calls s.data t.data)
    (fun e t => Ends t.journal.calls s.data t.data ∧
      (e = .integrityError → Refused env t.journal.calls s.data)) s

section Rules

variable {α β : Type} {env : Env} {s : State}

theorem Saving.closing {m : Prog α} {Q : α → State → Prop} (h : Saving env m Q s) :
    Closing env m s :=
  Program.wp_mono h (fun _ _ h => .saves h.1) (fun _ _ h => ⟨.saves h.1, h.2⟩)

theorem Reading.closing {m : Prog α} (h : Reading m) : Closing env m s :=
  Saving.closing (Q := fun _ _ => True) (.of_reading h Program.wp_trivial)

theorem Saving.bind_closing {m : Prog α} {f : α → Prog β} {P : α → State → Prop}
    (hm : Saving env m P s)
    (hf : ∀ a t, P a t → s.journal ≤ t.journal → Saves t.journal.calls s.data t.data →
      Closing env (f a) t) : Closing env (m >>= f) s := by
  refine Program.wp_bind_of (Program.wp_grows hm) ?_ fun _ _ h => ⟨.saves h.1.1, h.1.2⟩
  rintro a t ⟨⟨hs, hp⟩, hst⟩
  refine Program.wp_mono (Program.wp_grows (hf a t hp hst hs)) ?_ ?_
  · rintro b u ⟨hu, htu⟩
    exact .after (hs.mono htu) hu
  · rintro e u ⟨⟨hu, hr⟩, htu⟩
    exact ⟨.after (hs.mono htu) hu, fun he => (hr he).after (hs.mono htu)⟩

theorem Reading.bind_closing {m : Prog α} {f : α → Prog β} {P : α → State → Prop} (hm : Reading m)
    (h : Program.returns env m P s)
    (hf : ∀ a t, P a t → t.data.sub? = s.data.sub? → s.journal ≤ t.journal →
      Closing env (f a) t) : Closing env (m >>= f) s := by
  refine Saving.bind_closing (.of_reading hm
    (Program.returns_of_wp (Program.wp_and h (hm.1.wp env s)))) ?_
  exact fun a t ⟨hp, ht⟩ hst _ => hf a t hp ht hst

theorem Closing.then_read {m : Prog α} {f : α → Prog β} (hm : Closing env m s)
    (hf : ∀ a, Reading (f a)) : Closing env (m >>= f) s := by
  refine Program.wp_bind_of hm ?_ fun _ _ h => h
  intro a t ht
  refine Program.wp_mono (Program.wp_grows (Program.wp_and ((hf a).1.wp env t) ((hf a).2 env t)))
    ?_ ?_
  · rintro b u ⟨⟨hu, -⟩, htu⟩
    exact (ht.mono htu).of_sub? hu
  · rintro e u ⟨⟨hu, hne⟩, htu⟩
    exact ⟨(ht.mono htu).of_sub? hu, fun he => absurd he hne⟩

theorem Closing.savepoint {m : Prog α} (h : Closing env m s) :
    Closing env (Program.savepoint m) s := by
  unfold Closing
  rw [Program.wp_savepoint]
  exact Program.wp_mono h (fun _ _ h => h) (fun _ _ h => ⟨.saves (.refl _ _), h.2⟩)

theorem Closing.ite {c : Prop} [Decidable c] {m n : Prog α} (hm : c → Closing env m s)
    (hn : ¬ c → Closing env n s) : Closing env (if c then m else n) s := by
  by_cases h : c
  · rw [if_pos h]
    exact hm h
  · rw [if_neg h]
    exact hn h

theorem Closing.pure (a : α) : Closing env (pure a) s := (reading_pure a).closing

theorem Closing.raise {e : Error} (h : e ≠ .integrityError) :
    Closing env (Program.raise e : Prog α) s := (reading_raise h).closing

theorem Closing.create {sub sub' : Subscription} (hsub : s.data.sub? = some sub)
    (h : Creation s.journal.calls sub sub') : Closing env (saveSubscription sub') s := by
  unfold Closing
  rw [wp_saveSubscription]
  refine ⟨fun hc _ => .creates s.data (.refl _ _) hsub h rfl, fun hno => ?_⟩
  refine ⟨.saves (.refl _ _), fun _ => ⟨s.data, Or.inl (.refl _ _), sub, sub', hsub, Or.inr h, ?_⟩⟩
  rwa [hsub] at hno

end Rules

section Snapshot

variable {env : Env} {s : State}

theorem applySnapshot_saves {entity : Dict} {invoices : Option (List Json)} {started : Time}
    {actor : Option ℕ} (hans : Answered s.journal.calls entity)
    (hinv : Invoiced s.journal.calls invoices) :
    Saving env (applySnapshot entity invoices started actor) (fun _ _ => True) s := by
  unfold applySnapshot
  refine Saving.savepoint (Saving.read (P := fun sub t => s = t ∧ s.data.sub? = some sub)
    reading_lockSubscription ?_ ?_)
  · exact wp_lockSubscription.mpr ⟨fun sub h => ⟨rfl, h⟩, fun _ => trivial⟩
  rintro sub _ ⟨rfl, hsub⟩ - -
  refine Saving.read (P := fun _ t => s.tick = t) reading_timezoneNow (wp_timezoneNow.mpr rfl) ?_
  rintro now _ rfl - -
  refine Saving.read (P := fun x t => env = x ∧ s.tick = t) reading_ask ⟨rfl, rfl⟩ ?_
  rintro _ _ ⟨rfl, rfl⟩ - -
  unfold snapshotLocked
  refine Saving.ite (fun _ => .pure trivial) fun hnames => ?_
  refine Saving.ite (fun _ => .pure trivial) fun hnewer => ?_
  split
  · rename_i plan status hplan hstatus
    refine Saving.read (reading_applyStatus ..) applyStatus_spec ?_
    rintro r t ⟨hrow, -, -⟩ ht hst
    have haccepts : Accepts env.settings sub entity started plan status :=
      ⟨by simpa using hnames, by simpa using hnewer, hplan, Json.str?_eq_some.mp hstatus⟩
    have hsave : Save t.journal.calls sub (stamped r.sub status started) :=
      .snapshot haccepts (hans.mono hst) (hinv.mono hst) hrow
    unfold storeSnapshot
    exact (Saving.save (ht.trans hsub) hsave).then_read fun _ =>
      (Reading.whenever ((reading_resetUsagePeriod _).bind fun _ => reading_pure ())).bind
        fun _ => reading_pure _
  · exact .pure trivial

@[simp] theorem reading_fetchProviderEntity (ref : Ref) : Reading (fetchProviderEntity ref) := by
  refine Reading.bind (by simp) fun _ => ?_
  split
  · simp
  · exact reading_raise (by simp)

@[simp] theorem reading_fetchInvoicesIfNeeded (ref : Ref) (oldStatus : Status)
    (oldStart : Option Time) (entity : Dict) :
    Reading (fetchInvoicesIfNeeded ref oldStatus oldStart entity) := by
  unfold fetchInvoicesIfNeeded
  split
  · exact (reading_razorpayInvoices ref).bind fun _ => reading_pure _
  · simp

@[simp] theorem reading_reconcileRead (sub : Subscription) (ref : Ref) :
    Reading (reconcileRead sub ref) :=
  reading_timezoneNow.bind fun _ => (reading_fetchProviderEntity ref).bind fun _ =>
    (reading_rejectedIsUnavailable (reading_fetchInvoicesIfNeeded ..)).bind fun _ => reading_pure _

theorem reconcile_saves {sub : Subscription} {ref : Ref} (hsub : s.data.sub? = some sub) :
    Saving env (reconcile sub ref) (fun p t => ReconcilePost env sub ref p s t) s := by
  have h : Saving env (reconcile sub ref) (fun _ _ => True) s := by
    refine Saving.read (reading_reconcileRead sub ref)
      (Program.returns_of_wp reconcileRead_spec) ?_
    rintro f t ⟨-, hf⟩ - -
    refine (applySnapshot_saves ⟨_, hf.fetched⟩ hf.invoiced).then_read fun _ => ?_
    exact reading_lockSubscription.savepoint.bind fun _ => reading_pure _
  exact (h.and (Program.returns_of_wp (reconcile_spec hsub))).mono fun _ _ h => h.2

theorem Saving.abandon {sub : Subscription} {a : Abandonment} {abandonable : Dict → Bool}
    {s₀ : State} (hsub : s.data.sub? = some sub) (h : AbandonPost sub abandonable a s₀ s)
    (hna : ∀ e, abandonable e = true → notActive e = true) (ha : a.abandoned = true) :
    Saving env (saveSubscription a.sub) (fun _ t => t.data.sub? = some a.sub) s :=
  (Saving.save hsub (.retires (h.abandons hna ha))).mono fun _ _ h => h.1

theorem clearReplacementBeforeReset_saves {sub : Subscription} (hsub : s.data.sub? = some sub) :
    Saving env (clearReplacementBeforeReset sub)
      (fun sub' t => t.data.sub? = some sub' ∧ sub'.status = sub.status ∧
        sub'.replacementProviderRef = none) s := by
  have h : Saving env (clearReplacementBeforeReset sub) (fun _ _ => True) s := by
    unfold clearReplacementBeforeReset
    refine Saving.ite (fun _ => .pure trivial) fun _ => ?_
    refine Saving.read (reading_abandonUnlessActive ..) (abandonUnlessActive_spec (by simp)) ?_
    intro a t ht hdata _
    refine Saving.ite (fun ha => ?_) fun _ => .raise ?_
    · exact (Saving.abandon (hdata.trans hsub) ht (fun _ h => h) ha).then_read fun _ =>
        reading_pure _
    · unfold resetRefusal
      repeat' split
      all_goals simp
  exact (h.and (clearReplacementBeforeReset_spec hsub)).mono
    fun _ _ h => ⟨h.2.1, h.2.2.1, h.2.2.2.2.1⟩

end Snapshot

section Checkout

variable {env : Env} {s : State}

@[simp] theorem reading_usableCreated (entity : Dict) (current : Option Ref) :
    Reading (usableCreated entity current) := by
  unfold usableCreated
  split
  · split
    · exact reading_raise (by simp)
    · simp
  · exact reading_raise (by simp)

@[simp] theorem reading_createProviderSubscription (plan : Plan) :
    Reading (createProviderSubscription plan) :=
  (reading_rejectedIsUnavailable (reading_razorpay _)).bind fun _ => reading_usableCreated _ _

@[simp] theorem reading_cancelOldProviderSubscription (ref : Ref) :
    Reading (cancelOldProviderSubscription ref) :=
  (reading_rejectedIsUnavailable (reading_razorpay _)).bind fun _ => reading_pure _

@[simp] theorem reading_cancelIfAsked (ref : Option Ref) : Reading (cancelIfAsked ref) := by
  cases ref with
  | none => exact reading_pure ()
  | some ref => exact reading_cancelOldProviderSubscription ref

@[simp] theorem reading_createReplacementSubscription (plan : Plan) (terms : Terms)
    (current : Option Ref) : Reading (createReplacementSubscription plan terms current) := by
  unfold createReplacementSubscription
  split
  · exact reading_raise (by simp)
  · exact (reading_rejectedIsUnavailable (reading_razorpay _)).bind
      fun _ => reading_usableCreated _ _

@[simp] theorem reading_updateOrRefusal (ref : Ref) (plan : Plan) (scheduleChangeAt : String) :
    Reading (updateOrRefusal ref plan scheduleChangeAt) := by
  have hm : Reading (do
      let entity ← razorpay (.updateSubscription ref plan.providerPlanId scheduleChangeAt)
      pure (.ok entity : Except ProviderFailure Dict)) :=
    (reading_razorpay _).bind fun _ => reading_pure _
  unfold updateOrRefusal
  refine hm.rescue fun e => ?_
  split
  · exact .inl ⟨_, rfl⟩
  · exact .inr ⟨_, rfl, id⟩

@[simp] theorem reading_checkProviderState (settings : Settings) (entity : Dict) :
    Reading (checkProviderState settings entity) := by
  unfold checkProviderState providerStateError
  split
  · rename_i h
    refine reading_raise ?_
    split at h
    · cases h
      simp
    · split at h <;> cases h
      simp
  · simp

theorem createProvider_closes {sub : Subscription} {plan : Plan} {actor : ℕ}
    (hsub : s.data.sub? = some sub) (hna : sub.status ≠ .active ∧ sub.status ≠ .pastDue)
    (hfree : sub.replacementProviderRef = none) :
    Closing env (do
      let created ← createProviderSubscription plan
      storeNewProviderSubscription sub plan created actor
      pure created) s := by
  refine Reading.bind_closing (reading_createProviderSubscription plan)
    createProviderSubscription_spec ?_
  rintro created t ⟨-, hcreated⟩ ht -
  refine Closing.then_read ?_ fun _ => reading_pure _
  exact (Closing.create (ht.trans hsub) (.stored hna hfree hcreated)).then_read
    fun _ => reading_audit _ _ _

theorem replaceProviderSubscription_closes {sub : Subscription} {plan : Plan} {actor : ℕ}
    {cancelRef : Option Ref} (hsub : s.data.sub? = some sub)
    (hna : sub.status ≠ .active ∧ sub.status ≠ .pastDue) :
    Closing env (replaceProviderSubscription sub plan actor cancelRef) s := by
  unfold replaceProviderSubscription
  refine Reading.bind_closing (P := fun _ _ => True) reading_ask trivial ?_
  intro _ t _ ht _
  refine Closing.then_read (Closing.savepoint ?_) fun _ => reading_pure _
  refine Saving.bind_closing (clearReplacementBeforeReset_saves (ht.trans hsub)) ?_
  rintro sub' u ⟨hsub', hst, hfree⟩ - -
  refine Reading.bind_closing (P := fun _ _ => True) (reading_cancelIfAsked cancelRef)
    (Program.returns_mono (Program.returns_of_wp ((reading_cancelIfAsked cancelRef).1.wp env u))
      fun _ _ _ => trivial) ?_
  intro _ v _ hv _
  exact createProvider_closes (hv.trans hsub') (hst ▸ hna) hfree

theorem createProvider_first {plan : Plan} {actor : ℕ} {result : Created → CheckoutResult}
    (hsub : s.data.sub? = some (freshRow plan).sub) :
    Program.wp env (do
        let created ← createProviderSubscription plan
        storeNewProviderSubscription (freshRow plan).sub plan created actor
        pure (some (result created)))
      (fun _ t => ∃ created, CreatedBy t.journal.calls created ∧
        t.data.sub? = some (newlyStored (freshRow plan).sub plan created))
      (fun e t => e = .integrityError → Refuses env t.journal.calls s.data) s := by
  refine Program.wp_bind_of (Program.wp_and (Program.wp_and createProviderSubscription_spec
    ((reading_createProviderSubscription plan).1.wp env s))
      ((reading_createProviderSubscription plan).2 env s)) ?_ (fun _ _ h he => absurd he h.2)
  rintro created t ⟨⟨⟨-, hcreated⟩, ht⟩, -⟩
  have hcreation : Creation t.journal.calls (freshRow plan).sub
      (newlyStored (freshRow plan).sub plan created) :=
    .stored (by simp [freshRow]) rfl hcreated
  unfold storeNewProviderSubscription
  rw [Program.wp_bind, Program.wp_bind, wp_saveSubscription]
  refine ⟨fun _ _ => ?_, fun hno _ => ?_⟩
  · rw [wp_audit]
    exact ⟨fun _ => ⟨created, hcreated, rfl⟩, fun _ h => (by cases h)⟩
  · rw [ht, hsub] at hno
    exact ⟨_, _, hsub, Or.inr hcreation, hno⟩

theorem firstCheckout_closes {plan : Plan} {actor : ℕ} :
    Closing env (firstCheckout plan actor) s := by
  unfold firstCheckout
  refine Reading.bind_closing (P := fun e t => env = e ∧ s = t) reading_ask ⟨rfl, rfl⟩ ?_
  rintro _ _ ⟨rfl, rfl⟩ - -
  unfold Closing
  rw [Program.wp_savepoint]
  unfold insertSubscription
  rw [Program.wp_bind, Program.wp_query]
  cases hrow : s.data.subscription with
  | some row => exact ⟨by rintro _ ⟨⟩; exact .saves (.refl _ _), by simp⟩
  | none =>
    have habsent : s.data.sub? = none := by rw [Database.sub?, hrow]; rfl
    refine ⟨?_, by simp⟩
    rintro _ ⟨⟩
    rw [Program.wp_ite]
    refine ⟨by simp, fun _ => ?_⟩
    refine Program.wp_mono (createProvider_first rfl) ?_ ?_
    · rintro _ t ⟨created, hcreated, ht⟩
      exact .first habsent hcreated ht
    · exact fun _ t h => ⟨.saves (.refl _ _), fun he =>
        ⟨_, Or.inr ⟨habsent, plan, rfl⟩, h he⟩⟩

theorem createReplacementSubscription_apart {plan : Plan} {terms : Terms} {current : Option Ref} :
    Program.returns env (createReplacementSubscription plan terms current)
      (fun created _ => current ≠ some created.ref) s := by
  unfold createReplacementSubscription
  rw [Program.returns, Program.wp_ite]
  refine ⟨fun _ => trivial, fun _ => ?_⟩
  refine Program.returns_bind (P := fun _ _ => True) ?_ fun entity t _ => ?_
  · exact wp_rejectedIsUnavailable (E := fun _ => True)
      (wp_razorpay.mpr ⟨fun _ _ => trivial, fun _ _ => trivial⟩)
  · unfold usableCreated
    split
    · rw [Program.returns, Program.wp_ite]
      exact ⟨fun _ => trivial, fun h => h⟩
    · trivial

theorem createReplacement_closes {sub : Subscription} {plan : Plan} {kind : ReplacementKind}
    {actor : ℕ} {acknowledged : Bool} {terms : Terms} (hsub : s.data.sub? = some sub)
    (hactive : sub.status = .active) (hgoing : sub.cancelAtPeriodEnd = false)
    (hpaid : sub.paymentProviderRef.isSome = true) :
    Closing env (createReplacement sub plan kind actor acknowledged terms) s := by
  unfold createReplacement
  refine Closing.ite (fun _ => .raise (by simp)) fun hfree => ?_
  refine Closing.ite (fun _ => .raise (by simp)) fun _ => ?_
  refine Reading.bind_closing (P := fun _ t => s = t) reading_ask rfl ?_
  rintro _ _ rfl - -
  refine Reading.bind_closing (P := fun created t => CreatedBy t.journal.calls created ∧
    sub.paymentProviderRef ≠ some created.ref) (reading_createReplacementSubscription ..) ?_ ?_
  · exact Program.wp_and (Program.returns_mono (Program.returns_of_wp
      createReplacementSubscription_spec) fun _ _ h => h.2.1) createReplacementSubscription_apart
      |> fun h => Program.wp_mono h (fun _ _ h => h) (fun _ _ _ => trivial)
  rintro created t ⟨hcreated, hapart⟩ ht -
  refine Closing.then_read (Closing.savepoint ?_) fun _ => reading_pure _
  exact (Closing.create (ht.trans hsub) (.started hactive hgoing hpaid (by simpa using hfree)
    hcreated hapart)).then_read fun _ => reading_audit _ _ _

theorem startPlanChangeReplacement_closes {sub : Subscription} {plan : Plan}
    {kind : ReplacementKind} {actor : ℕ} {acknowledged : Bool} {settings : Settings}
    (hsub : s.data.sub? = some sub) (hactive : sub.status = .active)
    (hgoing : sub.cancelAtPeriodEnd = false) (hpaid : sub.paymentProviderRef.isSome = true) :
    Closing env (startPlanChangeReplacement sub plan kind actor acknowledged settings) s := by
  unfold startPlanChangeReplacement
  split
  · exact .raise (by simp)
  · refine Reading.bind_closing (P := fun _ t => s.tick = t) reading_timezoneNow
      (wp_timezoneNow.mpr rfl) ?_
    rintro now _ rfl - -
    split
    · rename_i error herror
      refine .raise ?_
      unfold replacementTerms at herror
      repeat' split at herror
      all_goals first | cases herror; simp | cases herror
    · exact createReplacement_closes hsub hactive hgoing hpaid

theorem applyUpgrade_saves {sub : Subscription} {ref : Ref} {entity : Dict} {started : Time}
    {actor : ℕ} (hans : Answered s.journal.calls entity) :
    Saving env (applyUpgrade sub ref entity started actor) (fun _ _ => True) s := by
  refine Saving.savepoint (Saving.ite (fun _ => .raise (by simp)) fun _ => ?_)
  refine Saving.read (P := fun invoices t => Invoiced t.journal.calls invoices)
    (reading_rejectedIsUnavailable (reading_fetchInvoicesIfNeeded ..)) ?_ ?_
  · exact wp_rejectedIsUnavailable (E := fun _ => True) (Program.returns_mono
      (Program.returns_of_wp fetchInvoicesIfNeeded_spec) fun _ _ h => h.2)
  · intro invoices t hinv _ hst
    exact (applySnapshot_saves (hans.mono hst) hinv).then_read fun _ => reading_pure ()

theorem scheduleDowngrade_saves {sub : Subscription} {plan : Plan} {actor : ℕ}
    (hsub : s.data.sub? = some sub) (hgoing : sub.cancelAtPeriodEnd = false) :
    Saving env (scheduleDowngrade sub plan actor) (fun _ _ => True) s :=
  Saving.savepoint ((Saving.save hsub (.scheduled hgoing)).then_read fun _ => reading_audit _ _ _)

theorem checkoutActive_closes {sub : Subscription} {plan : Plan} {actor : ℕ} {acknowledged : Bool}
    (hsub : s.data.sub? = some sub) (hactive : sub.status = .active) :
    Closing env (checkoutActive sub plan actor acknowledged) s := by
  unfold checkoutActive
  refine Closing.ite (fun _ => .raise (by simp)) fun hgoing => ?_
  rw [Bool.not_eq_true] at hgoing
  refine Closing.ite (fun _ => .raise (by simp)) fun _ => ?_
  refine Closing.ite (fun _ => .pure _) fun _ => ?_
  split
  · exact .raise (by simp)
  rename_i ref href
  have hpaid : sub.paymentProviderRef.isSome = true := by rw [href]; rfl
  refine Reading.bind_closing (P := fun _ t => s = t) reading_ask rfl ?_
  rintro e _ rfl - -
  refine Reading.bind_closing (P := fun _ t => s.tick = t) reading_timezoneNow
    (wp_timezoneNow.mpr rfl) ?_
  rintro started _ rfl - -
  refine Reading.bind_closing (reading_updateOrRefusal ..)
    (Program.returns_of_wp updateOrRefusal_spec) ?_
  rintro answer t ⟨-, hans, -⟩ ht -
  have hsub' : t.data.sub? = some sub := ht.trans hsub
  unfold checkoutUpdated
  cases answer with
  | error refusal =>
    exact Closing.ite (fun _ => startPlanChangeReplacement_closes hsub' hactive hgoing hpaid)
      fun _ => .raise (by simp)
  | ok entity =>
    dsimp only
    split
    · exact ((applyUpgrade_saves (hans entity rfl)).then_read fun _ => reading_pure _).closing
    · exact ((scheduleDowngrade_saves hsub' hgoing).then_read fun _ => reading_pure _).closing

theorem checkoutReset_closes {sub : Subscription} {fetched : Option (Ref × Dict)} {plan : Plan}
    {actor : ℕ} (hsub : s.data.sub? = some sub)
    (hna : sub.status ≠ .active ∧ sub.status ≠ .pastDue) :
    Closing env (checkoutIncomplete sub fetched plan actor) s ∧
      Closing env (checkoutEnded sub fetched plan actor) s := by
  have reset : ∀ cancelRef, Closing env (replaceProviderSubscription sub plan actor cancelRef) s :=
    fun cancelRef => replaceProviderSubscription_closes hsub hna
  cases fetched with
  | none => exact ⟨reset none, reset none⟩
  | some p =>
    obtain ⟨ref, entity⟩ := p
    constructor
    · unfold checkoutIncomplete
      dsimp only
      split
      · exact reset none
      · split
        · exact (reading_ask.bind fun _ => reading_pure _).closing
        · exact Closing.ite (fun _ => reset _) fun _ => .raise (by simp)
    · unfold checkoutEnded
      dsimp only
      split
      · exact reset none
      · exact Closing.ite (fun _ => reset _) fun _ => .raise (by simp)

theorem checkoutRouted_closes {sub : Subscription} {fetched : Option (Ref × Dict)}
    {before : Status} {plan : Plan} {actor : ℕ} {acknowledged : Bool}
    (hsub : s.data.sub? = some sub) (hnp : sub.status ≠ .pastDue) :
    Closing env (checkoutRouted sub fetched before plan actor acknowledged) s := by
  unfold checkoutRouted
  refine Closing.ite (fun ha => ?_) fun hna => ?_
  · exact Closing.ite (fun _ => .pure _) fun _ => checkoutActive_closes hsub ha
  · exact Closing.ite (fun _ => (checkoutReset_closes hsub ⟨hna, hnp⟩).1)
      fun _ => (checkoutReset_closes hsub ⟨hna, hnp⟩).2

theorem checkoutLocked_closes {sub : Subscription} {plan : Plan} {actor : ℕ} {acknowledged : Bool}
    (hsub : s.data.sub? = some sub) :
    Closing env (checkoutLocked sub plan actor acknowledged) s := by
  unfold checkoutLocked
  refine Closing.ite (fun _ => .raise (by simp)) fun hnp => Closing.ite (fun _ => ?_) fun _ => ?_
  · refine Reading.closing ?_
    unfold replacementPending
    split
    · split
      · exact reading_ask.bind fun _ => reading_pure _
      · exact reading_raise (by simp)
    · exact reading_raise (by simp)
  split
  · refine Reading.bind_closing (P := fun _ t => s = t) reading_ask rfl ?_
    rintro e _ rfl - -
    refine Saving.bind_closing (reconcile_saves hsub) fun p t ht _ _ => ?_
    refine Closing.ite (fun _ => .raise (by simp)) fun hnp' => ?_
    refine Reading.bind_closing (P := fun _ _ => True) (reading_checkProviderState ..)
      (Program.returns_mono (Program.returns_of_wp
        ((reading_checkProviderState e.settings p.2).1.wp env t)) fun _ _ _ => trivial) ?_
    exact fun _ u _ hu _ => checkoutRouted_closes (hu.trans ht.row) hnp'
  · exact Closing.ite (fun _ => .raise (by simp)) fun _ => checkoutRouted_closes hsub hnp

theorem reading_lockCurrentSubscription : Reading lockCurrentSubscription := by
  refine Reading.savepoint (reading_firstSubscription.bind fun row => ?_)
  cases row with
  | none => exact reading_pure _
  | some sub => exact reading_lockSubscription.bind fun _ => reading_pure _

theorem startCheckout_closes {actor planId : ℕ} {acknowledged : Bool} :
    Closing env (startCheckout actor planId acknowledged) s := by
  have lock : ∀ {α : Type} {f : Option Subscription → Prog α} {u : State},
      (∀ row t, t.data.sub? = u.data.sub? → row = u.data.sub? → Closing env (f row) t) →
        Closing env (lockCurrentSubscription >>= f) u := by
    intro α f u h
    refine Reading.bind_closing (P := fun row t => row = u.data.sub?)
      reading_lockCurrentSubscription (lockCurrentSubscription_spec rfl) ?_
    exact fun row t hrow ht _ => h row t ht hrow
  unfold startCheckout
  refine Reading.bind_closing (P := fun _ t => s = t) reading_ask rfl ?_
  rintro e _ rfl - -
  split
  · exact .raise (by simp)
  refine Closing.ite (fun _ => .raise (by simp)) fun _ => lock fun row t ht hrow => ?_
  cases row with
  | some sub => exact checkoutLocked_closes (ht.trans hrow.symm)
  | none =>
    dsimp only
    unfold checkoutUnlocked
    refine Program.wp_bind_of (Program.wp_and (firstCheckout_closes (s := t)) firstCheckout_spec)
      ?_ (fun _ _ h => h.1)
    rintro r u ⟨hends, hr, -⟩
    cases r with
    | some result => exact hends
    | none =>
      -- a first checkout that found a row found it unchanged, and here there is none
      obtain rfl := hr rfl
      refine lock fun row' v hv hrow' => ?_
      rw [ht, ← hrow] at hrow'
      subst hrow'
      exact .raise (by simp)

end Checkout

section Cancel

variable {env : Env} {s : State}

theorem cancelAndRetireReplacement_saves {sub : Subscription} {actor : ℕ} {refuseCommitted : Bool}
    (hsub : s.data.sub? = some sub) :
    Saving env (cancelAndRetireReplacement sub actor refuseCommitted)
      (fun sub' t => t.data.sub? = some sub' ∧ sub'.status = sub.status ∧
        sub'.replacementProviderRef = none) s := by
  have h : Saving env (cancelAndRetireReplacement sub actor refuseCommitted)
      (fun _ _ => True) s := by
    refine Saving.savepoint (Saving.ite (fun _ => .raise (by simp)) fun _ => ?_)
    refine Saving.read (reading_refetchReplacement sub) refetchReplacement_spec ?_
    rintro r t ⟨-, hr⟩ ht -
    unfold retireReread
    cases r with
    | none => exact .raise (by simp)
    | some entity =>
      dsimp only
      split
      · rename_i error herror
        refine .raise ?_
        unfold cancelAndRetireError at herror
        repeat' split at herror
        all_goals cases herror <;> simp
      rename_i herror
      have hok : notActive entity = true ∧ sub.retiredProviderRef = none := by
        unfold cancelAndRetireError at herror
        split at herror
        · cases herror
        · split at herror
          · cases herror
          · rename_i h
            rw [not_or, Bool.not_eq_false, not_not] at h
            exact h
      have huncharged : Reading (cancelUncharged sub entity) := by
        unfold cancelUncharged
        split
        · exact Reading.whenever (by simp)
        · simp
      refine Saving.read (P := fun _ _ => True) huncharged (Program.returns_mono
        (Program.returns_of_wp (huncharged.1.wp env t)) fun _ _ _ => trivial) ?_
      intro _ u _ hu htu
      refine Saving.read (reading_retireReplacement ..) retireReplacement_spec ?_
      rintro sub' v ⟨⟨target, rfl⟩, -⟩ hv huv
      have hrow : Abandons v.journal.calls sub (retired sub target) :=
        ⟨entity, target, (hr entity rfl).mono (le_trans htu huv), hok.1, hok.2, rfl⟩
      exact (Saving.save (hv.trans (hu.trans (ht.trans hsub))) (.retires hrow)).then_read
        fun _ => reading_pure _
  refine (h.and (Program.returns_of_wp (cancelAndRetireReplacement_spec hsub))).mono ?_
  rintro sub' t ⟨-, ht, hret, -⟩
  obtain ⟨_, _, -, -, -, rfl⟩ := hret.row
  exact ⟨ht, rfl, rfl⟩

theorem updateProviderStatus_saves {ref : Ref} {status : String} :
    Saving env (updateProviderStatus ref status) (fun _ _ => True) s := by
  refine Saving.savepoint (Saving.read (P := fun row t => row = s.data.sub? ∧ s = t)
    reading_firstSubscription ⟨rfl, rfl⟩ ?_)
  rintro row _ ⟨hrow, rfl⟩ - -
  cases row with
  | none => exact .pure trivial
  | some sub =>
    exact Saving.whenever (fun _ => (Saving.save hrow.symm .providerStatus).mono
      fun _ _ _ => trivial) fun _ => trivial

theorem storePastDueCancel_saves {sub : Subscription} {actor : ℕ} (hsub : s.data.sub? = some sub)
    (hst : sub.status = .pastDue) :
    Saving env (storePastDueCancel sub actor) (fun _ _ => True) s := by
  refine Saving.savepoint (Saving.bind (Saving.save hsub (.pastDueCancelled hst)) ?_)
  rintro _ t ⟨ht, -⟩ - -
  refine Saving.read (P := fun _ _ => True) (reading_audit ..)
    (Program.returns_mono (Program.returns_of_wp audit_spec) fun _ _ _ => trivial) ?_
  intro _ u _ hu _
  refine Saving.read (reading_abandonUnlessActive ..) (abandonUnlessActive_spec (by simp)) ?_
  intro a v hv hdata _
  refine Saving.whenever (fun ha => ?_) fun _ => trivial
  exact (Saving.abandon (hdata.trans (hu.trans ht)) hv (fun _ h => h) ha).mono fun _ _ _ => trivial

theorem cancelPastDueProvider_saves {ref : Option Ref} {providerStatus : Option String} :
    Saving env (cancelPastDueProvider ref providerStatus) (fun _ _ => True) s := by
  unfold cancelPastDueProvider
  split
  · refine Saving.whenever (fun _ => ?_) fun _ => trivial
    refine Saving.read (P := fun _ _ => True) (by simp) (Program.returns_mono
      (Program.returns_of_wp orNone_razorpay_spec) fun _ _ _ => trivial) ?_
    intro answer t _ _ _
    unfold recordCancelAnswer
    split
    · exact .pure trivial
    · split
      · exact updateProviderStatus_saves
      · exact .pure trivial
  · exact .pure trivial

theorem cancelPastDue_saves {sub : Subscription} {actor : ℕ} (hsub : s.data.sub? = some sub)
    (hst : sub.status = .pastDue) : Saving env (cancelPastDue sub actor) (fun _ _ => True) s :=
  Saving.bind (storePastDueCancel_saves hsub hst) fun _ _ _ _ _ =>
    cancelPastDueProvider_saves.then_read fun _ => reading_lockSubscription

theorem cancelAtPeriodEnd_saves {sub : Subscription} {ref : Ref} {actor : ℕ}
    (hsub : s.data.sub? = some sub) (hfree : sub.replacementProviderRef = none) :
    Saving env (cancelAtPeriodEnd sub ref actor) (fun _ _ => True) s := by
  refine Saving.read (P := fun _ _ => True) (reading_rejectedIsUnavailable (reading_razorpay _))
    (wp_rejectedIsUnavailable (E := fun _ => True)
      (wp_razorpay.mpr ⟨fun _ _ => trivial, fun _ _ => trivial⟩)) ?_
  intro _ t _ ht _
  have hstore : Saving env (do
      saveSubscription { sub with cancelAtPeriodEnd := true }
      audit .cancellationRequested (some actor) [("effective", .str "PERIOD_END")])
      (fun _ _ => True) t :=
    (Saving.save (ht.trans hsub) (.cancelling hfree)).then_read fun _ => reading_audit _ _ _
  exact hstore.savepoint.then_read fun _ => reading_pure _

theorem cancelMain_saves {sub : Subscription} {actor : ℕ} (hsub : s.data.sub? = some sub)
    (hst : sub.status = .active ∨ sub.status = .pastDue)
    (hfree : sub.replacementProviderRef = none) :
    Saving env (cancelMain sub actor) (fun _ _ => True) s := by
  unfold cancelMain
  refine Saving.ite (fun _ => ?_) fun hna => cancelPastDue_saves hsub (hst.resolve_left hna)
  refine Saving.ite (fun _ => .pure trivial) fun _ => ?_
  split
  · exact .raise (by simp)
  refine Saving.bind (reconcile_saves hsub) fun p t ht _ hs => ?_
  have hfree' : p.1.replacementProviderRef = none := (hs.path_of hsub ht.row).free hfree
  unfold cancelReconciled
  refine Saving.ite (fun _ => ?_) fun _ => ?_
  · exact Saving.ite (fun _ => .raise (by simp)) fun _ => cancelAtPeriodEnd_saves ht.row hfree'
  · exact Saving.ite (fun _ => .raise (by simp)) fun hp =>
      cancelPastDue_saves ht.row (by simpa using hp)

theorem cancelSubscription_saves {actor : ℕ} :
    Saving env (cancelSubscription actor) (fun _ _ => True) s := by
  refine Saving.read (P := fun row _ => row = s.data.sub?) reading_lockCurrentSubscription
    (lockCurrentSubscription_spec rfl) ?_
  intro row t hrow ht _
  cases row with
  | none => exact .raise (by simp)
  | some sub =>
    refine Saving.ite (fun _ => .raise (by simp)) fun hst => ?_
    have hst' : sub.status = .active ∨ sub.status = .pastDue := by
      rw [Status.Ended, not_or, not_or] at hst
      cases h : sub.status <;> simp_all
    have hsub : t.data.sub? = some sub := ht.trans hrow.symm
    refine Saving.bind (P := fun sub' u => u.data.sub? = some sub' ∧ sub'.status = sub.status ∧
      sub'.replacementProviderRef = none) ?_ ?_
    · unfold cancelPendingReplacement
      refine Saving.ite (fun _ => cancelAndRetireReplacement_saves hsub) fun hn => ?_
      exact .pure ⟨hsub, rfl, by simpa using hn⟩
    · rintro sub' u ⟨hsub', hs, hfree⟩ - -
      exact cancelMain_saves hsub' (hs ▸ hst') hfree

theorem cancelReplacement_saves {actor : ℕ} :
    Saving env (cancelReplacement actor) (fun _ _ => True) s := by
  refine Saving.read (P := fun row _ => row = s.data.sub?) reading_lockCurrentSubscription
    (lockCurrentSubscription_spec rfl) ?_
  intro row t hrow ht _
  cases row with
  | none => exact .pure trivial
  | some sub =>
    refine Saving.ite (fun _ => ?_) fun _ => .pure trivial
    exact (cancelAndRetireReplacement_saves (ht.trans hrow.symm)).then_read fun _ => reading_pure _

end Cancel

theorem OwnerRequest.saves {request : OwnerRequest}
    (h : ∀ actor planId acknowledged, request ≠ .checkout actor planId acknowledged) (env : Env)
    (s : State) : Saving env request.program (fun _ _ => True) s := by
  cases request with
  | checkout actor planId acknowledged => exact absurd rfl (h actor planId acknowledged)
  | cancel actor => exact cancelSubscription_saves.then_read fun _ => reading_pure ()
  | cancelReplacement actor => exact cancelReplacement_saves.then_read fun _ => reading_pure ()

theorem OwnerRequest.closes (request : OwnerRequest) (env : Env) (s : State) :
    Closing env request.program s := by
  cases request with
  | checkout actor planId acknowledged =>
    exact startCheckout_closes.then_read fun _ => reading_pure ()
  | cancel actor => exact (OwnerRequest.saves (by simp) env s).closing
  | cancelReplacement actor => exact (OwnerRequest.saves (by simp) env s).closing

theorem OwnerRequest.run_ends (request : OwnerRequest) (db : Database) (env : Env) :
    Ends (request.run db env).2.journal.calls db (request.run db env).2.data :=
  wp_state (Q := fun t => Ends t.journal.calls db t.data)
    (Program.wp_mono (request.closes env ⟨db, Journal.empty⟩) (fun _ _ h => h) fun _ _ h => h.1)

theorem OwnerRequest.run_saves {request : OwnerRequest}
    (h : ∀ actor planId acknowledged, request ≠ .checkout actor planId acknowledged)
    (db : Database) (env : Env) :
    Saves (request.run db env).2.journal.calls db (request.run db env).2.data :=
  wp_state (Q := fun t => Saves t.journal.calls db t.data)
    (Program.wp_mono (OwnerRequest.saves h env ⟨db, Journal.empty⟩) (fun _ _ h => h.1)
      fun _ _ h => h.1)

end ReviewFlow.Billing
