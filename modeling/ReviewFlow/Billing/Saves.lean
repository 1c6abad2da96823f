import ReviewFlow.Rollback
import ReviewFlow.Billing.System

/-!
# The saves of the subscription row

`Save` lists what one save makes of the row, each with what decided it. The
requests and the syncs are paths of saves (`Saves`), with at most one `Creation`
at the end of a checkout. A program that is `Reading` saves nothing, and never
raises an integrity error; the programs between are put together by the rules of
`Saving`, which also says which save was refused where one was.
-/

namespace ReviewFlow.Billing

open Savepoint

/-- A save of the row that takes no new reference, and clears no retired one. -/
inductive Save (calls : List Call) : Subscription → Subscription → Prop
  | snapshot {settings : Settings} {sub sub' : Subscription} {entity : Dict}
      {invoices : Option (List Json)} {started now : Time} {plan : Plan} {status : String}
      (accepts : Accepts settings sub entity started plan status)
      (answered : Answered calls entity) (invoiced : Invoiced calls invoices)
      (row : StatusRow calls (statusOutcome sub entity invoices plan status now) sub') :
      Save calls sub (stamped sub' status started)
  | retires {sub sub' : Subscription} (row : Abandons calls sub sub') : Save calls sub sub'
  | undone {sub sub' : Subscription}
      (row : Abandons calls { sub with replacementCommittedAt := none } sub') : Save calls sub sub'
  | committed {sub : Subscription} {now : Time} (candidate : commitCandidate sub = true) :
      Save calls sub { sub with replacementCommittedAt := some now }
  | confirmed {sub : Subscription} {now : Time}
      (committed : sub.replacementCommittedAt.isSome = true) :
      Save calls sub { sub with replacementCancelConfirmedAt := some now }
  | providerStatus {sub : Subscription} {status : Option String} :
      Save calls sub { sub with providerStatus := status }
  | graceExpired {sub : Subscription} (pastDue : sub.status = .pastDue) :
      Save calls sub (graceExpired sub)
  | atStage {sub : Subscription} {stage : ℕ} (pastDue : sub.status = .pastDue)
      (known : stage ∈ dunningStages.map (·.1)) : Save calls sub (atStage sub stage)
  | scheduled {sub : Subscription} {plan : Plan} (going : sub.cancelAtPeriodEnd = false) :
      Save calls sub { sub with pendingPlan := some plan }
  | cancelling {sub : Subscription} (free : sub.replacementProviderRef = none) :
      Save calls sub { sub with cancelAtPeriodEnd := true }
  | pastDueCancelled {sub : Subscription} (pastDue : sub.status = .pastDue) :
      Save calls sub (pastDueCancelled sub)

inductive Creation (calls : List Call) : Subscription → Subscription → Prop
  | stored {sub : Subscription} {plan : Plan} {created : Created}
      (inactive : sub.status ≠ .active ∧ sub.status ≠ .pastDue)
      (free : sub.replacementProviderRef = none) (fresh : CreatedBy calls created) :
      Creation calls sub (newlyStored sub plan created)
  | started {sub : Subscription} {plan : Plan} {kind : ReplacementKind} {created : Created}
      {expiresAt : Time} (active : sub.status = .active) (going : sub.cancelAtPeriodEnd = false)
      (paid : sub.paymentProviderRef.isSome = true)
      (free : sub.retiredProviderRef = none) (fresh : CreatedBy calls created)
      (apart : sub.paymentProviderRef ≠ some created.ref) :
      Creation calls sub (withReplacement sub plan kind created.ref expiresAt)

theorem Save.mono {a b : Journal} {sub sub' : Subscription} (h : Save a.calls sub sub')
    (hab : a ≤ b) : Save b.calls sub sub' := by
  cases h with
  | snapshot accepts answered invoiced row =>
    exact .snapshot accepts (answered.mono hab) (invoiced.mono hab) (row.mono hab)
  | retires row => exact .retires (row.mono hab)
  | undone row => exact .undone (row.mono hab)
  | committed candidate => exact .committed candidate
  | confirmed committed => exact .confirmed committed
  | providerStatus => exact .providerStatus
  | graceExpired pastDue => exact .graceExpired pastDue
  | atStage pastDue known => exact .atStage pastDue known
  | scheduled going => exact .scheduled going
  | cancelling free => exact .cancelling free
  | pastDueCancelled pastDue => exact .pastDueCancelled pastDue

theorem Creation.mono {a b : Journal} {sub sub' : Subscription} (h : Creation a.calls sub sub')
    (hab : a ≤ b) : Creation b.calls sub sub' := by
  cases h with
  | stored inactive free fresh => exact .stored inactive free (fresh.mono hab)
  | started active going paid free fresh apart =>
    exact .started active going paid free (fresh.mono hab) apart

abbrev SavePath (calls : List Call) : Subscription → Subscription → Prop :=
  Relation.ReflTransGen (Save calls)

theorem SavePath.mono {a b : Journal} {sub sub' : Subscription} (h : SavePath a.calls sub sub')
    (hab : a ≤ b) : SavePath b.calls sub sub' :=
  Relation.ReflTransGen.mono (fun _ _ hs => Save.mono hs hab) _ _ h

/-- The row of the one database comes from that of the other by saves. -/
def Saves (calls : List Call) (db db' : Database) : Prop :=
  db'.sub? = db.sub? ∨
    ∃ sub sub', db.sub? = some sub ∧ db'.sub? = some sub' ∧ SavePath calls sub sub'

theorem Saves.refl (calls : List Call) (db : Database) : Saves calls db db := Or.inl rfl

theorem Saves.of_sub? {calls : List Call} {db db' : Database} (h : db'.sub? = db.sub?) :
    Saves calls db db' := Or.inl h

theorem Saves.path {calls : List Call} {db db' : Database} {sub' : Subscription}
    (h : Saves calls db db') (hsub' : db'.sub? = some sub') :
    ∃ sub, db.sub? = some sub ∧ SavePath calls sub sub' := by
  rcases h with h | ⟨sub, x, hsub, hx, hp⟩
  · exact ⟨sub', h ▸ hsub', .refl⟩
  · rw [hsub'] at hx
    cases hx
    exact ⟨sub, hsub, hp⟩

theorem Saves.path_of {calls : List Call} {db db' : Database} {sub sub' : Subscription}
    (h : Saves calls db db') (hsub : db.sub? = some sub) (hsub' : db'.sub? = some sub') :
    SavePath calls sub sub' := by
  obtain ⟨x, hx, hp⟩ := h.path hsub'
  rw [hsub] at hx
  cases hx
  exact hp

theorem Saves.trans {calls : List Call} {a b c : Database} (h : Saves calls a b)
    (h' : Saves calls b c) : Saves calls a c := by
  rcases h' with h' | ⟨sub, sub', hsub, hsub', hp⟩
  · rcases h with h | ⟨sub, sub', hsub, hsub', hp⟩
    · exact Or.inl (h'.trans h)
    · exact Or.inr ⟨sub, sub', hsub, h'.trans hsub', hp⟩
  · obtain ⟨sub₀, hsub₀, hp₀⟩ := h.path hsub
    exact Or.inr ⟨sub₀, sub', hsub₀, hsub', hp₀.trans hp⟩

theorem Saves.mono {a b : Journal} {db db' : Database} (h : Saves a.calls db db') (hab : a ≤ b) :
    Saves b.calls db db' :=
  h.imp_right fun ⟨sub, sub', hsub, hsub', hp⟩ => ⟨sub, sub', hsub, hsub', hp.mono hab⟩

/-- A save of the stored row was refused, by a CHECK or by a unique index. -/
def Refuses (env : Env) (calls : List Call) (db : Database) : Prop :=
  ∃ sub sub', db.sub? = some sub ∧ (Save calls sub sub' ∨ Creation calls sub sub') ∧
    ¬ (sub'.Checks ∧ ¬ env.others.clash (some sub) sub')

/-- After some saves, or after the insert of a row, a save was refused. -/
def Refused (env : Env) (calls : List Call) (db : Database) : Prop :=
  ∃ mid, (Saves calls db mid ∨ (db.sub? = none ∧ ∃ plan, mid.sub? = some (freshRow plan).sub)) ∧
    Refuses env calls mid

theorem Refused.after {env : Env} {calls : List Call} {db mid : Database}
    (h : Saves calls db mid) (hr : Refused env calls mid) : Refused env calls db := by
  obtain ⟨last, hlast | ⟨hnone, hfresh⟩, hrefuses⟩ := hr
  · exact ⟨last, Or.inl (h.trans hlast), hrefuses⟩
  · refine ⟨last, Or.inr ⟨?_, hfresh⟩, hrefuses⟩
    rcases h with h | ⟨_, _, -, h, -⟩
    · exact h ▸ hnone
    · rw [hnone] at h
      cases h

def Saving {α : Type} (env : Env) (m : Prog α) (Q : α → State → Prop) (s : State) : Prop :=
  Program.wp env m (fun a t => Saves t.journal.calls s.data t.data ∧ Q a t)
    (fun e t => Saves t.journal.calls s.data t.data ∧
      (e = .integrityError → Refused env t.journal.calls s.data)) s

section Reading

variable {α β : Type}

def Reading (m : Prog α) : Prop :=
  Program.Keeps Database.sub? m ∧ Program.Avoids (· = Error.integrityError) m

@[simp] theorem reading_pure (a : α) : Reading (pure a : Prog α) :=
  ⟨Program.keeps_pure a, Program.avoids_pure a⟩

theorem reading_raise {e : Error} (h : e ≠ .integrityError) : Reading (Program.raise e : Prog α) :=
  ⟨Program.keeps_raise e, fun _ _ => h⟩

@[simp] theorem reading_ask : Reading (Program.ask : Prog Env) :=
  ⟨Program.keeps_ask, fun _ _ => trivial⟩

@[simp] theorem reading_get : Reading (Program.get : Prog Database) :=
  ⟨Program.keeps_get, fun _ _ => trivial⟩

theorem Reading.bind {m : Prog α} {f : α → Prog β} (hm : Reading m) (hf : ∀ a, Reading (f a)) :
    Reading (m >>= f) :=
  ⟨hm.1.bind fun a => (hf a).1, hm.2.bind fun a => (hf a).2⟩

theorem Reading.savepoint {m : Prog α} (hm : Reading m) : Reading (Program.savepoint m) := by
  refine ⟨hm.1.savepoint, fun env s => ?_⟩
  rw [Program.wp_savepoint]
  exact hm.2 env s

theorem Reading.rescue {m : Prog α} {f : Error → Prog α} (hm : Reading m)
    (hf : ∀ e, (∃ a, f e = pure a) ∨
      ∃ e', f e = Program.raise e' ∧ (e ≠ .integrityError → e' ≠ .integrityError)) :
    Reading (Program.handle m f) := by
  refine ⟨hm.1.handle fun e => ?_, fun env s => ?_⟩
  · rcases hf e with ⟨a, h⟩ | ⟨e', h, -⟩
    · rw [h]
      exact Program.keeps_pure a
    · rw [h]
      exact Program.keeps_raise e'
  · rw [Program.wp_handle]
    refine Program.wp_mono (hm.2 env s) (fun _ _ _ => trivial) fun e t he => ?_
    rcases hf e with ⟨a, h⟩ | ⟨e', h, hraised⟩
    · rw [h]
      trivial
    · rw [h]
      exact hraised he

theorem reading_query {f : Env → Database → Except Error α × Database}
    (hk : ∀ env db, (f env db).2.sub? = db.sub?)
    (he : ∀ env db, (f env db).1 ≠ .error .integrityError) :
    Reading (Program.query f : Prog α) := by
  refine ⟨Program.keeps_query hk, fun env s => ?_⟩
  rw [Program.wp_query]
  exact ⟨fun _ _ => trivial, fun e h heq => he env s.data (heq ▸ h)⟩

theorem Reading.whenever {c : Prop} [Decidable c] {m : Prog Unit} (hm : Reading m) :
    Reading (Program.whenever c m) :=
  ⟨hm.1.whenever, Program.avoids_whenever hm.2⟩

@[simp] theorem reading_timezoneNow : Reading timezoneNow :=
  ⟨fun _ _ => rfl, fun _ _ => trivial⟩

@[simp] theorem reading_razorpay (request : Request) : Reading (razorpay request) := by
  refine ⟨fun env s => ?_, fun env s => wp_razorpay.mpr ⟨fun _ _ => trivial, fun _ _ => by simp⟩⟩
  unfold razorpay
  dsimp only
  split <;> rfl

@[simp] theorem reading_razorpayInvoices (ref : Ref) : Reading (razorpayInvoices ref) := by
  refine ⟨fun env s => ?_,
    fun env s => wp_razorpayInvoices.mpr ⟨fun _ _ => trivial, fun _ _ => by simp⟩⟩
  unfold razorpayInvoices
  dsimp only
  split <;> rfl

@[simp] theorem reading_rejectedIsUnavailable {m : Prog α} (hm : Reading m) :
    Reading (rejectedIsUnavailable m) := by
  unfold rejectedIsUnavailable
  refine hm.rescue fun e => .inr ?_
  split
  · exact ⟨_, rfl, by simp⟩
  · exact ⟨_, rfl, id⟩

@[simp] theorem reading_orNone {m : Prog α} (hm : Reading m) : Reading (orNone m) := by
  refine ⟨(hm.1.bind fun a => Program.keeps_pure _).handle fun e => ?_, fun env s => ?_⟩
  · split
    · exact Program.keeps_pure _
    · exact Program.keeps_raise e
  · rw [wp_orNone]
    exact Program.wp_mono (hm.2 env s) (fun _ _ _ => trivial)
      fun e t he => ⟨fun _ => trivial, fun _ => he⟩

@[simp] theorem reading_firstSubscription : Reading firstSubscription :=
  reading_query (fun _ _ => rfl) (by simp)

@[simp] theorem reading_lockSubscription : Reading lockSubscription :=
  reading_query (fun _ _ => by split <;> rfl) fun _ _ => by split <;> simp

@[simp] theorem reading_audit (action : AuditAction) (actor : Option ℕ) (metadata : Dict) :
    Reading (audit action actor metadata) :=
  reading_query (fun _ _ => by split <;> rfl) fun _ _ => by split <;> simp

@[simp] theorem reading_markEvents (filter : BillingEvent → Bool) : Reading (markEvents filter) :=
  reading_timezoneNow.bind fun _ => reading_query (fun _ _ => rfl) (by simp)

@[simp] theorem reading_markEventsProcessed (ref : Option Ref) :
    Reading (markEventsProcessed ref) :=
  reading_markEvents _

@[simp] theorem reading_resetUsagePeriod (sub : Subscription) : Reading (resetUsagePeriod sub) := by
  refine reading_query (fun _ db => ?_) fun _ db => ?_ <;> repeat' split
  all_goals first | rfl | simp

@[simp] theorem reading_recordPayment (invoice : Dict) (wasPastDue : Bool) :
    Reading (recordPayment invoice wasPastDue) := by
  refine reading_query (fun env db => ?_) fun env db => ?_ <;> repeat' split
  all_goals first | rfl | simp

@[simp] theorem reading_recordPaid (paid : Option Dict) (wasPastDue : Bool) :
    Reading (recordPaid paid wasPastDue) := by
  cases paid with
  | none => exact reading_pure ()
  | some invoice => exact reading_recordPayment invoice wasPastDue

@[simp] theorem reading_refetchReplacement (sub : Subscription) :
    Reading (refetchReplacement sub) := by
  unfold refetchReplacement
  split
  · exact reading_raise (by simp)
  · exact Reading.bind (by simp) fun _ => by simp

@[simp] theorem reading_retireReplacement (sub : Subscription) (entity : Dict) (reason : String)
    (actor : Option ℕ) : Reading (retireReplacement sub entity reason actor) :=
  reading_ask.bind fun _ => (reading_markEventsProcessed _).bind fun _ =>
    (reading_audit _ _ _).bind fun _ => reading_pure _

@[simp] theorem reading_abandonUnlessActive (sub : Subscription) (reason : String)
    (abandonable : Dict → Bool) (entity : Option Dict) :
    Reading (abandonUnlessActive sub reason abandonable entity) := by
  unfold abandonUnlessActive
  split
  · simp
  · refine Reading.bind ?_ fun r => ?_
    · cases entity <;> simp [entityOrRefetch]
    · split
      · simp
      · split
        · simp
        · split
          · simp
          · exact (reading_retireReplacement _ _ _ _).bind fun _ => reading_pure _

@[simp] theorem reading_auditPlanChange (actor : Option ℕ) (oldPlan plan : Plan)
    (oldPending : Option ℕ) (effective : Option String) :
    Reading (auditPlanChange actor oldPlan plan oldPending effective) :=
  reading_audit _ _ _

@[simp] theorem reading_applyActive (sub : Subscription) (entity : Dict)
    (invoices : Option (List Json)) (plan : Plan) (actor : Option ℕ) (effective : Option String) :
    Reading (applyActive sub entity invoices plan actor effective) := by
  have haudit : Reading (auditActivation sub plan actor effective) := by
    unfold auditActivation
    dsimp only
    split
    · exact (reading_audit _ _ _).bind fun _ => Reading.whenever (by simp)
    · exact Reading.whenever (by simp)
  unfold applyActive
  split
  · simp
  · dsimp only
    split
    · exact (Reading.whenever (by simp)).bind fun _ => (reading_recordPaid _ _).bind fun _ =>
        reading_pure _
    · split
      · simp
      · exact haudit.bind fun _ => (reading_recordPaid _ _).bind fun _ => reading_pure _

@[simp] theorem reading_abandonAfter (r : Applied) (reason : String) :
    Reading (abandonAfter r reason) := by
  unfold abandonAfter
  split
  · exact (reading_abandonUnlessActive _ _ _ _).bind fun _ => reading_pure _
  · simp

@[simp] theorem reading_applyStatus (sub : Subscription) (entity : Dict)
    (invoices : Option (List Json)) (plan : Plan) (actor : Option ℕ)
    (status : String) (now : Time) :
    Reading (applyStatus sub entity invoices plan actor status now) := by
  have hfailed : Reading (applyPaymentFailed sub now) := by
    unfold applyPaymentFailed
    split
    · simp
    · exact (reading_audit _ _ _).bind fun _ => reading_pure _
  have hterminal : Reading (applyTerminal sub now) := by
    unfold applyTerminal
    split
    · exact (reading_audit _ _ _).bind fun _ => reading_pure _
    · exact (reading_audit _ _ _).bind fun _ => reading_pure _
    · exact reading_raise (by simp)
    · simp
  unfold applyStatus
  split
  · simp
  · split
    · exact hfailed.bind fun _ => reading_abandonAfter _ _
    · split
      · split
        · simp
        · exact hterminal.bind fun _ => reading_abandonAfter _ _
      · simp

end Reading

section Rules

variable {α β : Type} {env : Env} {s : State}

theorem Saving.of_reading {m : Prog α} {Q : α → State → Prop} (hm : Reading m)
    (h : Program.returns env m Q s) : Saving env m Q s :=
  Program.wp_mono (Program.wp_and (Program.wp_and (hm.1.wp env s) (hm.2 env s)) h)
    (fun _ _ h => ⟨Or.inl h.1.1, h.2⟩) (fun _ _ h => ⟨Or.inl h.1.1, fun he => absurd he h.1.2⟩)

theorem Saving.mono {m : Prog α} {P Q : α → State → Prop} (h : Saving env m P s)
    (hPQ : ∀ a t, P a t → Q a t) : Saving env m Q s :=
  Program.wp_mono h (fun a t h => ⟨h.1, hPQ a t h.2⟩) (fun _ _ h => h)

theorem Saving.and {m : Prog α} {P Q : α → State → Prop} (h : Saving env m P s)
    (hq : Program.returns env m Q s) : Saving env m (fun a t => P a t ∧ Q a t) s :=
  Program.wp_mono (Program.wp_and h hq) (fun _ _ h => ⟨h.1.1, h.1.2, h.2⟩) (fun _ _ h => h.1)

theorem Saving.bind {m : Prog α} {f : α → Prog β} {P : α → State → Prop} {Q : β → State → Prop}
    (hm : Saving env m P s)
    (hf : ∀ a t, P a t → s.journal ≤ t.journal → Saves t.journal.calls s.data t.data →
      Saving env (f a) Q t) : Saving env (m >>= f) Q s := by
  refine Program.wp_bind_of (Program.wp_grows hm) ?_ fun _ _ h => h.1
  rintro a t ⟨⟨hs, hp⟩, hst⟩
  refine Program.wp_mono (Program.wp_grows (hf a t hp hst hs)) ?_ ?_
  · rintro b u ⟨⟨hu, hq⟩, htu⟩
    exact ⟨(hs.mono htu).trans hu, hq⟩
  · rintro e u ⟨⟨hu, hr⟩, htu⟩
    exact ⟨(hs.mono htu).trans hu, fun he => (hr he).after (hs.mono htu)⟩

theorem Saving.savepoint {m : Prog α} {Q : α → State → Prop} (h : Saving env m Q s) :
    Saving env (Program.savepoint m) Q s := by
  unfold Saving
  rw [Program.wp_savepoint]
  exact Program.wp_mono h (fun _ _ h => h) (fun _ _ h => ⟨.refl _ _, h.2⟩)

theorem Saving.ite {c : Prop} [Decidable c] {m n : Prog α} {Q : α → State → Prop}
    (hm : c → Saving env m Q s) (hn : ¬ c → Saving env n Q s) :
    Saving env (if c then m else n) Q s := by
  by_cases h : c
  · rw [if_pos h]
    exact hm h
  · rw [if_neg h]
    exact hn h

theorem Saving.pure {a : α} {Q : α → State → Prop} (h : Q a s) : Saving env (pure a) Q s :=
  .of_reading (reading_pure a) h

theorem Saving.raise {e : Error} {Q : α → State → Prop} (h : e ≠ .integrityError) :
    Saving env (Program.raise e) Q s :=
  .of_reading (reading_raise h) trivial

theorem Saving.whenever {c : Prop} [Decidable c] {m : Prog Unit} {Q : Unit → State → Prop}
    (hm : c → Saving env m Q s) (hn : ¬ c → Q () s) : Saving env (Program.whenever c m) Q s := by
  by_cases h : c
  · rw [Program.whenever, if_pos h]
    exact hm h
  · rw [Program.whenever, if_neg h]
    exact .pure (hn h)

theorem Saving.save {sub sub' : Subscription} (hsub : s.data.sub? = some sub)
    (h : Save s.journal.calls sub sub') :
    Saving env (saveSubscription sub') (fun _ t => t.data.sub? = some sub' ∧
      t.journal = s.journal) s := by
  unfold Saving
  rw [wp_saveSubscription]
  refine ⟨fun hc _ => ⟨Or.inr ⟨sub, sub', hsub, rfl, .single h⟩, rfl, rfl⟩, fun hno => ?_⟩
  refine ⟨.refl _ _, fun _ => ⟨s.data, Or.inl (.refl _ _), sub, sub', hsub, Or.inl h, ?_⟩⟩
  rwa [hsub] at hno

theorem Saving.read {m : Prog α} {f : α → Prog β} {P : α → State → Prop} {Q : β → State → Prop}
    (hm : Reading m) (h : Program.returns env m P s)
    (hf : ∀ a t, P a t → t.data.sub? = s.data.sub? → s.journal ≤ t.journal →
      Saving env (f a) Q t) : Saving env (m >>= f) Q s := by
  refine Saving.bind (.of_reading hm (Program.returns_of_wp (Program.wp_and h (hm.1.wp env s)))) ?_
  exact fun a t ⟨hp, ht⟩ hst _ => hf a t hp ht hst

theorem Saving.then_read {m : Prog α} {f : α → Prog β} {P : α → State → Prop}
    (hm : Saving env m P s)
    (hf : ∀ a, Reading (f a)) : Saving env (m >>= f) (fun _ _ => True) s :=
  Saving.bind hm fun a t _ _ _ => .of_reading (hf a)
    (Program.returns_mono (Program.returns_of_wp ((hf a).1.wp env t)) fun _ _ _ => trivial)

end Rules

end ReviewFlow.Billing
