import ReviewFlow.Billing.Moves

/-!
# The moves of the merchant's requests

Each request is a reconcile between a first and a last phase. A phase that raises
leaves the tables as it found them, so the same description holds of a request
that returns and of one that raises.
-/

namespace ReviewFlow.Billing

open Savepoint

section Payment

theorem Database.payment?_of {db : Database} {sub : Subscription} (h : db.sub? = some sub) :
    db.payment? = sub.paymentProviderRef := by
  unfold Database.payment?
  rw [h]
  rfl

theorem Stored.payment? {sub sub' : Subscription} {db db' : Database} (h : Stored sub sub' db db')
    (hp : sub'.paymentProviderRef = sub.paymentProviderRef) : db'.payment? = db.payment? := by
  rw [Database.payment?_of h.before, Database.payment?_of h.after, hp]

theorem Abandons.payment {calls : List Call} {sub sub' : Subscription}
    (h : Abandons calls sub sub') : sub'.paymentProviderRef = sub.paymentProviderRef := by
  obtain ⟨_, _, -, -, -, rfl⟩ := h
  rfl

theorem Abandons.status {calls : List Call} {sub sub' : Subscription}
    (h : Abandons calls sub sub') : sub'.status = sub.status := by
  obtain ⟨_, _, -, -, -, rfl⟩ := h
  rfl

theorem Retires.payment? {calls : List Call} {sub sub' : Subscription} {db db' : Database}
    (h : Retires calls sub sub' db db') : db'.payment? = db.payment? := by
  rw [Database.payment?_of h.before, Database.payment?_of h.after, h.row.payment]

theorem StatusRow.payment {calls : List Call} {outcome : Applied} {sub sub' : Subscription}
    (h : StatusRow calls outcome sub') (ho : SameSlots sub outcome.sub) :
    sub'.paymentProviderRef = sub.paymentProviderRef := by
  rcases h with rfl | ⟨-, -, -, ha⟩
  · exact ho.payment
  · exact ha.payment.trans ho.payment

theorem Snapshotted.payment? {settings : Settings} {calls : List Call} {entity : Dict}
    {invoices : Option (List Json)} {started : Time} {sub : Subscription} {plan : Plan}
    {status : String} {now : Time} {r : Applied} {db db' : Database}
    (h : Snapshotted settings calls entity invoices started sub plan status now r db db') :
    db'.payment? = db.payment? := by
  rw [Database.payment?_of h.before, Database.payment?_of h.after]
  exact h.row.payment (statusOutcome_slots ..)

theorem Keeping.single {calls : List Call} {db db' : Database} (h : Move calls db db')
    (hp : db'.payment? = db.payment?) (hs : Steady db db') : Keeping calls db db' :=
  Relation.ReflTransGen.single ⟨h, hp, hs⟩

theorem Snapshotted.keeping {settings : Settings} {calls : List Call} {entity : Dict}
    {invoices : Option (List Json)} {started : Time} {sub : Subscription} {plan : Plan}
    {status : String} {now : Time} {r : Applied} {db db' : Database}
    (h : Snapshotted settings calls entity invoices started sub plan status now r db db')
    (hans : Answered calls entity) (hinv : Invoiced calls invoices) : Keeping calls db db' :=
  .single (Or.inl (.snapshot hans hinv h)) h.payment? h.steady

theorem Keeping.refl (calls : List Call) (db : Database) : Keeping calls db db :=
  Relation.ReflTransGen.refl

theorem Keeping.payment? {calls : List Call} {db db' : Database} (h : Keeping calls db db') :
    db'.payment? = db.payment? := by
  induction h with
  | refl => rfl
  | tail _ hm ih => exact hm.2.1.trans ih

theorem Tending.payment? {calls : List Call} {db db' : Database} (h : Tending calls db db') :
    db'.payment? = db.payment? := by
  have of_row : ∀ {sub sub' : Subscription}, db.sub? = some sub → db'.sub? = some sub' →
      sub'.paymentProviderRef = sub.paymentProviderRef → db'.payment? = db.payment? := by
    intro sub sub' h h' hp
    rw [Database.payment?_of h, Database.payment?_of h', hp]
  cases h with
  | retires done => exact done.payment?
  | committed candidate done => exact of_row done.before done.after rfl
  | uncommitted done => exact of_row done.before done.after rfl
  | undone before row after usage events => exact of_row before after row.payment
  | retiredCleared gone done => exact of_row done.before done.after rfl
  | plain done => exact of_row done.before done.after done.slots.payment

end Payment

section Rules

variable {env : Env} {s : State}

theorem wp_rejectedIsUnavailable {α : Type} {m : Prog α} {Q : α → State → Prop}
    {E : State → Prop} (h : Program.wp env m Q (fun _ t => E t) s) :
    Program.wp env (rejectedIsUnavailable m) Q (fun _ t => E t) s := by
  unfold rejectedIsUnavailable
  rw [Program.wp_handle]
  refine Program.wp_mono h (fun _ _ hq => hq) fun e t ht => ?_
  split <;> exact ht

theorem lockCurrentSubscription_spec {Q : Option Subscription → State → Prop}
    {E : Error → State → Prop} (h : Q s.data.sub? s) :
    Program.wp env lockCurrentSubscription Q E s := by
  unfold lockCurrentSubscription
  rw [Program.wp_savepoint, Program.wp_bind, wp_firstSubscription]
  cases hsub : s.data.sub? with
  | none =>
    rw [hsub] at h
    exact h
  | some sub =>
    rw [Program.wp_bind, wp_lockSubscription]
    refine ⟨fun sub' h' => ?_, fun h' => ?_⟩
    · rw [h'] at h
      exact h
    · rw [hsub] at h'
      cases h'

theorem fetchProviderEntity_spec {ref : Ref} :
    Program.wp env (fetchProviderEntity ref)
      (fun entity t => t.data = s.data ∧ readable ref entity = true ∧
        .subscription (.fetchSubscription ref) (.ok entity) ∈ t.journal.calls)
      (fun _ t => t.data = s.data) s := by
  unfold fetchProviderEntity
  refine Program.wp_bind_of (P := fun entity t => t.data = s.data ∧
    Call.subscription (.fetchSubscription ref) (.ok entity) ∈ t.journal.calls)
    (F := fun _ t => t.data = s.data) ?_ ?_ (fun _ _ h => h)
  · refine wp_rejectedIsUnavailable (wp_razorpay.mpr ⟨fun e _ => ⟨rfl, ?_⟩, fun _ _ => rfl⟩)
    simp
  · rintro entity t ⟨ht, hc⟩
    rw [Program.wp_ite]
    exact ⟨fun hr => ⟨ht, hr, hc⟩, fun _ => ht⟩

theorem fetchInvoicesIfNeeded_spec {ref : Ref} {oldStatus : Status} {oldStart : Option Time}
    {entity : Dict} :
    Program.wp env (fetchInvoicesIfNeeded ref oldStatus oldStart entity)
      (fun invoices t => t.data = s.data ∧ Invoiced t.journal.calls invoices)
      (fun _ t => t.data = s.data) s := by
  unfold fetchInvoicesIfNeeded
  rw [Program.wp_ite]
  refine ⟨fun _ => ?_, fun _ => ⟨rfl, by simp [Invoiced]⟩⟩
  rw [Program.wp_bind, wp_razorpayInvoices]
  refine ⟨fun invoices _ => ⟨rfl, ?_⟩, fun _ _ => rfl⟩
  rintro _ ⟨⟩
  exact ⟨ref, by simp⟩

structure FetchedFrom (calls : List Call) (ref : Ref) (f : Fetched) : Prop where
  fetched : .subscription (.fetchSubscription ref) (.ok f.entity) ∈ calls
  readable : readable ref f.entity = true
  invoiced : Invoiced calls f.invoices

theorem FetchedFrom.mono {a b : Journal} {ref : Ref} {f : Fetched}
    (h : FetchedFrom a.calls ref f) (hab : a ≤ b) : FetchedFrom b.calls ref f :=
  ⟨Journal.mem_of_le hab h.fetched, h.readable, h.invoiced.mono hab⟩

theorem reconcileRead_spec {sub : Subscription} {ref : Ref} :
    Program.wp env (reconcileRead sub ref)
      (fun f t => t.data = s.data ∧ FetchedFrom t.journal.calls ref f)
      (fun _ t => t.data = s.data) s := by
  unfold reconcileRead
  rw [Program.wp_bind, wp_timezoneNow]
  refine Program.wp_bind_of (fetchProviderEntity_spec (s := s.tick)) ?_ (fun _ _ h => h)
  rintro entity t ⟨ht, hr, hc⟩
  refine Program.wp_bind_of (wp_rejectedIsUnavailable (Program.wp_mono
    (Program.wp_grows fetchInvoicesIfNeeded_spec) (fun _ _ h => h) (fun _ _ h => h.1))) ?_
    (fun _ u hu => hu.trans ht)
  rintro invoices u ⟨⟨hu, hi⟩, hg⟩
  exact ⟨hu.trans ht, Journal.mem_of_le hg hc, hr, hi⟩

theorem applySnapshot_wp {entity : Dict} {invoices : Option (List Json)} {started : Time}
    {actor : Option ℕ} :
    Program.wp env (applySnapshot entity invoices started actor)
      (fun r t => SnapshotPost env.settings entity invoices started r s t)
      (fun _ t => t.data = s.data) s :=
  Program.wp_mono (Program.wp_and applySnapshot_spec (Program.savepoint_raises _))
    (fun _ _ h => h.1) (fun _ _ h => h.2)

/-- The tables after a reconcile: as they were, or with the fetched snapshot applied. -/
inductive Reconciled (env : Env) (sub : Subscription) (ref : Ref) (s : State) (calls : List Call)
    (db : Database) : Prop
  | same (data : db = s.data)
  | applied (f : Fetched) (plan : Plan) (status : String) (now : Time) (r : Applied)
      (read : ∃ t, (reconcileRead sub ref).run env s = (.ok f, t))
      (fetched : FetchedFrom calls ref f)
      (done : Snapshotted env.settings calls f.entity f.invoices f.started sub plan status now r
        s.data db)

theorem Reconciled.mono {sub : Subscription} {ref : Ref} {a b : Journal} {db : Database}
    (h : Reconciled env sub ref s a.calls db) (hab : a ≤ b) :
    Reconciled env sub ref s b.calls db := by
  cases h with
  | same data => exact .same data
  | applied f plan status now r read fetched done =>
    exact .applied f plan status now r read (fetched.mono hab) (done.mono hab)

theorem Reconciled.keeping {sub : Subscription} {ref : Ref} {calls : List Call} {db : Database}
    (h : Reconciled env sub ref s calls db) : Keeping calls s.data db := by
  cases h with
  | same data => exact data ▸ .refl calls s.data
  | applied f plan status now r read fetched done =>
    exact done.keeping ⟨_, fetched.fetched⟩ fetched.invoiced

structure ReconcilePost (env : Env) (sub : Subscription) (ref : Ref) (p : Subscription × Dict)
    (s t : State) : Prop where
  row : t.data.sub? = some p.1
  fetched : .subscription (.fetchSubscription ref) (.ok p.2) ∈ t.journal.calls
  readable : readable ref p.2 = true
  reconciled : Reconciled env sub ref s t.journal.calls t.data

theorem reconcile_spec {sub : Subscription} {ref : Ref} (hsub : s.data.sub? = some sub) :
    Program.wp env (reconcile sub ref) (fun p t => ReconcilePost env sub ref p s t)
      (fun _ t => t.data = s.data) s := by
  unfold reconcile
  refine Program.wp_bind_of (Program.wp_and reconcileRead_spec (Program.wp_run _)) ?_
    (fun _ _ h => h.1)
  rintro f t ⟨⟨ht, hf⟩, hrun⟩
  refine Program.wp_bind_of (Program.wp_grows applySnapshot_wp) ?_ (fun _ u hu => hu.1.trans ht)
  rintro r u ⟨hu, hg⟩
  have hf' := hf.mono hg
  have post : ∃ sub', u.data.sub? = some sub' ∧
      Reconciled env sub ref s u.journal.calls u.data := by
    cases hu with
    | dropped sub₁ _ _ data _ =>
      refine ⟨sub, ?_, .same (data.trans ht)⟩
      rw [data, ht]
      exact hsub
    | applied sub₁ plan status now r₁ done _ =>
      have hsub₁ : sub₁ = sub := by
        have := done.before
        rw [ht, hsub] at this
        exact (Option.some.inj this).symm
      subst hsub₁
      rw [ht] at done
      exact ⟨_, done.after, .applied f plan status now r₁ ⟨t, hrun⟩ hf' done⟩
  obtain ⟨sub', hrow, hrec⟩ := post
  rw [Program.wp_bind, Program.wp_savepoint, wp_lockSubscription]
  refine ⟨fun sub₂ h₂ => ⟨h₂, hf'.fetched, hf'.readable, hrec⟩, fun hn => ?_⟩
  rw [hrow] at hn
  cases hn

theorem QuietPath.single {calls : List Call} {db db' : Database} (h : Quiet calls db db')
    (hs : Steady db db') : QuietPath calls db db' :=
  Relation.ReflTransGen.single ⟨h, hs⟩

theorem clearReplacementBeforeReset_spec {sub : Subscription} (hsub : s.data.sub? = some sub) :
    Program.returns env (clearReplacementBeforeReset sub)
      (fun sub' t => t.data.sub? = some sub' ∧ sub'.status = sub.status ∧
        sub'.paymentProviderRef = sub.paymentProviderRef ∧ sub'.replacementProviderRef = none ∧
        QuietPath t.journal.calls s.data t.data) s := by
  unfold clearReplacementBeforeReset
  rw [Program.returns, Program.wp_ite]
  refine ⟨fun hn => ⟨hsub, rfl, rfl, hn, .refl⟩, fun _ => ?_⟩
  refine Program.returns_bind (abandonUnlessActive_spec (by simp)) fun a t ht => ?_
  rw [Program.returns, Program.wp_ite]
  refine ⟨fun ha => ?_, fun _ => trivial⟩
  refine Program.returns_bind saveSubscription_spec ?_
  rintro _ u ⟨hj, hu, hd⟩
  have hrow := ht.abandons (fun _ h => h) ha
  have hret : Retires u.journal.calls sub a.sub s.data u.data :=
    .of_saved hsub (ht.beside.mono fun _ _ h => h.2) (hj ▸ hrow) hu hd
  obtain ⟨-, -, -, -, hn, -, -⟩ := ht.moved ha
  refine ⟨hu, hrow.status, hrow.payment, ?_,
    .single (.tending (.retires hret)) (.of_uncommitted _ hsub hn)⟩
  obtain ⟨_, _, -, -, -, hs⟩ := hrow
  rw [hs]
  rfl

theorem createProviderSubscription_spec {plan : Plan} :
    Program.returns env (createProviderSubscription plan)
      (fun created t => t.data = s.data ∧ CreatedBy t.journal.calls created) s := by
  unfold createProviderSubscription
  refine Program.returns_bind (P := fun entity t => t.data = s.data ∧
    Call.subscription (.createSubscription plan.providerPlanId none none) (.ok entity) ∈
      t.journal.calls) ?_ ?_
  · refine Program.returns_of_wp (wp_rejectedIsUnavailable (E := fun _ => True) ?_)
    exact wp_razorpay.mpr ⟨fun e _ => ⟨rfl, by simp⟩, fun _ _ => trivial⟩
  · rintro entity t ⟨ht, hc⟩
    unfold usableCreated
    cases href : Ref.ofJson? (entity.get "id") with
    | none => trivial
    | some ref =>
      simp only [Program.returns, Program.wp_ite]
      exact ⟨fun _ => trivial, fun _ => ⟨ht, Ref.ofJson?_eq_some.mp href, _, _, _, hc⟩⟩

theorem cancelOldProviderSubscription_spec {ref : Ref} :
    Program.returns env (cancelOldProviderSubscription ref)
      (fun _ t => t.data = s.data ∧ Gone t.journal.calls ref) s := by
  unfold cancelOldProviderSubscription
  refine Program.returns_bind (P := fun entity t => t.data = s.data ∧
    Call.subscription (.cancelSubscription ref false) (.ok entity) ∈ t.journal.calls) ?_ ?_
  · refine Program.returns_of_wp (wp_rejectedIsUnavailable (E := fun _ => True) ?_)
    exact wp_razorpay.mpr ⟨fun e _ => ⟨rfl, by simp⟩, fun _ _ => trivial⟩
  · rintro entity t ⟨ht, hc⟩
    exact ⟨ht, Or.inr ⟨entity, hc⟩⟩

theorem storeNewProviderSubscription_spec {sub : Subscription} {plan : Plan} {created : Created}
    {actor : ℕ} (hsub : s.data.sub? = some sub) :
    Program.returns env (storeNewProviderSubscription sub plan created actor)
      (fun _ t => Stored sub (newlyStored sub plan created) s.data t.data) s := by
  unfold storeNewProviderSubscription
  refine Program.returns_bind saveSubscription_spec ?_
  rintro _ t ⟨-, ht, hd⟩
  exact Program.returns_mono (Program.returns_of_wp audit_spec) fun _ u hu =>
    (Stored.of_save hsub (.refl _) ht hd).logs hu

theorem replaceProviderSubscription_spec {sub : Subscription} {plan : Plan} {actor : ℕ}
    {cancelRef : Option Ref} (hsub : s.data.sub? = some sub) (hna : sub.status ≠ .active)
    (hgone : ∀ ref ∈ sub.paymentProviderRef, Gone s.journal.calls ref ∨ cancelRef = some ref) :
    Program.wp env (replaceProviderSubscription sub plan actor cancelRef)
      (fun _ t => QuietPath t.journal.calls s.data t.data) (fun _ t => t.data = s.data) s := by
  unfold replaceProviderSubscription
  rw [Program.wp_bind, Program.wp_ask]
  refine Program.wp_bind_of (Program.wp_of_savepoint (Q := fun _ t =>
    QuietPath t.journal.calls s.data t.data) ?_) (fun _ _ h => (Program.wp_pure _).mpr h)
    (fun _ _ h => h)
  refine Program.returns_bind (Program.returns_of_wp (Program.wp_grows
    (clearReplacementBeforeReset_spec hsub))) ?_
  rintro sub₁ t ⟨⟨ht, hst, hpay, -, hpath⟩, hst'⟩
  refine Program.returns_bind (Program.returns_of_wp (Program.wp_grows
    (Q := fun _ u => u.data = t.data ∧ ∀ ref ∈ cancelRef, Gone u.journal.calls ref)
    (E := fun _ _ => True) ?_)) ?_
  · cases cancelRef with
    | none => exact ⟨rfl, by simp⟩
    | some ref =>
      refine Program.returns_mono cancelOldProviderSubscription_spec fun _ u hu => ⟨hu.1, ?_⟩
      rintro _ ⟨⟩
      exact hu.2
  rintro _ u ⟨⟨hu, hcancel⟩, htu⟩
  refine Program.returns_bind (Program.returns_of_wp (Program.wp_grows
    createProviderSubscription_spec)) ?_
  rintro created v ⟨⟨hv, hcreated⟩, huv⟩
  have hsub₁ : v.data.sub? = some sub₁ := by rw [hv, hu, ht]
  refine Program.returns_bind (Program.returns_of_wp (Program.wp_grows
    (storeNewProviderSubscription_spec hsub₁))) ?_
  rintro _ w ⟨hw, hvw⟩
  have hpath' : QuietPath w.journal.calls s.data v.data := by
    rw [hv, hu]
    exact hpath.mono (le_trans htu (le_trans huv hvw))
  refine hpath'.tail ⟨.stored (hst ▸ hna) (hcreated.mono hvw) ?_ hw,
    .of_row hw.before hw.after rfl id⟩
  intro ref href
  rw [hpay] at href
  rcases hgone ref href with h | rfl
  · exact h.mono (le_trans hst' (le_trans htu (le_trans huv hvw)))
  · exact (hcancel ref rfl).mono (le_trans huv hvw)

theorem firstCheckout_spec {plan : Plan} {actor : ℕ} :
    Program.wp env (firstCheckout plan actor)
      (fun r t => (r = none → t = s) ∧ QuietPath t.journal.calls s.data t.data)
      (fun _ t => t.data = s.data) s := by
  unfold firstCheckout
  rw [Program.wp_bind, Program.wp_ask]
  refine Program.wp_of_savepoint ?_
  unfold insertSubscription
  rw [Program.returns, Program.wp_bind, Program.wp_query]
  cases hrow : s.data.subscription with
  | some row =>
    refine ⟨?_, by simp⟩
    rintro _ ⟨⟩
    exact ⟨fun _ => rfl, .refl⟩
  | none =>
    refine ⟨?_, by simp⟩
    rintro _ ⟨⟩
    rw [Program.wp_ite]
    refine ⟨by simp, fun _ => ?_⟩
    refine Program.returns_bind (Program.returns_of_wp (Program.wp_grows
      createProviderSubscription_spec)) ?_
    rintro created t ⟨⟨ht, hcreated⟩, hst⟩
    have hsub : t.data.sub? = some (freshRow plan).sub := by rw [ht]; rfl
    refine Program.returns_bind (Program.returns_of_wp (Program.wp_grows
      (storeNewProviderSubscription_spec hsub))) ?_
    rintro _ u ⟨hu, htu⟩
    have ht' : t.data = { s.data with subscription := some (freshRow plan) } := ht
    have habsent : Steady s.data { s.data with subscription := some (freshRow plan) } := by
      rintro ref ⟨x, hx, -⟩
      simp [Database.sub?, hrow] at hx
    refine ⟨by simp, Relation.ReflTransGen.tail
      (QuietPath.single (.inserted plan hrow rfl) habsent) ?_⟩
    rw [← ht']
    exact ⟨.stored (by simp [freshRow]) (hcreated.mono htu) (by simp [freshRow]) hu,
      .of_row hu.before hu.after rfl id⟩

/-- The provider creates a subscription under these terms, with an id that can be stored. -/
def Creates (env : Env) (plan : Plan) (terms : Terms) (current : Option Ref) (calls : ℕ) : Prop :=
  ∃ entity ref, env.oracle.subscription calls (.createSubscription plan.providerPlanId terms.startAt
      (some (toUnix terms.expiresAt))) = .ok entity ∧
    Ref.ofJson? (entity.get "id") = some ref ∧ current ≠ some ref

theorem createReplacementSubscription_spec {plan : Plan} {terms : Terms} {current : Option Ref} :
    Program.wp env (createReplacementSubscription plan terms current)
      (fun created t => t.data = s.data ∧ CreatedBy t.journal.calls created ∧
        Creates env plan terms current s.journal.calls.length)
      (fun _ t => t.data = s.data) s := by
  unfold createReplacementSubscription
  rw [Program.wp_ite]
  refine ⟨fun _ => rfl, fun _ => ?_⟩
  refine Program.wp_bind_of (P := fun entity t => t.data = s.data ∧ Call.subscription
    (.createSubscription plan.providerPlanId terms.startAt (some (toUnix terms.expiresAt)))
    (.ok entity) ∈ t.journal.calls ∧ env.oracle.subscription s.journal.calls.length
      (.createSubscription plan.providerPlanId terms.startAt (some (toUnix terms.expiresAt))) =
        .ok entity) (F := fun _ t => t.data = s.data) ?_ ?_ (fun _ _ h => h)
  · refine wp_rejectedIsUnavailable ?_
    exact wp_razorpay.mpr ⟨fun e he => ⟨rfl, by simp, he⟩, fun _ _ => rfl⟩
  · rintro entity t ⟨ht, hc, ho⟩
    unfold usableCreated
    cases href : Ref.ofJson? (entity.get "id") with
    | none => exact ht
    | some ref =>
      simp only [Program.wp_ite]
      exact ⟨fun _ => ht, fun hne => ⟨ht, ⟨Ref.ofJson?_eq_some.mp href, _, _, _, hc⟩, entity, ref,
        ho, href, hne⟩⟩

theorem createReplacement_spec {sub : Subscription} {plan : Plan} {kind : ReplacementKind}
    {actor : ℕ} {acknowledged : Bool} {terms : Terms} (hsub : s.data.sub? = some sub)
    (hactive : sub.status = .active) :
    Program.wp env (createReplacement sub plan kind actor acknowledged terms)
      (fun _ t => (sub.retiredProviderRef = none ∧ (kind = .upgrade → acknowledged = true) ∧
          Creates env plan terms sub.paymentProviderRef s.journal.calls.length) ∧
        Starting t.journal.calls s.data t.data) (fun _ t => t.data = s.data) s := by
  unfold createReplacement
  rw [Program.wp_ite]
  refine ⟨fun _ => rfl, fun hfree => ?_⟩
  rw [not_not] at hfree
  rw [Program.wp_ite]
  refine ⟨fun _ => rfl, fun hack => ?_⟩
  rw [Program.wp_bind, Program.wp_ask]
  refine Program.wp_bind_of createReplacementSubscription_spec ?_ (fun _ _ h => h)
  rintro created t ⟨ht, hcreated, hcreates⟩
  have hstore : Program.wp env (storeReplacement sub plan kind created.ref terms.expiresAt actor)
      (fun _ u => Stored sub (withReplacement sub plan kind created.ref terms.expiresAt) t.data
        u.data) (fun _ u => u.data = t.data) t := by
    unfold storeReplacement
    refine Program.wp_of_savepoint (Program.returns_bind saveSubscription_spec ?_)
    rintro _ u ⟨-, hu, hd⟩
    exact Program.returns_mono (Program.returns_of_wp audit_spec) fun _ v hv =>
      (Stored.of_save (ht ▸ hsub) (.refl _) hu hd).logs hv
  refine Program.wp_bind_of (Program.wp_grows hstore) ?_ (fun _ u hu => hu.1.trans ht)
  rintro _ u ⟨hu, htu⟩
  rw [ht] at hu
  refine ⟨⟨hfree, fun hk => ?_, hcreates⟩, .intro hactive hfree (hcreated.mono htu) hu⟩
  simpa [hk] using hack

/-- What lets `start_plan_change_replacement` store a replacement, after `calls` calls and
`ticks` readings of the clock. -/
structure Replaceable (env : Env) (sub : Subscription) (plan : Plan) (kind : ReplacementKind)
    (acknowledged : Bool) (calls ticks : ℕ) : Prop where
  free : sub.retiredProviderRef = none
  acknowledged : kind = .upgrade → acknowledged = true
  created : ∃ window terms, replacementWindow env.settings kind = some window ∧
    replacementTerms env.settings sub kind window (env.oracle.clock ticks) = .ok terms ∧
    Creates env plan terms sub.paymentProviderRef calls

theorem startPlanChangeReplacement_spec {sub : Subscription} {plan : Plan}
    {kind : ReplacementKind} {actor : ℕ} {acknowledged : Bool} (hsub : s.data.sub? = some sub)
    (hactive : sub.status = .active) :
    Program.wp env (startPlanChangeReplacement sub plan kind actor acknowledged env.settings)
      (fun _ t => Replaceable env sub plan kind acknowledged
      s.journal.calls.length s.journal.ticks ∧
        Starting t.journal.calls s.data t.data) (fun _ t => t.data = s.data) s := by
  unfold startPlanChangeReplacement
  cases hwindow : replacementWindow env.settings kind with
  | none => exact rfl
  | some window =>
    rw [Program.wp_bind, wp_timezoneNow]
    cases hterms : replacementTerms env.settings sub kind window
        (env.oracle.clock s.journal.ticks) with
    | error error => exact rfl
    | ok terms =>
      refine Program.wp_mono (createReplacement_spec (s := s.tick) hsub hactive) ?_ fun _ _ h => h
      rintro _ t ⟨⟨hfree, hack, hcreates⟩, hstart⟩
      exact ⟨⟨hfree, hack, window, terms, hwindow, hterms, hcreates⟩, hstart⟩

theorem updateOrRefusal_spec {ref : Ref} {plan : Plan} {scheduleChangeAt : String} :
    Program.wp env (updateOrRefusal ref plan scheduleChangeAt)
      (fun answer t => t.data = s.data ∧
        (∀ entity, answer = .ok entity → Answered t.journal.calls entity) ∧
        (∀ failure, answer = .error failure → env.oracle.subscription s.journal.calls.length
          (.updateSubscription ref plan.providerPlanId scheduleChangeAt) = .error failure) ∧
        t.journal.calls.length = s.journal.calls.length + 1 ∧ t.journal.ticks = s.journal.ticks)
      (fun _ t => t.data = s.data) s := by
  unfold updateOrRefusal
  rw [Program.wp_handle, Program.wp_bind, wp_razorpay]
  refine ⟨fun entity _ => ⟨rfl, ?_, by simp, by simp, rfl⟩, fun failure hf => ?_⟩
  · rintro _ ⟨⟩
    exact ⟨.updateSubscription ref plan.providerPlanId scheduleChangeAt, by simp⟩
  · split
    · refine ⟨rfl, by simp, ?_, by simp, rfl⟩
      rintro _ ⟨⟩
      cases ‹Error.provider failure = _›
      exact hf
    · exact rfl

theorem applyUpgrade_spec {sub : Subscription} {ref : Ref} {entity : Dict} {started : Time}
    {actor : ℕ} (hans : Answered s.journal.calls entity) :
    Program.wp env (applyUpgrade sub ref entity started actor)
      (fun _ t => Keeping t.journal.calls s.data t.data) (fun _ t => t.data = s.data) s := by
  unfold applyUpgrade
  refine Program.wp_of_savepoint ?_
  rw [Program.returns, Program.wp_ite]
  refine ⟨fun _ => trivial, fun _ => ?_⟩
  refine Program.returns_bind (Program.returns_of_wp (Program.wp_grows
    (wp_rejectedIsUnavailable (E := fun _ => True) (Program.returns_of_wp
      fetchInvoicesIfNeeded_spec)))) ?_
  rintro invoices t ⟨⟨ht, hi⟩, hst⟩
  refine Program.returns_bind (Program.returns_of_wp (Program.wp_grows applySnapshot_wp)) ?_
  rintro r u ⟨hu, htu⟩
  cases hu with
  | dropped _ _ _ data _ =>
    change Keeping u.journal.calls s.data u.data
    rw [data, ht]
    exact .refl _ _
  | applied _ _ _ _ _ done _ =>
    rw [ht] at done
    exact done.keeping ((hans.mono hst).mono htu) (hi.mono htu)

theorem Plain.keeping {calls : List Call} {sub sub' : Subscription} {db db' : Database}
    (h : Plain sub sub' db db') : Keeping calls db db' :=
  .single (Or.inr (.tending (.plain h))) (h.toStored.payment? h.slots.payment) h.steady

theorem scheduleDowngrade_spec {sub : Subscription} {plan : Plan} {actor : ℕ}
    (hsub : s.data.sub? = some sub) :
    Program.wp env (scheduleDowngrade sub plan actor)
      (fun _ t => Keeping t.journal.calls s.data t.data) (fun _ t => t.data = s.data) s := by
  unfold scheduleDowngrade
  refine Program.wp_of_savepoint (Program.returns_bind saveSubscription_spec ?_)
  rintro _ t ⟨-, ht, hd⟩
  refine Program.returns_mono (Program.returns_of_wp audit_spec) fun _ u hu => ?_
  have hst := (Stored.of_save hsub (.refl _) ht hd).logs hu
  exact (Plain.mk hst ⟨rfl, rfl, rfl, rfl⟩ ⟨rfl, rfl, Or.inl rfl⟩).keeping

def changeKind (sub : Subscription) (plan : Plan) : ReplacementKind :=
  if sub.plan.monthlyPrice < plan.monthlyPrice then .upgrade else .downgrade

def ReplacementKind.changeAt : ReplacementKind → String
  | .upgrade => "now"
  | .downgrade => "cycle_end"

/-- A checkout on an ACTIVE row ends in a replacement: the provider refuses the update as
one it cannot make, and a replacement of that kind can be started. -/
structure FallsBack (env : Env) (sub : Subscription) (ref : Ref) (plan : Plan)
    (acknowledged : Bool) (calls ticks : ℕ) : Prop where
  going : sub.cancelAtPeriodEnd = false
  differs : plan.pk ≠ sub.plan.pk ∧ plan.monthlyPrice ≠ sub.plan.monthlyPrice
  notPending : sub.pendingPlan.map (·.pk) ≠ some plan.pk
  refused : ∃ failure, env.oracle.subscription calls (.updateSubscription ref plan.providerPlanId
      (changeKind sub plan).changeAt) = .error failure ∧
    isUpdateUnsupportedRefusal env.settings failure = true
  enabled : replacementEnabled env.settings (changeKind sub plan) = true
  replaceable : Replaceable env sub plan (changeKind sub plan) acknowledged (calls + 1) (ticks + 1)

theorem checkoutActive_spec {sub : Subscription} {plan : Plan} {actor : ℕ} {acknowledged : Bool}
    {ref : Ref} (hsub : s.data.sub? = some sub) (hactive : sub.status = .active)
    (hpay : sub.paymentProviderRef = some ref) :
    Program.wp env (checkoutActive sub plan actor acknowledged)
      (fun _ t => Keeping t.journal.calls s.data t.data ∨
        (FallsBack env sub ref plan acknowledged s.journal.calls.length s.journal.ticks ∧
          Starting t.journal.calls s.data t.data)) (fun _ t => t.data = s.data) s := by
  unfold checkoutActive
  rw [Program.wp_ite]
  refine ⟨fun _ => rfl, fun hgoing => ?_⟩
  rw [Program.wp_ite]
  refine ⟨fun _ => rfl, fun hdiffers => ?_⟩
  rw [Program.wp_ite]
  refine ⟨fun _ => Or.inl (.refl _ _), fun hpending => ?_⟩
  simp only [hpay]
  rw [Program.wp_bind, Program.wp_ask, Program.wp_bind, wp_timezoneNow]
  refine Program.wp_bind_of (updateOrRefusal_spec (s := s.tick)) ?_ (fun _ _ h => h)
  rintro answer t ⟨ht, ha, hrefused, hcalls, hticks⟩
  have hsub' : t.data.sub? = some sub := by rw [ht]; exact hsub
  have keeping : ∀ {m : Prog Unit}, Program.wp env m
      (fun _ u => Keeping u.journal.calls t.data u.data) (fun _ u => u.data = t.data) t →
      Program.wp env (do m; pure ⟨false, none⟩ : Prog CheckoutResult)
        (fun _ u => Keeping u.journal.calls s.data u.data ∨
          (FallsBack env sub ref plan acknowledged s.journal.calls.length s.journal.ticks ∧
            Starting u.journal.calls s.data u.data)) (fun _ u => u.data = s.data) t :=
    fun h => Program.wp_bind_of h (fun _ _ hu => Or.inl (ht ▸ hu)) (fun _ _ hu => hu.trans ht)
  have hkind : (if decide (sub.plan.monthlyPrice < plan.monthlyPrice) = true
      then ReplacementKind.upgrade else .downgrade) = changeKind sub plan := by
    unfold changeKind
    simp only [decide_eq_true_eq]
  have hat : (if decide (sub.plan.monthlyPrice < plan.monthlyPrice) = true
      then "now" else "cycle_end") = (changeKind sub plan).changeAt := by
    unfold changeKind
    simp only [decide_eq_true_eq]
    split <;> rfl
  unfold checkoutUpdated
  cases answer with
  | error refusal =>
    dsimp only
    rw [Program.wp_ite, hkind]
    refine ⟨fun ⟨hunsupported, henabled⟩ => ?_, fun _ => ht⟩
    refine Program.wp_mono (startPlanChangeReplacement_spec hsub' hactive) ?_
      (fun _ _ h => h.trans ht)
    rintro _ u ⟨hreplaceable, hstart⟩
    rw [hcalls, hticks] at hreplaceable
    have hans := hrefused refusal rfl
    rw [hat] at hans
    rw [not_or] at hdiffers
    exact Or.inr ⟨⟨by simpa using hgoing, hdiffers, hpending, ⟨refusal, hans, hunsupported⟩,
      henabled, hreplaceable⟩, ht ▸ hstart⟩
  | ok entity =>
    dsimp only
    split
    · exact keeping (applyUpgrade_spec (ha entity rfl))
    · exact keeping (scheduleDowngrade_spec hsub')

/-- The last part of a checkout: nothing, moves of an ACTIVE row that leave its payment
reference, or quiet ones of a row that is not ACTIVE. -/
def CheckoutTail (calls : List Call) (mid db' : Database) : Prop :=
  db' = mid ∨ (mid.Active ∧ Keeping calls mid db') ∨ (¬ mid.Active ∧ QuietPath calls mid db')

theorem CheckoutTail.refl (calls : List Call) (db : Database) : CheckoutTail calls db db :=
  Or.inl rfl

theorem CheckoutTail.course {calls : List Call} {mid db' : Database}
    (h : CheckoutTail calls mid db') : CourseTail calls mid db' := by
  rcases h with rfl | ⟨-, h⟩ | h
  · exact Or.inl (.refl calls db')
  · exact Or.inl h
  · exact Or.inr h

theorem notActive_of {db : Database} {sub : Subscription} (h : db.sub? = some sub)
    (hs : sub.status ≠ .active) : ¬ db.Active := by
  rintro ⟨sub', h', ha⟩
  rw [h] at h'
  cases h'
  exact hs ha

/-- What the routing of a checkout rests on: the entity fetched for the row's reference. -/
def FetchedMain (calls : List Call) (sub : Subscription) (fetched : Option (Ref × Dict)) : Prop :=
  match fetched with
  | none => sub.paymentProviderRef = none
  | some (ref, entity) => sub.paymentProviderRef = some ref ∧ readable ref entity = true ∧
      .subscription (.fetchSubscription ref) (.ok entity) ∈ calls

theorem checkoutReset_spec {sub : Subscription} {fetched : Option (Ref × Dict)} {plan : Plan}
    {actor : ℕ} (hsub : s.data.sub? = some sub) (hna : sub.status ≠ .active)
    (hf : FetchedMain s.journal.calls sub fetched) (m : Prog CheckoutResult)
    (hm : m = checkoutIncomplete sub fetched plan actor ∨
      m = checkoutEnded sub fetched plan actor) :
    Program.wp env m (fun _ t => CheckoutTail t.journal.calls s.data t.data)
      (fun _ t => t.data = s.data) s := by
  have reset : ∀ cancelRef, (∀ ref ∈ sub.paymentProviderRef, Gone s.journal.calls ref ∨
      cancelRef = some ref) → Program.wp env (replaceProviderSubscription sub plan actor cancelRef)
      (fun _ t => CheckoutTail t.journal.calls s.data t.data) (fun _ t => t.data = s.data) s :=
    fun cancelRef h => Program.wp_mono (replaceProviderSubscription_spec hsub hna h)
      (fun _ _ ht => Or.inr (Or.inr ⟨notActive_of hsub hna, ht⟩)) (fun _ _ h => h)
  cases fetched with
  | none =>
    have hnone : ∀ ref ∈ sub.paymentProviderRef, Gone s.journal.calls ref ∨
        (none : Option Ref) = some ref := by
      rw [show sub.paymentProviderRef = none from hf]
      simp
    rcases hm with rfl | rfl <;> exact reset none hnone
  | some p =>
    obtain ⟨ref, entity⟩ := p
    obtain ⟨hpay, hread, hcall⟩ := hf
    have hterm : statusIn terminalProviderStatuses entity = true →
        ∀ r ∈ sub.paymentProviderRef, Gone s.journal.calls r ∨ (none : Option Ref) = some r := by
      rw [hpay]
      rintro ht _ ⟨⟩
      exact Or.inl (Or.inl ⟨entity, hcall, hread, ht⟩)
    have hcancel : ∀ r ∈ sub.paymentProviderRef, Gone s.journal.calls r ∨ some ref = some r := by
      rw [hpay]
      rintro _ ⟨⟩
      exact Or.inr rfl
    rcases hm with rfl | rfl
    · unfold checkoutIncomplete
      simp only [Program.wp_ite]
      refine ⟨fun ht => reset none (hterm ht), fun _ => ⟨fun _ => ?_, fun _ =>
        ⟨fun _ => reset (some ref) hcancel, fun _ => rfl⟩⟩⟩
      exact .refl _ _
    · unfold checkoutEnded
      simp only [Program.wp_ite]
      exact ⟨fun ht => reset none (hterm ht), fun _ => ⟨fun _ => reset (some ref) hcancel,
        fun _ => rfl⟩⟩

/-- The routing of a checkout: a tail, or a new replacement of an ACTIVE row. -/
def RoutedPost (env : Env) (sub : Subscription) (plan : Plan) (acknowledged : Bool)
    (s t : State) : Prop :=
  CheckoutTail t.journal.calls s.data t.data ∨
    (sub.status = .active ∧ (∃ ref, sub.paymentProviderRef = some ref ∧
      FallsBack env sub ref plan acknowledged s.journal.calls.length s.journal.ticks) ∧
      Starting t.journal.calls s.data t.data)

theorem checkoutRouted_spec {sub : Subscription} {fetched : Option (Ref × Dict)}
    {before : Status} {plan : Plan} {actor : ℕ} {acknowledged : Bool}
    (hsub : s.data.sub? = some sub) (hf : FetchedMain s.journal.calls sub fetched)
    (hpay : sub.status = .active → sub.paymentProviderRef.isSome = true) :
    Program.wp env (checkoutRouted sub fetched before plan actor acknowledged)
      (fun _ t => RoutedPost env sub plan acknowledged s t) (fun _ t => t.data = s.data) s := by
  unfold checkoutRouted
  rw [Program.wp_ite]
  refine ⟨fun ha => ?_, fun hna => ?_⟩
  · rw [Program.wp_ite]
    refine ⟨fun _ => Or.inl (.refl _ _), fun _ => ?_⟩
    obtain ⟨ref, href⟩ := Option.isSome_iff_exists.mp (hpay ha)
    refine Program.wp_mono (checkoutActive_spec hsub ha href) ?_ (fun _ _ h => h)
    exact fun _ _ h => h.imp (fun hk => Or.inr (Or.inl ⟨⟨sub, hsub, ha⟩, hk⟩))
      fun ⟨hfb, hs⟩ => ⟨ha, ⟨ref, href, hfb⟩, hs⟩
  · have tail : ∀ {m : Prog CheckoutResult}, (m = checkoutIncomplete sub fetched plan actor ∨
        m = checkoutEnded sub fetched plan actor) → Program.wp env m
          (fun _ t => RoutedPost env sub plan acknowledged s t) (fun _ t => t.data = s.data) s :=
      fun hm => Program.wp_mono (checkoutReset_spec hsub hna hf _ hm) (fun _ _ h => Or.inl h)
        (fun _ _ h => h)
    rw [Program.wp_ite]
    exact ⟨fun _ => tail (Or.inl rfl), fun _ => tail (Or.inr rfl)⟩

/-- What a checkout on a row did: a reconcile and a tail from the reconciled tables, or a
new replacement of the row that the reconcile left. -/
inductive CheckoutPost (env : Env) (sub : Subscription) (plan : Plan) (acknowledged : Bool)
    (s t : State) : Prop
  | settled (mid : Database) (first : mid = s.data ∨ ∃ ref, sub.paymentProviderRef = some ref ∧
      Reconciled env sub ref s t.journal.calls mid) (tail : CheckoutTail t.journal.calls mid t.data)
  | replaced (ref : Ref) (sub' : Subscription) (entity : Dict) (u : State)
      (current : sub.status ≠ .pastDue)
      (free : sub.status = .active → sub.replacementProviderRef = none)
      (payment : sub.paymentProviderRef = some ref)
      (ran : (reconcile sub ref).run env s = (.ok (sub', entity), u))
      (post : ReconcilePost env sub ref (sub', entity) s u) (active : sub'.status = .active)
      (falls : FallsBack env sub' ref plan acknowledged u.journal.calls.length u.journal.ticks)
      (later : u.journal ≤ t.journal) (started : Starting t.journal.calls u.data t.data)

theorem CheckoutPost.unchanged {sub : Subscription} {plan : Plan} {acknowledged : Bool}
    {s t : State} (h : t.data = s.data) : CheckoutPost env sub plan acknowledged s t :=
  .settled s.data (Or.inl rfl) (h ▸ .refl _ _)

theorem ReconcilePost.payment {sub : Subscription} {ref : Ref} {p : Subscription × Dict}
    {s t : State} (h : ReconcilePost env sub ref p s t) (hsub : s.data.sub? = some sub)
    (hpay : sub.paymentProviderRef = some ref) : p.1.paymentProviderRef = some ref := by
  cases h.reconciled with
  | same data =>
    have := h.row
    rw [data, hsub] at this
    cases this
    exact hpay
  | applied f plan status now r read fetched done =>
    have := done.payment?
    rw [Database.payment?_of h.row, Database.payment?_of hsub] at this
    exact this.trans hpay

theorem checkoutLocked_spec {sub : Subscription} {plan : Plan} {actor : ℕ} {acknowledged : Bool}
    (hsub : s.data.sub? = some sub) :
    Program.wp env (checkoutLocked sub plan actor acknowledged)
      (fun _ t => CheckoutPost env sub plan acknowledged s t)
      (fun _ t => CheckoutPost env sub plan acknowledged s t) s := by
  unfold checkoutLocked
  rw [Program.wp_ite]
  refine ⟨fun _ => .unchanged rfl, fun hnp => ?_⟩
  rw [Program.wp_ite]
  refine ⟨fun _ => ?_, fun hfree => ?_⟩
  · unfold replacementPending
    split
    · rw [Program.wp_ite]
      exact ⟨fun _ => .unchanged rfl, fun _ => .unchanged rfl⟩
    · exact .unchanged rfl
  cases hpay : sub.paymentProviderRef with
  | none =>
    dsimp only
    rw [Program.wp_ite]
    refine ⟨fun _ => .unchanged rfl, fun hna => ?_⟩
    refine Program.wp_mono (checkoutRouted_spec hsub hpay fun ha => absurd ha hna) ?_
      (fun _ _ h => .unchanged h)
    rintro _ t (htail | ⟨ha, -, -⟩)
    · exact .settled s.data (Or.inl rfl) htail
    · exact absurd ha hna
  | some ref =>
    rw [Program.wp_bind, Program.wp_ask]
    refine Program.wp_bind_of (Program.wp_and (reconcile_spec hsub) (Program.wp_run _)) ?_
      (fun _ _ h => .unchanged h.1)
    rintro ⟨sub', entity⟩ t ⟨ht, hran⟩
    have stop : CheckoutPost env sub plan acknowledged s t :=
      .settled t.data (Or.inr ⟨ref, hpay, ht.reconciled⟩) (.refl _ _)
    have hpay' := ht.payment hsub hpay
    rw [Program.wp_ite]
    refine ⟨fun _ => stop, fun _ => ?_⟩
    refine Program.wp_bind_of (P := fun _ u => u = t) (F := fun _ u => u = t) ?_ ?_ ?_
    · unfold checkProviderState
      split <;> rfl
    · rintro _ u rfl
      refine Program.wp_mono (Program.wp_grows (checkoutRouted_spec ht.row
        ⟨hpay', ht.readable, ht.fetched⟩ fun _ => by rw [hpay']; rfl)) ?_ ?_
      · rintro _ v ⟨hv, huv⟩
        rcases hv with htail | ⟨ha, ⟨ref', href', hfalls⟩, hstart⟩
        · exact .settled u.data (Or.inr ⟨ref, hpay, ht.reconciled.mono huv⟩) htail
        · rw [hpay'] at href'
          cases href'
          exact .replaced ref sub' entity u hnp (by simpa using hfree) hpay hran ht
            ha hfalls huv hstart
      · rintro _ v ⟨hv, huv⟩
        exact .settled u.data (Or.inr ⟨ref, hpay, ht.reconciled.mono huv⟩) (hv ▸ .refl _ _)
    · rintro _ u rfl
      exact stop

/-- What `start_checkout` did: nothing, a first row, or a checkout on the stored row. -/
inductive StartPost (env : Env) (planId : ℕ) (acknowledged : Bool) (s t : State) : Prop
  | unchanged (data : t.data = s.data)
  | first (absent : s.data.sub? = none) (path : QuietPath t.journal.calls s.data t.data)
  | row (sub : Subscription) (plan : Plan) (stored : s.data.sub? = some sub)
      (offered : env.settings.offeredPlan planId = some plan)
      (configured : env.settings.configured = true)
      (post : CheckoutPost env sub plan acknowledged s t)

theorem startCheckout_spec {actor planId : ℕ} {acknowledged : Bool} :
    Program.wp env (startCheckout actor planId acknowledged)
      (fun _ t => StartPost env planId acknowledged s t)
      (fun _ t => StartPost env planId acknowledged s t) s := by
  unfold startCheckout
  rw [Program.wp_bind, Program.wp_ask]
  cases hoffered : env.settings.offeredPlan planId with
  | none => exact .unchanged rfl
  | some plan =>
    dsimp only
    rw [Program.wp_ite]
    refine ⟨fun _ => .unchanged rfl, fun hconf => ?_⟩
    rw [Program.wp_bind]
    refine lockCurrentSubscription_spec ?_
    cases hsub : s.data.sub? with
    | some sub =>
      have row : ∀ t, CheckoutPost env sub plan acknowledged s t →
          StartPost env planId acknowledged s t :=
        fun _ h => .row sub plan hsub hoffered (by simpa using hconf) h
      exact Program.wp_mono (checkoutLocked_spec hsub) (fun _ t h => row t h) (fun _ t h => row t h)
    | none =>
      dsimp only
      unfold checkoutUnlocked
      refine Program.wp_bind_of firstCheckout_spec ?_ (fun _ t ht => .unchanged ht)
      rintro r t ⟨hr, ht⟩
      cases r with
      | some result => exact .first hsub ht
      | none =>
        obtain rfl := hr rfl
        rw [Program.wp_bind]
        refine lockCurrentSubscription_spec ?_
        rw [hsub]
        exact .unchanged rfl

theorem Reconciled.first {sub : Subscription} {ref : Ref} {calls : List Call} {db : Database}
    {s : State} (h : Reconciled env sub ref s calls db) : db = s.data ∨ Move calls s.data db := by
  cases h with
  | same data => exact Or.inl data
  | applied f plan status now r read fetched done =>
    exact Or.inr (Or.inl (.snapshot ⟨_, fetched.fetched⟩ fetched.invoiced done))

theorem StartPost.course {planId : ℕ} {acknowledged : Bool} {s t : State}
    (h : StartPost env planId acknowledged s t) : Course t.journal.calls s.data t.data := by
  cases h with
  | unchanged data => exact data ▸ .refl _ _
  | first absent path =>
    refine ⟨s.data, Or.inl rfl, Or.inl (Or.inr ⟨?_, path⟩)⟩
    rintro ⟨sub, h, -⟩
    rw [absent] at h
    cases h
  | row sub plan stored offered configured post =>
    cases post with
    | settled mid first tail =>
      refine ⟨mid, ?_, Or.inl tail.course⟩
      rcases first with h | ⟨ref, -, hrec⟩
      · exact Or.inl h
      · exact hrec.first
    | replaced ref sub' entity u current free payment ran post active falls later started =>
      exact ⟨u.data, (post.reconciled.mono later).first, Or.inr started⟩

theorem Keeping.trans {calls : List Call} {a b c : Database} (h : Keeping calls a b)
    (h' : Keeping calls b c) : Keeping calls a c :=
  Relation.ReflTransGen.trans h h'

theorem cancelAndRetireReplacement_spec {sub : Subscription} {actor : ℕ} {refuseCommitted : Bool}
    (hsub : s.data.sub? = some sub) :
    Program.wp env (cancelAndRetireReplacement sub actor refuseCommitted)
      (fun sub' t => t.data.sub? = some sub' ∧ Retires t.journal.calls sub sub' s.data t.data ∧
        (refuseCommitted = true → sub.replacementCommittedAt = none))
      (fun _ t => t.data = s.data) s := by
  unfold cancelAndRetireReplacement
  refine Program.wp_of_savepoint ?_
  rw [Program.returns, Program.wp_ite]
  refine ⟨fun _ => trivial, fun hcommitted => ?_⟩
  refine Program.returns_bind refetchReplacement_spec ?_
  rintro r t ⟨ht, hr⟩
  unfold retireReread
  cases r with
  | none => trivial
  | some entity =>
    dsimp only
    cases herr : cancelAndRetireError sub entity with
    | some error => trivial
    | none =>
      have hok : notActive entity = true ∧ sub.retiredProviderRef = none := by
        unfold cancelAndRetireError at herr
        split at herr
        · cases herr
        · split at herr
          · cases herr
          · rename_i h
            rw [not_or, Bool.not_eq_false, not_not] at h
            exact h
      refine Program.returns_bind (P := fun _ u => u.data = t.data ∧ t.journal ≤ u.journal) ?_ ?_
      · refine Program.returns_of_wp (Program.wp_grows (E := fun _ _ => True) ?_)
        unfold cancelUncharged
        split
        · rw [Program.wp_whenever]
          exact ⟨fun _ => Program.returns_mono cancelOldProviderSubscription_spec
            fun _ _ h => h.1, fun _ => rfl⟩
        · exact rfl
      rintro _ u ⟨hu, htu⟩
      refine Program.returns_bind (Program.returns_of_wp (Program.wp_grows
        retireReplacement_spec)) ?_
      rintro sub' v ⟨⟨⟨target, rfl⟩, hv⟩, huv⟩
      refine Program.returns_bind saveSubscription_spec ?_
      rintro _ w ⟨hj, hw, hd⟩
      refine ⟨hw, .of_saved hsub ((Beside.of_data (hu.trans ht)).trans hv) ?_ hw hd,
        fun hr => by simpa [hr] using hcommitted⟩
      refine ⟨entity, target, ?_, hok.1, hok.2, rfl⟩
      rw [hj]
      exact (hr entity rfl).mono (le_trans htu huv)

/-- What `cancel_replacement` did: nothing, or it retired a replacement that is not committed. -/
def CancelReplacementPost (s t : State) : Prop :=
  t.data = s.data ∨ ∃ sub sub', sub.replacementCommittedAt = none ∧
    Retires t.journal.calls sub sub' s.data t.data

theorem CancelReplacementPost.keeping {s t : State} (h : CancelReplacementPost s t) :
    Keeping t.journal.calls s.data t.data := by
  rcases h with h | ⟨sub, sub', hn, done⟩
  · exact h ▸ .refl _ _
  · exact .single (Or.inr (.tending (.retires done))) done.payment?
      (.of_uncommitted _ done.before hn)

theorem cancelReplacement_spec {actor : ℕ} :
    Program.wp env (cancelReplacement actor) (fun _ t => CancelReplacementPost s t)
      (fun _ t => t.data = s.data) s := by
  unfold cancelReplacement
  rw [Program.wp_bind]
  refine lockCurrentSubscription_spec ?_
  cases hsub : s.data.sub? with
  | none => exact Or.inl rfl
  | some sub =>
    dsimp only
    rw [Program.wp_ite]
    refine ⟨fun _ => ?_, fun _ => Or.inl rfl⟩
    refine Program.wp_bind_of (cancelAndRetireReplacement_spec hsub) ?_ (fun _ _ h => h)
    rintro sub' t ⟨-, ht, hn⟩
    exact Or.inr ⟨sub, sub', hn rfl, ht⟩

theorem cancelAtPeriodEnd_spec {sub : Subscription} {ref : Ref} {actor : ℕ}
    (hsub : s.data.sub? = some sub) :
    Program.wp env (cancelAtPeriodEnd sub ref actor)
      (fun _ t => Keeping t.journal.calls s.data t.data) (fun _ t => t.data = s.data) s := by
  unfold cancelAtPeriodEnd
  refine Program.wp_bind_of (P := fun _ t => t.data = s.data) (F := fun _ t => t.data = s.data)
    ?_ ?_ (fun _ _ h => h)
  · exact wp_rejectedIsUnavailable (wp_razorpay.mpr ⟨fun _ _ => rfl, fun _ _ => rfl⟩)
  intro _ t ht
  refine Program.wp_bind_of (Program.wp_of_savepoint (Q := fun _ u =>
    Stored sub { sub with cancelAtPeriodEnd := true } s.data u.data) ?_) ?_
    (fun _ u hu => hu.trans ht)
  · refine Program.returns_bind saveSubscription_spec ?_
    rintro _ u ⟨-, hu, hd⟩
    rw [ht] at hd
    exact Program.returns_mono (Program.returns_of_wp audit_spec) fun _ v hv =>
      (Stored.of_save hsub (.refl _) hu hd).logs hv
  · intro _ u hu
    exact (Plain.mk hu ⟨rfl, rfl, rfl, rfl⟩ ⟨rfl, rfl, Or.inl rfl⟩).keeping

theorem storePastDueCancel_spec {sub : Subscription} {actor : ℕ} (hsub : s.data.sub? = some sub)
    (hst : sub.status = .pastDue) :
    Program.wp env (storePastDueCancel sub actor)
      (fun _ t => Keeping t.journal.calls s.data t.data) (fun _ t => t.data = s.data) s := by
  unfold storePastDueCancel
  refine Program.wp_of_savepoint (Program.returns_bind saveSubscription_spec ?_)
  rintro _ t ⟨-, ht, hd⟩
  refine Program.returns_bind (Program.returns_of_wp audit_spec) fun _ u hu => ?_
  have hst' := (Stored.of_save hsub (.refl _) ht hd).logs hu
  have hkeep : ∀ calls, Keeping calls s.data u.data := fun calls =>
    (Plain.mk hst' ⟨rfl, rfl, rfl, rfl⟩
      ⟨rfl, rfl, Or.inr ⟨by simp [pastDueCancelled, clearGrace], by rw [hst]; decide⟩⟩).keeping
  refine Program.returns_bind (abandonUnlessActive_spec (by simp)) fun a v hv => ?_
  rw [Program.returns, Program.wp_whenever]
  refine ⟨fun ha => ?_, fun ha => ?_⟩
  · refine Program.returns_mono saveSubscription_spec ?_
    rintro _ w ⟨hj, hw, hdw⟩
    have hret : Retires w.journal.calls (pastDueCancelled sub) a.sub u.data w.data :=
      .of_saved hst'.after (hv.beside.mono fun _ _ h => h.2)
        (hj ▸ hv.abandons (fun _ h => h) ha) hw hdw
    obtain ⟨-, -, -, -, hn, -, -⟩ := hv.moved ha
    exact (hkeep _).trans (.single (Or.inr (.tending (.retires hret))) hret.payment?
      (.of_uncommitted _ hst'.after hn))
  · rw [(hv.kept (by simpa using ha)).2]
    exact hkeep _

theorem cancelPastDueProvider_spec {ref : Option Ref} {providerStatus : Option String} :
    Program.wp env (cancelPastDueProvider ref providerStatus)
      (fun _ t => t.data = s.data ∨ ∃ sub sub', Plain sub sub' s.data t.data)
      (fun _ t => t.data = s.data) s := by
  unfold cancelPastDueProvider
  cases ref with
  | none => exact Or.inl rfl
  | some ref =>
    dsimp only
    rw [Program.wp_whenever]
    refine ⟨fun _ => ?_, fun _ => Or.inl rfl⟩
    refine Program.wp_bind_of (P := fun _ t => t.data = s.data)
      (F := fun _ t => t.data = s.data) ?_ ?_ (fun _ _ h => h)
    · rw [wp_orNone, wp_razorpay]
      exact ⟨fun _ _ => rfl, fun _ _ => ⟨fun _ => rfl, fun _ => rfl⟩⟩
    intro answer t ht
    unfold recordCancelAnswer
    split
    · exact Or.inl ht
    · split
      · refine Program.wp_mono updateProviderStatus_spec ?_ (fun _ _ h => h.trans ht)
        intro _ u hu
        rw [ht] at hu
        exact hu.imp_right fun ⟨sub, h⟩ => ⟨sub, h.plain⟩
      · exact Or.inl ht

theorem cancelPastDue_spec {sub : Subscription} {actor : ℕ} (hsub : s.data.sub? = some sub)
    (hst : sub.status = .pastDue) :
    Program.wp env (cancelPastDue sub actor)
      (fun _ t => Keeping t.journal.calls s.data t.data)
      (fun _ t => Keeping t.journal.calls s.data t.data) s := by
  unfold cancelPastDue
  refine Program.wp_bind_of (storePastDueCancel_spec hsub hst) ?_ (fun _ _ h => h ▸ .refl _ _)
  intro _ t ht
  refine Program.wp_bind_of (Program.wp_grows cancelPastDueProvider_spec) ?_ ?_
  · rintro _ u ⟨hu, htu⟩
    have hk : Keeping u.journal.calls s.data u.data := by
      rcases hu with hu | ⟨_, _, hu⟩
      · rw [hu]
        exact ht.mono htu
      · exact (ht.mono htu).trans hu.keeping
    rw [wp_lockSubscription]
    exact ⟨fun _ _ => hk, fun _ => hk⟩
  · rintro _ u ⟨hu, htu⟩
    rw [hu]
    exact ht.mono htu

theorem cancelMain_spec {sub : Subscription} {actor : ℕ} (hsub : s.data.sub? = some sub)
    (hst : sub.status = .active ∨ sub.status = .pastDue) :
    Program.wp env (cancelMain sub actor)
      (fun _ t => Keeping t.journal.calls s.data t.data)
      (fun _ t => Keeping t.journal.calls s.data t.data) s := by
  unfold cancelMain
  rw [Program.wp_ite]
  refine ⟨fun _ => ?_, fun hna => cancelPastDue_spec hsub (hst.resolve_left hna)⟩
  rw [Program.wp_ite]
  refine ⟨fun _ => .refl _ _, fun _ => ?_⟩
  cases sub.paymentProviderRef with
  | none => exact .refl _ _
  | some ref =>
    dsimp only
    refine Program.wp_bind_of (reconcile_spec hsub) ?_ (fun _ _ h => h ▸ .refl _ _)
    intro p t ht
    have hk := ht.reconciled.keeping
    have after : ∀ {m : Prog Subscription}, Program.wp env m
        (fun _ u => Keeping u.journal.calls t.data u.data)
        (fun _ u => Keeping u.journal.calls t.data u.data) t →
        Program.wp env m (fun _ u => Keeping u.journal.calls s.data u.data)
          (fun _ u => Keeping u.journal.calls s.data u.data) t := fun h =>
      Program.wp_mono (Program.wp_grows h) (fun _ _ hu => (hk.mono hu.2).trans hu.1)
        (fun _ _ hu => (hk.mono hu.2).trans hu.1)
    unfold cancelReconciled
    rw [Program.wp_ite]
    refine ⟨fun _ => ?_, fun _ => ?_⟩
    · rw [Program.wp_ite]
      refine ⟨fun _ => hk, fun _ => after ?_⟩
      exact Program.wp_mono (cancelAtPeriodEnd_spec ht.row) (fun _ _ h => h)
        (fun _ _ h => h ▸ .refl _ _)
    · rw [Program.wp_ite]
      refine ⟨fun _ => hk, fun hp => after (cancelPastDue_spec ht.row ?_)⟩
      rwa [not_not] at hp

/-- What `cancel_subscription` did: a pending replacement was retired first. A row that
ended is left alone. -/
structure CancelPost (s t : State) : Prop where
  idle : ∀ sub, s.data.sub? = some sub → sub.status.Ended → t.data = s.data
  path : ∃ mid, (mid = s.data ∨ ∃ sub sub', Retires t.journal.calls sub sub' s.data mid) ∧
    Keeping t.journal.calls mid t.data

theorem CancelPost.course {s t : State} (h : CancelPost s t) :
    Course t.journal.calls s.data t.data := by
  obtain ⟨mid, hfirst, hk⟩ := h.path
  refine ⟨mid, hfirst.imp_right fun ⟨sub, sub', h⟩ => ?_, Or.inl (Or.inl hk)⟩
  exact Or.inr (.tending (.retires h))

theorem cancelSubscription_spec {actor : ℕ} :
    Program.wp env (cancelSubscription actor) (fun _ t => CancelPost s t)
      (fun _ t => CancelPost s t) s := by
  have unchanged : ∀ t : State, t.data = s.data → CancelPost s t := fun t h =>
    ⟨fun _ _ _ => h, s.data, Or.inl rfl, h ▸ .refl _ _⟩
  unfold cancelSubscription
  rw [Program.wp_bind]
  refine lockCurrentSubscription_spec ?_
  cases hsub : s.data.sub? with
  | none => exact unchanged s rfl
  | some sub =>
    dsimp only
    rw [Program.wp_ite]
    refine ⟨fun _ => unchanged s rfl, fun hst => ?_⟩
    have hst' : sub.status = .active ∨ sub.status = .pastDue := by
      rw [Status.Ended, not_or, not_or] at hst
      cases h : sub.status <;> simp_all
    unfold cancelPendingReplacement
    refine Program.wp_bind_of (P := fun sub' t => t.data.sub? = some sub' ∧
      sub'.status = sub.status ∧ (t.data = s.data ∨ Retires t.journal.calls sub sub' s.data t.data))
      (F := fun _ t => t.data = s.data) ?_ ?_ (fun _ t h => unchanged t h)
    · rw [Program.wp_ite]
      refine ⟨fun _ => ?_, fun _ => ⟨hsub, rfl, Or.inl rfl⟩⟩
      refine Program.wp_mono (cancelAndRetireReplacement_spec hsub) ?_ (fun _ _ h => h)
      exact fun sub' t ⟨ht, hr, _⟩ => ⟨ht, hr.row.status, Or.inr hr⟩
    · rintro sub' t ⟨ht, hs, hfirst⟩
      have post : ∀ u : State, Keeping u.journal.calls t.data u.data ∧ t.journal ≤ u.journal →
          CancelPost s u := fun u hu => by
        refine ⟨fun x hx hend => ?_, t.data, hfirst.imp_right fun h =>
          ⟨sub, sub', { h with row := h.row.mono hu.2 }⟩, hu.1⟩
        rw [hsub] at hx
        cases hx
        exact absurd (Or.inr hend) hst
      exact Program.wp_mono (Program.wp_grows (cancelMain_spec ht (hs ▸ hst')))
        (fun _ u hu => post u hu) (fun _ u hu => post u hu)

end Rules

end ReviewFlow.Billing
