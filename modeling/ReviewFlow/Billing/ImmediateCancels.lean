import ReviewFlow.Billing.CheckoutCancels
import ReviewFlow.Billing.SlotDiscipline

/-!
# What an immediate cancel stands on

A reference is cancelled at once where it was the row's payment reference, or where
the operation read it just before and found it created or authenticated. `Vets` says
so of every cancel between two journals; most programs make none (`Uncancels`).
-/

namespace ReviewFlow.Billing

open Savepoint Interleaving Succession

/-- Each immediate cancel between the journals was `ok` after the calls before it. -/
def Vets (ok : List Call → Ref → Prop) (a b : Journal) : Prop :=
  a ≤ b ∧ ∀ pre ref answer post,
    b.calls = pre ++ .subscription (.cancelSubscription ref false) answer :: post →
      a.calls.length ≤ pre.length → ok pre ref

theorem Vets.refl {ok : List Call → Ref → Prop} (a : Journal) : Vets ok a a := by
  refine ⟨le_refl a, fun pre ref answer post h hlen => ?_⟩
  have := congrArg List.length h
  simp only [List.length_append, List.length_cons] at this
  omega

theorem Vets.trans {ok : List Call → Ref → Prop} {a b c : Journal} (h : Vets ok a b)
    (h' : Vets ok b c) : Vets ok a c := by
  refine ⟨le_trans h.1 h'.1, fun pre ref answer post hc hlen => ?_⟩
  by_cases hb : b.calls.length ≤ pre.length
  · exact h'.2 pre ref answer post hc hb
  obtain ⟨new, hnew⟩ := h'.1
  have hpre : pre <+: b.calls :=
    List.prefix_of_prefix_length_le ⟨_, hc.symm⟩ ⟨new, hnew⟩ (by omega)
  obtain ⟨mid, hmid⟩ := hpre
  have htail : mid ++ new = .subscription (.cancelSubscription ref false) answer :: post := by
    rw [← hmid, List.append_assoc] at hnew
    exact List.append_cancel_left (hnew.trans hc)
  cases mid with
  | nil =>
    have := congrArg List.length hmid
    simp only [List.append_nil] at this
    omega
  | cons call mid =>
    obtain ⟨rfl, -⟩ := List.cons.inj htail
    exact h.2 pre ref answer mid hmid.symm hlen

theorem Vets.of_called {ok : List Call → Ref → Prop} {j : Journal} {call : Call}
    (h : ∀ ref answer, call =
      .subscription (.cancelSubscription ref false) answer → ok j.calls ref) :
    Vets ok j { j with calls := j.calls ++ [call] } := by
  refine ⟨Journal.le_called j call, fun pre ref answer post hc hlen => ?_⟩
  have hsplit := List.append_inj hc (by
    have := congrArg List.length hc
    simp only [List.length_append, List.length_cons, List.length_nil] at this
    omega)
  obtain ⟨rfl, hcall⟩ := hsplit
  exact h ref answer (List.cons.inj hcall).1

instance {ok : List Call → Ref → Prop} : Uncancels (Vets ok) where
  refl := Vets.refl
  trans _ _ _ := Vets.trans
  ticked j _ := ⟨le_refl j, (Vets.refl j).2⟩
  called _ _ h := .of_called fun ref answer he => absurd ⟨ref, answer, he⟩ h

/-- Each immediate cancel of the program is `ok`, when it returns and when it raises. -/
def Vetted {α : Type} (env : Env) (ok : List Call → Ref → Prop) (m : Prog α) (s : State) : Prop :=
  Program.wp env m (fun _ t => Vets ok s.journal t.journal)
    (fun _ t => Vets ok s.journal t.journal) s

section Rules

variable {α β : Type} {env : Env} {ok : List Call → Ref → Prop} {s : State}

theorem Vetted.of_records {m : Prog α} (h : Program.Records (Vets ok) m) : Vetted env ok m s := h.wp

theorem Vetted.bind {m : Prog α} {f : α → Prog β} {P : α → State → Prop} (hm : Vetted env ok m s)
    (h : Program.returns env m P s) (hf : ∀ a t, P a t → Vetted env ok (f a) t) :
    Vetted env ok (m >>= f) s := by
  refine Program.wp_bind_of (Program.wp_and hm h) ?_ fun _ _ h => h.1
  rintro a t ⟨ht, hp⟩
  exact Program.wp_mono (hf a t hp) (fun _ _ hu => ht.trans hu) fun _ _ hu => ht.trans hu

theorem Vetted.savepoint {m : Prog α} (h : Vetted env ok m s) :
    Vetted env ok (Program.savepoint m) s := by
  unfold Vetted
  rw [Program.wp_savepoint]
  exact h

theorem Vetted.handle {m : Prog α} {f : Error → Prog α} (hm : Vetted env ok m s)
    (hf : ∀ e, Program.Records (Vets ok) (f e)) : Vetted env ok (Program.handle m f) s := by
  unfold Vetted
  rw [Program.wp_handle]
  refine Program.wp_mono hm (fun _ _ h => h) fun e t ht => ?_
  exact Program.wp_mono (hf e).wp (fun _ _ hu => ht.trans hu) fun _ _ hu => ht.trans hu

theorem Vetted.cancel {ref : Ref} (h : ok s.journal.calls ref) :
    Vetted env ok (razorpay (.cancelSubscription ref false)) s := by
  refine wp_razorpay.mpr ⟨fun entity _ => ?_, fun failure _ => ?_⟩ <;>
    exact .of_called (by rintro _ _ ⟨⟩; exact h)

theorem Vetted.cancelOld {ref : Ref} (h : ok s.journal.calls ref) :
    Vetted env ok (cancelOldProviderSubscription ref) s := by
  refine Vetted.bind (P := fun _ _ => True) (Vetted.handle (.cancel h) fun e => ?_) ?_
    fun _ _ _ => .of_records (by simp)
  · split <;> simp
  · exact wp_rejectedIsUnavailable (E := fun _ => True)
      (wp_razorpay.mpr ⟨fun _ _ => trivial, fun _ _ => trivial⟩)

theorem records_of_vetted {m : Prog α} (h : ∀ env s, Vetted env ok m s) :
    Program.Records (Vets ok) m :=
  fun env s => wp_state (Q := fun t => Vets ok s.journal t.journal) (h env s)

end Rules

section Requests

variable {ok : List Call → Ref → Prop}

theorem vets_cancelIfAsked {cancelRef : Option Ref} (h : ∀ ref ∈ cancelRef, ∀ pre, ok pre ref) :
    Program.Records (Vets ok) (cancelIfAsked cancelRef) := by
  cases cancelRef with
  | none => exact Program.records_pure ()
  | some ref => exact records_of_vetted fun _ _ => .cancelOld (h ref rfl _)

theorem vets_replaceProviderSubscription {sub : Subscription} {plan : Plan} {actor : ℕ}
    {cancelRef : Option Ref} (h : ∀ ref ∈ cancelRef, ∀ pre, ok pre ref) :
    Program.Records (Vets ok) (replaceProviderSubscription sub plan actor cancelRef) := by
  refine Program.records_bind (by simp) fun _ => Program.records_bind ?_ fun _ => by simp
  refine Program.records_savepoint (Program.records_bind (by simp) fun _ => ?_)
  exact Program.records_bind (vets_cancelIfAsked h) fun _ =>
    Program.records_bind (by simp) fun _ => Program.records_bind (by simp) (by simp)

theorem vets_checkoutRouted {sub : Subscription} {fetched : Option (Ref × Dict)} {before : Status}
    {plan : Plan} {actor : ℕ} {acknowledged : Bool} (h : ∀ p ∈ fetched, ∀ pre, ok pre p.1) :
    Program.Records (Vets ok) (checkoutRouted sub fetched before plan actor acknowledged) := by
  have reset : ∀ cancelRef, (cancelRef = none ∨ ∃ p ∈ fetched, cancelRef = some p.1) →
      Program.Records (Vets ok) (replaceProviderSubscription sub plan actor cancelRef) := by
    rintro _ (rfl | ⟨p, hp, rfl⟩)
    · exact vets_replaceProviderSubscription (by simp)
    · exact vets_replaceProviderSubscription (by rintro _ ⟨⟩; exact h p hp)
  unfold checkoutRouted
  split
  · split <;> simp
  split
  · unfold checkoutIncomplete
    split
    · exact reset none (Or.inl rfl)
    · split
      · exact reset none (Or.inl rfl)
      · split
        · simp
        · split
          · exact reset _ (Or.inr ⟨_, rfl, rfl⟩)
          · simp
  · unfold checkoutEnded
    split
    · exact reset none (Or.inl rfl)
    · split
      · exact reset none (Or.inl rfl)
      · split
        · exact reset _ (Or.inr ⟨_, rfl, rfl⟩)
        · simp

theorem vets_checkoutLocked {sub : Subscription} {plan : Plan} {actor : ℕ} {acknowledged : Bool}
    (h : ∀ ref ∈ sub.paymentProviderRef, ∀ pre, ok pre ref) :
    Program.Records (Vets ok) (checkoutLocked sub plan actor acknowledged) := by
  unfold checkoutLocked
  split
  · simp
  split
  · unfold replacementPending
    repeat' split
    all_goals simp
  split
  · rename_i ref href
    refine Program.records_bind (by simp) fun _ => Program.records_bind (by simp) fun p => ?_
    split
    · simp
    refine Program.records_bind ?_ fun _ => vets_checkoutRouted (by rintro _ ⟨⟩; exact h ref href)
    unfold checkProviderState
    split <;> simp
  · split
    · simp
    · exact vets_checkoutRouted (by simp)

theorem vets_lockCurrentSubscription : Program.Records (Vets ok) lockCurrentSubscription := by
  refine Program.records_savepoint (Program.records_bind (by simp) fun row => ?_)
  cases row <;> simp

theorem vets_firstCheckout (plan : Plan) (actor : ℕ) :
    Program.Records (Vets ok) (firstCheckout plan actor) := by
  refine Program.records_bind (by simp) fun _ => Program.records_savepoint ?_
  refine Program.records_bind (by simp [insertSubscription]) fun inserted => ?_
  split
  · simp
  · exact Program.records_bind (by simp) fun _ => Program.records_bind (by simp) (by simp)

variable {env : Env} {s : State}

theorem startCheckout_vetted {actor planId : ℕ} {acknowledged : Bool}
    (h : ∀ sub ∈ s.data.sub?, ∀ ref ∈ sub.paymentProviderRef, ∀ pre, ok pre ref) :
    Vetted env ok (startCheckout actor planId acknowledged) s := by
  have lock : ∀ {α : Type} {f : Option Subscription → Prog α} {u : State},
      Vetted env ok (f u.data.sub?) u → Vetted env ok (lockCurrentSubscription >>= f) u := by
    intro α f u h
    refine Vetted.bind (P := fun row t => row = u.data.sub? ∧ t = u)
      (.of_records vets_lockCurrentSubscription) (lockCurrentSubscription_spec ⟨rfl, rfl⟩) ?_
    rintro _ _ ⟨rfl, rfl⟩
    exact h
  unfold startCheckout
  refine Vetted.bind (P := fun _ t => s = t) (.of_records (by simp)) rfl ?_
  rintro e _ rfl
  split
  · exact .of_records (by simp)
  split
  · exact .of_records (by simp)
  refine lock ?_
  cases hrow : s.data.sub? with
  | some sub => exact .of_records (vets_checkoutLocked (h sub hrow))
  | none =>
    refine Vetted.bind (.of_records (vets_firstCheckout _ actor))
      (Program.returns_of_wp firstCheckout_spec) ?_
    rintro r t ⟨hr, -⟩
    cases r with
    | some result => exact .of_records (by simp)
    | none =>
      obtain rfl := hr rfl
      refine lock ?_
      rw [hrow]
      exact .of_records (by simp)

theorem cancelUncharged_vetted {sub : Subscription} {entity : Dict}
    (h : ∀ ref ∈ sub.replacementProviderRef, statusIn ["created", "authenticated"] entity = true →
      ok s.journal.calls ref) : Vetted env ok (cancelUncharged sub entity) s := by
  unfold cancelUncharged
  split
  · rename_i ref href
    unfold Program.whenever
    split
    · rename_i hst
      exact .cancelOld (h ref href hst)
    · exact .of_records (by simp)
  · exact .of_records (by simp)

theorem refetchReplacement_last {sub : Subscription} :
    Program.returns env (refetchReplacement sub) (fun r t => ∀ entity ∈ r,
      ∀ ref ∈ sub.replacementProviderRef, ∀ statuses, statusIn statuses entity = true →
        LastRead statuses t.journal.calls ref) s := by
  unfold refetchReplacement
  split
  · trivial
  rename_i ref href
  refine Program.returns_bind orNone_razorpay_last fun answer t ht => ?_
  rintro entity hentity r hr statuses hst
  obtain ⟨hanswer, hreadable⟩ := Option.filter_eq_some_iff.mp hentity
  obtain rfl : ref = r := Option.some.inj (href.symm.trans hr)
  unfold readable at hreadable
  rw [Bool.and_eq_true] at hreadable
  obtain ⟨status, hstatus⟩ := Option.isSome_iff_exists.mp hreadable.2
  refine ⟨_, entity, status, ht entity hanswer, ?_, ?_⟩
  · rw [retiredStatus, if_pos hreadable.1, hstatus]
  · rw [statusIn, hstatus] at hst
    exact of_decide_eq_true hst

theorem cancelAndRetireReplacement_vetted {sub : Subscription} {actor : ℕ} {refuseCommitted : Bool}
    (h : ∀ ref ∈ sub.replacementProviderRef, ∀ pre,
      LastRead ["created", "authenticated"] pre ref → ok pre ref) :
    Vetted env ok (cancelAndRetireReplacement sub actor refuseCommitted) s := by
  refine Vetted.savepoint ?_
  split
  · exact .of_records (by simp)
  refine Vetted.bind (.of_records (by simp)) refetchReplacement_last ?_
  intro r t ht
  cases r with
  | none => exact .of_records (by simp [retireReread])
  | some entity =>
    unfold retireReread
    dsimp only
    split
    · exact .of_records (by simp)
    refine Vetted.bind (P := fun _ _ => True) (cancelUncharged_vetted fun ref href hst =>
      h ref href _ (ht entity rfl ref href _ hst)) ?_ fun _ u _ => .of_records ?_
    · exact Program.wp_trivial
    · exact Program.records_bind (by simp) fun _ => Program.records_bind (by simp) (by simp)

theorem cancelReplacement_vetted {actor : ℕ}
    (h : ∀ ref pre, LastRead ["created", "authenticated"] pre ref → ok pre ref) :
    Vetted env ok (cancelReplacement actor) s := by
  refine Vetted.bind (P := fun _ _ => True) (.of_records vets_lockCurrentSubscription)
    (lockCurrentSubscription_spec trivial) ?_
  intro row t _
  cases row with
  | none => exact .of_records (by simp)
  | some sub =>
    dsimp only
    split
    · refine Vetted.bind (P := fun _ _ => True)
        (cancelAndRetireReplacement_vetted fun ref _ => h ref) ?_ fun _ _ _ => .of_records (by simp)
      exact Program.wp_trivial
    · exact .of_records (by simp)

theorem vets_updateProviderStatus (ref : Ref) (status : String) :
    Program.Records (Vets ok) (updateProviderStatus ref status) := by
  refine Program.records_savepoint (Program.records_bind (by simp) fun row => ?_)
  cases row <;> simp

theorem vets_cancelPastDue {sub : Subscription} {actor : ℕ}
    (h : ∀ ref ∈ sub.paymentProviderRef, ∀ pre, ok pre ref) :
    Program.Records (Vets ok) (cancelPastDue sub actor) := by
  refine Program.records_bind ?_ fun _ => Program.records_bind ?_ fun _ => by simp
  · refine Program.records_savepoint (Program.records_bind (by simp) fun _ => ?_)
    exact Program.records_bind (by simp) fun _ => Program.records_bind (by simp) (by simp)
  · unfold cancelPastDueProvider
    split
    · rename_i ref href
      refine Program.records_whenever (Program.records_bind ?_ fun answer => ?_)
      · refine Program.records_handle (Program.records_bind ?_ (by simp)) fun e => ?_
        · exact records_of_vetted fun _ _ => .cancel (h ref href _)
        · split <;> simp
      · unfold recordCancelAnswer
        split
        · simp
        · split
          · exact vets_updateProviderStatus _ _
          · simp
    · simp

theorem vets_cancelAtPeriodEnd (sub : Subscription) (ref : Ref) (actor : ℕ) :
    Program.Records (Vets ok) (cancelAtPeriodEnd sub ref actor) := by
  refine Program.records_bind ?_ fun _ => Program.records_bind ?_ (by simp)
  · exact uncancelling_rejectedIsUnavailable (uncancelling_razorpay (by simp))
  · exact Program.records_savepoint (Program.records_bind (by simp) (by simp))

theorem cancelMain_vetted {sub : Subscription} {actor : ℕ} (hsub : s.data.sub? = some sub)
    (h : ∀ ref ∈ sub.paymentProviderRef, ∀ pre, ok pre ref) :
    Vetted env ok (cancelMain sub actor) s := by
  unfold cancelMain
  split
  · split
    · exact .of_records (by simp)
    split
    · exact .of_records (by simp)
    rename_i ref _
    refine Vetted.bind (.of_records (by simp)) (Program.returns_of_wp
      (Program.wp_and (reconcile_saves hsub) (reconcile_spec hsub))) ?_
    rintro p t ⟨⟨hsaves, -⟩, hp⟩
    have hpay := (hsaves.path_of hsub hp.row).payment
    refine .of_records ?_
    unfold cancelReconciled
    split
    · split
      · simp
      · exact vets_cancelAtPeriodEnd _ _ _
    · split
      · simp
      · exact vets_cancelPastDue (hpay ▸ h)
  · exact .of_records (vets_cancelPastDue h)

theorem cancelSubscription_vetted {actor : ℕ}
    (hold : ∀ sub ∈ s.data.sub?, ∀ ref ∈ sub.paymentProviderRef, ∀ pre, ok pre ref)
    (h : ∀ ref pre, LastRead ["created", "authenticated"] pre ref → ok pre ref) :
    Vetted env ok (cancelSubscription actor) s := by
  refine Vetted.bind (P := fun row t => row = s.data.sub? ∧ t = s)
    (.of_records vets_lockCurrentSubscription) (lockCurrentSubscription_spec ⟨rfl, rfl⟩) ?_
  rintro row _ ⟨hrow, rfl⟩
  cases row with
  | none => exact .of_records (by simp)
  | some sub =>
    dsimp only
    split
    · exact .of_records (by simp)
    have hsub := hrow.symm
    refine Vetted.bind (P := fun sub' u => u.data.sub? = some sub' ∧
      sub'.paymentProviderRef = sub.paymentProviderRef) ?_ ?_ ?_
    · unfold cancelPendingReplacement
      split
      · exact cancelAndRetireReplacement_vetted fun ref _ => h ref
      · exact .of_records (by simp)
    · unfold cancelPendingReplacement
      rw [Program.returns, Program.wp_ite]
      refine ⟨fun _ => ?_, fun _ => ⟨hsub, rfl⟩⟩
      refine Program.returns_mono
        (Program.returns_of_wp (cancelAndRetireReplacement_spec hsub)) ?_
      exact fun _ _ hu => ⟨hu.1, hu.2.1.row.payment⟩
    · rintro sub' u ⟨hsub', hpay⟩
      exact cancelMain_vetted hsub' (hpay ▸ hold sub hsub)

theorem OwnerRequest.vetted (request : OwnerRequest)
    (hold : ∀ sub ∈ s.data.sub?, ∀ ref ∈ sub.paymentProviderRef, ∀ pre, ok pre ref)
    (h : ∀ ref pre, LastRead ["created", "authenticated"] pre ref → ok pre ref) :
    Vetted env ok request.program s := by
  have done : ∀ {α : Type} {m : Prog α}, Vetted env ok m s → Vetted env ok (discard m) s :=
    fun hm => .bind (P := fun _ _ => True) hm Program.wp_trivial
      fun _ _ _ => .of_records (by simp)
  cases request with
  | checkout actor planId acknowledged => exact done (startCheckout_vetted hold)
  | cancel actor => exact done (cancelSubscription_vetted hold h)
  | cancelReplacement actor => exact done (cancelReplacement_vetted h)

end Requests

section Tasks

variable {R : Journal → Journal → Prop} [Uncancels R]

theorem uncancelling_abandonIfWanted (sub : Subscription) (reason : String)
    (abandonable : Dict → Bool) (wanted : Bool) :
    Program.Records R (abandonIfWanted sub reason abandonable wanted) := by
  unfold abandonIfWanted
  split
  · simp
  · refine Program.records_bind (by simp) fun _ => ?_
    split <;> simp

theorem uncancelling_replacementApply (ref : Ref) (entity : Dict) (invoices : Option (List Json))
    (started : Time) : Program.Records R (replacementApply ref entity invoices started) := by
  have hswitch : ∀ sub plan status, Program.Records R
      (switchToReplacement sub entity invoices plan status started) := by
    intro sub plan status
    unfold switchToReplacement
    repeat' split
    any_goals simp
    refine Program.records_bind (by simp) fun _ => ?_
    split
    · simp
    · exact Program.records_bind (by simp) fun _ => Program.records_bind (by simp) (by simp)
  have hactive : ∀ sub status settings, Program.Records R
      (replacementActive sub entity invoices status started settings) := by
    intro sub status settings
    unfold replacementActive
    split
    · simp
    split
    · simp
    split
    · refine Program.records_bind ?_ (by simp)
      exact Program.records_bind (by simp) (by simp)
    split
    · simp
    · exact hswitch _ _ _
  have hlocked : ∀ sub settings, Program.Records R
      (replacementLocked sub entity invoices started settings) := by
    intro sub settings
    unfold replacementLocked
    split
    · simp
    split
    · simp
    split
    · exact hactive _ _ _
    split
    · split
      · refine Program.records_bind (by simp) fun r => ?_
        repeat' split
        all_goals simp
      · simp
    · unfold replacementInactive
      split
      · exact uncancelling_abandonIfWanted _ _ _ _
      · exact Program.records_bind (by simp) fun _ => uncancelling_abandonIfWanted _ _ _ _
  refine Program.records_savepoint (Program.records_bind ?_ fun _ => by simp [markEvents])
  refine Program.records_savepoint (Program.records_bind (by simp) fun _ => ?_)
  exact Program.records_bind (by simp) fun _ => hlocked _ _

theorem uncancelling_storeConfirmed (sub : Subscription) :
    Program.Records R (storeConfirmed sub) :=
  Program.records_bind (by simp) (by simp)

theorem uncancelling_commitT1 : Program.Records R commitT1 := by
  refine Program.records_savepoint (Program.records_bind (by simp) fun _ => ?_)
  split
  · simp
  refine Program.records_bind (by simp) fun sub => ?_
  unfold commitLocked
  split
  · simp
  refine Program.records_bind (by simp) fun entity => ?_
  unfold verifyCommit
  split
  · simp
  split
  · simp
  refine Program.records_bind (by simp) fun _ => Program.records_bind (by simp) fun _ => ?_
  unfold storeCommit
  split
  · exact Program.records_bind (by simp) fun _ => Program.records_bind (by simp) (by simp)
  · exact Program.records_bind (by simp) fun _ => Program.records_bind (by simp) (by simp)

theorem uncancelling_commitT2 (refs : CommitRefs) (refused : Bool) :
    Program.Records R (commitT2 refs refused) := by
  refine Program.records_savepoint (Program.records_bind (by simp) fun sub => ?_)
  split
  · simp
  split
  · exact Program.records_bind (uncancelling_storeConfirmed sub) (by simp)
  · exact Program.records_bind (by simp) fun _ => Program.records_bind (by simp) (by simp)

theorem uncancelling_dunningTransaction : Program.Records R dunningTransaction := by
  refine Program.records_bind (by simp) fun now => Program.records_savepoint ?_
  refine Program.records_bind (by simp) fun _ => Program.records_whenever ?_
  refine Program.records_bind (by simp) fun sub => Program.records_whenever ?_
  unfold advancePastDue
  split
  · simp
  split
  · exact Program.records_bind (by simp) (by simp)
  · unfold advanceStage
    split
    · simp
    · exact Program.records_whenever (Program.records_bind (by simp) (by simp))

theorem uncancelling_cancelOutcome (ref : Ref) : Program.Records R (cancelOutcome ref) := by
  refine Program.records_handle (Program.records_bind (uncancelling_razorpay (by simp)) (by simp))
    fun e => ?_
  split
  · simp
  · split <;> simp

theorem Task.uncancelling {task : Task} (hr : ∀ ref, task ≠ .retiredCancel ref)
    (ho : ∀ ref, task ≠ .owedCancel ref) : Program.Records R task.step := by
  have call : ∀ {request : Request} {f : Option Dict → Option Task},
      (∀ ref, request ≠ .cancelSubscription ref false) →
      Program.Records R (do let answer ← orNone (razorpay request); pure (f answer)) := fun h =>
    Program.records_bind (uncancelling_orNone (uncancelling_razorpay h)) (by simp)
  cases task with
  | replacementRead | mainRead | retiredRead | webhookLookup ref eventId eventType =>
    exact Program.records_bind (by simp) (by simp)
  | reissueRead | owedRead =>
    exact Program.records_bind (Program.records_bind (by simp) (by simp)) (by simp)
  | replacementFetch ref oldStatus oldStart | mainFetch ref oldStatus oldStart =>
    exact Program.records_bind (by simp) fun _ => call (by simp)
  | replacementInvoices ref oldStatus oldStart started entity
  | mainInvoices ref oldStatus oldStart started entity =>
    exact Program.records_bind (uncancelling_orNone (by simp)) (by simp)
  | replacementApply ref started entity invoices =>
    exact Program.records_bind (uncancelling_replacementApply _ _ _ _) (by simp)
  | commitFirst => exact Program.records_bind uncancelling_commitT1 (by simp)
  | commitCancel refs =>
    simp only [Task.step]
    split
    · simp
    · exact Program.records_bind (uncancelling_cancelOutcome _) (by simp)
  | commitSecond refs refused => exact Program.records_bind (uncancelling_commitT2 _ _) (by simp)
  | reissueCancel refs =>
    simp only [Task.step]
    split
    · simp
    · exact call (by simp)
  | reissueConfirm refs =>
    refine Program.records_bind
        (Program.records_savepoint (Program.records_bind (by simp) fun sub =>
      Program.records_whenever (uncancelling_storeConfirmed sub))) (by simp)
  | mainApply ref started entity invoices =>
    refine Program.records_bind (Program.records_savepoint ?_) (by simp)
    exact Program.records_bind (by simp) fun _ => Program.records_bind (by simp)
      (by simp [markEvents])
  | retiredFetch ref kind => exact call (by simp)
  | retiredCancel ref => exact absurd rfl (hr ref)
  | owedCancel ref => exact absurd rfl (ho ref)
  | retiredClear ref =>
    refine Program.records_bind
        (Program.records_savepoint (Program.records_bind (by simp) fun sub =>
      Program.records_whenever (Program.records_bind (by simp) (by simp)))) (by simp)
  | dunning => exact Program.records_bind uncancelling_dunningTransaction (by simp)
  | owedStore ref status =>
    refine Program.records_bind (Program.records_savepoint (Program.records_bind (by simp)
      fun row => ?_)) (by simp)
    cases row <;> simp
  | webhookInsert ref eventId eventType =>
    exact Program.records_bind (by simp [insertEvent]) (by simp)

theorem Task.vetted {old : Ref → Prop} {env : Env} {s : State} {task : Task}
    (h : task.Trail old s.journal.calls) :
    Vetted env (fun pre ref => old ref ∨ LastRead ["created", "authenticated"] pre ref) task.step
    s := by
  have cancel : ∀ {ref : Ref} {f : Option Dict → Option Task},
      (old ref ∨ LastRead ["created", "authenticated"] s.journal.calls ref) →
      Vetted env (fun pre ref => old ref ∨ LastRead ["created", "authenticated"] pre ref)
        (do let answer ← orNone (razorpay (.cancelSubscription ref false)); pure (f answer)) s := by
    intro ref f hok
    refine Vetted.bind (P := fun _ _ => True) (Vetted.handle (Vetted.bind (P := fun _ _ => True)
      (.cancel hok) ?_ fun _ _ _ => .of_records (by simp)) fun e => ?_) ?_
      fun _ _ _ => .of_records (by simp)
    · exact wp_razorpay.mpr ⟨fun _ _ => trivial, fun _ _ => trivial⟩
    · split <;> simp
    · exact Program.wp_trivial
  by_cases hr : ∃ ref, task = .retiredCancel ref
  · obtain ⟨ref, rfl⟩ := hr
    exact cancel h
  by_cases ho : ∃ ref, task = .owedCancel ref
  · obtain ⟨ref, rfl⟩ := ho
    exact cancel (Or.inl h)
  · exact .of_records (Task.uncancelling (fun ref he => hr ⟨ref, he⟩) fun ref he => ho ⟨ref, he⟩)

end Tasks

section Kinds

/-- A retired reference stays, or it was the replacement, or it was the payment reference. -/
def Retiring (sub sub' : Subscription) : Prop :=
  ∀ ref, sub'.retiredProviderRef = some ref →
    (sub.retiredProviderRef = some ref ∧ sub'.retiredKind = sub.retiredKind) ∨
    (sub.replacementProviderRef = some ref ∧ sub'.retiredKind = some .abandonedReplacement) ∨
    (sub.paymentProviderRef = some ref ∧ sub'.retiredKind = some .switchedOld)

theorem activated_kind (sub : Subscription) (plan : Plan) (start stop : Time) :
    (activated sub plan start stop).retiredKind = sub.retiredKind := by
  unfold activated takePlan clearGrace
  dsimp only
  split
  · split <;> rfl
  · split <;> split <;> rfl

theorem statusOutcome_kind (sub : Subscription) (entity : Dict) (invoices : Option (List Json))
    (plan : Plan) (status : String) (now : Time) :
    (statusOutcome sub entity invoices plan status now).sub.retiredKind = sub.retiredKind := by
  unfold statusOutcome
  split
  · unfold activeOutcome
    split
    · rfl
    · split
      · unfold refreshed takePlan
        dsimp only
        repeat' split
        all_goals rfl
      · split
        · rfl
        · exact activated_kind ..
  split
  · unfold failedOutcome
    split <;> rfl
  split
  · split
    · rfl
    · unfold terminalOutcome
      split
      · unfold ended clearGrace
        split <;> rfl
      · rfl
  · rfl

theorem Retiring.of_same {sub sub' : Subscription}
    (h : sub'.retiredProviderRef = sub.retiredProviderRef)
    (hk : sub'.retiredKind = sub.retiredKind) :
    Retiring sub sub' :=
  fun _ hr => Or.inl ⟨h.symm.trans hr, hk⟩

theorem Abandons.retiring {calls : List Call} {sub sub' : Subscription}
    (h : Abandons calls sub sub') : Retiring sub sub' := by
  obtain ⟨_, _, -, -, -, rfl⟩ := h
  exact fun _ hr => Or.inr (Or.inl ⟨hr, rfl⟩)

theorem Save.retiring {calls : List Call} {sub sub' : Subscription} (h : Save calls sub sub') :
    Retiring sub sub' := by
  cases h with
  | @snapshot settings _ row entity invoices started now plan status _ _ _ hrow =>
    have ho := statusOutcome_slots sub entity invoices plan status now
    have hk := statusOutcome_kind sub entity invoices plan status now
    rcases hrow with rfl | ⟨-, -, -, ha⟩
    · exact .of_same ho.retired hk
    · intro ref hr
      rcases ha.retiring ref hr with ⟨h, h'⟩ | ⟨h, h'⟩ | ⟨h, h'⟩
      · exact Or.inl ⟨ho.retired.symm.trans h, h'.trans hk⟩
      · exact Or.inr (Or.inl ⟨ho.replacement.symm.trans h, h'⟩)
      · exact Or.inr (Or.inr ⟨ho.payment.symm.trans h, h'⟩)
  | retires row => exact row.retiring
  | undone row => exact row.retiring
  | _ => exact .of_same rfl rfl

theorem SavePath.retiring {calls : List Call} {sub sub' : Subscription}
    (h : SavePath calls sub sub') : Retiring sub sub' := by
  induction h with
  | refl => exact .of_same rfl rfl
  | @tail mid last hp hs ih =>
    intro ref hr
    rcases hs.retiring ref hr with ⟨hm, hk⟩ | ⟨hm, hk⟩ | ⟨hm, hk⟩
    · rw [hk]
      exact ih ref hm
    · -- a path that leaves a replacement left it as it was
      have hheld : sub.replacementProviderRef = some ref := by
        cases SavePath.shifts hp with
        | same same => exact (Slots.mk.inj same).2.1.symm.trans hm
        | retired held free after =>
          rw [show mid.replacementProviderRef = none from (Slots.mk.inj after).2.1] at hm
          cases hm
      exact Or.inr (Or.inl ⟨hheld, hk⟩)
    · exact Or.inr (Or.inr ⟨(SavePath.payment hp).symm.trans hm, hk⟩)

theorem Creation.retiring {calls : List Call} {sub sub' : Subscription}
    (h : Creation calls sub sub') : sub'.retiredProviderRef = sub.retiredProviderRef ∧
      sub'.retiredKind = sub.retiredKind := by
  cases h <;> exact ⟨rfl, rfl⟩

theorem Task.Odd.retiring {env : Env} {made : ℕ} {task : Task} {sub sub' : Subscription}
    (h : task.Odd env made sub sub') : Retiring sub sub' := by
  unfold Task.Odd at h
  split at h
  · obtain ⟨plan, start, stop, -, rfl⟩ := h
    exact fun ref hr => Or.inr (Or.inr ⟨hr, rfl⟩)
  · obtain ⟨-, -, rfl⟩ := h
    exact .of_same rfl rfl
  · obtain ⟨-, rfl⟩ := h
    intro ref hr
    cases hr
  · exact h.elim

theorem StepSaves.retiring {sys : System} {choice : Choice} (h : StepSaves sys choice)
    {sub' : Subscription} (hsub' : (sys.step choice).db.sub? = some sub') {ref : Ref}
    (hr : sub'.retiredProviderRef = some ref) :
    ∃ sub, sys.db.sub? = some sub ∧ Retiring sub sub' := by
  have saves : ∀ {db'}, Saves (sys.calls choice) sys.db db' → ∀ {x}, db'.sub? = some x →
      ∃ sub, sys.db.sub? = some sub ∧ Retiring sub x := fun hs _ hx =>
    (hs.path hx).imp fun _ ⟨hsub, hp⟩ => ⟨hsub, hp.retiring⟩
  cases h with
  | saves h => exact saves h hsub'
  | checkout label ends =>
    cases ends with
    | saves h => exact saves h hsub'
    | first absent fresh after =>
      rw [after] at hsub'
      cases hsub'
      cases hr
    | @creates mid last db hs row creation after =>
      rw [after] at hsub'
      cases hsub'
      obtain ⟨sub, hsub, hret⟩ := saves hs row
      obtain ⟨hslot, hkind⟩ := creation.retiring
      refine ⟨sub, hsub, fun r hr' => ?_⟩
      rw [hkind]
      exact hret r (hslot.symm.trans hr')
  | odd label stands saved =>
    obtain ⟨sub, x, hsub, hx, ho⟩ := saved
    rw [hx] at hsub'
    cases hsub'
    exact ⟨sub, hsub, ho.retiring⟩

/-- The kind of a retired reference says whether it was once the payment reference. -/
structure Subscription.Kinds (h : List Transition) (slots : Slots Ref) (sub : Subscription) :
    Prop where
  switched : ∀ ref, sub.retiredProviderRef = some ref → sub.retiredKind = some .switchedOld →
    Held Slots.current (turns h) slots ref
  abandoned : ∀ ref, sub.retiredProviderRef = some ref →
    sub.retiredKind = some .abandonedReplacement → ¬ Held Slots.current (turns h) slots ref

theorem Subscription.Kinds.step {h : List Transition} {sys : System} {choice : Choice}
    (hc : Custody h sys)
    (hc' : Custody (h ++ [transition System.step sys choice]) (sys.step choice))
    (hk : ∀ sub ∈ sys.db.sub?, sub.Kinds h sys.db.slots) {sub' : Subscription}
    (hsub' : (sys.step choice).db.sub? = some sub') :
    sub'.Kinds (h ++ [transition System.step sys choice]) (sys.step choice).db.slots := by
  have hslots' := Database.slots_of hsub'
  have held : ∀ ref, Held Slots.current (turns (h ++ [transition System.step sys choice]))
      (sys.step choice).db.slots ref ↔ Held Slots.current (turns h) sys.db.slots ref ∨
        sub'.paymentProviderRef = some ref := by
    intro ref
    rw [turns_snoc, show (transition System.step sys choice).after = sys.step choice from rfl,
      held_snoc, hslots']
    rfl
  have retiring : ∀ {ref}, sub'.retiredProviderRef = some ref → ∃ sub, sys.db.sub? = some sub ∧
      Retiring sub sub' := fun hr => (System.step_saves hc.sound choice).retiring hsub' hr
  refine ⟨fun ref hr hkind => ?_, fun ref hr hkind => ?_⟩
  · obtain ⟨sub, hsub, hret⟩ := retiring hr
    rw [held]
    rcases hret ref hr with ⟨h₁, h₂⟩ | ⟨h₁, h₂⟩ | ⟨h₁, -⟩
    · exact Or.inl ((hk sub hsub).switched ref h₁ (h₂ ▸ hkind))
    · rw [hkind] at h₂
      cases h₂
    · exact Or.inl (Or.inl (by rw [Database.slots_of hsub]; exact h₁))
  · obtain ⟨sub, hsub, hret⟩ := retiring hr
    rw [held, not_or]
    constructor
    · rcases hret ref hr with ⟨h₁, h₂⟩ | ⟨h₁, -⟩ | ⟨h₁, h₂⟩
      · exact (hk sub hsub).abandoned ref h₁ (h₂ ▸ hkind)
      · exact (hc.successive.next ref (by rw [Database.slots_of hsub]; exact h₁)).2
      · rw [hkind] at h₂
        cases h₂
    · intro hpay
      refine hc'.successive.current ref (by rw [hslots']; exact hpay) (Or.inl ?_)
      rw [hslots']
      exact hr

end Kinds

def System.begun (sys : System) : Choice → ℕ
  | .advance i _ => sys.made i
  | _ => 0

theorem System.step_vetted {old : Ref → Prop} {sys : System} (htrail : sys.Trailed old)
    (hrow : ∀ sub ∈ sys.db.sub?, ∀ ref ∈ sub.paymentProviderRef, old ref) (choice : Choice)
    {pre post : List Call} {ref : Ref} {answer : Except ProviderFailure Dict}
    (hcalls : sys.calls choice =
      pre ++ .subscription (.cancelSubscription ref false) answer :: post)
    (hlen : sys.begun choice ≤ pre.length) :
    old ref ∨ LastRead ["created", "authenticated"] pre ref := by
  cases choice with
  | spawn job => simp [System.calls] at hcalls
  | crash i => simp [System.calls] at hcalls
  | request request env commits =>
    have h : Vetted env (fun pre ref => old ref ∨ LastRead ["created", "authenticated"] pre ref)
        request.program ⟨sys.db, Journal.empty⟩ :=
      request.vetted (fun sub hsub ref href _ => Or.inl (hrow sub hsub ref href))
        fun _ _ hl => Or.inr hl
    exact (wp_state (Q := fun t => Vets _ Journal.empty t.journal) h).2 pre ref answer post hcalls
      (Nat.zero_le _)
  | advance i env =>
    cases ha : sys.advance i env with
    | none => simp [System.calls, ha] at hcalls
    | some p =>
      obtain ⟨thread, hi, hadv⟩ := System.advance_eq ha
      have hmade : sys.begun (.advance i env) = thread.journal.calls.length := by
        simp [System.begun, System.made, hi]
      unfold Thread.advance at hadv
      cases htodo : thread.todo with
      | nil => simp [htodo] at hadv
      | cons task rest =>
        simp only [htodo, Option.some.injEq] at hadv
        have hmem := htrail thread (List.mem_of_getElem? hi) task
          (by rw [htodo]; exact List.mem_cons_self)
        have h := wp_state (Q := fun t => Vets _ thread.journal t.journal)
          (show Vetted env _ task.step ⟨sys.db, thread.journal⟩ from Task.vetted hmem)
        have hp : p.1 = (task.step.run env ⟨sys.db, thread.journal⟩).2 :=
          congrArg Prod.fst hadv.symm
        simp only [System.calls, ha, Option.map_some, Option.getD_some, hp] at hcalls
        exact h.2 pre ref answer post hcalls (hmade ▸ hlen)

/-- Each immediate cancel of the reference in this step comes right after the operation
read the reference as created or authenticated. -/
def Transition.CancelsUncharged (t : Transition) (ref : Ref) : Prop :=
  ∀ pre answer post,
    t.calls = pre ++ .subscription (.cancelSubscription ref false) answer :: post →
      t.before.begun t.label ≤ pre.length → LastRead ["created", "authenticated"] pre ref

/-- The steps of a retired sync that goes on: it reads the slot, it reads the provider, and
then it cancels, or ends. -/
structure RetiredSync (t : Transition) (i : ℕ) (env : Env) (thread : Thread) (rest : List Task) :
    Prop where
  reads : thread.todo = .retiredRead :: rest → ∀ sub ∈ t.before.db.sub?,
    ∀ ref, sub.retiredProviderRef = some ref →
      ∃ next, t.after.threads[i]? = some next ∧
      next.todo = .retiredFetch ref sub.retiredKind :: rest
  spares : ∀ ref, thread.todo = .retiredFetch ref (some .abandonedReplacement) :: rest →
    ∀ entity status,
      env.oracle.subscription thread.journal.calls.length (.fetchSubscription ref) = .ok entity →
      retiredStatus ref entity = some status → status ∉ terminalProviderStatuses →
      status ∉ ["created", "authenticated"] →
        ∃ next, t.after.threads[i]? = some next ∧ next.todo = rest
  goesOn : ∀ ref, thread.todo = .retiredFetch ref (some .switchedOld) :: rest → ∀ entity status,
    env.oracle.subscription thread.journal.calls.length (.fetchSubscription ref) = .ok entity →
    retiredStatus ref entity = some status → status ∉ terminalProviderStatuses →
      ∃ next, t.after.threads[i]? = some next ∧ next.todo = .retiredCancel ref :: rest
  cancels : ∀ ref, thread.todo = .retiredCancel ref :: rest → ∃ answer,
    t.calls = thread.journal.calls ++ [.subscription (.cancelSubscription ref false) answer]

theorem System.advance_run {sys : System} {i : ℕ} {env : Env} {thread : Thread} {task : Task}
    {rest : List Task} (hi : sys.threads[i]? = some thread) (htodo : thread.todo = task :: rest) :
    sys.advance i env = some ((task.step.run env ⟨sys.db, thread.journal⟩).2,
      ⟨remaining (task.step.run env ⟨sys.db, thread.journal⟩).1 rest,
        (task.step.run env ⟨sys.db, thread.journal⟩).2.journal⟩) := by
  simp [System.advance, hi, Thread.advance, htodo]

theorem System.step_todo {sys : System} {i : ℕ} {env : Env} {thread : Thread} {task : Task}
    {rest : List Task} {next : Option Task} {t : State} (hi : sys.threads[i]? = some thread)
    (htodo : thread.todo = task :: rest)
    (hrun : task.step.run env ⟨sys.db, thread.journal⟩ = (.ok next, t)) :
    ∃ thread', (sys.step (.advance i env)).threads[i]? = some thread' ∧
      thread'.todo = next.toList ++ rest := by
  have hlt := (List.getElem?_eq_some_iff.mp hi).1
  refine ⟨⟨next.toList ++ rest, t.journal⟩, ?_, rfl⟩
  simp only [System.step, System.advance_run hi htodo, hrun]
  rw [List.getElem?_set_self hlt]
  cases next <;> rfl

theorem retiredFetch_run {env : Env} {s : State} {ref : Ref} (kind : Option RetiredKind)
    {entity : Dict} {status : String}
    (ha : env.oracle.subscription s.journal.calls.length (.fetchSubscription ref) = .ok entity)
    (hs : retiredStatus ref entity = some status) :
    ∃ t, (Task.retiredFetch ref kind).step.run env s =
      (.ok (afterRetiredFetch ref kind (some status)), t) := by
  have h : Program.wp env (Task.retiredFetch ref kind).step
      (fun next _ => next = afterRetiredFetch ref kind (some status)) (fun _ _ => False) s := by
    simp only [Task.step]
    rw [Program.wp_bind, wp_orNone, wp_razorpay]
    refine ⟨fun e he => ?_, fun failure he => ?_⟩
    · rw [ha] at he
      cases he
      simp [hs]
    · rw [ha] at he
      cases he
  obtain ⟨next, t, hrun, rfl⟩ := Program.wp_total h
  exact ⟨t, hrun⟩

theorem System.step_retiredSync (sys : System) {i : ℕ} {env : Env} {thread : Thread}
    (rest : List Task) (hi : sys.threads[i]? = some thread) :
    RetiredSync (transition System.step sys (.advance i env)) i env thread rest := by
  refine ⟨fun htodo sub hsub ref hr => ?_, fun ref htodo entity status ha hs hterm hno => ?_,
    fun ref htodo entity status ha hs hterm => ?_, fun ref htodo => ?_⟩
  · have hrun : Task.retiredRead.step.run env ⟨sys.db, thread.journal⟩ =
        (.ok (some (.retiredFetch ref sub.retiredKind)), ⟨sys.db, thread.journal⟩) := by
      change (Except.ok _, _) = _
      rw [show sys.db.sub? = some sub from hsub, Option.bind_some, hr]
      rfl
    exact System.step_todo hi htodo hrun
  · obtain ⟨t, hrun⟩ := retiredFetch_run (s := ⟨sys.db, thread.journal⟩)
      (some .abandonedReplacement) ha hs
    have hend : afterRetiredFetch ref (some .abandonedReplacement) (some status) = none := by
      simp only [afterRetiredFetch, retiredMayBeCancelled, if_neg hterm, decide_eq_true_eq,
        if_neg hno]
    rw [hend] at hrun
    exact System.step_todo hi htodo hrun
  · obtain ⟨t, hrun⟩ := retiredFetch_run (s := ⟨sys.db, thread.journal⟩)
      (some .switchedOld) ha hs
    have hgo : afterRetiredFetch ref (some .switchedOld) (some status) =
        some (.retiredCancel ref) := by
      simp only [afterRetiredFetch, retiredMayBeCancelled, if_neg hterm, if_true]
    rw [hgo] at hrun
    exact System.step_todo hi htodo hrun
  · have h : Program.wp env (Task.retiredCancel ref).step
        (fun _ t => ∃ answer, t.journal.calls = thread.journal.calls ++
          [.subscription (.cancelSubscription ref false) answer])
        (fun _ t => ∃ answer, t.journal.calls = thread.journal.calls ++
          [.subscription (.cancelSubscription ref false) answer]) ⟨sys.db, thread.journal⟩ := by
      simp only [Task.step]
      rw [Program.wp_bind, wp_orNone, wp_razorpay]
      exact ⟨fun entity _ => ⟨_, rfl⟩, fun failure _ => ⟨fun _ => ⟨_, rfl⟩, fun _ => ⟨_, rfl⟩⟩⟩
    have := wp_state h
    simpa [Transition.calls, transition, System.calls, System.advance_run hi htodo] using this

/-- What a step of a run cancels at once, and what it lets be. -/
structure CancelDiscipline (h : List Transition) (t : Transition) : Prop where
  /-- What was ever a replacement, and was not switched in. -/
  replacement : ∀ ref, Held Slots.next (turns (h ++ [t])) t.after.db.slots ref →
    ¬ Taken (turns (h ++ [t])) ref → t.CancelsUncharged ref
  abandoned : ∀ sub ∈ t.before.db.sub?, ∀ ref, sub.retiredProviderRef = some ref →
    sub.retiredKind = some .abandonedReplacement → t.CancelsUncharged ref ∧
      (t.after.db.retired? = some ref ∨ (t.after.db.retired? = none ∧ ∃ i env thread,
        t.label = .advance i env ∧ t.before.threads[i]? = some thread ∧
        thread.todo.head? = some (.retiredClear ref) ∧ LastTerminal thread.journal.calls ref))
  sync : ∀ i env thread rest, t.label = .advance i env → t.before.threads[i]? = some thread →
    RetiredSync t i env thread rest

/-- In every run nothing that may be paid for is cancelled, if the provider gives no id twice. -/
theorem cancel_discipline {db : Database} (hdb : db.slots.Apart) (hfree : db.retired? = none)
    {choices : List Choice} (hfresh : Meets FreshIds (runFrom db choices)) :
    Meets CancelDiscipline (runFrom db choices) := by
  refine MeetsFrom.of_invariant (P := fun h sys => Custody h sys ∧
      sys.Trailed (Held Slots.current (turns h) sys.db.slots) ∧
      ∀ sub ∈ sys.db.sub?, sub.Kinds h sys.db.slots) (D := CancelDiscipline)
    ⟨Custody.start hdb, by simp [System.Trailed], ?_⟩ ?_ hfresh
  · intro sub hsub
    have hr : sub.retiredProviderRef = none := by
      rw [Database.retired?, show db.sub? = some sub from hsub] at hfree
      exact hfree
    exact ⟨fun ref h => by (rw [hr] at h; cases h), fun ref h => by (rw [hr] at h; cases h)⟩
  rintro h sys choice ⟨hc, htrail, hk⟩ hf
  have hc' := hc.step choice hf
  have hpay : ∀ sub ∈ sys.db.sub?, ∀ ref ∈ sub.paymentProviderRef,
      Held Slots.current (turns h) sys.db.slots ref := fun sub hsub ref href =>
    Or.inl (by rw [Database.slots_of hsub]; exact href)
  have hknown : ∀ sub ∈ sys.db.sub?, sub.Known (Held Slots.current (turns h) sys.db.slots) :=
    fun sub hsub => ⟨hpay sub hsub, (hk sub hsub).switched⟩
  have hgrows : ∀ ref, Held Slots.current (turns h) sys.db.slots ref →
      Held Slots.current (turns (h ++ [transition System.step sys choice]))
        (sys.step choice).db.slots ref := by
    intro ref hr
    rw [turns_snoc]
    exact held_snoc.mpr (Or.inl hr)
  -- a cancel that no read allows is of a reference that was the payment reference
  have hcancel : ∀ {ref}, ¬ Held Slots.current (turns h) sys.db.slots ref →
      Transition.CancelsUncharged (transition System.step sys choice) ref :=
    fun hno pre answer post hcalls hlen =>
      (System.step_vetted htrail hpay choice hcalls hlen).resolve_left hno
  refine ⟨⟨hc', fun thread ht task htask => ?_, fun sub hsub => .step hc hc' hk hsub⟩, ?_, ?_, ?_⟩
  · exact (System.step_trailed hc.ordered htrail hknown choice thread ht task htask).mono hgrows
  · exact fun ref hnext hno => hcancel fun hcur =>
      hno (hc'.successive.taken ref (hgrows ref hcur) hnext)
  · intro sub hsub ref hr hkind
    refine ⟨hcancel ((hk sub hsub).abandoned ref hr hkind), ?_⟩
    refine (System.step_saves hc.sound choice).kept htrail ?_
    rw [Database.retired?, show sys.db.sub? = some sub from hsub]
    exact hr
  · rintro i env thread rest rfl hi
    exact System.step_retiredSync sys rest hi

def Call.cancelledRef? : Call → Option Ref
  | .subscription (.cancelSubscription ref false) _ => some ref
  | _ => none

theorem cancel_discipline_takenBack :
    Meets CancelDiscipline (runFrom rowless takenBack) ∧
      refB ∈ (runFrom rowless takenBack).flatMap fun t => t.calls.filterMap Call.cancelledRef? :=
  ⟨cancel_discipline Database.apart_rowless rfl (by decide +kernel), by decide +kernel⟩

end ReviewFlow.Billing
