import ReviewFlow.Billing.References
import ReviewFlow.Billing.Threads

/-!
# The provider cancel that an ended row is owed

`advance_dunning` reads without a lock that an ended row is owed a cancel, and cancels
afterwards. In between the row stays ended unless a paid snapshot, of a main sync or
of a checkout, makes it ACTIVE (`Transition.Revives`).
-/

namespace ReviewFlow.Billing

open Savepoint Interleaving

/-- The row, if it holds the reference, ended, and the reference is no replacement. -/
structure Database.OwedTo (db : Database) (ref : Ref) : Prop where
  ended : ∀ sub, db.sub? = some sub → sub.paymentProviderRef = some ref → sub.status.Ended
  replacement : db.replacement? ≠ some ref

section Moves

variable {calls : List Call} {a b : Database} {sub sub' : Subscription} {ref : Ref}

theorem replacement_ne {old new : Option Ref} (h : old ≠ some ref) (hn : new = old ∨ new = none) :
    new ≠ some ref := by
  rcases hn with rfl | rfl
  · exact h
  · simp

theorem Database.OwedTo.of_row (ho : a.OwedTo ref) (ha : a.sub? = some sub)
    (hb : b.sub? = some sub') (hp : sub'.paymentProviderRef = sub.paymentProviderRef)
    (hs : sub.paymentProviderRef = some ref → sub.status.Ended → sub'.status.Ended)
    (hr : b.replacement? = a.replacement? ∨ b.replacement? = none) : b.OwedTo ref := by
  refine ⟨fun x hx hxp => ?_, replacement_ne ho.replacement hr⟩
  rw [hb] at hx
  cases hx
  rw [hp] at hxp
  exact hs hxp (ho.ended sub ha hxp)

theorem Database.OwedTo.of_other (ho : a.OwedTo ref) (hp : b.payment? ≠ some ref)
    (hr : b.replacement? = a.replacement? ∨ b.replacement? = none) : b.OwedTo ref := by
  refine ⟨fun x hx hxp => absurd ?_ hp, replacement_ne ho.replacement hr⟩
  rw [Database.payment?_of hx, hxp]

theorem Database.OwedTo.of_sub? (ho : a.OwedTo ref) (h : b.sub? = a.sub?) : b.OwedTo ref := by
  refine ⟨fun x hx => ho.ended x (h ▸ hx), ?_⟩
  rw [Database.replacement?, h]
  exact ho.replacement

theorem NotEntitled.ended (h : NotEntitled sub sub') (he : sub.status.Ended) :
    sub'.status.Ended := by
  rcases h.status with hs | hs
  · exact hs ▸ he
  · exact absurd he hs.2

theorem Tending.owedTo (h : Tending calls a b) (ho : a.OwedTo ref) : b.OwedTo ref := by
  have hr := h.careful.replacement
  cases h with
  | retires done =>
    exact ho.of_row done.before done.after done.row.payment (fun _ he => done.row.status ▸ he) hr
  | committed candidate done => exact ho.of_row done.before done.after rfl (fun _ he => he) hr
  | uncommitted done => exact ho.of_row done.before done.after rfl (fun _ he => he) hr
  | undone before row after usage events =>
    exact ho.of_row before after row.payment (fun _ he => row.status ▸ he) hr
  | retiredCleared gone done => exact ho.of_row done.before done.after rfl (fun _ he => he) hr
  | plain done =>
    exact ho.of_row done.before done.after done.slots.payment
      (fun _ he => done.entitlement.ended he) hr

theorem Snapshotted.owedTo {settings : Settings} {entity : Dict} {invoices : Option (List Json)}
    {started : Time} {plan : Plan} {status : String} {now : Time} {r : Applied}
    (h : Snapshotted settings calls entity invoices started sub plan status now r a b)
    (ho : a.OwedTo ref) (hno : sub.paymentProviderRef = some ref → ∀ start stop,
      ¬ Reactivates settings sub entity invoices started plan start stop) : b.OwedTo ref := by
  have hr : b.replacement? = a.replacement? ∨ b.replacement? = none := by
    rw [Database.replacement?_of h.before, Database.replacement?_of h.after]
    exact h.row.replacement (statusOutcome_slots ..)
  refine ho.of_row h.before h.after (h.row.payment (statusOutcome_slots ..)) (fun hp he => ?_) hr
  have hna : sub.status ≠ .active := by
    rcases he with he | he <;> simp [he]
  cases hadv : (statusOutcome sub entity invoices plan status now).advanced with
  | false =>
    have hout := (statusOutcome_notEntitled hadv).ended he
    rcases h.row with hrow | ⟨-, -, -, ha⟩
    · exact hrow ▸ hout
    · exact ha.status ▸ hout
  | true =>
    obtain ⟨-, start, stop, -, -, -, hact⟩ := statusOutcome_advanced hadv
    have hrow : r.sub = activated sub plan start stop := by
      rcases h.row with hrow | ⟨-, hn, -, -⟩
      · exact hrow.trans hact
      · rw [hn] at hadv
        cases hadv
    obtain ⟨start', stop', hre, -, -⟩ := h.reactivates hna
      (by rw [hrow]; exact (activated_period ..).2.2)
    exact absurd hre (hno hp start' stop')

theorem Switched.owedTo {settings : Settings} {entity : Dict} {invoices : Option (List Json)}
    {started : Time} {plan : Plan} {status : String} {start stop : Time}
    (h : Switched settings entity invoices started sub plan status start stop a b)
    (ho : a.OwedTo ref) : b.OwedTo ref := by
  have hrep := ho.replacement
  rw [Database.replacement?_of h.before] at hrep
  refine ho.of_other ?_ (Or.inr (Database.replacement?_of h.after))
  rw [Database.payment?_of h.after]
  exact fun hp => hrep (((activated_slots ..).replacement).symm.trans hp)

theorem Keeping.owedTo (h : Keeping calls a b) (ho : a.OwedTo ref) (hp : a.payment? ≠ some ref) :
    b.OwedTo ref :=
  ho.of_other (h.payment? ▸ hp) h.careful.replacement

theorem Quiet.owedTo (h : Quiet calls a b) (ho : a.OwedTo ref)
    (hfresh : ∀ created, CreatedBy calls created → created.ref ≠ ref) : b.OwedTo ref := by
  have hr := h.careful.replacement
  cases h with
  | tending done => exact done.owedTo ho
  | stored inactive fresh gone done =>
    refine ho.of_other ?_ hr
    rw [Database.payment?_of done.after]
    exact fun hp => hfresh _ fresh (Option.some.inj hp)
  | inserted plan absent after =>
    refine ho.of_other ?_ hr
    subst after
    simp [Database.payment?, Database.sub?, freshRow]

theorem QuietPath.owedTo (h : QuietPath calls a b) (ho : a.OwedTo ref)
    (hfresh : ∀ created, CreatedBy calls created → created.ref ≠ ref) : b.OwedTo ref := by
  induction h with
  | refl => exact ho
  | tail _ hm ih => exact hm.1.owedTo ih hfresh

theorem Starting.owedTo (h : Starting calls a b) (ho : a.OwedTo ref)
    (hfresh : ∀ created, CreatedBy calls created → created.ref ≠ ref) : b.OwedTo ref := by
  obtain ⟨active, free, fresh, done⟩ := h
  refine ⟨fun x hx hxp => ?_, ?_⟩
  · rw [done.after] at hx
    cases hx
    have he := ho.ended _ done.before hxp
    exact he
  · rw [Database.replacement?_of done.after]
    exact fun hr => hfresh _ fresh (Option.some.inj hr)

theorem Database.Active.payment?_ne (h : a.Active) (ho : a.OwedTo ref) : a.payment? ≠ some ref := by
  obtain ⟨x, hx, hact⟩ := h
  rw [Database.payment?_of hx]
  intro hp
  rcases ho.ended x hx hp with he | he <;> simp [hact] at he

theorem CheckoutTail.owedTo (h : CheckoutTail calls a b) (ho : a.OwedTo ref)
    (hfresh : ∀ created, CreatedBy calls created → created.ref ≠ ref) : b.OwedTo ref := by
  rcases h with rfl | ⟨hact, hk⟩ | ⟨-, hq⟩
  · exact ho
  · exact hk.owedTo ho (hact.payment?_ne ho)
  · exact hq.owedTo ho hfresh

end Moves

section Steps

variable {env : Env} {s t : State} {next : Option Task} {ref : Ref}

theorem Task.Post.owedTo {task : Task} (h : task.Post env s next t) (ho : s.data.OwedTo ref)
    (hno : ∀ fetched started entity invoices sub plan start stop,
      task = .mainApply fetched started entity invoices → s.data.sub? = some sub →
      sub.paymentProviderRef = some ref →
      ¬ Reactivates env.settings sub entity invoices started plan start stop) :
    t.data.OwedTo ref := by
  have same : ∀ {P : Prop}, t.data = s.data ∧ P → t.data.OwedTo ref := fun h => h.1 ▸ ho
  have tending : Tending t.journal.calls s.data t.data → t.data.OwedTo ref := fun h => h.owedTo ho
  cases task with
  | replacementApply fetched started entity invoices =>
    obtain ⟨-, result, u, hu⟩ := h
    refine Database.OwedTo.of_sub? ?_ hu.marks.sub?
    cases hu.post with
    | kept same => exact ho.of_sub? same.sub?
    | abandoned sub sub' uncommitted done => exact Tending.owedTo (.retires done) ho
    | failed sub sub' reread read fails done => exact Tending.owedTo (.retires done) ho
    | switched sub plan status start stop done => exact done.owedTo ho
  | mainApply fetched started entity invoices =>
    obtain ⟨-, result, u, hu⟩ := h
    refine Database.OwedTo.of_sub? ?_ hu.marks.sub?
    cases hu.post with
    | dropped _ _ _ data _ => exact data ▸ ho
    | applied sub plan _ _ _ done _ =>
      exact done.owedTo ho fun hp start stop =>
        hno fetched started entity invoices sub plan start stop rfl done.before hp
  | commitFirst =>
    obtain ⟨refs, -, hpost⟩ := h
    cases hpost with
    | kept none same => exact ho.of_sub? same.sub?
    | abandoned sub sub' none uncommitted done => exact tending (.retires done)
    | committed sub now refs result candidate hrefs done =>
      exact tending (.committed candidate done)
  | commitSecond refs refused =>
    obtain ⟨-, hpost⟩ := h
    cases hpost with
    | kept same => exact ho.of_sub? same.sub?
    | confirmed sub now accepted still done => exact tending (.plain (confirmed_plain done))
    | cleared sub hr still kept done => exact tending (.uncommitted done)
    | undone sub sub' hr still before row after usage events =>
      exact tending (.undone before row after usage events)
  | reissueConfirm refs =>
    obtain ⟨-, same | ⟨sub, now, -, done⟩⟩ := h
    · exact ho.of_sub? same.sub?
    · exact tending (.plain (confirmed_plain done))
  | retiredClear fetched =>
    obtain ⟨-, same | ⟨sub, done⟩, -⟩ := h
    · exact ho.of_sub? same.sub?
    · exact ho.of_row done.before done.after rfl (fun _ he => he) (by
        rw [Database.replacement?_of done.before, Database.replacement?_of done.after]
        exact Or.inl rfl)
  | dunning =>
    obtain ⟨-, same | ⟨sub, sub', done⟩⟩ := h
    · exact ho.of_sub? same.sub?
    · exact tending (.plain done)
  | owedStore fetched status =>
    obtain ⟨-, same | ⟨sub, done⟩⟩ := h
    · exact same ▸ ho
    · obtain ⟨sub', done⟩ := done.plain
      exact tending (.plain done)
  | webhookInsert fetched eventId eventType => exact ho.of_sub? h.2.toInbox.sub?
  | _ => exact same h

theorem Reactivates.paidAnswer {sub : Subscription} {f : Fetched} {plan : Plan} {start stop : Time}
    (h : Reactivates env.settings sub f.entity f.invoices f.started plan start stop)
    (hread : (reconcileRead sub ref).run env s = (.ok f, t)) :
    PaidAnswer env sub ref s.journal.calls.length s.journal.ticks plan start stop := by
  have hpost := Program.wp_ok reconcileRead_calls hread
  have hinv := hpost.invoices
  rw [if_pos (invoicesNeeded_of h.inactive h.status)] at hinv
  obtain ⟨list, hlist, -, hans⟩ := hinv
  rw [hlist, hpost.started] at h
  exact ⟨f.entity, list, hpost.entity, hans, h⟩

theorem Reconciled.owedTo {sub : Subscription} {fetched : Ref} {calls : List Call} {db : Database}
    (h : Reconciled env sub fetched s calls db) (ho : s.data.OwedTo ref)
    (hno : sub.paymentProviderRef = some ref → ∀ plan start stop,
      ¬ PaidAnswer env sub fetched s.journal.calls.length s.journal.ticks plan start stop) :
    db.OwedTo ref := by
  cases h with
  | same data => exact data ▸ ho
  | applied f plan status now r read from_ done =>
    obtain ⟨t, hread⟩ := read
    exact done.owedTo ho fun hp start stop hre => hno hp plan start stop (hre.paidAnswer hread)

/-- A checkout leaves a row that is owed a cancel ended, unless its reconcile has a paid
answer for it, or the provider creates the subscription again. -/
theorem StartPost.owedTo {planId : ℕ} {acknowledged : Bool}
    (h : StartPost env planId acknowledged s t)
    (hempty : s.journal = Journal.empty) (ho : s.data.OwedTo ref)
    (hfresh : ∀ created, CreatedBy t.journal.calls created → created.ref ≠ ref)
    (hno : ∀ sub plan known start stop, s.data.sub? = some sub → sub.paymentProviderRef = some ref →
      env.settings.offeredPlan planId = some plan → env.settings.configured = true →
      ¬ PaidAnswer env sub ref 0 0 known start stop) : t.data.OwedTo ref := by
  cases h with
  | unchanged data => exact data ▸ ho
  | first absent path => exact path.owedTo ho hfresh
  | row sub plan stored offered configured post =>
    have reconciled : ∀ {fetched : Ref} {calls : List Call} {db : Database},
        sub.paymentProviderRef = some fetched → Reconciled env sub fetched s calls db →
        db.OwedTo ref := fun hp hrec => hrec.owedTo ho fun href known start stop hpaid => by
      rw [hp] at href
      cases href
      rw [hempty] at hpaid
      exact hno sub plan known start stop stored hp offered configured hpaid
    cases post with
    | settled mid first tail =>
      refine tail.owedTo ?_ hfresh
      rcases first with rfl | ⟨fetched, hp, hrec⟩
      · exact ho
      · exact reconciled hp hrec
    | replaced fetched sub' entity u current free payment ran post active falls later started =>
      exact started.owedTo (reconciled payment post.reconciled) hfresh

theorem CancelPost.owedTo (h : CancelPost s t) (ho : s.data.OwedTo ref) : t.data.OwedTo ref := by
  by_cases hp : s.data.payment? = some ref
  · obtain ⟨sub, hsub, hpay⟩ := Option.bind_eq_some_iff.mp hp
    exact h.idle sub hsub (ho.ended sub hsub hpay) ▸ ho
  · obtain ⟨mid, hfirst, hk⟩ := h.path
    rcases hfirst with rfl | ⟨sub, sub', done⟩
    · exact hk.owedTo ho hp
    · exact hk.owedTo (Tending.owedTo (.retires done) ho) (done.payment? ▸ hp)

end Steps

/-- The transition makes the row ACTIVE that holds the reference: a main sync or a checkout
applies a paid snapshot to it. Or the provider gives out the reference once more. -/
inductive Transition.Revives (t : Transition) (ref : Ref) : Prop
  | synced {i : ℕ} {env : Env} {fetched : Ref} {started : Time} {entity : Dict}
      {invoices : Option (List Json)} {sub : Subscription} {plan : Plan} {start stop : Time}
      (label : t.label = .advance i env)
      (task : t.before.taskAt i = some (.mainApply fetched started entity invoices))
      (row : t.before.db.sub? = some sub) (payment : sub.paymentProviderRef = some ref)
      (paid : Reactivates env.settings sub entity invoices started plan start stop)
  | reconciled {actor planId : ℕ} {acknowledged : Bool} {env : Env} {sub : Subscription}
      {plan known : Plan} {start stop : Time}
      (label : t.label = .request (.checkout actor planId acknowledged) env true)
      (row : t.before.db.sub? = some sub) (payment : sub.paymentProviderRef = some ref)
      (offered : env.settings.offeredPlan planId = some plan)
      (configured : env.settings.configured = true)
      (paid : PaidAnswer env sub ref 0 0 known start stop)
  | recreated {created : Created} (fresh : CreatedBy t.stepCalls created) (same : created.ref = ref)

/-- The step, if it is the sweep's cancel of `ref`, comes after no step that revived the row since
the sweep's read. -/
def Unrevived (history : List Transition) (t : Transition) : Prop :=
  ∀ i env ref, t.label = .advance i env → t.before.taskAt i = some (.owedCancel ref) →
    ∀ u ∈ history, u.before.taskAt i = some (.owedCancel ref) → ¬ u.Revives ref

/-- The step, if it is the sweep's cancel of `ref`, finds the row that holds it ended. -/
def Transition.CancelsEnded (t : Transition) : Prop :=
  ∀ i env ref sub, t.label = .advance i env → t.before.taskAt i = some (.owedCancel ref) →
    t.before.db.sub? = some sub → sub.paymentProviderRef = some ref → sub.status.Ended

/-- Each cancel that is about to be issued is still owed, unless the row was revived. -/
def System.OwedSafe (history : List Transition) (sys : System) : Prop :=
  ∀ i ref, sys.taskAt i = some (.owedCancel ref) →
    (∀ u ∈ history, u.before.taskAt i = some (.owedCancel ref) → ¬ u.Revives ref) →
    sys.db.OwedTo ref

section System

variable {sys : System} {choice : Choice} {ref : Ref}

theorem OwnerRequest.owedTo {request : OwnerRequest} {env : Env} (ho : sys.db.OwedTo ref)
    (hno : ¬ Transition.Revives (transition System.step sys (.request request env true)) ref) :
    (request.run sys.db env).2.data.OwedTo ref := by
  have hfresh : ∀ created, CreatedBy (request.run sys.db env).2.journal.calls created →
      created.ref ≠ ref := fun created hc href => hno (.recreated hc href)
  cases request with
  | checkout actor planId acknowledged =>
    have hpost : StartPost env planId acknowledged ⟨sys.db, Journal.empty⟩
        (OwnerRequest.run (.checkout actor planId acknowledged) sys.db env).2 :=
      wp_state (discard_wp (Program.wp_mono startCheckout_spec (fun _ _ h => h) (fun _ _ h => h)))
    exact hpost.owedTo rfl ho hfresh fun sub plan known start stop hsub hp ho hc hpaid =>
      hno (.reconciled rfl hsub hp ho hc hpaid)
  | cancel actor =>
    have hpost : CancelPost ⟨sys.db, Journal.empty⟩
        (OwnerRequest.run (.cancel actor) sys.db env).2 :=
      wp_state (discard_wp (Program.wp_mono cancelSubscription_spec (fun _ _ h => h)
        (fun _ _ h => h)))
    exact hpost.owedTo ho
  | cancelReplacement actor =>
    have hpost : CancelReplacementPost ⟨sys.db, Journal.empty⟩
        (OwnerRequest.run (.cancelReplacement actor) sys.db env).2 :=
      wp_state (discard_wp (Program.wp_mono cancelReplacement_spec (fun _ _ h => h)
        (fun _ _ h => Or.inl h)))
    rcases hpost with h | ⟨sub, sub', -, done⟩
    · exact h ▸ ho
    · exact Tending.owedTo (.retires done) ho

theorem owedTo_step (ho : sys.db.OwedTo ref)
    (hno : ¬ Transition.Revives (transition System.step sys choice) ref) :
    (sys.step choice).db.OwedTo ref := by
  rcases sys.db_step choice with hsame | ⟨i, env, task, next, rfl, htakes⟩ |
    ⟨request, env, rfl, hdb⟩
  · exact hsame ▸ ho
  · have hat := htakes.taskAt
    obtain ⟨thread, rest, t, -, -, hpost, hdb, -⟩ := htakes
    rw [← hdb]
    refine hpost.owedTo ho ?_
    rintro fetched started entity invoices sub plan start stop rfl hsub hp hre
    exact hno (.synced rfl hat hsub hp hre)
  · rw [hdb]
    exact OwnerRequest.owedTo ho hno

theorem owed_owedTo {db : Database} {sub : Subscription} (hsub : db.sub? = some sub)
    (howed : owed sub = true) (hp : sub.paymentProviderRef = some ref) : db.OwedTo ref := by
  simp only [owed, Bool.and_eq_true, decide_eq_true_eq] at howed
  refine ⟨fun x hx _ => ?_, ?_⟩
  · rw [hsub] at hx
    cases hx
    exact howed.1.1
  · rw [Database.replacement?_of hsub]
    exact fun href => Database.replacement_ne_payment hsub href hp

theorem System.OwedSafe.step {h : List Transition} (hsafe : sys.OwedSafe h) (ho : sys.Ordered) :
    (sys.step choice).OwedSafe (h ++ [transition System.step sys choice]) := by
  intro i ref hat hno
  rcases System.taskAt_follows ho hat id with ⟨hsame, -⟩ | ⟨env, task, rfl, hfollows, htakes⟩
  · have howed : sys.db.OwedTo ref :=
      hsafe i ref hsame fun u hu => hno u (List.mem_append_left _ hu)
    exact owedTo_step howed (hno _ (List.mem_append_right _ (List.mem_singleton_self _)) hsame)
  · obtain ⟨thread, rest, t, -, -, hpost, hdb, -⟩ := htakes
    cases task <;> first | exact hfollows.elim | skip
    obtain ⟨hdata, hnext⟩ := hpost
    obtain ⟨sub, hsub, hg⟩ := hnext _ rfl
    obtain ⟨howed, hg⟩ : owed sub = true ∧ sub.paymentProviderRef = some ref := by
      dsimp only at hg
      split at hg
      · obtain ⟨ref', hp, heq⟩ := Option.map_eq_some_iff.mp hg
        cases heq
        exact ⟨‹_›, hp⟩
      · cases hg
    rw [← hdb, hdata]
    exact owed_owedTo hsub howed hg

end System

/-- In a run in which no row is cancelled that was revived since the sweep's read, every owed
cancel finds the row ended. -/
theorem owed_cancels_ended (db : Database) (choices : List Choice)
    (h : Meets Unrevived (runFrom db choices)) : ∀ t ∈ runFrom db choices, t.CancelsEnded := by
  have hinit : (⟨db, []⟩ : System).Ordered ∧ (⟨db, []⟩ : System).OwedSafe [] :=
    ⟨by simp [System.Ordered], by simp [System.OwedSafe, System.taskAt]⟩
  have hstep : ∀ history sys choice, (System.Ordered sys ∧ System.OwedSafe history sys) →
      Unrevived history (transition System.step sys choice) →
      ((sys.step choice).Ordered ∧
        (sys.step choice).OwedSafe (history ++ [transition System.step sys choice])) ∧
      Transition.CancelsEnded (transition System.step sys choice) := by
    rintro history sys choice ⟨ho, hsafe⟩ hno
    refine ⟨⟨System.step_ordered ho choice, hsafe.step ho⟩, ?_⟩
    intro i env ref sub hl hat hsub hp
    have howed : sys.db.OwedTo ref := hsafe i ref hat (hno i env ref hl hat)
    exact howed.ended sub hsub hp
  have hmet : Meets (fun _ t => Transition.CancelsEnded t) (runFrom db choices) :=
    MeetsFrom.of_invariant hinit hstep h
  intro t ht
  obtain ⟨before, after, hts⟩ := List.append_of_mem ht
  rw [hts] at hmet
  exact hmet.split

def latePayment : Env :=
  ({ fetch := onlyA (entityA "active" 700000 800000)
     cancel := .ok (entityA "cancelled" 700000 800000)
     invoices := .ok [invoiceOf "sub_a" "pay_2" 700000 800000] } : Answers).at 700100

def sweepsBeside : List Choice :=
  [.spawn .dunning, .spawn .dunning, .advance 0 latePayment, .advance 1 latePayment,
    .advance 0 latePayment, .advance 1 latePayment, .advance 0 latePayment, .advance 1 latePayment]

/-- A step that can revive nothing: no request, no main sync's transaction, no creation. -/
def Transition.restful (t : Transition) : Bool :=
  (match t.label with
    | .request _ _ _ => false
    | .advance i _ => match t.before.taskAt i with
      | some (.mainApply _ _ _ _) => false
      | _ => true
    | _ => true) &&
  !t.stepCalls.any Call.creates

theorem Transition.restful.not_revives {t : Transition} (h : t.restful = true) (ref : Ref) :
    ¬ t.Revives ref := by
  rw [Transition.restful, Bool.and_eq_true, Bool.not_eq_true'] at h
  obtain ⟨hl, hc⟩ := h
  rintro (⟨hlabel, htask, -, -, -⟩ | ⟨hlabel, -, -, -, -, -⟩ | ⟨hcreated, -⟩)
  · simp [hlabel, htask] at hl
  · simp [hlabel] at hl
  · exact not_createdBy hc hcreated

theorem owed_cancels_ended_beside : ∃ t ∈ runFrom owedRow sweepsBeside,
    t.before.taskAt 0 = some (.owedCancel refA) ∧ t.CancelsEnded := by
  have ht := (runFrom owedRow sweepsBeside).get_mem ⟨6, by decide⟩
  have hrest : ∀ t ∈ runFrom owedRow sweepsBeside, Transition.restful t = true := by decide
  have hmeets : Meets Unrevived (runFrom owedRow sweepsBeside) :=
    MeetsFrom.mono (MeetsFrom.of_history hrest) fun _ _ hb i _ ref _ _ u hu _ =>
      Transition.restful.not_revives (hb u hu) ref
  exact ⟨_, ht, rfl, owed_cancels_ended _ _ hmeets _ ht⟩

/-- The late charge is proven paid by a sync between the sweep's read and its cancel. -/
def paidInBetween : List Choice :=
  [.spawn .dunning, .spawn .sync] ++ List.replicate 2 (.advance 0 latePayment) ++
    List.replicate 5 (.advance 1 latePayment) ++ [.advance 0 latePayment]

theorem reactivated_cancelled : ∃ t ∈ runFrom owedRow paidInBetween, ¬ t.CancelsEnded := by
  refine ⟨_, (runFrom owedRow paidInBetween).get_mem ⟨9, by decide⟩, fun h => ?_⟩
  exact absurd (h 0 latePayment refA _ rfl rfl rfl rfl) (by decide)

end ReviewFlow.Billing
