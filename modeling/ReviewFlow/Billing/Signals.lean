import ReviewFlow.Billing.References
import ReviewFlow.Billing.Threads

/-!
# No webhook signal is lost

An event is marked processed by the sync that fetched the reference it names, late enough and
with a snapshot that settled, or when the reference leaves the row. The second kind of mark is
safe because the retired slot holds neither of the other two references (`Database.Apart`).
-/

namespace ReviewFlow.Billing

open Savepoint Interleaving

def Database.Apart (db : Database) : Prop :=
  ∀ sub, db.sub? = some sub → ∀ ref, sub.retiredProviderRef = some ref → ¬ sub.Holds ref

structure Leaves (db db' : Database) : Prop where
  apart : db'.Apart
  marks : Marked (fun e => ¬ db'.Holds e.providerRef) db.events db'.events

/-- A transaction that began at `db`, between two of its moves: the replacement and the retired
reference are old ones. -/
structure Since (db mid : Database) : Prop where
  apart : mid.Apart
  old : ∀ sub, mid.sub? = some sub → ∀ ref,
    sub.replacementProviderRef = some ref ∨ sub.retiredProviderRef = some ref → db.Tracks ref
  marks : Marked (fun e => db.Tracks e.providerRef ∧ ¬ mid.Holds e.providerRef) db.events mid.events

section Moves

variable {calls : List Call} {db a b : Database} {sub sub' : Subscription}

theorem Database.holds_iff {ref : Ref} (h : db.sub? = some sub) : db.Holds ref ↔ sub.Holds ref := by
  constructor
  · rintro ⟨x, hx, hheld⟩
    rw [h] at hx
    cases hx
    exact hheld
  · exact fun hheld => ⟨sub, h, hheld⟩

theorem Since.refl (h : db.Apart) : Since db db := by
  refine ⟨h, ?_, .refl _ _⟩
  intro sub hsub ref href
  exact ⟨sub, hsub, href.elim (fun h => .inl (.inr h)) .inr⟩

theorem Since.leaves (h : Since db a) : Leaves db a := ⟨h.apart, h.marks.mono fun _ _ h => h.2⟩

theorem Since.shift (h : Since db a) (hb : b.sub? = some sub')
    (hheld : ∀ ref, sub'.Holds ref → a.Holds ref ∨ ¬ db.Tracks ref)
    (hold : ∀ ref, sub'.replacementProviderRef = some ref ∨
      sub'.retiredProviderRef = some ref → db.Tracks ref)
    (hapart : ∀ ref, sub'.retiredProviderRef = some ref → ¬ sub'.Holds ref)
    (hmarks : Marked (fun e => db.Tracks e.providerRef ∧ ¬ sub'.Holds e.providerRef)
    a.events b.events) :
    Since db b := by
  constructor
  · intro x hx
    rw [hb] at hx
    cases hx
    exact hapart
  · intro x hx
    rw [hb] at hx
    cases hx
    exact hold
  · have hbefore : Marked (fun e => db.Tracks e.providerRef ∧ ¬ b.Holds e.providerRef)
        db.events a.events := by
      apply h.marks.mono
      rintro e - ⟨htracks, hnot⟩
      refine ⟨htracks, fun hholds => ?_⟩
      rcases hheld _ ((Database.holds_iff hb).mp hholds) with hh | hh
      · exact hnot hh
      · exact hh htracks
    apply hbefore.trans
    apply hmarks.mono
    rintro e - ⟨htracks, hnot⟩
    exact ⟨htracks, fun hholds => hnot ((Database.holds_iff hb).mp hholds)⟩

theorem Since.same (h : Since db a) (ha : a.sub? = some sub) (hb : b.sub? = some sub')
    (hpay : sub'.paymentProviderRef = sub.paymentProviderRef)
    (hrep : sub'.replacementProviderRef = sub.replacementProviderRef)
    (hret : sub'.retiredProviderRef = sub.retiredProviderRef) {P : BillingEvent → Prop}
    (hmarks : Marked P a.events b.events) (hnone : ∀ e, ¬ P e) : Since db b := by
  have hholds : ∀ ref, sub'.Holds ref ↔ sub.Holds ref := by
    intro ref
    rw [Subscription.Holds, Subscription.Holds, hpay, hrep]
  apply h.shift hb
  · exact fun ref hh => .inl ⟨sub, ha, (hholds ref).mp hh⟩
  · rw [hrep, hret]
    exact h.old sub ha
  · intro ref href hh
    rw [hret] at href
    exact h.apart sub ha ref href ((hholds ref).mp hh)
  · exact hmarks.mono fun e _ he => (hnone e he).elim

theorem Since.untouched (h : Since db a) (hu : Untouched a b) : Since db b := by
  refine ⟨?_, ?_, ?_⟩
  · intro sub hsub
    exact h.apart sub (hu.sub? ▸ hsub)
  · intro sub hsub
    exact h.old sub (hu.sub? ▸ hsub)
  · rw [hu.events]
    apply h.marks.mono
    rintro e - ⟨htracks, hnot⟩
    refine ⟨htracks, ?_⟩
    rintro ⟨sub, hsub, hheld⟩
    exact hnot ⟨sub, hu.sub? ▸ hsub, hheld⟩

theorem Since.stored (h : Since db a) (done : Stored sub sub' a b)
    (hpay : sub'.paymentProviderRef = sub.paymentProviderRef)
    (hrep : sub'.replacementProviderRef = sub.replacementProviderRef)
    (hret : sub'.retiredProviderRef = sub.retiredProviderRef) : Since db b :=
  h.same done.before done.after hpay hrep hret (P := fun _ => False)
    (done.events ▸ Marked.refl _ _) fun _ => id

theorem Since.abandoned (h : Since db a) (ha : a.sub? = some sub) (hb : b.sub? = some sub')
    (hpay : sub'.paymentProviderRef = sub.paymentProviderRef)
    (hrep : sub'.replacementProviderRef = none)
    (hret : sub'.retiredProviderRef = sub.replacementProviderRef)
    (hmarks : Marked (fun e => sub.replacementProviderRef = some e.providerRef) a.events b.events) :
    Since db b := by
  have hleft : ∀ ref, sub.replacementProviderRef = some ref → ¬ sub'.Holds ref := by
    rintro ref href (hh | hh)
    · rw [hpay] at hh
      exact Database.replacement_ne_payment ha href hh
    · rw [hrep] at hh
      cases hh
  apply h.shift hb
  · rintro ref (hh | hh)
    · exact .inl ⟨sub, ha, .inl (hpay ▸ hh)⟩
    · rw [hrep] at hh
      cases hh
  · rintro ref (hh | hh)
    · rw [hrep] at hh
      cases hh
    · exact h.old sub ha ref (.inl (hret ▸ hh))
  · exact fun ref href => hleft ref (hret ▸ href)
  · exact hmarks.mono fun e _ he => ⟨h.old sub ha _ (.inl he), hleft _ he⟩

theorem Abandons.refs (h : Abandons calls sub sub') :
    sub'.paymentProviderRef = sub.paymentProviderRef ∧
    sub'.replacementProviderRef = none ∧ sub'.retiredProviderRef = sub.replacementProviderRef := by
  obtain ⟨entity, target, -, -, -, rfl⟩ := h
  exact ⟨rfl, rfl, rfl⟩

theorem Since.retires (h : Since db a) (done : Retires calls sub sub' a b) : Since db b := by
  obtain ⟨hpay, hrep, hret⟩ := done.row.refs
  exact h.abandoned done.before done.after hpay hrep hret done.events

theorem Since.snapshot (h : Since db a) {settings : Settings} {entity : Dict}
    {invoices : Option (List Json)}
    {started : Time} {plan : Plan} {status : String} {now : Time} {r : Applied}
    (done : Snapshotted settings calls entity invoices started sub plan status now r a b) :
    Since db b := by
  have hslots := statusOutcome_slots sub entity invoices plan status now
  rcases done.row with hr | ⟨-, -, -, habandons⟩
  · have hrep : r.sub.replacementProviderRef = sub.replacementProviderRef := hr ▸ hslots.replacement
    apply h.same done.before done.after (hr ▸ hslots.payment) hrep (hr ▸ hslots.retired) done.events
    rintro e ⟨hheld, hnone⟩
    rw [hrep, hheld] at hnone
    cases hnone
  · obtain ⟨hpay, hrep, hret⟩ := habandons.refs
    apply h.abandoned done.before done.after (hpay.trans hslots.payment) hrep
      (hret.trans hslots.replacement)
    exact done.events.mono fun e _ he => he.1

theorem Since.tending (h : Since db a) (done : Tending calls a b) : Since db b := by
  cases done with
  | retires done => exact h.retires done
  | committed candidate done => exact h.stored done rfl rfl rfl
  | uncommitted done => exact h.stored done rfl rfl rfl
  | plain done =>
    exact h.stored done.toStored done.slots.payment done.slots.replacement done.slots.retired
  | undone before row after usage events =>
    obtain ⟨hpay, hrep, hret⟩ := row.refs
    exact h.abandoned before after hpay hrep hret events
  | @retiredCleared ref sub gone done =>
    apply h.shift done.after
    · exact fun ref hh => .inl ⟨sub, done.before, hh⟩
    · rintro r (hr | hr)
      · exact h.old sub done.before r (.inl hr)
      · cases hr
    · rintro r hr
      cases hr
    · apply done.events.mono
      rintro e - rfl
      exact ⟨h.old sub done.before _ (.inr done.held), h.apart sub done.before _ done.held⟩

theorem Since.quiet (h : Since db a)
    (hfresh : ∀ created, CreatedBy calls created → ¬ db.Tracks created.ref)
    (done : Quiet calls a b) : Since db b := by
  cases done with
  | tending done => exact h.tending done
  | @stored sub plan created inactive fresh gone done =>
    have hnew := hfresh created fresh
    apply h.shift done.after
    · rintro ref (hh | hh)
      · cases hh
        exact .inr hnew
      · exact .inl ⟨sub, done.before, .inr hh⟩
    · exact h.old sub done.before
    · rintro ref href (hh | hh)
      · cases hh
        exact hnew (h.old sub done.before _ (.inr href))
      · exact h.apart sub done.before ref href (.inr hh)
    · exact done.events ▸ Marked.refl _ _
  | inserted plan absent after =>
    subst after
    have hrow : ({ a with subscription := some (freshRow plan) } : Database).sub? =
      some (freshRow plan).sub := rfl
    apply h.shift hrow
    · rintro ref (hh | hh) <;> cases hh
    · rintro ref (hh | hh) <;> cases hh
    · rintro ref hh
      cases hh
    · exact Marked.refl _ _

theorem Since.switched {settings : Settings} {entity : Dict}
    {invoices : Option (List Json)} {started : Time}
    {plan : Plan} {status : String} {start stop : Time} (hapart : db.Apart)
    (done : Switched settings entity invoices started sub plan status start stop db b) :
    Since db b := by
  have hrep := (activated_slots sub plan start stop).replacement
  have hleft : ∀ ref, sub.paymentProviderRef = some ref →
      ¬ (Billing.switched (activated sub plan start stop) sub.paymentProviderRef status
      started).Holds ref := by
    rintro ref href (hh | hh)
    · exact Database.replacement_ne_payment done.before (hrep.symm.trans hh) href
    · cases hh
  apply (Since.refl hapart).shift done.after
  · rintro ref (hh | hh)
    · exact .inl ⟨sub, done.before, .inr (hrep.symm.trans hh)⟩
    · cases hh
  · rintro ref (hh | hh)
    · cases hh
    · exact ⟨sub, done.before, .inl (.inl hh)⟩
  · exact hleft
  · exact done.events.mono fun e _ he => ⟨⟨sub, done.before, .inl (.inl he)⟩, hleft _ he⟩

theorem Switched.payment?_ne {settings : Settings} {entity : Dict}
    {invoices : Option (List Json)} {started : Time}
    {plan : Plan} {status : String} {start stop : Time}
    (done : Switched settings entity invoices started sub plan status start stop a
    b) : b.payment? ≠ a.payment? := by
  rw [Database.payment?_of done.after, Database.payment?_of done.before]
  have hrep := (activated_slots sub plan start stop).replacement
  have hnames := done.names
  intro hsame
  have hsame' : sub.replacementProviderRef = sub.paymentProviderRef := hrep.symm.trans hsame
  unfold namesReplacement at hnames
  split at hnames
  case h_1 ref href => exact
    Database.replacement_ne_payment done.before href (hsame'.symm.trans href)
  case h_2 => cases hnames

theorem Since.keeping (h : Since db a)
    (hfresh : ∀ created, CreatedBy calls created → ¬ db.Tracks created.ref)
    (done : Keeping calls a b) : Since db b := by
  induction done with
  | refl => exact h
  | tail _ hmove ih =>
    obtain ⟨hentitling | hquiet, hpay, -⟩ := hmove
    · cases hentitling with
      | snapshot answered invoiced done => exact ih.snapshot done
      | switched answered invoiced done => exact absurd hpay done.payment?_ne
    · exact ih.quiet hfresh hquiet

theorem Since.quietPath (h : Since db a)
    (hfresh : ∀ created, CreatedBy calls created → ¬ db.Tracks created.ref)
    (done : QuietPath calls a b) : Since db b := by
  induction done with
  | refl => exact h
  | tail _ hmove ih => exact ih.quiet hfresh hmove.1

theorem Since.starting (h : Since db a)
    (hfresh : ∀ created, CreatedBy calls created → ¬ db.Tracks created.ref)
    (done : Starting calls a b) : Leaves db b := by
  obtain @⟨sub, plan, kind, created, expiresAt, active, free, fresh, done⟩ := done
  constructor
  · intro x hx ref href
    rw [done.after] at hx
    cases hx
    rw [show (withReplacement sub plan kind created.ref expiresAt).retiredProviderRef =
      none from free] at href
    cases href
  · rw [done.events]
    apply h.marks.mono
    rintro e - ⟨htracks, hnot⟩ hholds
    rcases (Database.holds_iff done.after).mp hholds with hh | hh
    · exact hnot ⟨sub, done.before, .inl hh⟩
    · have hnew : created.ref = e.providerRef := Option.some.inj hh
      exact hfresh created fresh (hnew ▸ htracks)

theorem Course.leaves (h : Course calls db b) (hapart : db.Apart)
    (hfresh : ∀ created, CreatedBy calls created → ¬ db.Tracks created.ref) : Leaves db b := by
  obtain ⟨mid, hfirst, htail⟩ := h
  have hmid : Since db mid := by
    rcases hfirst with rfl | hentitling | hquiet
    · exact .refl hapart
    · cases hentitling with
      | snapshot answered invoiced done => exact (Since.refl hapart).snapshot done
      | switched answered invoiced done => exact .switched hapart done
    · exact (Since.refl hapart).quiet hfresh hquiet
  rcases htail with (hkeeping | ⟨-, hpath⟩) | hstarting
  · exact (hmid.keeping hfresh hkeeping).leaves
  · exact (hmid.quietPath hfresh hpath).leaves
  · exact hmid.starting hfresh hstarting

end Moves

/-- The answers the code relies on: a fetch answers for the subscription asked for, and a created
subscription is none that the row knows. -/
def Call.Faithful (db : Database) : Call → Prop
  | .subscription (.fetchSubscription ref) (.ok entity) => (entity.get "id").isStr ref.val = true
  | .subscription (.createSubscription _ _ _) (.ok entity) =>
    ∀ ref ∈ Ref.ofJson? (entity.get "id"), ¬ db.Tracks ref
  | _ => True

instance (db : Database) (call : Call) : Decidable (call.Faithful db) :=
  match call with
  | .subscription (.fetchSubscription _) (.ok _) => inferInstanceAs (Decidable (_ = true))
  | .subscription (.createSubscription _ _ _) (.ok entity) =>
    inferInstanceAs (Decidable (∀ ref ∈ Ref.ofJson? (entity.get "id"), ¬ db.Tracks ref))
  | .subscription (.updateSubscription _ _ _) _ => isTrue trivial
  | .subscription (.cancelSubscription _ _) _ => isTrue trivial
  | .subscription (.fetchSubscription _) (.error _) => isTrue trivial
  | .subscription (.createSubscription _ _ _) (.error _) => isTrue trivial
  | .invoices _ _ => isTrue trivial

def Transition.Faithful (t : Transition) : Prop := ∀ call ∈ t.calls, call.Faithful t.before.db

instance (t : Transition) : Decidable t.Faithful :=
  inferInstanceAs (Decidable (∀ call ∈ t.calls, call.Faithful t.before.db))

/-- A fetch of the reference begins: the clock reads `started`, and the provider answers
`entity`. -/
def Transition.FetchBegins (t : Transition) (ref : Ref) (started : Time) (entity : Dict) : Prop :=
  ∃ i env thread task rest oldStatus oldStart, t.label = .advance i env ∧
    t.before.threads[i]? = some thread ∧ thread.todo = task :: rest ∧
    (task = .mainFetch ref oldStatus oldStart ∨ task = .replacementFetch ref oldStatus oldStart) ∧
    env.oracle.clock thread.journal.ticks = started ∧
    env.oracle.subscription thread.journal.calls.length (.fetchSubscription ref) = .ok entity

/-- The task applies what a fetch of the reference at `started` answered, and the snapshot
settles. -/
def Task.Settles (task : Task) (env : Env) (s : State) (ref : Ref) (started : Time)
    (entity : Dict) : Prop :=
  ∃ invoices result u, result.settled = true ∧
    ((task = .mainApply ref started entity invoices ∧
        (applySnapshot entity invoices started none).run env s = (.ok result, u)) ∨
      (task = .replacementApply ref started entity invoices ∧
        (applyReplacementSnapshot entity invoices started).run env s = (.ok result, u)))

def Transition.Settles (t : Transition) (ref : Ref) (started : Time) (entity : Dict) : Prop :=
  ∃ i env thread task rest, t.label = .advance i env ∧ t.before.threads[i]? = some thread ∧
    thread.todo = task :: rest ∧ task.Settles env ⟨t.before.db, thread.journal⟩ ref started entity

/-- A fetch of the very reference began late enough, and the step settles its snapshot. -/
def Observed (h : List Transition) (t : Transition) (e : BillingEvent) : Prop :=
  ∃ started entity, (∃ t₀ ∈ h, t₀.FetchBegins e.providerRef started entity) ∧
    e.createdAt + eventClockSkew < started ∧ t.Settles e.providerRef started entity

/-- The event becomes processed in the step. A row of the inbox keeps its place. -/
def Transition.Processes (t : Transition) (e : BillingEvent) : Prop :=
  ∃ (i : ℕ) (e' : BillingEvent), t.before.db.events[i]? = some e ∧ e.processedAt = none ∧
    t.after.db.events[i]? = some e' ∧
    e'.processedAt.isSome = true

section Tasks

variable {env : Env} {s t : State} {next : Option Task}

/-- Some of the events that `P` selects were marked, and perhaps one was added. -/
def MarkedInbox (P : BillingEvent → Prop) (before after : List BillingEvent) : Prop :=
  ∃ marked added, Marked P before marked ∧ after = marked ++ added

theorem Marked.processed {P : BillingEvent → Prop} {a b : List BillingEvent}
    (h : Marked P a b) {i : ℕ}
    {e e' : BillingEvent} (he : a[i]? = some e) (he' : b[i]? = some e') (hn : e.processedAt = none)
    (hp : e'.processedAt.isSome = true) : P e := by
  induction h generalizing i with
  | nil => cases he
  | cons hrow _ ih =>
    cases i with
    | zero =>
      obtain rfl := Option.some.inj he
      obtain rfl := Option.some.inj he'
      rcases hrow with rfl | ⟨-, hP, -⟩
      · rw [hn] at hp
        cases hp
      · exact hP
    | succ i => exact ih he he'

theorem MarkedInbox.processed {P : BillingEvent → Prop} {a b : List BillingEvent}
    (h : MarkedInbox P a b) {i : ℕ}
    {e e' : BillingEvent} (he : a[i]? = some e) (he' : b[i]? = some e') (hn : e.processedAt = none)
    (hp : e'.processedAt.isSome = true) : P e := by
  obtain ⟨marked, added, hmarked, rfl⟩ := h
  have hi : i < marked.length := by
    rw [← List.Forall₂.length_eq hmarked]
    exact (List.getElem?_eq_some_iff.mp he).1
  rw [List.getElem?_append_left hi] at he'
  exact hmarked.processed he he' hn hp

def Task.MayMark (task : Task) (env : Env) (s t : State) (e : BillingEvent) : Prop :=
  ¬ t.data.Holds e.providerRef ∨ ∃ started entity, e.createdAt + eventClockSkew < started ∧
    task.Settles env s e.providerRef started entity

theorem Leaves.task {task : Task} (h : Leaves s.data t.data) :
    t.data.Apart ∧ MarkedInbox (task.MayMark env s t) s.data.events t.data.events :=
  ⟨h.apart, t.data.events, [], h.marks.mono fun _ _ => .inl, (List.append_nil _).symm⟩

theorem Leaves.withMarks {u : State} {P Q : BillingEvent → Prop} (h : Leaves s.data u.data)
    (hm : Beside P u t)
    (hQ : ∀ e, P e → Q e) (hleft : ∀ e, ¬ t.data.Holds e.providerRef → Q e) :
    t.data.Apart ∧ MarkedInbox Q s.data.events t.data.events := by
  have hsub : t.data.sub? = u.data.sub? := hm.sub?
  have hholds : ∀ ref, t.data.Holds ref → u.data.Holds ref := by
    rintro ref ⟨sub, hrow, hheld⟩
    exact ⟨sub, hsub ▸ hrow, hheld⟩
  constructor
  · intro sub hrow
    exact h.apart sub (hsub ▸ hrow)
  · have hbefore : Marked Q s.data.events u.data.events :=
      h.marks.mono fun e _ he => hleft e fun hh => he (hholds _ hh)
    refine ⟨t.data.events, [], hbefore.trans ?_, (List.append_nil _).symm⟩
    exact hm.events.mono fun e _ => hQ e

theorem SnapshotPost.since {entity : Dict} {invoices : Option (List Json)} {started : Time}
    {result : SnapshotResult} (h : SnapshotPost env.settings entity invoices started result s t)
    (hapart : s.data.Apart) : Since s.data t.data := by
  cases h with
  | dropped sub _ _ data _ =>
    rw [data]
    exact .refl hapart
  | applied sub plan status now r done _ => exact (Since.refl hapart).snapshot done

theorem ReplacementPost.since {entity : Dict} {invoices : Option (List Json)} {started : Time}
    (h : ReplacementPost env.settings entity invoices started s t) (hapart : s.data.Apart) :
    Since s.data t.data := by
  cases h with
  | kept same => exact (Since.refl hapart).untouched same
  | abandoned sub sub' uncommitted done => exact (Since.refl hapart).retires done
  | failed sub sub' entity read fails done => exact (Since.refl hapart).retires done
  | switched sub plan status start stop done => exact .switched hapart done

theorem SnapshotPost.payment {entity : Dict} {invoices : Option (List Json)} {started : Time}
    {result : SnapshotResult} {ref : Ref}
    (h : SnapshotPost env.settings entity invoices started result s t)
    (hsettled : result.settled = true) (hid : (entity.get "id").isStr ref.val = true) :
    t.data.payment? = some ref := by
  cases h with
  | dropped sub _ _ _ hresult =>
    rw [hresult] at hsettled
    cases hsettled
  | applied sub plan status now r done _ =>
    rw [done.payment?, Database.payment?_of done.before]
    have hnames := done.accepts.names
    unfold namesMain at hnames
    split at hnames
    case h_1 payment hpay =>
      have hval : payment.val = ref.val :=
        Json.str.inj ((Json.isStr_iff.mp hnames).symm.trans (Json.isStr_iff.mp hid))
      rw [hpay, Subtype.ext hval]
    case h_2 => cases hnames

theorem Task.Post.marks {task : Task} (h : task.Post env s next t)
    (hsound : task.Sound s.journal.calls)
    (hapart : s.data.Apart) (hfaithful : ∀ call ∈ t.journal.calls, call.Faithful s.data) :
    t.data.Apart ∧ MarkedInbox (task.MayMark env s t) s.data.events t.data.events := by
  have start : Since s.data s.data := .refl hapart
  have same : t.data = s.data →
      t.data.Apart ∧ MarkedInbox (task.MayMark env s t) s.data.events t.data.events := by
    intro hsame
    have hleaves : Leaves s.data t.data := hsame ▸ start.leaves
    exact hleaves.task
  cases task with
  | replacementApply ref started entity invoices =>
    obtain ⟨-, result, u, hu⟩ := h
    apply (hu.post.since hapart).leaves.withMarks hu.marks
    · rintro e ⟨hsettled, hobserved⟩
      obtain ⟨href, hearly⟩ := Bool.and_eq_true_iff.mp hobserved
      have href' : e.providerRef = ref := of_decide_eq_true href
      have hearly' : e.createdAt + eventClockSkew < started :=
        lt_sub_iff_add_lt.mp (of_decide_eq_true hearly)
      subst href'
      exact .inr ⟨started, entity, hearly', invoices, result, u, hsettled, .inr ⟨rfl, hu.ran⟩⟩
    · exact fun e he => .inl he
  | mainApply ref started entity invoices =>
    obtain ⟨-, result, u, hu⟩ := h
    apply (hu.post.since hapart).leaves.withMarks hu.marks
    · rintro e ⟨hsettled, hobserved⟩
      obtain ⟨hearly, hother⟩ := Bool.and_eq_true_iff.mp hobserved
      have hearly' : e.createdAt + eventClockSkew < started :=
        lt_sub_iff_add_lt.mp (of_decide_eq_true hearly)
      by_cases hheld : t.data.Holds e.providerRef
      case neg => exact .inl hheld
      obtain ⟨sub, hrow, hheld⟩ := hheld
      have hrow' : u.data.sub? = some sub := hu.marks.sub?.symm.trans hrow
      have hsu : s.journal ≤ u.journal := by
        have := (applySnapshot entity invoices started none).grows env s
        rwa [hu.ran] at this
      have hid := hfaithful _ (Journal.mem_of_le (le_trans hsu hu.later) hsound.1)
      have hpay := hu.post.payment hsettled hid
      rw [Database.payment?_of hrow'] at hpay
      have href : e.providerRef = ref := by
        rcases hheld with hh | hh
        · exact Option.some.inj (hh.symm.trans hpay)
        · rw [hrow'] at hother
          exact absurd hh (of_decide_eq_true hother)
      subst href
      exact .inr ⟨started, entity, hearly', invoices, result, u, hsettled, .inl ⟨rfl, hu.ran⟩⟩
    · exact fun e he => .inl he
  | commitFirst =>
    obtain ⟨refs, -, hpost⟩ := h
    cases hpost with
    | kept _ same => exact (start.untouched same).leaves.task
    | abandoned sub sub' _ uncommitted done => exact (start.retires done).leaves.task
    | committed sub now refs result candidate hrefs done =>
      exact (start.stored done rfl rfl rfl).leaves.task
  | commitSecond refs refused =>
    obtain ⟨-, hpost⟩ := h
    cases hpost with
    | kept same => exact (start.untouched same).leaves.task
    | confirmed sub now accepted still done => exact (start.stored done rfl rfl rfl).leaves.task
    | cleared sub refused still kept done => exact (start.stored done rfl rfl rfl).leaves.task
    | undone sub sub' refused still before row after usage events =>
      obtain ⟨hpay, hrep, hret⟩ := row.refs
      exact (start.abandoned before after hpay hrep hret events).leaves.task
  | reissueConfirm refs =>
    obtain ⟨-, untouched | ⟨sub, now, -, done⟩⟩ := h
    · exact (start.untouched untouched).leaves.task
    · exact (start.stored done rfl rfl rfl).leaves.task
  | retiredClear ref =>
    obtain ⟨-, untouched | ⟨sub, done⟩, hst⟩ := h
    · exact (start.untouched untouched).leaves.task
    · exact (start.tending (.retiredCleared (Gone.mono hsound hst) done)).leaves.task
  | dunning =>
    obtain ⟨-, untouched | ⟨sub, sub', done⟩⟩ := h
    · exact (start.untouched untouched).leaves.task
    · exact (start.stored done.toStored done.slots.payment done.slots.replacement
        done.slots.retired).leaves.task
  | owedStore ref status =>
    obtain ⟨-, hsame | ⟨sub, status, done⟩⟩ := h
    · exact same hsame
    · exact (start.stored done rfl rfl rfl).leaves.task
  | webhookInsert ref eventId eventType =>
    obtain ⟨-, hinserts⟩ := h
    constructor
    · intro sub hrow
      exact hapart sub (hinserts.toInbox.sub? ▸ hrow)
    · rcases hinserts.events with hevents | ⟨e, -, -, hevents⟩
      · exact ⟨s.data.events, [], .refl _ _, hevents.trans (List.append_nil _).symm⟩
      · exact ⟨s.data.events, [e], .refl _ _, hevents⟩
  | _ => exact same h.1

end Tasks

def Task.Begun (h : List Transition) : Task → Prop
  | .mainInvoices ref _ _ started entity => ∃ t₀ ∈ h, t₀.FetchBegins ref started entity
  | .mainApply ref started entity _ => ∃ t₀ ∈ h, t₀.FetchBegins ref started entity
  | .replacementInvoices ref _ _ started entity => ∃ t₀ ∈ h, t₀.FetchBegins ref started entity
  | .replacementApply ref started entity _ => ∃ t₀ ∈ h, t₀.FetchBegins ref started entity
  | _ => True

structure System.Signalled (h : List Transition) (sys : System) : Prop where
  apart : sys.db.Apart
  sound : sys.Sound
  ordered : sys.Ordered
  begun : ∀ i task, sys.taskAt i = some task → task.Begun h

section System

variable {h : List Transition} {sys : System} {choice : Choice}

theorem Task.Begun.snoc {task : Task} (hb : task.Begun h) (t : Transition) :
    task.Begun (h ++ [t]) := by
  have later : ∀ {ref started entity}, (∃ t₀ ∈ h, Transition.FetchBegins t₀ ref started entity) →
      ∃ t₀ ∈ h ++ [t], Transition.FetchBegins t₀ ref started entity := by
    rintro ref started entity ⟨t₀, ht₀, hbegins⟩
    exact ⟨t₀, List.mem_append_left _ ht₀, hbegins⟩
  cases task with
  | mainInvoices ref oldStatus oldStart started entity => exact later hb
  | mainApply ref started entity invoices => exact later hb
  | replacementInvoices ref oldStatus oldStart started entity => exact later hb
  | replacementApply ref started entity invoices => exact later hb
  | _ => trivial

theorem Task.Initial.begun {task : Task} (hi : task.Initial) : task.Begun h := by
  cases task with
  | mainInvoices ref oldStatus oldStart started entity => exact hi.elim
  | mainApply ref started entity invoices => exact hi.elim
  | replacementInvoices ref oldStatus oldStart started entity => exact hi.elim
  | replacementApply ref started entity invoices => exact hi.elim
  | _ => trivial

/-- What a step leads to: a fetch begins in it, or the snapshot was carried on. -/
theorem System.Takes.begun {i : ℕ} {env : Env} {task task' : Task} {db' : Database}
    (ht : sys.Takes i env task (some task') db') (hb : task.Begun h) :
    task'.Begun (h ++ [transition System.step sys (.advance i env)]) := by
  obtain ⟨thread, rest, t, hi, htodo, hpost, -, -⟩ := ht
  have hfollows := hpost.follows
  have hmem : transition System.step sys (.advance i env) ∈ h ++
      [transition System.step sys (.advance i env)] :=
    List.mem_append_right _ (List.mem_singleton_self _)
  cases task' with
  | mainInvoices ref oldStatus oldStart started entity =>
    cases task with
    | mainFetch ref₀ oldStatus₀ oldStart₀ =>
      obtain ⟨answer, hanswer, -, hg⟩ := hpost.2 _ rfl
      cases hg
      exact ⟨_, hmem, i, env, thread, _, rest, _, _, rfl, hi, htodo, .inl rfl, rfl, hanswer⟩
    | _ => exact hfollows.elim
  | replacementInvoices ref oldStatus oldStart started entity =>
    cases task with
    | replacementFetch ref₀ oldStatus₀ oldStart₀ =>
      obtain ⟨answer, hanswer, -, hg⟩ := hpost.2 _ rfl
      obtain ⟨-, heq⟩ := mem_ite_some hg
      cases heq
      exact ⟨_, hmem, i, env, thread, _, rest, _, _, rfl, hi, htodo, .inr rfl, rfl, hanswer⟩
    | _ => exact hfollows.elim
  | mainApply ref started entity invoices =>
    cases task with
    | mainInvoices ref₀ oldStatus oldStart started₀ entity₀ =>
      obtain ⟨_, -, heq⟩ := hpost.2 _ rfl
      cases heq
      exact hb.snoc _
    | _ => exact hfollows.elim
  | replacementApply ref started entity invoices =>
    cases task with
    | replacementInvoices ref₀ oldStatus oldStart started₀ entity₀ =>
      obtain ⟨_, -, heq⟩ := hpost.2 _ rfl
      cases heq
      exact hb.snoc _
    | _ => exact hfollows.elim
  | _ => trivial

theorem begun_step (hs : sys.Signalled h) (choice : Choice) (i : ℕ) (task : Task)
    (hat : (sys.step choice).taskAt i = some task) :
    task.Begun (h ++ [transition System.step sys choice]) := by
  rcases System.taskAt_step hs.ordered hat with hinitial | ⟨hat', -⟩ | ⟨env, task₀, rfl, htakes⟩
  · exact hinitial.begun
  · exact (hs.begun i task hat').snoc _
  · exact htakes.begun (hs.begun i task₀ htakes.taskAt)

/-- A step marks only what its task observed, and events of references that left the row. -/
theorem step_marks (hs : sys.Signalled h)
    (hf : Transition.Faithful (transition System.step sys choice)) :
    (sys.step choice).db.Apart ∧
      MarkedInbox (fun e => Observed h (transition System.step sys choice) e ∨
        ¬ (sys.step choice).db.Holds e.providerRef) sys.db.events (sys.step choice).db.events := by
  rcases sys.db_step choice with hsame | ⟨i, env, task, next, rfl, htakes⟩ |
    ⟨request, env, rfl, hdb⟩
  · rw [hsame]
    exact ⟨hs.apart, sys.db.events, [], .refl _ _, (List.append_nil _).symm⟩
  · have hbegun := hs.begun i task htakes.taskAt
    obtain ⟨thread, rest, t, hi, htodo, hpost, hdb, hcalls⟩ := htakes
    have hsound :=
      hs.sound thread (List.mem_of_getElem? hi) task (by rw [htodo]; exact List.mem_cons_self)
    have hfaithful : ∀ call ∈ t.journal.calls, call.Faithful sys.db := by
      intro call hc
      exact hf call (by rw [Transition.calls]; exact hcalls ▸ hc)
    obtain ⟨hapart, marked, added, hmarked, hevents⟩ := hpost.marks hsound hs.apart hfaithful
    rw [← hdb]
    refine ⟨hapart, marked, added, hmarked.mono ?_, hevents⟩
    rintro e - (hleft | ⟨started, entity, hearly, hsettles⟩)
    · exact .inr hleft
    · refine .inl
        ⟨started, entity, ?_, hearly, i, env, thread, task, rest, rfl, hi, htodo, hsettles⟩
      obtain ⟨invoices, result, u, -, ⟨rfl, -⟩ | ⟨rfl, -⟩⟩ := hsettles
      · exact hbegun
      · exact hbegun
  · have hfresh : ∀ created, CreatedBy (request.run sys.db env).2.journal.calls created →
        ¬ sys.db.Tracks created.ref := by
      rintro created ⟨hid, plan, startAt, expireBy, hc⟩
      exact hf _ hc created.ref (Ref.ofJson?_eq_some.mpr hid)
    have hleaves := (request.run_spec sys.db env).leaves hs.apart hfresh
    rw [hdb]
    exact ⟨hleaves.apart, _, [], hleaves.marks.mono fun _ _ => .inr, (List.append_nil _).symm⟩

theorem signalled_step (hs : sys.Signalled h)
    (hf : Transition.Faithful (transition System.step sys choice)) :
    (sys.step choice).Signalled (h ++ [transition System.step sys choice]) where
  apart := (step_marks hs hf).1
  sound := System.step_sound hs.sound choice
  ordered := System.step_ordered hs.ordered choice
  begun := begun_step hs choice

theorem signalled_start {db : Database} (h : db.Apart) : System.Signalled [] ⟨db, []⟩ where
  apart := h
  sound := by
    rintro _ ⟨⟩
  ordered := by
    rintro _ ⟨⟩
  begun := by
    rintro _ _ ⟨⟩

end System

/-- Webhook signals are not lost: in every run, an event becomes processed in a step that settles a
snapshot of the very reference, fetched late enough, or that leaves the reference in neither
slot. -/
theorem signals_kept (choices : List Choice) (hf : ∀ t ∈ runFrom rowless choices, t.Faithful) :
    Meets (fun h t => ∀ e, Transition.Processes t e →
      Observed h t e ∨ ¬ t.after.db.Holds e.providerRef) (runFrom rowless choices) := by
  have hapart : rowless.Apart := by
    rintro _ ⟨⟩
  refine MeetsFrom.of_invariant (signalled_start hapart) ?_ (.of_forall hf [])
  intro h sys choice hs hfaithful
  refine ⟨signalled_step hs hfaithful, ?_⟩
  rintro e ⟨i, e', he, hn, he', hp⟩
  exact (step_marks hs hfaithful).2.processed he he' hn hp

def signalled : List Choice :=
  let paid : Answers :=
    { fetch := onlyA (entityA "active" 1000 2000)
      invoices := .ok [invoiceOf "sub_a" "pay_1" 1000 2000] }
  subscribed ++ [.spawn (.webhook refA "evt_1" "subscription.charged")] ++
    List.replicate 2 (.advance 1 (paid.at 1510)) ++ [.spawn .sync] ++
      List.replicate 6 (.advance 2 (paid.at 1600))

theorem signals_kept_signalled : (∃ t ∈ runFrom rowless signalled, ∃ e, Transition.Processes t e) ∧
    Meets (fun h t => ∀ e, Transition.Processes t e →
      Observed h t e ∨ ¬ t.after.db.Holds e.providerRef) (runFrom rowless signalled) := by
  constructor
  · refine ⟨_, (runFrom rowless signalled).get_mem ⟨16, by decide⟩, ?_⟩
    exact ⟨⟨"evt_1", "subscription.charged", refA, seconds 1510, none⟩, 0, _, rfl, rfl, rfl, rfl⟩
  · exact signals_kept signalled (by decide)

end ReviewFlow.Billing
