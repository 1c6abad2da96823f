import ReviewFlow.Billing.RequestMoves

/-!
# The background tasks, transaction by transaction

A `Task` is where a background operation stands between two of its transactions
or provider calls, with the values it carries. `Task.step` runs it up to the next
such point. What a task carries from an earlier call is in its thread's journal
(`Task.Sound`).
-/

namespace ReviewFlow.Billing

open Savepoint

def eventClockSkew : Time := seconds 5

inductive Task where
  | replacementRead
  | replacementFetch (ref : Ref) (oldStatus : Status) (oldStart : Option Time)
  | replacementInvoices (ref : Ref) (oldStatus : Status) (oldStart : Option Time) (started : Time)
      (entity : Dict)
  | replacementApply (ref : Ref) (started : Time) (entity : Dict) (invoices : Option (List Json))
  | commitFirst
  | commitCancel (refs : CommitRefs)
  | commitSecond (refs : CommitRefs) (refused : Bool)
  | reissueRead
  | reissueCancel (refs : CommitRefs)
  | reissueConfirm (refs : CommitRefs)
  | mainRead
  | mainFetch (ref : Ref) (oldStatus : Status) (oldStart : Option Time)
  | mainInvoices (ref : Ref) (oldStatus : Status) (oldStart : Option Time) (started : Time)
      (entity : Dict)
  | mainApply (ref : Ref) (started : Time) (entity : Dict) (invoices : Option (List Json))
  | retiredRead
  | retiredFetch (ref : Ref) (kind : Option RetiredKind)
  | retiredCancel (ref : Ref)
  | retiredClear (ref : Ref)
  | dunning
  | owedRead
  | owedCancel (ref : Ref)
  | owedStore (ref : Ref) (status : String)
  | webhookLookup (ref : Ref) (eventId eventType : String)
  | webhookInsert (ref : Ref) (eventId eventType : String)

/-- The events a replacement sync marks: its own, older than the fetch by the margin. -/
def observedReplacement (ref : Ref) (started : Time) (e : BillingEvent) : Bool :=
  decide (e.providerRef = ref) && decide (e.createdAt < started - eventClockSkew)

/-- The events a main sync marks: all but the live replacement's, older than the fetch
by the margin. -/
def observedMain (replacement : Option Ref) (started : Time) (e : BillingEvent) : Bool :=
  decide (e.createdAt < started - eventClockSkew) && decide (replacement ≠ some e.providerRef)

/-- The last transaction of `_sync_main`. -/
def mainApply (entity : Dict) (invoices : Option (List Json)) (started : Time) : Prog Unit :=
  Program.savepoint do
    let result ← applySnapshot entity invoices started none
    let row ← firstSubscription
    Program.whenever (result.settled = true)
      (markEvents (observedMain (row.bind (·.replacementProviderRef)) started))

/-- The last transaction of `_sync_replacement`. -/
def replacementApply (ref : Ref) (entity : Dict) (invoices : Option (List Json)) (started : Time) :
    Prog Unit :=
  Program.savepoint do
    let result ← applyReplacementSnapshot entity invoices started
    Program.whenever (result.settled = true) (markEvents (observedReplacement ref started))

/-- `_fetch_invoices_if_needed` in a sync: none when the call failed. -/
def syncInvoices (ref : Ref) (oldStatus : Status) (oldStart : Option Time) (entity : Dict) :
    Prog (Option (Option (List Json))) :=
  orNone (fetchInvoicesIfNeeded ref oldStatus oldStart entity)

/-- The outcome of the provider cancel between T1 and T2, none when it is unknown. -/
def cancelOutcome (ref : Ref) : Prog (Option Bool) :=
  Program.handle
    (do
      let _ ← razorpay (.cancelSubscription ref true)
      pure (some false))
    fun e => match e with
      | .provider (.rejected _ _ _) => pure (some true)
      | e => if e.isCaught = true then pure none else Program.raise e

def retiredStatus (ref : Ref) (entity : Dict) : Option String :=
  if (entity.get "id").isStr ref.val = true then (entity.get "status").str? else none

/-- What `_sync_retired` does next with a status. -/
def afterRetiredFetch (ref : Ref) (kind : Option RetiredKind)
    (status : Option String) : Option Task :=
  match status with
  | none => none
  | some status =>
    if status ∈ terminalProviderStatuses then some (.retiredClear ref)
    else if retiredMayBeCancelled kind status = true then some (.retiredCancel ref)
    else none

/-- `for_lookup_ref`. -/
def resolves (sub : Subscription) (ref : Ref) : Bool :=
  decide (sub.paymentProviderRef = some ref) || decide (sub.replacementProviderRef = some ref)

/-- The insert of a webhook event; a known event id is a duplicate delivery. -/
def insertEvent (ref : Ref) (eventId eventType : String) : Prog Unit := do
  let now ← timezoneNow
  Program.query fun env db =>
    if eventId ∈ db.events.map (·.providerEventId) ∨ eventId ∈ env.others.eventIds then (.ok (), db)
    else (.ok (), { db with events := db.events ++ [⟨eventId, eventType, ref, now, none⟩] })

/-- One step of a task: the task it goes on with, or none at its end. -/
def Task.step : Task → Prog (Option Task)
  | .replacementRead => do
    let row ← firstSubscription
    pure (row.bind fun sub => sub.replacementProviderRef.map fun ref =>
      .replacementFetch ref sub.status sub.currentPeriodStart)
  | .replacementFetch ref oldStatus oldStart => do
    let started ← timezoneNow
    let entity ← orNone (razorpay (.fetchSubscription ref))
    pure ((entity.filter fun e => (e.get "id").isStr ref.val).map fun e =>
      .replacementInvoices ref oldStatus oldStart started e)
  | .replacementInvoices ref oldStatus oldStart started entity => do
    let invoices ← syncInvoices ref oldStatus oldStart entity
    pure (invoices.map fun invoices => .replacementApply ref started entity invoices)
  | .replacementApply ref started entity invoices => do
    Billing.replacementApply ref entity invoices started
    pure (if statusIn ["authenticated"] entity = true then some .commitFirst else none)
  | .commitFirst => do
    let refs ← commitT1
    pure (some ((refs.map .commitCancel).getD .reissueRead))
  | .commitCancel refs => match refs.oldRef with
    | none => Program.raise .valueError
    | some old => do
      let outcome ← cancelOutcome old
      pure (outcome.map fun refused => .commitSecond refs refused)
  | .commitSecond refs refused => do
    let committed ← commitT2 refs refused
    pure (if committed = true then none else some .reissueRead)
  | .reissueRead => do
    let refs ← Billing.reissueRead
    pure (refs.map .reissueCancel)
  | .reissueCancel refs => match refs.oldRef with
    | none => Program.raise .valueError
    | some old => do
      let answer ← orNone (razorpay (.cancelSubscription old true))
      pure (answer.map fun _ => .reissueConfirm refs)
  | .reissueConfirm refs => do
    Billing.reissueConfirm refs
    pure none
  | .mainRead => do
    let row ← firstSubscription
    pure (row.bind fun sub => sub.paymentProviderRef.map fun ref =>
      .mainFetch ref sub.status sub.currentPeriodStart)
  | .mainFetch ref oldStatus oldStart => do
    let started ← timezoneNow
    let entity ← orNone (razorpay (.fetchSubscription ref))
    pure (entity.map fun e => .mainInvoices ref oldStatus oldStart started e)
  | .mainInvoices ref oldStatus oldStart started entity => do
    let invoices ← syncInvoices ref oldStatus oldStart entity
    pure (invoices.map fun invoices => .mainApply ref started entity invoices)
  | .mainApply _ started entity invoices => do
    Billing.mainApply entity invoices started
    pure none
  | .retiredRead => do
    let row ← firstSubscription
    pure (row.bind fun sub => sub.retiredProviderRef.map fun ref =>
      .retiredFetch ref sub.retiredKind)
  | .retiredFetch ref kind => do
    let entity ← orNone (razorpay (.fetchSubscription ref))
    pure (afterRetiredFetch ref kind (entity.bind (retiredStatus ref)))
  | .retiredCancel ref => do
    let entity ← orNone (razorpay (.cancelSubscription ref false))
    pure (if entity.any (statusIn terminalProviderStatuses) = true then some (.retiredClear ref)
      else none)
  | .retiredClear ref => do
    clearRetired ref
    pure none
  | .dunning => do
    dunningTransaction
    pure (some .owedRead)
  | .owedRead => do
    let ref ← Billing.owedRead
    pure (ref.map .owedCancel)
  | .owedCancel ref => do
    let entity ← orNone (razorpay (.cancelSubscription ref false))
    pure (entity.bind fun e => (e.get "status").str?.map fun status => .owedStore ref status)
  | .owedStore ref status => do
    updateProviderStatus ref status
    pure none
  | .webhookLookup ref eventId eventType => do
    let row ← firstSubscription
    pure (if row.any (resolves · ref) = true then some (.webhookInsert ref eventId eventType)
      else none)
  | .webhookInsert ref eventId eventType => do
    insertEvent ref eventId eventType
    pure none

def Reads (g : Subscription → Option Task) (s : State) (next : Option Task) (t : State) : Prop :=
  t.data = s.data ∧ ∀ task ∈ next, ∃ sub, s.data.sub? = some sub ∧ task ∈ g sub

def Fetches (env : Env) (request : Request) (g : Dict → Option Task) (s : State)
    (next : Option Task) (t : State) : Prop :=
  t.data = s.data ∧ ∀ task ∈ next, ∃ entity,
    env.oracle.subscription s.journal.calls.length request = .ok entity ∧
    .subscription request (.ok entity) ∈ t.journal.calls ∧ task ∈ g entity

/-- The last transaction of a main sync: the snapshot, and then the marks of its events. -/
structure MainApplied (env : Env) (entity : Dict) (invoices : Option (List Json)) (started : Time)
    (s u t : State) (result : SnapshotResult) : Prop where
  ran : (applySnapshot entity invoices started none).run env s = (.ok result, u)
  post : SnapshotPost env.settings entity invoices started result s u
  later : u.journal ≤ t.journal
  marks : Beside (fun e => result.settled = true ∧
    observedMain (u.data.sub?.bind (·.replacementProviderRef)) started e = true) u t

structure ReplacementApplied (env : Env) (ref : Ref) (entity : Dict) (invoices : Option (List Json))
    (started : Time) (s u t : State) (result : SnapshotResult) : Prop where
  ran : (applyReplacementSnapshot entity invoices started).run env s = (.ok result, u)
  post : ReplacementPost env.settings entity invoices started s u
  later : u.journal ≤ t.journal
  marks : Beside (fun e => result.settled = true ∧ observedReplacement ref started e = true) u t

structure Inbox (db db' : Database) : Prop where
  sub : db'.subscription = db.subscription
  usage : db'.usage = db.usage

theorem Inbox.refl (db : Database) : Inbox db db := ⟨rfl, rfl⟩

theorem Inbox.sub? {db db' : Database} (h : Inbox db db') : db'.sub? = db.sub? := by
  unfold Database.sub?
  rw [h.sub]

structure Inserts (ref : Ref) (db db' : Database) : Prop extends Inbox db db' where
  events : db'.events = db.events ∨ ∃ e, e.providerRef = ref ∧ e.processedAt = none ∧
    db'.events = db.events ++ [e]

def Task.Post (env : Env) (s : State) (next : Option Task) (t : State) : Task → Prop
  | .replacementRead => Reads (fun sub => sub.replacementProviderRef.map fun ref =>
      .replacementFetch ref sub.status sub.currentPeriodStart) s next t
  | .replacementFetch ref oldStatus oldStart => Fetches env (.fetchSubscription ref)
      (fun e => if (e.get "id").isStr ref.val = true then
        some (.replacementInvoices ref oldStatus oldStart (env.oracle.clock s.journal.ticks) e)
        else none) s next t
  | .replacementInvoices ref _ _ started entity => t.data = s.data ∧ ∀ task ∈ next, ∃ invoices,
      Invoiced t.journal.calls invoices ∧ task = .replacementApply ref started entity invoices
  | .replacementApply ref started entity invoices => (∀ task ∈ next, task = .commitFirst) ∧
      ∃ result u, ReplacementApplied env ref entity invoices started s u t result
  | .commitFirst => ∃ refs, next = some ((refs.map .commitCancel).getD .reissueRead) ∧
      CommitPost refs s t
  | .commitCancel refs => t.data = s.data ∧ ∀ task ∈ next, ∃ old refused, refs.oldRef = some old ∧
      task = .commitSecond refs refused ∧ (refused = false ↔ ∃ entity,
        env.oracle.subscription s.journal.calls.length (.cancelSubscription old true) =
          .ok entity) ∧ (refused = true → ∃ code status reason,
        env.oracle.subscription s.journal.calls.length (.cancelSubscription old true) =
          .error (.rejected code status reason))
  | .commitSecond refs refused => (∀ task ∈ next, task = .reissueRead) ∧
      OutcomePost env refs refused s t
  | .reissueRead => Reads (fun sub => if unconfirmed sub = true then
      (commitRefs sub).map .reissueCancel else none) s next t
  | .reissueCancel refs => t.data = s.data ∧ ∀ task ∈ next, task = .reissueConfirm refs
  | .reissueConfirm refs => next = none ∧ (Untouched s.data t.data ∨ ∃ sub now,
      stillCommitted sub refs = true ∧
      Stored sub { sub with replacementCancelConfirmedAt := some now } s.data t.data)
  | .mainRead => Reads (fun sub => sub.paymentProviderRef.map fun ref =>
      .mainFetch ref sub.status sub.currentPeriodStart) s next t
  | .mainFetch ref oldStatus oldStart => Fetches env (.fetchSubscription ref)
      (fun e => some (.mainInvoices ref oldStatus oldStart (env.oracle.clock s.journal.ticks) e))
      s next t
  | .mainInvoices ref _ _ started entity => t.data = s.data ∧ ∀ task ∈ next, ∃ invoices,
      Invoiced t.journal.calls invoices ∧ task = .mainApply ref started entity invoices
  | .mainApply _ started entity invoices => next = none ∧
      ∃ result u, MainApplied env entity invoices started s u t result
  | .retiredRead => Reads (fun sub => sub.retiredProviderRef.map fun ref =>
      .retiredFetch ref sub.retiredKind) s next t
  | .retiredFetch ref kind => Fetches env (.fetchSubscription ref)
      (fun e => afterRetiredFetch ref kind (retiredStatus ref e)) s next t
  | .retiredCancel ref => Fetches env (.cancelSubscription ref false)
      (fun e => if statusIn terminalProviderStatuses e = true then some (.retiredClear ref)
        else none) s next t
  | .retiredClear ref => next = none ∧ (Untouched s.data t.data ∨
      ∃ sub, RetiredCleared ref sub s.data t.data) ∧ s.journal ≤ t.journal
  | .dunning => next = some .owedRead ∧ (Untouched s.data t.data ∨
      ∃ sub sub', Plain sub sub' s.data t.data)
  | .owedRead => Reads (fun sub => if owed sub = true then
      sub.paymentProviderRef.map .owedCancel else none) s next t
  | .owedCancel ref => Fetches env (.cancelSubscription ref false)
      (fun e => (e.get "status").str?.map fun status => .owedStore ref status) s next t
  | .owedStore _ _ =>
    next = none ∧ (t.data = s.data ∨ ∃ sub, ProviderStatusStored sub s.data t.data)
  | .webhookLookup ref eventId eventType => Reads (fun sub => if resolves sub ref = true then
      some (.webhookInsert ref eventId eventType) else none) s next t
  | .webhookInsert ref _ _ => next = none ∧ Inserts ref s.data t.data

def Task.Sound (calls : List Call) : Task → Prop
  | .replacementInvoices ref _ _ _ entity =>
    .subscription (.fetchSubscription ref) (.ok entity) ∈ calls ∧ entity.get "id" = .str ref.val
  | .replacementApply ref _ entity invoices =>
    (.subscription (.fetchSubscription ref) (.ok entity) ∈ calls ∧ entity.get "id" = .str ref.val) ∧
      Invoiced calls invoices
  | .mainInvoices ref _ _ _ entity =>
    .subscription (.fetchSubscription ref) (.ok entity) ∈ calls
  | .mainApply ref _ entity invoices =>
    .subscription (.fetchSubscription ref) (.ok entity) ∈ calls ∧ Invoiced calls invoices
  | .retiredClear ref => Gone calls ref
  | _ => True

theorem Task.Sound.mono {a b : Journal} {task : Task} (h : task.Sound a.calls) (hab : a ≤ b) :
    task.Sound b.calls := by
  cases task with
  | replacementInvoices ref st start started entity => exact ⟨Journal.mem_of_le hab h.1, h.2⟩
  | replacementApply ref started entity invoices =>
    exact ⟨⟨Journal.mem_of_le hab h.1.1, h.1.2⟩, h.2.mono hab⟩
  | mainInvoices ref st start started entity => exact Journal.mem_of_le hab h
  | mainApply ref started entity invoices => exact ⟨Journal.mem_of_le hab h.1, h.2.mono hab⟩
  | retiredClear ref => exact Gone.mono h hab
  | _ => trivial

/-- What a step of a task did: at most one move, none of which needs the row to itself,
and then only marks and new events. -/
def Tended (calls : List Call) (db db' : Database) : Prop :=
  ∃ mid, (mid = db ∨ Entitling calls db mid ∨ Tending calls db mid) ∧ Inbox mid db'

theorem Tended.of_eq {calls : List Call} {db db' : Database} (h : db' = db) : Tended calls db db' :=
  ⟨db, Or.inl rfl, h ▸ .refl db⟩

theorem Tended.of_untouched {calls : List Call} {db db' : Database} (h : Untouched db db') :
    Tended calls db db' :=
  ⟨db, Or.inl rfl, h.sub, h.usage⟩

theorem Tended.entitling {calls : List Call} {db db' : Database} (h : Entitling calls db db') :
    Tended calls db db' :=
  ⟨db', Or.inr (Or.inl h), .refl db'⟩

theorem Tended.tending {calls : List Call} {db db' : Database} (h : Tending calls db db') :
    Tended calls db db' :=
  ⟨db', Or.inr (Or.inr h), .refl db'⟩

theorem Tended.inbox {calls : List Call} {a b c : Database} (h : Tended calls a b)
    (h' : Inbox b c) : Tended calls a c := by
  obtain ⟨mid, hm, hi⟩ := h
  exact ⟨mid, hm, h'.sub.trans hi.sub, h'.usage.trans hi.usage⟩

/-- What a step of the system did: a course, and then only marks and new events. -/
def Stepped (calls : List Call) (db db' : Database) : Prop :=
  ∃ mid, Course calls db mid ∧ Inbox mid db'

theorem Stepped.of_course {calls : List Call} {db db' : Database} (h : Course calls db db') :
    Stepped calls db db' :=
  ⟨db', h, .refl db'⟩

theorem Stepped.of_eq {calls : List Call} {db db' : Database} (h : db' = db) :
    Stepped calls db db' :=
  .of_course (h ▸ .refl calls db)

theorem Tended.stepped {calls : List Call} {db db' : Database} (h : Tended calls db db') :
    Stepped calls db db' := by
  obtain ⟨mid, hm, hi⟩ := h
  refine ⟨mid, ⟨mid, ?_, Or.inl (Or.inl (.refl calls mid))⟩, hi⟩
  exact hm.imp_right fun h => h.imp_right .tending

end ReviewFlow.Billing
