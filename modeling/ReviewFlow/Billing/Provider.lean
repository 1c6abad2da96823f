import ReviewFlow.Savepoint
import ReviewFlow.Billing.Models

/-!
# The provider, the settings and the programs over the billing tables

Razorpay answers each call arbitrarily: an answer depends on the number of calls
the operation has made and on the request. `Journal` keeps the calls of one
operation with their answers, and how often it read the clock; no savepoint
takes either back. `fetch_invoices` is a call like the others here, and
`notImplemented` is the answer the repository's own one gives.
-/

namespace ReviewFlow.Billing

open Savepoint

inductive ProviderFailure where
  | unavailable
  | rejected (providerCode : Option String) (status : Option ℤ) (reason : Option String)
  | notConfigured
  | notImplemented
  deriving DecidableEq

inductive Error where
  | provider (failure : ProviderFailure)
  | planNotAvailable
  | planUnchanged
  | planChangeUnsupported
  | subscriptionPastDue
  | subscriptionCancelling
  | subscriptionActivating
  | subscriptionNotCancellable
  | subscriptionPlanUnsupported
  | providerStateUnsupported
  | replacementInProgress
  | replacementActivating
  | replacementCommitted
  | noCreditAcknowledgementRequired
  | actorNotMember
  | integrityError
  | dataError
  | doesNotExist
  | valueError
  | typeError
  deriving DecidableEq

/-- The errors with an `http_status`, which `core.api` turns into a response. -/
def Error.isDomain : Error → Bool
  | .provider .unavailable | .provider .notConfigured => true
  | .provider _ => false
  | .integrityError | .dataError | .doesNotExist | .valueError | .typeError => false
  | _ => true

/-- `except (BillingProviderUnavailable, BillingProviderRejected, BillingNotConfigured)`. -/
def Error.isCaught : Error → Bool
  | .provider .notImplemented => false
  | .provider _ => true
  | _ => false

inductive Request where
  | fetchSubscription (ref : Ref)
  | createSubscription (plan : Option String) (startAt expireBy : Option ℤ)
  | updateSubscription (ref : Ref) (plan : Option String) (scheduleChangeAt : String)
  | cancelSubscription (ref : Ref) (atCycleEnd : Bool)
  deriving DecidableEq

inductive Call where
  | subscription (request : Request) (answer : Except ProviderFailure Dict)
  | invoices (ref : Ref) (answer : Except ProviderFailure (List Json))

/-- What an operation reads from outside its tables. `accepted n user` is whether
`user` is an accepted member when the audit table holds `n` rows. -/
structure Oracle where
  subscription : ℕ → Request → Except ProviderFailure Dict
  invoices : ℕ → Ref → Except ProviderFailure (List Json)
  clock : ℕ → Time
  accepted : ℕ → ℕ → Bool

structure Settings where
  plans : List Plan
  razorpayKeyId : String
  razorpayKeySecret : String
  replacementUpgradeEnabled : Json
  replacementDowngradeEnabled : Json
  replacementUpgradeAuthWindow : Json
  replacementDowngradeExpireMargin : Json
  updateUnsupportedRefusals : List (ℤ × String × String)
  downgradeStartField : Option String
  downgradeExpiryField : Option String

/-- The values other merchants hold in the unique indexes the tables share. -/
structure Others where
  paymentRefs : List Ref
  replacementRefs : List Ref
  retiredRefs : List Ref
  paymentIds : List String
  eventIds : List String

structure Env where
  settings : Settings
  others : Others
  oracle : Oracle

structure Journal where
  calls : List Call
  ticks : ℕ

def Journal.empty : Journal := ⟨[], 0⟩

/-- A journal before another: the later one has the same calls, and perhaps more. -/
instance : Preorder Journal where
  le a b := a.calls <+: b.calls
  le_refl a := List.prefix_refl a.calls
  le_trans _ _ _ h h' := h.trans h'

theorem Journal.mem_of_le {a b : Journal} (h : a ≤ b) {call : Call} (hc : call ∈ a.calls) :
    call ∈ b.calls :=
  List.IsPrefix.subset h hc

abbrev State := Store Database Journal

abbrev Prog (α : Type) := Program Env Error Database Journal α

/-- A unique index of `Subscription` already holds a reference this save would set. -/
def Others.clash (others : Others) (stored : Option Subscription) (sub : Subscription) : Prop :=
  (∃ ref ∈ sub.paymentProviderRef, ref ∈ others.paymentRefs ∧
    stored.bind (·.paymentProviderRef) ≠ some ref) ∨
  (∃ ref ∈ sub.replacementProviderRef, ref ∈ others.replacementRefs ∧
    stored.bind (·.replacementProviderRef) ≠ some ref) ∨
  (∃ ref ∈ sub.retiredProviderRef, ref ∈ others.retiredRefs ∧
    stored.bind (·.retiredProviderRef) ≠ some ref)

instance (others : Others) (stored : Option Subscription) (sub : Subscription) :
    Decidable (others.clash stored sub) :=
  inferInstanceAs (Decidable (_ ∨ _ ∨ _))

def timezoneNow : Prog Time where
  run env s := (.ok (env.oracle.clock s.journal.ticks),
    ⟨s.data, { s.journal with ticks := s.journal.ticks + 1 }⟩)
  grows _ s := List.prefix_refl s.journal.calls

theorem Journal.le_called (j : Journal) (call : Call) :
    j ≤ { j with calls := j.calls ++ [call] } :=
  List.prefix_append j.calls [call]

def State.called (s : State) (call : Call) : State :=
  ⟨s.data, { s.journal with calls := s.journal.calls ++ [call] }⟩

/-- A call of `billing.razorpay` that answers with a subscription entity. -/
def razorpay (request : Request) : Prog Dict where
  run env s :=
    match env.oracle.subscription s.journal.calls.length request with
    | .ok entity => (.ok entity, State.called s (.subscription request (.ok entity)))
    | .error failure =>
      (.error (.provider failure), State.called s (.subscription request (.error failure)))
  grows env s := by split <;> exact Journal.le_called _ _

def razorpayInvoices (ref : Ref) : Prog (List Json) where
  run env s :=
    match env.oracle.invoices s.journal.calls.length ref with
    | .ok invoices => (.ok invoices, State.called s (.invoices ref (.ok invoices)))
    | .error failure =>
      (.error (.provider failure), State.called s (.invoices ref (.error failure)))
  grows env s := by split <;> exact Journal.le_called _ _

/-- A provider failure that the caller only logs is `none`. -/
def orNone {α : Type} (m : Prog α) : Prog (Option α) :=
  Program.handle (do let a ← m; pure (some a))
    fun e => if e.isCaught = true then pure none else Program.raise e

/-- `except BillingProviderRejected: raise BillingProviderUnavailable() from None`. -/
def rejectedIsUnavailable {α : Type} (m : Prog α) : Prog α :=
  Program.handle m fun e => match e with
    | .provider (.rejected _ _ _) => Program.raise (.provider .unavailable)
    | e => Program.raise e

def firstSubscription : Prog (Option Subscription) := Program.query fun _ db => (.ok db.sub?, db)

/-- `_lock_subscription`: within the transaction the row read is the row stored. -/
def lockSubscription : Prog Subscription :=
  Program.query fun _ db => match db.sub? with
    | some sub => (.ok sub, db)
    | none => (.error .doesNotExist, db)

/-- `subscription.save(...)`. Every save of the services names in `update_fields` each
field it changed on a row read under the same lock, so it stores the whole record. -/
def saveSubscription (sub : Subscription) : Prog Unit :=
  Program.query fun env db =>
    if h : sub.Checks then
      if env.others.clash db.sub? sub then (.error .integrityError, db)
      else (.ok (), { db with subscription := some ⟨sub, h⟩ })
    else (.error .integrityError, db)

/-- `_audit`, through `auditlog.services.record`: a named actor must be a member. -/
def audit (action : AuditAction) (actor : Option ℕ) (metadata : Dict) : Prog Unit :=
  Program.query fun env db =>
    if ∀ user ∈ actor, env.oracle.accepted db.audits.length user = true then
      (.ok (), { db with audits := db.audits ++ [⟨action, actor, metadata⟩] })
    else (.error .actorNotMember, db)

/-- `_mark_events_processed`, for the events `filter` selects. -/
def markEvents (filter : BillingEvent → Bool) : Prog Unit := do
  let stamp ← timezoneNow
  Program.modify fun db => { db with
    events := db.events.map fun e =>
      if e.processedAt.isNone && filter e then { e with processedAt := some stamp } else e }

def markEventsProcessed (ref : Option Ref) : Prog Unit :=
  markEvents fun e => decide (ref = some e.providerRef)

/-- `Plan.objects.filter(provider_plan_id=plan_id).first()` for a fetched `plan_id`. -/
def Settings.planFor (settings : Settings) (planId : Json) : Option Plan :=
  match planId.str? with
  | none => none
  | some id => settings.plans.find? fun p => p.providerPlanId == some id

section Rules

variable {env : Env} {s : State} {α : Type} {E : Error → State → Prop}

def State.tick (s : State) : State := ⟨s.data, { s.journal with ticks := s.journal.ticks + 1 }⟩

@[simp] theorem State.tick_data (s : State) : s.tick.data = s.data := rfl
@[simp] theorem State.tick_calls (s : State) : s.tick.journal.calls = s.journal.calls := rfl
@[simp] theorem State.called_data (s : State) (c : Call) : (s.called c).data = s.data := rfl
@[simp] theorem State.called_calls (s : State) (c : Call) :
    (s.called c).journal.calls = s.journal.calls ++ [c] := rfl

@[simp] theorem wp_timezoneNow {Q : Time → State → Prop} :
    Program.wp env timezoneNow Q E s ↔ Q (env.oracle.clock s.journal.ticks) s.tick := Iff.rfl

theorem wp_razorpay {Q : Dict → State → Prop} {request : Request} :
    Program.wp env (razorpay request) Q E s ↔
      (∀ entity, env.oracle.subscription s.journal.calls.length request = .ok entity →
        Q entity (s.called (.subscription request (.ok entity)))) ∧
      (∀ failure, env.oracle.subscription s.journal.calls.length request = .error failure →
        E (.provider failure) (s.called (.subscription request (.error failure)))) := by
  unfold Program.wp razorpay
  rcases h : env.oracle.subscription s.journal.calls.length request with _ | _ <;> simp [h]

theorem wp_razorpayInvoices {Q : List Json → State → Prop} {ref : Ref} :
    Program.wp env (razorpayInvoices ref) Q E s ↔
      (∀ invoices, env.oracle.invoices s.journal.calls.length ref = .ok invoices →
        Q invoices (s.called (.invoices ref (.ok invoices)))) ∧
      (∀ failure, env.oracle.invoices s.journal.calls.length ref = .error failure →
        E (.provider failure) (s.called (.invoices ref (.error failure)))) := by
  unfold Program.wp razorpayInvoices
  rcases h : env.oracle.invoices s.journal.calls.length ref with _ | _ <;> simp [h]

theorem wp_orNone {m : Prog α} {Q : Option α → State → Prop} :
    Program.wp env (orNone m) Q E s ↔ Program.wp env m (fun a t => Q (some a) t)
      (fun e t => (e.isCaught = true → Q none t) ∧ (e.isCaught = false → E e t)) s := by
  unfold orNone
  rw [Program.wp_handle, Program.wp_bind]
  simp only [Program.wp_pure, Program.wp_ite, Program.wp_raise, Bool.not_eq_true]

@[simp] theorem wp_firstSubscription {Q : Option Subscription → State → Prop} :
    Program.wp env firstSubscription Q E s ↔ Q s.data.sub? s := Iff.rfl

theorem wp_lockSubscription {Q : Subscription → State → Prop} :
    Program.wp env lockSubscription Q E s ↔
      (∀ sub, s.data.sub? = some sub → Q sub s) ∧
      (s.data.sub? = none → E .doesNotExist s) := by
  unfold lockSubscription
  rw [Program.wp_query]
  rcases s.data.sub? with _ | _ <;> simp

theorem wp_saveSubscription {Q : Unit → State → Prop} {sub : Subscription} :
    Program.wp env (saveSubscription sub) Q E s ↔
      (∀ h : sub.Checks, ¬ env.others.clash s.data.sub? sub →
        Q () ⟨{ s.data with subscription := some ⟨sub, h⟩ }, s.journal⟩) ∧
      (¬ (sub.Checks ∧ ¬ env.others.clash s.data.sub? sub) → E .integrityError s) := by
  unfold saveSubscription
  rw [Program.wp_query]
  by_cases h : sub.Checks <;> by_cases hc : env.others.clash s.data.sub? sub <;>
    simp [h, hc, Unique.forall_iff]

def State.audited (s : State) (row : AuditRow) : State :=
  ⟨{ s.data with audits := s.data.audits ++ [row] }, s.journal⟩

theorem wp_audit {Q : Unit → State → Prop} {action : AuditAction} {actor : Option ℕ}
    {metadata : Dict} : Program.wp env (audit action actor metadata) Q E s ↔
      ((∀ user ∈ actor, env.oracle.accepted s.data.audits.length user = true) →
        Q () (s.audited ⟨action, actor, metadata⟩)) ∧
      (¬ (∀ user ∈ actor, env.oracle.accepted s.data.audits.length user = true) →
        E .actorNotMember s) := by
  unfold audit
  rw [Program.wp_query]
  by_cases h : ∀ user ∈ actor, env.oracle.accepted s.data.audits.length user = true
  · simp only [if_pos h, State.audited]
    exact ⟨fun hq => ⟨fun _ => hq.1 () trivial, fun hn => absurd h hn⟩,
      fun hq => ⟨fun _ _ => hq.1 h, by simp⟩⟩
  · simp only [if_neg h, State.audited]
    exact ⟨fun he => ⟨fun hp => absurd hp h, fun _ => he.2 _ rfl⟩,
      fun he => ⟨by simp, by rintro _ ⟨⟩; exact he.2 h⟩⟩

end Rules

end ReviewFlow.Billing
