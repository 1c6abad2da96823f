import ReviewFlow.WhatsApp.Webhooks
import ReviewFlow.Table
import ReviewFlow.Values
import ReviewFlow.WhatsApp.FanOut

/-!
# Opt-outs

From a delivery of Meta over the fan-outs to the customers, beside the opt-outs of the dashboard, a
manual re-drive of `process_inbound_opt_out` and the sales that create customers. The tables that a
lookup reads are given with it, as they are at that time.
-/

namespace ReviewFlow.WhatsApp.OptOuts

open Python Tables
open Integrations.Inbound (Interpreter parseInboundOptOuts)

abbrev Uuid := Tenancy.Uuid

structure Customer where
  id : Uuid
  merchantId : Uuid
  phone : Str
  optedOut : Bool
  optedOutAt : Option Time
  deriving DecidableEq

/-- The primary key and `uniq_customer_merchant_phone`. -/
def Customer.Clash (a b : Customer) : Prop :=
  a.id = b.id ∨ a.merchantId = b.merchantId ∧ a.phone = b.phone

instance : DecidableRel Customer.Clash := fun _ _ => inferInstanceAs (Decidable (_ ∨ _))

abbrev Customers := Table Customer Customer.Clash

/-- The conditional UPDATE of `opt_out_customer`. -/
def Customer.optOut (c : Customer) (now : Time) : Customer :=
  if c.optedOut then c else { c with optedOut := true, optedOutAt := some now }

theorem optOut_key (c : Customer) (now : Time) :
    (c.optOut now).id = c.id ∧ (c.optOut now).merchantId = c.merchantId ∧
      (c.optOut now).phone = c.phone := by
  unfold Customer.optOut
  split <;> exact ⟨rfl, rfl, rfl⟩

def Customers.optOut (customers : Customers) (selected : Customer → Bool) (now : Time) :
    Customers :=
  customers.update (fun c => if selected c then c.optOut now else c) fun a b h => by
    obtain ⟨ha, ham, hap⟩ := optOut_key a now
    obtain ⟨hb, hbm, hbp⟩ := optOut_key b now
    simp only [Customer.Clash] at h ⊢
    split at h <;> split at h <;> simp_all

/-- The arguments of `fan_out_inbound_opt_out`, with its retries. -/
structure Task where
  phoneNumberId : Str
  phone : Str
  message : Message
  deriving DecidableEq

structure Run where
  task : Task
  shared : Bool
  todo : List Uuid
  failed : List Uuid

structure Store where
  customers : Customers
  tasks : List Task
  runs : List Run
  /-- What has raised for good. -/
  exhausted : List Task

def Store.empty : Store := ⟨.empty, [], [], []⟩

variable (py : Interpreter)

/-- `receive_webhook`, where the first tasks reach the broker and the next one does not. -/
def Store.deliver (s : Store) (signed : Bool) (loaded : Option Integrations.Json) (sent : ℕ) :
    Store :=
  match parseInboundOptOuts py signed loaded with
  | .error _ => s
  | .ok pairs =>
    { s with tasks := s.tasks ++ (pairs.take sent).map fun p => ⟨p.1, p.2, ⟨none, 0⟩⟩ }

def string (s : Str) : String := String.ofList (s.map Char.ofNat)

def Store.retry (s : Store) (task : Task) (failedIds : Option (List Uuid)) : Store :=
  match retryOptOutFanOut task.message failedIds with
  | .returned => s
  | .retried ids =>
    { s with tasks := s.tasks ++ [{ task with message := ⟨ids, task.message.retries + 1⟩ }] }
  | .raised _ => { s with exhausted := s.exhausted ++ [task] }

def Store.start (s : Store) (n : ℕ) (w : World) : Store :=
  match s.tasks[n]? with
  | none => s
  | some task =>
    { s with
      tasks := s.tasks.eraseIdx n
      runs := s.runs ++ [{
        task
        shared := (resolveInboundOptOutTargets w (string task.phoneNumberId)).1
        todo := merchantsToDo (string task.phoneNumberId) ⟨w, false, fun _ => false, none⟩
          task.message
        failed := [] }] }

def Store.lookupFails (s : Store) (n : ℕ) : Store :=
  match s.tasks[n]? with
  | none => s
  | some task => { s with tasks := s.tasks.eraseIdx n }.retry task none

def Customer.has (merchantId : Uuid) (phone : Str) (c : Customer) : Bool :=
  c.merchantId == merchantId && c.phone == phone

/-- `shared_opt_out_applies`: whether a location of the merchant is mapped to the shared account is
given. -/
def Store.sharedOptOutApplies (s : Store) (merchantId : Uuid) (phone : Str) (mapped : Bool) :
    Bool :=
  s.customers.rows.any (Customer.has merchantId phone) && mapped

/-- `opt_out_inbound_for_merchant` for the next merchant of a run. -/
def Store.optOut (s : Store) (r : ℕ) (mapped : Bool) (now : Time) : Store :=
  match s.runs[r]? with
  | none => s
  | some run => match run.todo with
    | [] => s
    | merchantId :: todo =>
      let s := { s with runs := s.runs.set r { run with todo := todo } }
      if run.shared && !s.sharedOptOutApplies merchantId run.task.phone mapped then s
      else { s with
        customers := s.customers.optOut (Customer.has merchantId run.task.phone) now }

def Store.optOutFails (s : Store) (r : ℕ) : Store :=
  match s.runs[r]? with
  | none => s
  | some run => match run.todo with
    | [] => s
    | merchantId :: todo =>
      { s with
        runs := s.runs.set r { run with todo := todo, failed := run.failed ++ [merchantId] } }

def Store.finish (s : Store) (r : ℕ) : Store :=
  match s.runs[r]? with
  | none => s
  | some run => match run.todo with
    | _ :: _ => s
    | [] =>
      let s := { s with runs := s.runs.eraseIdx r }
      if run.failed = [] then s else s.retry run.task (some run.failed)

def Store.lost (s : Store) (r : ℕ) : Store :=
  match s.runs[r]? with
  | none => s
  | some run => { s with tasks := s.tasks ++ [run.task], runs := s.runs.eraseIdx r }

def Store.redeliver (s : Store) (n : ℕ) : Store :=
  match s.tasks[n]? with
  | none => s
  | some task => { s with tasks := s.tasks ++ [task] }

/-- The customer of a sale, `get_or_create_customer`. -/
def Store.sale (s : Store) (merchantId : Uuid) (phone : Str) (customerId : Uuid) : Store :=
  match s.customers.insert? ⟨customerId, merchantId, phone, false, none⟩ with
  | some customers => { s with customers := customers }
  | none => s

inductive Label where
  | deliver (signed : Bool) (loaded : Option Integrations.Json) (sent : ℕ)
  | redeliver (n : ℕ)
  | start (n : ℕ) (w : World)
  | lookupFails (n : ℕ)
  | optOut (r : ℕ) (mapped : Bool) (now : Time)
  | optOutFails (r : ℕ)
  | finish (r : ℕ)
  | lost (r : ℕ)
  | sale (merchantId : Uuid) (phone : Str) (customerId : Uuid)
  /-- `process_inbound_opt_out`. -/
  | redrive (merchantId : Uuid) (phone : Str) (now : Time)
  /-- `CustomerOptOutView.post` in the tenant of the session. -/
  | manual (merchantId customerId : Uuid) (now : Time)

def Store.step (s : Store) : Label → Store
  | .deliver signed loaded sent => s.deliver py signed loaded sent
  | .redeliver n => s.redeliver n
  | .start n w => s.start n w
  | .lookupFails n => s.lookupFails n
  | .optOut r mapped now => s.optOut r mapped now
  | .optOutFails r => s.optOutFails r
  | .finish r => s.finish r
  | .lost r => s.lost r
  | .sale merchantId phone customerId => s.sale merchantId phone customerId
  | .redrive merchantId phone now =>
    { s with customers := s.customers.optOut (Customer.has merchantId phone) now }
  | .manual merchantId customerId now =>
    { s with
      customers := s.customers.optOut
        (fun c => c.merchantId == merchantId && c.id == customerId) now }

end ReviewFlow.WhatsApp.OptOuts
