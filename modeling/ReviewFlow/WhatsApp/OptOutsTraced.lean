import ReviewFlow.Interleaving
import ReviewFlow.WhatsApp.OptOuts

/-!
# Who is opted out

Nobody is opted out but by their own message or by their merchant, and nobody is opted in again.
-/

namespace ReviewFlow.WhatsApp.OptOuts

open Python Tables Interleaving
open Integrations (Dict)
open Integrations.Inbound

variable {py : Interpreter} {s : Store} {ls : List Label} {l : Label}

section Evidence

variable (py : Interpreter)

/-- A signed delivery has a message by which the phone opts out, to the number. -/
def Delivers (phoneNumberId phone : Str) (_ : Store) (l : Label) : Prop :=
  ∃ payload sent inbound message, l = .deliver true (some (.dict payload)) sent ∧
    parseInboundWebhook payload = .ok inbound ∧ message ∈ inbound ∧
    OptsOut py message (phoneNumberId, phone)

def Requested (phoneNumberId phone : Str) (ls : List Label) : Prop :=
  Earlier (Store.step py) .empty ls (Delivers py phoneNumberId phone)

/-- The lookup of the task, which is for such a message, has found that its number is for the
merchant. -/
def Targeted (task : Task) (shared : Bool) (merchantId : Uuid) (ls : List Label) : Prop :=
  ∃ ls₁ n w ls₂, ls = ls₁ ++ .start n w :: ls₂ ∧
    (run (Store.step py) .empty ls₁).tasks[n]? = some task ∧
    Requested py task.phoneNumberId task.phone ls₁ ∧
    (resolveInboundOptOutTargets w (string task.phoneNumberId)).1 = shared ∧
    merchantId ∈ (resolveInboundOptOutTargets w (string task.phoneNumberId)).2

/-- A run after such a lookup has come to the merchant of a customer with its phone, which uses the
shared number if the message was to that. -/
def Stopped (c : Customer) (now : Time) (ls : List Label) : Prop :=
  ∃ ls₁ r mapped ls₂ attempt todo, ls = ls₁ ++ .optOut r mapped now :: ls₂ ∧
    (run (Store.step py) .empty ls₁).runs[r]? = some attempt ∧
    attempt.task.phone = c.phone ∧ attempt.todo = c.merchantId :: todo ∧
    Targeted py attempt.task attempt.shared c.merchantId ls₁ ∧
    (attempt.shared = true → mapped = true)

/-- The merchant has opted the customer out, or an operator has driven a STOP again. -/
def Asked (c : Customer) (now : Time) (_ : Store) (l : Label) : Prop :=
  l = .manual c.merchantId c.id now ∨ l = .redrive c.merchantId c.phone now

variable {py}

theorem Requested.append {phoneNumberId phone : Str} (h : Requested py phoneNumberId phone ls)
    (ls' : List Label) : Requested py phoneNumberId phone (ls ++ ls') := Earlier.append h ls'

theorem Targeted.append {task : Task} {shared : Bool} {merchantId : Uuid}
    (h : Targeted py task shared merchantId ls) (ls' : List Label) :
    Targeted py task shared merchantId (ls ++ ls') := by
  obtain ⟨ls₁, n, w, ls₂, rfl, hrest⟩ := h
  exact ⟨ls₁, n, w, ls₂ ++ ls', by simp, hrest⟩

theorem Stopped.append {c : Customer} {now : Time} (h : Stopped py c now ls) (ls' : List Label) :
    Stopped py c now (ls ++ ls') := by
  obtain ⟨ls₁, r, mapped, ls₂, attempt, todo, rfl, hrest⟩ := h
  exact ⟨ls₁, r, mapped, ls₂ ++ ls', attempt, todo, by simp, hrest⟩

theorem delivers_of_mem {signed : Bool} {loaded : Option Integrations.Json} {sent : ℕ}
    {pairs : List (Str × Str)} {pair : Str × Str}
    (h : parseInboundOptOuts py signed loaded = .ok pairs) (hpair : pair ∈ pairs) :
    Delivers py pair.1 pair.2 s (.deliver signed loaded sent) := by
  unfold parseInboundOptOuts at h
  split at h
  · cases h
  case isFalse hsigned =>
    split at h
    case h_1 payload =>
      obtain ⟨inbound, hinbound, hpairs⟩ := Exceptions.bind_eq_ok.mp h
      cases hpairs
      rcases (mem_addOptOuts py inbound).mp hpair with hpair | ⟨message, hmessage, hopts⟩
      · cases hpair
      · have hsigned : signed = true := by simpa using hsigned
        exact ⟨payload, sent, inbound, message, by rw [hsigned], hinbound, hmessage, hopts⟩
    case h_2 =>
      cases h
      cases hpair

end Evidence

section Steps

/-- What a step does to the customers: nothing, an opt-out of those selected, or a new one. -/
inductive Changed (s : Store) (l : Label) : Customers → Prop where
  | same : Changed s l s.customers
  | created (merchantId : Uuid) (phone : Str) (customerId : Uuid) (customers : Customers)
      (h : s.customers.insert? ⟨customerId, merchantId, phone, false, none⟩ = some customers) :
      Changed s l customers
  | stopped (r : ℕ) (mapped : Bool) (now : Time) (run : Run) (merchantId : Uuid) (todo : List Uuid)
      (hl : l = .optOut r mapped now) (hr : s.runs[r]? = some run)
      (htodo : run.todo = merchantId :: todo) (hmapped : run.shared = true → mapped = true) :
      Changed s l (s.customers.optOut (Customer.has merchantId run.task.phone) now)
  | redriven (merchantId : Uuid) (phone : Str) (now : Time)
      (hl : l = .redrive merchantId phone now) :
      Changed s l (s.customers.optOut (Customer.has merchantId phone) now)
  | manual (merchantId customerId : Uuid) (now : Time)
      (hl : l = .manual merchantId customerId now) :
      Changed s l (s.customers.optOut
        (fun c => c.merchantId == merchantId && c.id == customerId) now)

theorem retry_customers (task : Task) (failedIds : Option (List Uuid)) :
    (s.retry task failedIds).customers = s.customers := by
  unfold Store.retry
  split <;> rfl

theorem step_changed (s : Store) (l : Label) : Changed s l (s.step py l).customers := by
  cases l with
  | deliver signed loaded sent =>
    simp only [Store.step, Store.deliver]
    split <;> exact .same
  | redeliver n =>
    simp only [Store.step, Store.redeliver]
    split <;> exact .same
  | start n w =>
    simp only [Store.step, Store.start]
    split <;> exact .same
  | lookupFails n =>
    simp only [Store.step, Store.lookupFails]
    split
    · exact .same
    · rw [retry_customers]
      exact .same
  | optOut r mapped now =>
    simp only [Store.step, Store.optOut]
    split
    · exact .same
    case h_2 run hr =>
      split
      · exact .same
      case h_2 merchantId todo htodo =>
        split
        · exact .same
        case isFalse happlies =>
          apply Changed.stopped r mapped now run merchantId todo rfl hr htodo
          intro hshared
          simp only [hshared, Bool.true_and, Bool.not_eq_true', Bool.not_eq_false] at happlies
          exact (Bool.and_eq_true_iff.mp happlies).2
  | optOutFails r =>
    simp only [Store.step, Store.optOutFails]
    split
    · exact .same
    · split <;> exact .same
  | finish r =>
    simp only [Store.step, Store.finish]
    split
    · exact .same
    · split
      · exact .same
      · split
        · exact .same
        · rw [retry_customers]
          exact .same
  | lost r =>
    simp only [Store.step, Store.lost]
    split <;> exact .same
  | sale merchantId phone customerId =>
    simp only [Store.step, Store.sale]
    split
    case h_1 customers h => exact .created merchantId phone customerId customers h
    case h_2 => exact .same
  | redrive merchantId phone now => exact .redriven merchantId phone now rfl
  | manual merchantId customerId now => exact .manual merchantId customerId now rfl

end Steps

section Kept

variable {c : Customer} {customers : Customers} {selected : Customer → Bool} {now : Time}

theorem mem_optOut {c' : Customer} : c' ∈ customers.optOut selected now ↔
    ∃ c ∈ customers, (if selected c then c.optOut now else c) = c' := List.mem_map

theorem optOut_of_optedOut (h : c.optedOut = true) (now : Time) : c.optOut now = c := by
  rw [Customer.optOut, if_pos h]

theorem optedOut_optOut (c : Customer) (now : Time) : (c.optOut now).optedOut = true := by
  unfold Customer.optOut
  split
  case isTrue h => exact h
  case isFalse => rfl

theorem optOut_kept (hc : c ∈ customers) (h : c.optedOut = true) :
    c ∈ customers.optOut selected now := by
  refine mem_optOut.mpr ⟨c, hc, ?_⟩
  rw [optOut_of_optedOut h, ite_self]

theorem optOut_selected (hc : c ∈ customers) (h : selected c = true) :
    c.optOut now ∈ customers.optOut selected now :=
  mem_optOut.mpr ⟨c, hc, if_pos h⟩

theorem Changed.kept (h : Changed s l customers) (hc : c ∈ s.customers) (hout : c.optedOut = true) :
    c ∈ customers := by
  cases h with
  | same => exact hc
  | created merchantId phone customerId customers hinsert =>
    exact (Table.mem_insert? hinsert).mpr (.inl hc)
  | stopped r mapped now run merchantId todo hl hr htodo hmapped => exact optOut_kept hc hout
  | redriven merchantId phone now hl => exact optOut_kept hc hout
  | manual merchantId customerId now hl => exact optOut_kept hc hout

theorem run_kept (hc : c ∈ s.customers) (hout : c.optedOut = true) (ls : List Label) :
    c ∈ (run (Store.step py) s ls).customers := by
  induction ls generalizing s with
  | nil => exact hc
  | cons l ls ih => exact ih ((step_changed s l).kept hc hout)

/-- The step opts the customer out: for the STOP of a shared number a location must be mapped. -/
def OptsOutBy (c : Customer) (now : Time) (s : Store) (l : Label) : Prop :=
  l = .redrive c.merchantId c.phone now ∨ l = .manual c.merchantId c.id now ∨
    ∃ r mapped run todo, l = .optOut r mapped now ∧ s.runs[r]? = some run ∧
      run.todo = c.merchantId :: todo ∧ run.task.phone = c.phone ∧
      (run.shared = true → mapped = true)

theorem step_optsOut (hc : c ∈ s.customers) (h : OptsOutBy c now s l) :
    c.optOut now ∈ (s.step py l).customers := by
  have hhas : Customer.has c.merchantId c.phone c = true := by simp [Customer.has]
  rcases h with rfl | rfl | ⟨r, mapped, run, todo, rfl, hr, htodo, hphone, hmapped⟩
  · exact optOut_selected hc hhas
  · exact optOut_selected hc (by simp)
  · simp only [Store.step, Store.optOut, hr, htodo, hphone]
    have happlies : (run.shared && !Store.sharedOptOutApplies
        { s with runs := s.runs.set r { run with todo := todo } } c.merchantId c.phone mapped) =
        false := by
      cases hshared : run.shared with
      | false => rfl
      | true =>
        have hany : s.customers.rows.any (Customer.has c.merchantId c.phone) = true :=
          List.any_eq_true.mpr ⟨c, hc, hhas⟩
        simp [Store.sharedOptOutApplies, hany, hmapped hshared]
    rw [happlies]
    exact optOut_selected hc hhas

/-- Whoever is opted out stays so, with the time of the first opt-out. -/
theorem opted_out_for_good (py : Interpreter) (ls₁ ls₂ : List Label) (l : Label) (c : Customer)
    (now : Time) (hc : c ∈ (run (Store.step py) .empty ls₁).customers)
    (h : OptsOutBy c now (run (Store.step py) .empty ls₁) l) :
    c.optOut now ∈ (run (Store.step py) .empty (ls₁ ++ l :: ls₂)).customers := by
  rw [run_append]
  exact run_kept (step_optsOut hc h) (optedOut_optOut c now) ls₂

/-- A customer, and a run for a STOP of theirs that has come to their merchant. -/
def stopToDo : List Label :=
  [.sale 1 (text "+919876543210") 4, .deliver true (some (.dict (delivery stopValue))) 1,
    .start 0 (sharedWorld "7")]

theorem opted_out_for_good_stop :
    (⟨4, 1, text "+919876543210", true, some 100⟩ : Customer) ∈
      (run (Store.step plainInterpreter) .empty
        (stopToDo ++ .optOut 0 true 100 :: [.manual 1 4 200])).customers :=
  opted_out_for_good plainInterpreter stopToDo [.manual 1 4 200] (.optOut 0 true 100)
    ⟨4, 1, text "+919876543210", false, none⟩ 100 (List.mem_singleton_self _)
    (.inr (.inr ⟨0, true, ⟨⟨text "7", text "+919876543210", ⟨none, 0⟩⟩, true, [1, 2], []⟩, [2],
      rfl, rfl, rfl, rfl, fun _ => rfl⟩))

end Kept

section Sound

/-- The tasks and the runs are for requests, and a run does merchants that its lookup found. -/
structure Queued (py : Interpreter) (ls : List Label) (s : Store) : Prop where
  tasks : ∀ t ∈ s.tasks, Requested py t.phoneNumberId t.phone ls
  runs : ∀ r ∈ s.runs, Requested py r.task.phoneNumberId r.task.phone ls ∧
    ∀ m ∈ r.todo, Targeted py r.task r.shared m ls

def Evidenced (py : Interpreter) (ls : List Label) (c : Customer) : Prop :=
  ∃ now, c.optedOutAt = some now ∧
    (Stopped py c now ls ∨ Earlier (Store.step py) .empty ls (Asked c now))

structure Sound (py : Interpreter) (ls : List Label) (s : Store) : Prop where
  queued : Queued py ls s
  customers : ∀ c ∈ s.customers, c.optedOut = true → Evidenced py ls c

theorem Queued.append (h : Queued py ls s) (ls' : List Label) : Queued py (ls ++ ls') s where
  tasks t ht := (h.tasks t ht).append ls'
  runs r hr := ⟨(h.runs r hr).1.append ls', fun m hm => ((h.runs r hr).2 m hm).append ls'⟩

theorem Evidenced.append {c : Customer} (h : Evidenced py ls c) (ls' : List Label) :
    Evidenced py (ls ++ ls') c := by
  obtain ⟨now, hat, h⟩ := h
  exact ⟨now, hat, h.imp (fun h => h.append ls') fun h => h.append ls'⟩

theorem Queued.addTask (h : Queued py ls s) {task : Task}
    (htask : Requested py task.phoneNumberId task.phone ls) :
    Queued py ls { s with tasks := s.tasks ++ [task] } := by
  refine { h with tasks := fun t ht => ?_ }
  rcases List.mem_append.mp ht with ht | ht
  · exact h.tasks t ht
  · rw [List.mem_singleton.mp ht]
    exact htask

theorem Queued.retry (h : Queued py ls s) {task : Task}
    (htask : Requested py task.phoneNumberId task.phone ls) (failedIds : Option (List Uuid)) :
    Queued py ls (s.retry task failedIds) := by
  unfold Store.retry
  split
  · exact h
  · exact h.addTask htask
  · exact ⟨h.tasks, h.runs⟩

theorem Queued.eraseTask (h : Queued py ls s) (n : ℕ) :
    Queued py ls { s with tasks := s.tasks.eraseIdx n } :=
  { h with tasks := fun t ht => h.tasks t (List.mem_of_mem_eraseIdx ht) }

theorem Queued.eraseRun (h : Queued py ls s) (r : ℕ) :
    Queued py ls { s with runs := s.runs.eraseIdx r } :=
  { h with runs := fun run hr => h.runs run (List.mem_of_mem_eraseIdx hr) }

theorem Queued.setRun (h : Queued py ls s) {r : ℕ} {run new : Run} (hr : s.runs[r]? = some run)
    (htask : new.task = run.task) (hshared : new.shared = run.shared)
    (htodo : ∀ m ∈ new.todo, m ∈ run.todo) :
    Queued py ls { s with runs := s.runs.set r new } := by
  refine { h with runs := fun run' hrun => ?_ }
  rcases List.mem_or_eq_of_mem_set hrun with hrun | rfl
  · exact h.runs run' hrun
  · obtain ⟨hrequested, htargeted⟩ := h.runs run (List.mem_of_getElem? hr)
    rw [htask, hshared]
    exact ⟨hrequested, fun m hm => htargeted m (htodo m hm)⟩

theorem Queued.setCustomers (h : Queued py ls s) (customers : Customers) :
    Queued py ls { s with customers := customers } := ⟨h.tasks, h.runs⟩

theorem mem_targets_of_merchantsToDo {phoneNumberId : String} {x : Execution} {message : Message}
    {m : Uuid} (h : m ∈ merchantsToDo phoneNumberId x message) :
    m ∈ (resolveInboundOptOutTargets x.world phoneNumberId).2 := by
  unfold merchantsToDo at h
  split at h
  · exact h
  · exact (List.mem_filter.mp h).1

theorem deliver_queued (h : Queued py ls s) (signed : Bool) (loaded : Option Integrations.Json)
    (sent : ℕ) :
    Queued py (ls ++ [.deliver signed loaded sent]) (s.deliver py signed loaded sent) := by
  have happ := h.append [.deliver signed loaded sent]
  unfold Store.deliver
  split
  · exact happ
  case h_2 pairs hpairs =>
    refine { happ with tasks := fun t ht => ?_ }
    rcases List.mem_append.mp ht with ht | ht
    · exact happ.tasks t ht
    · obtain ⟨pair, hpair, rfl⟩ := List.mem_map.mp ht
      exact Earlier.last (delivers_of_mem hpairs (List.mem_of_mem_take hpair))

theorem start_queued (h : Queued py ls (run (Store.step py) .empty ls)) (n : ℕ) (w : World) :
    Queued py (ls ++ [.start n w]) ((run (Store.step py) .empty ls).start n w) := by
  have happ := h.append [.start n w]
  unfold Store.start
  split
  · exact happ
  case h_2 task hn =>
    have htask := h.tasks task (List.mem_of_getElem? hn)
    refine { happ.eraseTask n with runs := fun run hr => ?_ }
    rcases List.mem_append.mp hr with hr | hr
    · exact happ.runs run hr
    · rw [List.mem_singleton.mp hr]
      exact ⟨htask.append _, fun m hm =>
        ⟨ls, n, w, [], rfl, hn, htask, rfl, mem_targets_of_merchantsToDo hm⟩⟩

theorem step_queued (h : Queued py ls (run (Store.step py) .empty ls)) (l : Label) :
    Queued py (ls ++ [l]) ((run (Store.step py) .empty ls).step py l) := by
  have happ := h.append [l]
  cases l with
  | deliver signed loaded sent => exact deliver_queued h signed loaded sent
  | start n w => exact start_queued h n w
  | redeliver n =>
    simp only [Store.step, Store.redeliver]
    split
    · exact happ
    case h_2 task hn => exact happ.addTask (happ.tasks task (List.mem_of_getElem? hn))
  | lookupFails n =>
    simp only [Store.step, Store.lookupFails]
    split
    · exact happ
    case h_2 task hn =>
      exact (happ.eraseTask n).retry (happ.tasks task (List.mem_of_getElem? hn)) none
  | optOut r mapped now =>
    simp only [Store.step, Store.optOut]
    split
    · exact happ
    case h_2 run hr =>
      split
      · exact happ
      case h_2 merchantId todo htodo =>
        have hset : Queued py (ls ++ [.optOut r mapped now])
            { Interleaving.run (Store.step py) .empty ls with
              runs := (Interleaving.run (Store.step py) .empty ls).runs.set r
                { run with todo := todo } } :=
          happ.setRun hr rfl rfl fun m hm => htodo ▸ List.mem_cons_of_mem merchantId hm
        split
        · exact hset
        · exact hset.setCustomers _
  | optOutFails r =>
    simp only [Store.step, Store.optOutFails]
    split
    · exact happ
    case h_2 run hr =>
      split
      · exact happ
      case h_2 merchantId todo htodo =>
        exact happ.setRun hr rfl rfl fun m hm => htodo ▸ List.mem_cons_of_mem merchantId hm
  | finish r =>
    simp only [Store.step, Store.finish]
    split
    · exact happ
    case h_2 run hr =>
      split
      · exact happ
      · split
        · exact happ.eraseRun r
        · exact (happ.eraseRun r).retry (happ.runs run (List.mem_of_getElem? hr)).1 _
  | lost r =>
    simp only [Store.step, Store.lost]
    split
    · exact happ
    case h_2 run hr =>
      exact (happ.addTask (happ.runs run (List.mem_of_getElem? hr)).1).eraseRun r
  | sale merchantId phone customerId =>
    simp only [Store.step, Store.sale]
    split
    · exact happ.setCustomers _
    · exact happ
  | redrive merchantId phone now => exact happ.setCustomers _
  | manual merchantId customerId now => exact happ.setCustomers _

/-- Whom an opt-out leaves opted out was so before, or is selected and now has its time. -/
theorem optedOut_cases {customers : Customers} {selected : Customer → Bool} {now : Time}
    {c' : Customer} (hc : c' ∈ customers.optOut selected now) (hout : c'.optedOut = true) :
    c' ∈ customers ∨ ∃ c ∈ customers, selected c = true ∧ c'.id = c.id ∧
      c'.merchantId = c.merchantId ∧ c'.phone = c.phone ∧ c'.optedOutAt = some now := by
  obtain ⟨c, hmem, rfl⟩ := mem_optOut.mp hc
  by_cases hselected : selected c = true
  · rw [if_pos hselected] at hout ⊢
    cases hold : c.optedOut with
    | true =>
      rw [optOut_of_optedOut hold]
      exact .inl hmem
    | false =>
      obtain ⟨hid, hmerchant, hphone⟩ := optOut_key c now
      refine .inr ⟨c, hmem, hselected, hid, hmerchant, hphone, ?_⟩
      simp [Customer.optOut, hold]
  · rw [if_neg hselected]
    exact .inl hmem

theorem has_iff {merchantId : Uuid} {phone : Str} {c : Customer} :
    Customer.has merchantId phone c = true ↔ c.merchantId = merchantId ∧ c.phone = phone := by
  simp [Customer.has]

theorem step_customers (h : Sound py ls (run (Store.step py) .empty ls)) (l : Label) (c : Customer)
    (hc : c ∈ ((run (Store.step py) .empty ls).step py l).customers) (hout : c.optedOut = true) :
    Evidenced py (ls ++ [l]) c := by
  have hold : c ∈ (run (Store.step py) .empty ls).customers → Evidenced py (ls ++ [l]) c :=
    fun hc => (h.customers c hc hout).append [l]
  have hchanged : Changed (run (Store.step py) .empty ls) l
      ((run (Store.step py) .empty ls).step py l).customers := step_changed _ l
  generalize ((run (Store.step py) .empty ls).step py l).customers = customers at hc hchanged
  cases hchanged with
  | same => exact hold hc
  | created merchantId phone customerId customers hinsert =>
    rcases (Table.mem_insert? hinsert).mp hc with hc | rfl
    · exact hold hc
    · cases hout
  | stopped r mapped now run merchantId todo hl hr htodo hmapped =>
    rcases optedOut_cases hc hout with hc | ⟨a, ha, hselected, hid, hmerchant, hphone, hat⟩
    · exact hold hc
    · obtain ⟨hm, hp⟩ := has_iff.mp hselected
      have htargeted := (h.queued.runs run (List.mem_of_getElem? hr)).2 merchantId
        (htodo ▸ List.mem_cons_self)
      rw [← hm, ← hmerchant] at htargeted
      rw [← hm, ← hmerchant] at htodo
      exact ⟨now, hat, .inl ⟨ls, r, mapped, [], run, todo, by rw [hl], hr, by rw [hphone, hp],
        htodo, htargeted, hmapped⟩⟩
  | redriven merchantId phone now hl =>
    rcases optedOut_cases hc hout with hc | ⟨a, ha, hselected, hid, hmerchant, hphone, hat⟩
    · exact hold hc
    · obtain ⟨hm, hp⟩ := has_iff.mp hselected
      refine ⟨now, hat, .inr (Earlier.last (.inr ?_))⟩
      rw [hl, hmerchant, hphone, hm, hp]
  | manual merchantId customerId now hl =>
    rcases optedOut_cases hc hout with hc | ⟨a, ha, hselected, hid, hmerchant, hphone, hat⟩
    · exact hold hc
    · obtain ⟨hm, hk⟩ := Bool.and_eq_true_iff.mp hselected
      refine ⟨now, hat, .inr (Earlier.last (.inl ?_))⟩
      rw [hl, hmerchant, hid, beq_iff_eq.mp hm, beq_iff_eq.mp hk]

theorem run_sound (py : Interpreter) (ls : List Label) :
    Sound py ls (run (Store.step py) .empty ls) := by
  have hrun : run (Store.step py) .empty ls = run (Store.step py) .empty ls ∧
      Sound py ls (run (Store.step py) .empty ls) := by
    apply run_history (P := fun h s => s = run (Store.step py) .empty h ∧ Sound py h s)
    · refine ⟨rfl, ⟨?_, ?_⟩, ?_⟩
      · intro t ht
        cases ht
      · intro r hr
        cases hr
      · intro c hc
        cases hc
    · rintro h s l ⟨rfl, hs⟩
      exact ⟨(run_snoc _ _ _ _).symm, step_queued hs.queued l,
        fun c hc hout => step_customers hs l c hc hout⟩
  exact hrun.2

end Sound

end ReviewFlow.WhatsApp.OptOuts
