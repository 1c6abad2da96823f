import ReviewFlow.Interleaving
import ReviewFlow.Tenancy.WhatsAppAccounts

/-!
# The fan-out of an inbound STOP

The task `fan_out_inbound_opt_out` for one number and phone, with the messages of its broker:
a run takes one message, resolves the merchants again from the tables as they are, and puts a
message for the merchants that failed. A run whose worker is lost leaves its message, and a
message may be delivered twice.
-/

namespace ReviewFlow.WhatsApp

open Interleaving Tenancy

inductive MerchantStatus where
  | active
  | suspended
  | deleted
  deriving DecidableEq

structure World where
  accounts : Accounts
  merchants : List (Uuid × MerchantStatus)

def World.deleted (w : World) : List Uuid :=
  (w.merchants.filter fun m => m.2 == .deleted).map Prod.fst

def activeMerchantIds (w : World) : List Uuid :=
  (w.merchants.filter fun m => m.2 != .deleted).map Prod.fst

def isSharedPoolNumber (w : World) (phoneNumberId : String) : Bool :=
  w.accounts.1.any fun a =>
    a.senderType == .sharedPool && a.merchantId.isNone && a.provider == "meta_cloud" &&
    a.phoneNumberId == phoneNumberId

/-- The read is under the row policies of the number lookup, which show these rows. -/
def ownNumberMerchantId (w : World) (phoneNumberId : String) : Option Uuid :=
  if (literal isValidPhoneNumberId phoneNumberId).isNone then none
  else match w.accounts.1.filter fun a =>
    a.senderType == .ownNumber && a.provider == "meta_cloud" &&
      a.phoneNumberId == phoneNumberId with
    | [a] => a.merchantId
    | _ => none

def resolveInboundOptOutTargets (w : World) (phoneNumberId : String) : Bool × List Uuid :=
  if isSharedPoolNumber w phoneNumberId then (true, activeMerchantIds w)
  else (false, (ownNumberMerchantId w phoneNumberId).toList)

def optOutMaxRetries : ℕ := 5

structure Message where
  merchantIds : Option (List Uuid)
  retries : ℕ
  deriving DecidableEq

inductive Result where
  | returned
  | retried (merchantIds : Option (List Uuid))
  | raised (merchantIds : Option (List Uuid))
  deriving DecidableEq

/-- What a run meets: the tables, whether the lookup fails, which opt-outs fail, and after how
many merchants its worker is lost, if it is. -/
structure Execution where
  world : World
  lookupFails : Bool
  fails : Uuid → Bool
  lost : Option ℕ

def retryOptOutFanOut (msg : Message) (failedIds : Option (List Uuid)) : Result :=
  if optOutMaxRetries ≤ msg.retries then .raised failedIds else .retried failedIds

/-- The merchants that the run attempts. A retry keeps those that failed. -/
def merchantsToDo (phoneNumberId : String) (x : Execution) (msg : Message) : List Uuid :=
  let targets := (resolveInboundOptOutTargets x.world phoneNumberId).2
  match msg.merchantIds with
  | none => targets
  | some wanted => targets.filter fun m => wanted.contains m

def fanOutInboundOptOut (phoneNumberId : String) (x : Execution) (msg : Message) :
    List Uuid × Result :=
  if x.lookupFails then ([], retryOptOutFanOut msg none)
  else
    let merchants := merchantsToDo phoneNumberId x msg
    let failed := merchants.filter x.fails
    (merchants.filter fun m => !x.fails m,
      if failed = [] then .returned else retryOptOutFanOut msg (some failed))

structure FanOut where
  messages : List Message
  /-- The targets of the first resolution that succeeded. -/
  targets : Option (List Uuid)
  done : List Uuid
  deleted : List Uuid
  /-- What the runs that raised had failed. None is all. -/
  reported : List (Option (List Uuid))

inductive FanOutChoice where
  | run (i : ℕ) (x : Execution)
  | redeliver (i : ℕ)

def FanOut.start : FanOut := ⟨[⟨none, 0⟩], none, [], [], []⟩

def FanOut.noted (s : FanOut) (phoneNumberId : String) (x : Execution)
    (completed : List Uuid) : FanOut :=
  { s with
    targets := s.targets.or
      (if x.lookupFails then none else some (resolveInboundOptOutTargets x.world phoneNumberId).2)
    done := s.done ++ completed
    deleted := s.deleted ++ x.world.deleted }

def FanOut.step (phoneNumberId : String) (s : FanOut) : FanOutChoice → FanOut
  | .redeliver i => match s.messages[i]? with
    | some msg => { s with messages := s.messages ++ [msg] }
    | none => s
  | .run i x => match s.messages[i]? with
    | none => s
    | some msg => match x.lost with
      | some n =>
        let attempted := if x.lookupFails then [] else (merchantsToDo phoneNumberId x msg).take n
        s.noted phoneNumberId x (attempted.filter fun m => !x.fails m)
      | none =>
        let (completed, result) := fanOutInboundOptOut phoneNumberId x msg
        let s := { s.noted phoneNumberId x completed with messages := s.messages.eraseIdx i }
        match result with
        | .returned => s
        | .retried ids => { s with messages := s.messages ++ [⟨ids, msg.retries + 1⟩] }
        | .raised ids => { s with reported := s.reported ++ [ids] }

abbrev FanOutTransition := Transition FanOut FanOutChoice

def fanOutRun (phoneNumberId : String) (choices : List FanOutChoice) : List FanOutTransition :=
  trace (FanOut.step phoneNumberId) .start choices

def covers (ids : Option (List Uuid)) (m : Uuid) : Prop := ∀ l, ids = some l → m ∈ l

/-- The merchant was opted out, was deleted, or is among the failed of a run that raised. -/
def FanOut.Settled (s : FanOut) (m : Uuid) : Prop :=
  m ∈ s.done ∨ m ∈ s.deleted ∨ ∃ ids ∈ s.reported, covers ids m

def FanOut.Kept (s : FanOut) : Prop :=
  ∀ ts, s.targets = some ts → ∀ m ∈ ts, s.Settled m ∨ ∃ msg ∈ s.messages, covers msg.merchantIds m

/-- The step runs the last message that is to do an unsettled target, and the tables of the run
no longer name that merchant. -/
def FanOutTransition.Drops (phoneNumberId : String) (t : FanOutTransition) : Prop :=
  ∃ i x msg ts m, t.label = .run i x ∧ t.before.messages[i]? = some msg ∧
    x.lookupFails = false ∧ x.lost = none ∧
    t.before.targets = some ts ∧ m ∈ ts ∧ ¬ t.before.Settled m ∧ m ∉ x.world.deleted ∧
    (∀ other ∈ t.before.messages.eraseIdx i, ¬ covers other.merchantIds m) ∧
    covers msg.merchantIds m ∧
    m ∉ (resolveInboundOptOutTargets x.world phoneNumberId).2

section Steps

variable {phoneNumberId : String} {s : FanOut} {x : Execution} {msg : Message} {m : Uuid} {i : ℕ}

theorem covers_none : covers none m := nofun

theorem covers_some {l : List Uuid} : covers (some l) m ↔ m ∈ l :=
  ⟨fun h => h l rfl, fun h _ heq => Option.some.inj heq ▸ h⟩

structure FanOut.Inv (s : FanOut) : Prop where
  first : s.targets = none → ∀ msg ∈ s.messages, msg.merchantIds = none

theorem mem_merchantsToDo : m ∈ merchantsToDo phoneNumberId x msg ↔
    m ∈ (resolveInboundOptOutTargets x.world phoneNumberId).2 ∧ covers msg.merchantIds m := by
  unfold merchantsToDo
  cases hm : msg.merchantIds with
  | none => simp [covers_none]
  | some wanted => simp [covers_some]

theorem mem_completed (h : x.lookupFails = false) :
    m ∈ (fanOutInboundOptOut phoneNumberId x msg).1 ↔
    m ∈ merchantsToDo phoneNumberId x msg ∧ x.fails m = false := by
  simp [fanOutInboundOptOut, h]

def Result.owes (r : Result) (m : Uuid) : Prop :=
  match r with
  | .returned => False
  | .retried ids => covers ids m
  | .raised ids => covers ids m

theorem owes_retry (failedIds : Option (List Uuid)) :
    (retryOptOutFanOut msg failedIds).owes m ↔ covers failedIds m := by
  unfold retryOptOutFanOut
  split <;> rfl

theorem result_owes : (fanOutInboundOptOut phoneNumberId x msg).2.owes m ↔
    x.lookupFails = true ∨ (m ∈ merchantsToDo phoneNumberId x msg ∧ x.fails m = true) := by
  unfold fanOutInboundOptOut
  cases hl : x.lookupFails with
  | true =>
    simp only [↓reduceIte, true_or, iff_true]
    exact (owes_retry none).mpr covers_none
  | false =>
    simp only [Bool.false_eq_true, ↓reduceIte, false_or]
    split
    case isTrue hnil =>
      constructor
      · exact False.elim
      · rintro ⟨hm, hf⟩
        rw [List.filter_eq_nil_iff] at hnil
        exact hnil m hm hf
    case isFalse hne => rw [owes_retry, covers_some, List.mem_filter]

/-- A merchant is kept when it is settled or a message is to do it. -/
def FanOut.KeptFor (s : FanOut) (m : Uuid) : Prop :=
  s.Settled m ∨ ∃ msg ∈ s.messages, covers msg.merchantIds m

variable (phoneNumberId) in
theorem settled_noted (completed : List Uuid) :
    (s.noted phoneNumberId x completed).Settled m ↔
      s.Settled m ∨ m ∈ completed ∨ m ∈ x.world.deleted := by
  simp only [FanOut.Settled, FanOut.noted, List.mem_append]
  constructor
  · rintro ((h | h) | (h | h) | h)
    · exact .inl (.inl h)
    · exact .inr (.inl h)
    · exact .inl (.inr (.inl h))
    · exact .inr (.inr h)
    · exact .inl (.inr (.inr h))
  · rintro ((h | h | h) | h | h)
    · exact .inl (.inl h)
    · exact .inr (.inl (.inl h))
    · exact .inr (.inr h)
    · exact .inl (.inr h)
    · exact .inr (.inl (.inr h))

theorem keptFor_retried {messages : List Message} {ids : Option (List Uuid)} {n : ℕ} :
    FanOut.KeptFor { s with messages := messages ++ [⟨ids, n⟩] } m ↔
      FanOut.KeptFor { s with messages := messages } m ∨ covers ids m := by
  simp only [FanOut.KeptFor, List.mem_append, List.mem_singleton, or_and_right,
    exists_or, exists_eq_left,
    or_assoc]
  rfl

theorem keptFor_raised {ids : Option (List Uuid)} :
    FanOut.KeptFor { s with reported := s.reported ++ [ids] } m ↔ s.KeptFor m ∨ covers ids m := by
  have hs : FanOut.Settled { s with reported := s.reported ++ [ids] } m ↔
      s.Settled m ∨ covers ids m := by
    simp only [FanOut.Settled, List.mem_append, List.mem_singleton, or_and_right,
      exists_or, exists_eq_left,
      or_assoc]
  unfold FanOut.KeptFor
  rw [hs, or_right_comm]

theorem keptFor_ended (hm : s.messages[i]? = some msg) (hl : x.lost = none) :
    (s.step phoneNumberId (.run i x)).KeptFor m ↔
      (s.Settled m ∨ m ∈ (fanOutInboundOptOut phoneNumberId x msg).1 ∨ m ∈ x.world.deleted) ∨
        (∃ other ∈ s.messages.eraseIdx i, covers other.merchantIds m) ∨
        (fanOutInboundOptOut phoneNumberId x msg).2.owes m := by
  let noted : FanOut := { s.noted phoneNumberId x (fanOutInboundOptOut phoneNumberId x msg).1 with
    messages := s.messages.eraseIdx i }
  have hnoted : noted.KeptFor m ↔
      (s.Settled m ∨ m ∈ (fanOutInboundOptOut phoneNumberId x msg).1 ∨ m ∈ x.world.deleted) ∨
        ∃ other ∈ s.messages.eraseIdx i, covers other.merchantIds m :=
    or_congr_left (settled_noted phoneNumberId _)
  rw [← or_assoc, ← hnoted, FanOut.step, hm]
  simp only [hl]
  cases hr : (fanOutInboundOptOut phoneNumberId x msg).2 with
  | returned => exact (or_false _).symm.to_iff
  | retried ids => exact keptFor_retried
  | raised ids => exact keptFor_raised (s := noted)

theorem keptFor_lost {n : ℕ} (hm : s.messages[i]? = some msg) (hl : x.lost = some n)
    (h : s.KeptFor m) :
    (s.step phoneNumberId (.run i x)).KeptFor m := by
  rw [FanOut.step, hm]
  simp only [hl]
  refine h.imp (fun h => ?_) fun h => h
  exact (settled_noted phoneNumberId _).mpr (.inl h)

theorem step_targets (hm : s.messages[i]? = some msg) :
    (s.step phoneNumberId (.run i x)).targets = s.targets.or
      (if x.lookupFails then none
      else some (resolveInboundOptOutTargets x.world phoneNumberId).2) := by
  rw [FanOut.step, hm]
  cases x.lost with
  | some n => rfl
  | none =>
    dsimp only
    cases (fanOutInboundOptOut phoneNumberId x msg).2 <;> rfl

theorem step_inv (h : s.Inv) (l : FanOutChoice) : (s.step phoneNumberId l).Inv := by
  constructor
  cases l with
  | redeliver i =>
    cases hm : s.messages[i]? with
    | none =>
      rw [FanOut.step, hm]
      exact h.first
    | some msg =>
      rw [FanOut.step, hm]
      intro ht other hother
      rcases List.mem_append.mp hother with hother | hother
      · exact h.first ht other hother
      · rw [List.mem_singleton.mp hother]
        exact h.first ht msg (List.mem_of_getElem? hm)
  | run i x =>
    cases hm : s.messages[i]? with
    | none =>
      rw [FanOut.step, hm]
      exact h.first
    | some msg =>
      rw [step_targets hm]
      intro ht
      obtain ⟨ht, hfails⟩ := Option.or_eq_none_iff.mp ht
      have hfails : x.lookupFails = true := by
        by_contra hne
        rw [if_neg hne] at hfails
        cases hfails
      rw [FanOut.step, hm]
      cases hl : x.lost with
      | some n => exact h.first ht
      | none =>
        have herase : ∀ other ∈ s.messages.eraseIdx i, other.merchantIds = none :=
          fun other hother => h.first ht other (List.mem_of_mem_eraseIdx hother)
        -- A lookup that fails asks for the whole run again.
        have hresult : (fanOutInboundOptOut phoneNumberId x msg).2 =
            retryOptOutFanOut msg none := by
          rw [fanOutInboundOptOut, if_pos hfails]
        simp only [hresult, retryOptOutFanOut]
        by_cases hmax : optOutMaxRetries ≤ msg.retries
        · rw [if_pos hmax]
          exact herase
        · rw [if_neg hmax]
          intro other hother
          rcases List.mem_append.mp hother with hother | hother
          · exact herase other hother
          · rw [List.mem_singleton.mp hother]

theorem mem_eraseIdx_or {l : List Message} {a : Message} (h : l[i]? = some msg) (ha : a ∈ l) :
    a = msg ∨ a ∈ l.eraseIdx i := by
  obtain ⟨j, hj⟩ := List.mem_iff_getElem?.mp ha
  by_cases hij : j = i
  · subst hij
    rw [h] at hj
    exact .inl (Option.some.inj hj).symm
  · exact .inr (List.mem_eraseIdx_iff_getElem?.mpr ⟨j, hij, hj⟩)

theorem kept_run (hI : s.Inv) (hK : s.Kept) (hm : s.messages[i]? = some msg) (hl : x.lost = none) :
    (s.step phoneNumberId (.run i x)).Kept ↔
      ¬ FanOutTransition.Drops phoneNumberId
      (transition (FanOut.step phoneNumberId) s (.run i x)) := by
  constructor
  · rintro hK' ⟨j, y, msg', ts, m, hlabel, hj, hfails, -, hts, hmem, hnot, hdel, hothers, -, hnone⟩
    cases hlabel
    cases hm.symm.trans hj
    have htargets : (s.step phoneNumberId (.run i x)).targets = some ts := by
      rw [step_targets hm, show s.targets = some ts from hts, Option.some_or]
    have hnotDo : m ∉ merchantsToDo phoneNumberId x msg := fun h => hnone (mem_merchantsToDo.mp h).1
    rcases (keptFor_ended hm hl).mp (hK' ts htargets m hmem) with (h | h | h) | ⟨other, ho, h⟩ | h
    · exact hnot h
    · exact hnotDo ((mem_completed hfails).mp h).1
    · exact hdel h
    · exact hothers other ho h
    · rcases result_owes.mp h with h | ⟨h, -⟩
      · rw [hfails] at h
        cases h
      · exact hnotDo h
  · intro hd ts' hts' m hmem
    apply (keptFor_ended hm hl).mpr
    rw [step_targets hm] at hts'
    cases hfails : x.lookupFails with
    | true => exact .inr (.inr (result_owes.mpr (.inl hfails)))
    | false =>
      -- The run attempts a merchant that it resolves and that its message covers.
      have hdo : m ∈ (resolveInboundOptOutTargets x.world phoneNumberId).2 →
        covers msg.merchantIds m →
          m ∈ (fanOutInboundOptOut phoneNumberId x msg).1 ∨
          (fanOutInboundOptOut phoneNumberId x msg).2.owes m := by
        intro hres hcov
        have hmem := mem_merchantsToDo.mpr ⟨hres, hcov⟩
        cases hf : x.fails m with
        | true => exact .inr (result_owes.mpr (.inr ⟨hmem, hf⟩))
        | false => exact .inl ((mem_completed hfails).mpr ⟨hmem, hf⟩)
      rw [hfails, if_neg Bool.false_ne_true] at hts'
      cases hts : s.targets with
      | none =>
        rw [hts, Option.none_or] at hts'
        cases hts'
        have hcov : covers msg.merchantIds m := by
          rw [hI.first hts msg (List.mem_of_getElem? hm)]
          exact covers_none
        rcases hdo hmem hcov with h | h
        · exact .inl (.inr (.inl h))
        · exact .inr (.inr h)
      | some ts =>
        rw [hts, Option.some_or] at hts'
        cases hts'
        by_cases hset : s.Settled m
        · exact .inl (.inl hset)
        by_cases hdel : m ∈ x.world.deleted
        · exact .inl (.inr (.inr hdel))
        by_cases hothers : ∃ other ∈ s.messages.eraseIdx i, covers other.merchantIds m
        · exact .inr (.inl hothers)
        have hcov : covers msg.merchantIds m := by
          obtain ⟨a, ha, hcov⟩ := (hK _ hts m hmem).resolve_left hset
          rcases mem_eraseIdx_or hm ha with rfl | ha
          · exact hcov
          · exact absurd ⟨a, ha, hcov⟩ hothers
        have hres : m ∈ (resolveInboundOptOutTargets x.world phoneNumberId).2 := by
          by_contra hres
          exact hd ⟨i, x, msg, _, m, rfl, hm, hfails, hl, hts, hmem, hset, hdel,
            fun other ho h => hothers ⟨other, ho, h⟩, hcov, hres⟩
        rcases hdo hres hcov with h | h
        · exact .inl (.inr (.inl h))
        · exact .inr (.inr h)

theorem kept_lost {n : ℕ} (hI : s.Inv) (hK : s.Kept) (hm : s.messages[i]? = some msg)
    (hl : x.lost = some n) :
    (s.step phoneNumberId (.run i x)).Kept := by
  intro ts' hts' m hmem
  apply keptFor_lost hm hl
  rw [step_targets hm] at hts'
  cases hts : s.targets with
  | none =>
    refine .inr ⟨msg, List.mem_of_getElem? hm, ?_⟩
    rw [hI.first hts msg (List.mem_of_getElem? hm)]
    exact covers_none
  | some ts =>
    rw [hts, Option.some_or] at hts'
    cases hts'
    exact hK _ hts m hmem

theorem kept_redeliver (hK : s.Kept) : (s.step phoneNumberId (.redeliver i)).Kept := by
  rw [FanOut.step]
  split
  · intro ts hts m hmem
    rcases hK ts hts m hmem with h | ⟨other, ho, h⟩
    · exact .inl h
    · exact .inr ⟨other, List.mem_append_left _ ho, h⟩
  · exact hK

theorem kept_step (hI : s.Inv) (hK : s.Kept) (l : FanOutChoice) :
    (s.step phoneNumberId l).Kept ↔
      ¬ FanOutTransition.Drops phoneNumberId (transition (FanOut.step phoneNumberId) s l) := by
  cases l with
  | redeliver i =>
    apply iff_of_true (kept_redeliver hK)
    rintro ⟨_, _, _, _, _, hlabel, -⟩
    cases hlabel
  | run i x =>
    cases hm : s.messages[i]? with
    | none =>
      have hs : s.step phoneNumberId (.run i x) = s := by rw [FanOut.step, hm]
      apply iff_of_true
      · rw [hs]
        exact hK
      rintro ⟨_, _, _, _, _, hlabel, hj, -⟩
      cases hlabel
      cases hm.symm.trans hj
    | some msg =>
      cases hl : x.lost with
      | none => exact kept_run hI hK hm hl
      | some n =>
        apply iff_of_true (kept_lost hI hK hm hl)
        rintro ⟨_, _, _, _, _, hlabel, -, -, hnone, -⟩
        cases hlabel
        cases hl.symm.trans hnone

end Steps

/-- Every target of the fan-out stays settled or in some message, in exactly the runs that never
drop one. -/
theorem opt_outs_kept (phoneNumberId : String) (choices : List FanOutChoice) :
    (∀ t ∈ fanOutRun phoneNumberId choices, t.after.Kept) ↔
      ∀ t ∈ fanOutRun phoneNumberId choices, ¬ FanOutTransition.Drops phoneNumberId t := by
  have hinv : FanOut.start.Inv := by
    constructor
    intro _ msg hmsg
    rw [List.mem_singleton.mp hmsg]
  have hkept : FanOut.start.Kept := fun _ h => nomatch h
  exact trace_invariant_iff hinv hkept (fun _ l h => step_inv h l)
    (fun _ l hI hK => kept_step hI hK l)

section Reconfigured

def sharedNumber (phoneNumberId : String) : WhatsAppAccount :=
  ⟨10, none, .sharedPool, "meta_cloud", phoneNumberId, none, "ACTIVE", none⟩

def sharedWorld (phoneNumberId : String) : World :=
  { accounts := ⟨[sharedNumber phoneNumberId], by
      constructor
      · intro a ha
        rw [List.mem_singleton.mp ha]
        exact ⟨iff_of_true rfl rfl, fun _ => rfl⟩
      · exact List.pairwise_singleton _ _⟩
    merchants := [(1, .active), (2, .active)] }

/-- The opt-out of merchant 2 fails, and the shared number changes before the retry. -/
def reconfigured : List FanOutChoice :=
  [.run 0 ⟨sharedWorld "999", false, fun m => m == 2, none⟩,
    .run 0 ⟨sharedWorld "888", false, fun _ => false, none⟩]

/-- The retry returns, and nothing was done or reported for merchant 2. -/
theorem reconfigured_drops : ∃ t ∈ fanOutRun "999" reconfigured,
    t.after.messages = [] ∧ t.after.targets = some [1, 2] ∧ ¬ t.after.Settled 2 := by
  refine ⟨(fanOutRun "999" reconfigured)[1], List.getElem_mem _, by decide, by decide, ?_⟩
  rintro (h | h | ⟨ids, h, -⟩)
  · revert h
    decide
  · revert h
    decide
  · revert h
    exact fun h => nomatch h

end Reconfigured

end ReviewFlow.WhatsApp
