import ReviewFlow.Billing.RowTransitions

/-!
# Abandoning a plan-change replacement

The replacement's provider status is never stored: every abandon re-reads it
under the row lock. `retired` is the row after the local move to the retired
slot, and `ReRead` is the evidence that the move was decided on.
-/

namespace ReviewFlow.Billing

open Savepoint

def replacementFailed : List String := ["pending", "halted", "cancelled", "expired"]

def replacementNotActive : List String := ["created", "authenticated"] ++ replacementFailed

/-- `entity["status"] in statuses`. -/
def statusIn (statuses : List String) (entity : Dict) : Bool :=
  match (entity.get "status").str? with
  | some status => decide (status ∈ statuses)
  | none => false

def notActive (entity : Dict) : Bool := statusIn replacementNotActive entity

/-- The abandon test for an ACTIVE row. A row with a replacement has a deadline. -/
def failedOrLapsed (now : Time) (expiresAt : Option Time) (entity : Dict) : Bool :=
  statusIn replacementFailed entity ||
    (statusIn ["created"] entity && decide (∃ deadline ∈ expiresAt, deadline ≤ now))

/-- `entity.get("id") == ref` and a string status. -/
def readable (ref : Ref) (entity : Dict) : Bool :=
  (entity.get "id").isStr ref.val && (entity.get "status").str?.isSome

def refetchReplacement (sub : Subscription) : Prog (Option Dict) :=
  match sub.replacementProviderRef with
  | none => Program.raise .valueError
  | some ref => do
    let answer ← orNone (razorpay (.fetchSubscription ref))
    pure (answer.filter (readable ref))

/-- The row after the local move. A pending plan that is the target's goes with it. -/
def retired (sub : Subscription) (target : Option Plan) : Subscription :=
  { sub with
    retiredProviderRef := sub.replacementProviderRef
    retiredKind := some .abandonedReplacement
    replacementProviderRef := none
    replacementPlan := none
    replacementExpiresAt := none
    replacementCommittedAt := none
    replacementCancelConfirmedAt := none
    pendingPlan :=
      if target.isSome ∧ sub.pendingPlan.map (·.pk) = target.map (·.pk) then none
      else sub.pendingPlan }

def retireReplacement (sub : Subscription) (entity : Dict) (reason : String) (actor : Option ℕ) :
    Prog Subscription := do
  let env ← Program.ask
  let target := sub.replacementPlan <|> env.settings.planFor (entity.get "plan_id")
  markEventsProcessed sub.replacementProviderRef
  audit .replacementAbandoned actor
    [("reason", .str reason), ("plan_name", (target.map fun p => Json.str p.name).getD .null)]
  pure (retired sub target)

structure Abandonment where
  sub : Subscription
  abandoned : Bool
  entity : Option Dict

/-- The replacement's entity: the one just read under this lock, or a new read. -/
def entityOrRefetch (sub : Subscription) (entity : Option Dict) : Prog (Option Dict) :=
  match entity with
  | some entity => pure (some entity)
  | none => refetchReplacement sub

def abandonUnlessActive (sub : Subscription) (reason : String) (abandonable : Dict → Bool)
    (entity : Option Dict) : Prog Abandonment :=
  if sub.replacementProviderRef = none ∨ sub.replacementCommittedAt ≠ none then
    pure ⟨sub, false, none⟩
  else do
    let entity ← entityOrRefetch sub entity
    match entity with
    | none => pure ⟨sub, false, none⟩
    | some entity =>
      if abandonable entity = false then pure ⟨sub, false, some entity⟩
      -- The retired slot is occupied: never overwritten.
      else if sub.retiredProviderRef ≠ none then pure ⟨sub, false, some entity⟩
      else do
        let sub ← retireReplacement sub entity reason none
        pure ⟨sub, true, some entity⟩

/-- The events after some of those that `P` selects were marked. -/
def Marked (P : BillingEvent → Prop) (before after : List BillingEvent) : Prop :=
  List.Forall₂ (fun e e' => e' = e ∨
    (e.processedAt = none ∧ P e ∧ ∃ stamp, e' = { e with processedAt := some stamp })) before after

theorem Marked.refl (P : BillingEvent → Prop) (events : List BillingEvent) :
    Marked P events events :=
  List.forall₂_same.mpr fun _ _ => Or.inl rfl

theorem Marked.mono {P Q : BillingEvent → Prop} {before after : List BillingEvent}
    (h : Marked P before after) (hPQ : ∀ e ∈ before, P e → Q e) : Marked Q before after := by
  induction h with
  | nil => exact .nil
  | cons he _ ih =>
    refine .cons ?_ (ih fun e hm => hPQ e (List.mem_cons_of_mem _ hm))
    exact he.imp_right fun ⟨hn, hp, hs⟩ => ⟨hn, hPQ _ List.mem_cons_self hp, hs⟩

theorem Marked.trans {P : BillingEvent → Prop} {a b c : List BillingEvent}
    (h : Marked P a b) (h' : Marked P b c) : Marked P a c := by
  induction h generalizing c with
  | nil => exact h'
  | cons he _ ih =>
    cases h' with
    | cons he' ht =>
      refine .cons ?_ (ih ht)
      rcases he with rfl | ⟨hn, hp, stamp, rfl⟩
      · exact he'
      · rcases he' with rfl | ⟨hn', -, -⟩
        · exact Or.inr ⟨hn, hp, stamp, rfl⟩
        · cases hn'

/-- What a transaction does beside the row it has locked and not yet saved. -/
structure Beside (P : BillingEvent → Prop) (s t : State) : Prop where
  sub : t.data.subscription = s.data.subscription
  usage : t.data.usage = s.data.usage
  events : Marked P s.data.events t.data.events

theorem Beside.refl (P : BillingEvent → Prop) (s : State) : Beside P s s :=
  ⟨rfl, rfl, Marked.refl P _⟩

theorem Beside.trans {P : BillingEvent → Prop} {s t u : State} (h : Beside P s t)
    (h' : Beside P t u) : Beside P s u :=
  ⟨h'.sub.trans h.sub, h'.usage.trans h.usage, h.events.trans h'.events⟩

theorem Beside.of_data {P : BillingEvent → Prop} {s t : State} (h : t.data = s.data) :
    Beside P s t := by
  refine ⟨by rw [h], by rw [h], ?_⟩
  rw [h]
  exact Marked.refl P _

theorem LogsOnly.beside {P : BillingEvent → Prop} {s t : State} (h : LogsOnly s t) :
    Beside P s t :=
  ⟨by rw [h.2], h.usage, h.events ▸ Marked.refl P _⟩

theorem Beside.mono {P Q : BillingEvent → Prop} {s t : State} (h : Beside P s t)
    (hPQ : ∀ e ∈ s.data.events, P e → Q e) : Beside Q s t :=
  ⟨h.sub, h.usage, h.events.mono hPQ⟩

theorem Beside.sub? {P : BillingEvent → Prop} {s t : State} (h : Beside P s t) :
    t.data.sub? = s.data.sub? := by
  unfold Database.sub?
  rw [h.sub]

def ReRead (calls : List Call) (sub : Subscription) (entity : Dict) : Prop :=
  ∃ ref, sub.replacementProviderRef = some ref ∧
    .subscription (.fetchSubscription ref) (.ok entity) ∈ calls ∧ readable ref entity = true

def Abandons (calls : List Call) (sub sub' : Subscription) : Prop :=
  ∃ entity target, ReRead calls sub entity ∧ notActive entity = true ∧
    sub.retiredProviderRef = none ∧ sub' = retired sub target

theorem ReRead.mono {a b : Journal} {sub : Subscription} {entity : Dict}
    (h : ReRead a.calls sub entity) (hab : a ≤ b) : ReRead b.calls sub entity := by
  obtain ⟨ref, hr, hc, he⟩ := h
  exact ⟨ref, hr, Journal.mem_of_le hab hc, he⟩

theorem Abandons.mono {a b : Journal} {sub sub' : Subscription} (h : Abandons a.calls sub sub')
    (hab : a ≤ b) : Abandons b.calls sub sub' := by
  obtain ⟨entity, target, hr, he⟩ := h
  exact ⟨entity, target, hr.mono hab, he⟩

/-- The replacement can be abandoned: the provider's next answer reports it not active,
and the retired slot is free. -/
def Abandonable (env : Env) (sub : Subscription) (calls : ℕ) : Prop :=
  sub.retiredProviderRef = none ∧ ∃ ref entity, sub.replacementProviderRef = some ref ∧
    env.oracle.subscription calls (.fetchSubscription ref) = .ok entity ∧
    readable ref entity = true ∧ notActive entity = true

def GivenUp (env : Env) (sub : Subscription) (calls : ℕ) : Prop :=
  sub.replacementCommittedAt = none ∧ Abandonable env sub calls

section Rules

variable {env : Env} {s : State}

theorem markEvents_spec {filter : BillingEvent → Bool} :
    Program.returns env (markEvents filter)
      (fun _ t => t.journal.calls = s.journal.calls ∧ Beside (fun e => filter e = true) s t) s := by
  unfold markEvents
  refine Program.returns_bind (P := fun _ t => t = s.tick) (wp_timezoneNow.mpr rfl) ?_
  rintro stamp t rfl
  refine ⟨rfl, rfl, rfl, ?_⟩
  refine List.forall₂_map_right_iff.mpr (List.forall₂_same.mpr fun e _ => ?_)
  by_cases h : e.processedAt.isNone && filter e
  · rw [if_pos h]
    rw [Bool.and_eq_true, Option.isNone_iff_eq_none] at h
    exact Or.inr ⟨h.1, h.2, stamp, rfl⟩
  · rw [if_neg h]
    exact Or.inl rfl

theorem markEventsProcessed_spec {ref : Option Ref} :
    Program.returns env (markEventsProcessed ref)
      (fun _ t => Beside (fun e => ref = some e.providerRef) s t) s :=
  Program.returns_mono markEvents_spec fun _ _ h =>
    h.2.mono fun _ _ he => of_decide_eq_true he

theorem refetchReplacement_spec {sub : Subscription} :
    Program.returns env (refetchReplacement sub)
      (fun r t => t.data = s.data ∧ ∀ entity ∈ r, ReRead t.journal.calls sub entity) s := by
  unfold refetchReplacement
  cases h : sub.replacementProviderRef with
  | none => trivial
  | some ref =>
    refine Program.returns_bind (P := fun answer t => t.data = s.data ∧ ∀ entity ∈ answer,
      Call.subscription (.fetchSubscription ref) (.ok entity) ∈ t.journal.calls) ?_ ?_
    · rw [Program.returns, wp_orNone, wp_razorpay]
      refine ⟨fun entity _ => ⟨rfl, ?_⟩,
        fun failure _ => ⟨fun _ => ⟨rfl, by simp⟩, fun _ => trivial⟩⟩
      rintro _ ⟨⟩
      simp
    · rintro answer t ⟨ht, ha⟩
      refine ⟨ht, fun entity he => ?_⟩
      obtain ⟨he, hr⟩ := Option.mem_filter_iff.mp he
      exact ⟨ref, h, ha entity he, hr⟩

theorem retireReplacement_spec {sub : Subscription} {entity : Dict} {reason : String}
    {actor : Option ℕ} :
    Program.returns env (retireReplacement sub entity reason actor)
      (fun r t => (∃ target, r = retired sub target) ∧
        Beside (fun e => sub.replacementProviderRef = some e.providerRef) s t) s := by
  unfold retireReplacement
  refine Program.returns_bind (P := fun x t => x = env ∧ t = s) ⟨rfl, rfl⟩ ?_
  rintro _ _ ⟨rfl, rfl⟩
  refine Program.returns_bind markEventsProcessed_spec fun _ t ht => ?_
  refine Program.returns_bind (Program.returns_of_wp audit_spec) fun _ u hu => ?_
  exact ⟨⟨_, rfl⟩, ht.trans hu.beside⟩

/-- What `_abandon_unless_active` did: nothing, or the local move of a replacement that
was re-read as abandonable, was not committed, and found the retired slot free. -/
structure AbandonPost (sub : Subscription) (abandonable : Dict → Bool) (r : Abandonment)
    (s t : State) : Prop where
  beside : Beside
    (fun e => r.abandoned = true ∧ sub.replacementProviderRef = some e.providerRef) s t
  read : ∀ entity ∈ r.entity, ReRead t.journal.calls sub entity
  kept : r.abandoned = false → r.sub = sub ∧ t.data = s.data
  moved : r.abandoned = true → ∃ entity target, r.entity = some entity ∧
    abandonable entity = true ∧ sub.replacementCommittedAt = none ∧
    sub.retiredProviderRef = none ∧ r.sub = retired sub target

theorem abandonUnlessActive_spec {sub : Subscription} {reason : String}
    {abandonable : Dict → Bool} {entity : Option Dict}
    (hentity : ∀ e ∈ entity, ReRead s.journal.calls sub e) :
    Program.returns env (abandonUnlessActive sub reason abandonable entity)
      (fun r t => AbandonPost sub abandonable r s t) s := by
  have kept : ∀ (e : Option Dict) (t : State), t.data = s.data →
      (∀ x ∈ e, ReRead t.journal.calls sub x) →
        AbandonPost sub abandonable ⟨sub, false, e⟩ s t := by
    intro e t ht he
    exact ⟨Beside.of_data ht, he, fun _ => ⟨rfl, ht⟩, by simp⟩
  unfold abandonUnlessActive
  rw [Program.returns, Program.wp_ite]
  refine ⟨fun _ => kept none s rfl (by simp), fun hc => ?_⟩
  rw [not_or, not_not] at hc
  refine Program.returns_bind (P := fun r t => t.data = s.data ∧
    ∀ e ∈ r, ReRead t.journal.calls sub e) ?_ ?_
  · cases entity with
    | some e => exact ⟨rfl, hentity⟩
    | none => exact refetchReplacement_spec
  rintro r t ⟨ht, hr⟩
  cases r with
  | none => exact kept none t ht hr
  | some e =>
    simp only [Program.returns, Program.wp_ite]
    refine ⟨fun _ => kept _ t ht hr, fun ha => ⟨fun _ => kept _ t ht hr, fun hf => ?_⟩⟩
    refine Program.returns_bind (Program.returns_of_wp (Program.wp_grows retireReplacement_spec)) ?_
    rintro sub' u ⟨⟨⟨target, rfl⟩, hu⟩, hg⟩
    refine ⟨((Beside.of_data ht).trans hu).mono (fun _ _ h => ⟨rfl, h⟩), ?_, by simp, ?_⟩
    · rintro _ ⟨⟩
      exact (hr e rfl).mono hg
    · intro _
      exact ⟨e, target, rfl, by simpa using ha, hc.2, by simpa using hf, rfl⟩

theorem retireReplacement_returns {sub : Subscription} {entity : Dict} {reason : String} :
    Program.wp env (retireReplacement sub entity reason none) (fun _ _ => True) (fun _ _ => False)
      s := by
  unfold retireReplacement markEventsProcessed markEvents
  simp [Program.wp_bind, wp_audit]

theorem refetchReplacement_answer {sub : Subscription} :
    Program.wp env (refetchReplacement sub)
      (fun r _ => ∀ entity, r = some entity ↔ ∃ ref, sub.replacementProviderRef = some ref ∧
        env.oracle.subscription s.journal.calls.length (.fetchSubscription ref) = .ok entity ∧
        readable ref entity = true)
      (fun _ _ => ∀ ref entity, sub.replacementProviderRef = some ref →
        env.oracle.subscription s.journal.calls.length (.fetchSubscription ref) ≠ .ok entity)
        s := by
  unfold refetchReplacement
  cases href : sub.replacementProviderRef with
  | none => simp
  | some ref =>
    dsimp only
    rw [Program.wp_bind, wp_orNone, wp_razorpay]
    refine ⟨fun entity he x => ?_, fun failure hf => ⟨fun _ x => ?_, fun _ => ?_⟩⟩
    · simp only [Option.filter_eq_some_iff, Option.some.injEq, exists_eq_left', he, Except.ok.injEq]
    · simp [hf]
    · rintro _ _ ⟨⟩
      simp [hf]

theorem abandonUnlessActive_iff {sub : Subscription} {reason : String} :
    Program.wp env (abandonUnlessActive sub reason notActive none)
      (fun r _ => r.abandoned = true ↔ GivenUp env sub s.journal.calls.length)
      (fun _ _ => ¬ GivenUp env sub s.journal.calls.length) s := by
  unfold abandonUnlessActive
  rw [Program.wp_ite]
  refine ⟨fun h => ?_, fun h => ?_⟩
  · simp
    rintro ⟨hn, hfree, ref, entity, href, -⟩
    rcases h with h | h
    · rw [href] at h
      cases h
    · exact h hn
  rw [not_or, not_not] at h
  refine Program.wp_bind_of refetchReplacement_answer ?_ ?_
  · rintro r t hr
    have notGiven : (∀ entity, r = some entity → notActive entity = true →
        sub.retiredProviderRef ≠ none) → ¬ GivenUp env sub s.journal.calls.length := by
      rintro hno ⟨-, hfree, ref, entity, href, hans, hread, hna⟩
      exact hno entity ((hr entity).mpr ⟨ref, href, hans, hread⟩) hna hfree
    cases r with
    | none => simpa using notGiven (by simp)
    | some entity =>
      simp only [Program.wp_ite]
      refine ⟨fun ha => ?_, fun ha => ⟨fun hf => ?_, fun hf => ?_⟩⟩
      · simpa using notGiven (by simp [ha])
      · simpa using notGiven (by simp [hf])
      · obtain ⟨ref, href, hans, hread⟩ := (hr entity).mp rfl
        have hgiven : GivenUp env sub s.journal.calls.length :=
          ⟨h.2, by simpa using hf, ref, entity, href, hans, hread, by simpa using ha⟩
        exact Program.wp_bind_of retireReplacement_returns (fun _ _ _ => by simp [hgiven])
          (fun _ _ h => h.elim)
  · rintro _ _ hno ⟨-, -, ref, entity, href, hans, -⟩
    exact hno ref entity href hans

theorem AbandonPost.abandons {sub : Subscription} {abandonable : Dict → Bool} {r : Abandonment}
    {s t : State} (h : AbandonPost sub abandonable r s t)
    (hna : ∀ e, abandonable e = true → notActive e = true) (hr : r.abandoned = true) :
    Abandons t.journal.calls sub r.sub := by
  obtain ⟨entity, target, he, ha, -, hf, hs⟩ := h.moved hr
  exact ⟨entity, target, h.read entity (by simp [he]), hna entity ha, hf, hs⟩

end Rules

theorem statusIn_mono {a b : List String} (h : a ⊆ b) {entity : Dict}
    (he : statusIn a entity = true) : statusIn b entity = true := by
  unfold statusIn at *
  split
  · rename_i status hs
    rw [hs] at he
    exact decide_eq_true (h (of_decide_eq_true he))
  · rename_i hs
    simp [hs] at he

theorem failedOrLapsed_notActive {now : Time} {expiresAt : Option Time} {entity : Dict}
    (h : failedOrLapsed now expiresAt entity = true) : notActive entity = true := by
  rw [failedOrLapsed, Bool.or_eq_true, Bool.and_eq_true] at h
  rcases h with h | ⟨h, -⟩
  · exact statusIn_mono (List.subset_append_right _ _) h
  · exact statusIn_mono (by decide) h

end ReviewFlow.Billing
