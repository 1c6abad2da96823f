import ReviewFlow.Billing.RequestMoves
import ReviewFlow.Billing.System

/-!
# The deadline of a replacement

Three instants come out of one reading of the clock: the second sent to the provider as
`expire_by`, the stored `replacement_expires_at`, and the cutoff that the commit of a downgrade is
held to. The start refuses a clock at the cutoff, while the deadline lies one second before it and
is cut to whole seconds.
-/

namespace ReviewFlow.Billing

open Savepoint

section Instants

theorem toUnix_eq (t : ℤ) : toUnix t = if 0 ≤ t then t / 1000000 else -(-t / 1000000) := by
  unfold toUnix
  split
  · next h => exact Int.tdiv_eq_ediv_of_nonneg h
  · next h =>
    have hneg : 0 ≤ -t := by omega
    rw [← Int.tdiv_eq_ediv_of_nonneg hneg, Int.neg_tdiv, neg_neg]

theorem seconds_toUnix_le {t : ℤ} (h : 0 < toUnix t) : seconds (toUnix t) ≤ t := by
  rw [toUnix_eq] at *
  unfold seconds
  split_ifs at * <;> omega

theorem lt_seconds_toUnix_add (t : ℤ) : t < seconds (toUnix t) + seconds 1 := by
  rw [toUnix_eq]
  unfold seconds
  split_ifs <;> omega

theorem lt_seconds_iff {now n : ℤ} (h : 0 < n) : now < seconds n ↔ toUnix now < n := by
  rw [toUnix_eq]
  unfold seconds
  split_ifs <;> omega

theorem toUnix_sub_seconds {t n : ℤ} (hn : 0 ≤ n) (h : 0 < toUnix (t - seconds n)) :
    toUnix (t - seconds n) = toUnix t - n := by
  rw [toUnix_eq] at h ⊢
  rw [toUnix_eq]
  unfold seconds at *
  split_ifs at * <;> omega

end Instants

theorem replacementWindow_eq_some {settings : Settings} {kind : ReplacementKind} {window : Time}
    (h : replacementWindow settings kind = some window) : ∃ n : ℤ, 0 < n ∧ window = seconds n := by
  obtain ⟨n, hn, rfl⟩ := Option.map_eq_some_iff.mp h
  exact ⟨n, by simpa using (Option.filter_eq_some_iff.mp hn).2, rfl⟩

/-- A replacement that was stored: the row, and the one request that went to the provider. -/
structure StoredReplacement (env : Env) (s t : State) (plan : Plan) (kind : ReplacementKind)
    (window : Time) (row : Subscription) (startAt : Option ℤ) (expireBy : ℤ) : Prop where
  window : replacementWindow env.settings kind = some window
  row : t.data.sub? = some row
  sent : ∃ answer, t.journal.calls = s.journal.calls ++
    [.subscription (.createSubscription plan.providerPlanId startAt (some expireBy)) answer]

structure Reports (settings : Settings) (plan : Plan) (startAt : Option ℤ) (expireBy : ℤ)
    (entity : Dict) : Prop where
  status : (entity.get "status").str? = some "authenticated"
  plan : isPlanId (entity.get "plan_id") plan.providerPlanId = true
  start : ∀ field ∈ settings.downgradeStartField, (entity.get field).int? = startAt
  expiry : ∀ field ∈ settings.downgradeExpiryField, (entity.get field).int? = some expireBy

structure UsableDeadline (settings : Settings) (plan : Plan) (kind : ReplacementKind)
    (now window : Time)
    (row : Subscription) (startAt : Option ℤ) (expireBy : ℤ) : Prop where
  sameSecond : ∃ deadline, row.replacementExpiresAt = some deadline ∧ toUnix deadline = expireBy ∧
    now < deadline
  afterNow : now < seconds expireBy
  beforeCutoff : kind = .downgrade → ∃ deadline stop, row.replacementExpiresAt = some deadline ∧
    row.currentPeriodEnd = some stop ∧ deadline < stop - window ∧ seconds expireBy < stop - window
  reportable : kind = .downgrade → ∃ entity, Reports settings plan startAt expireBy entity
  verifies : kind = .downgrade →
    ∀ entity authorized, Reports settings plan startAt expireBy entity →
    authorized < seconds expireBy → downgradeVerified settings row entity authorized = true

/-- Both fields that the verification reads are recorded, and are fields of their own. -/
def FieldsRecorded (settings : Settings) : Prop :=
  ∃ start expiry, settings.downgradeStartField = some start ∧
    settings.downgradeExpiryField = some expiry ∧ start ≠ expiry ∧
      start ∉ ["status", "plan_id"] ∧ expiry ∉ ["status", "plan_id"]

/-- Cut to whole seconds, the cutoff is two seconds or more ahead of the clock. -/
def AheadOfCutoff (settings : Settings) (sub : Subscription) (now : Time) : Prop :=
  ∀ window ∈ replacementWindow settings .downgrade, ∀ stop ∈ sub.currentPeriodEnd,
    toUnix now + 2 ≤ toUnix (stop - window)

section Reports

variable {settings : Settings} {plan : Plan} {startAt : Option ℤ} {expireBy : ℤ}

def reportOf (plan : Plan) (startField expiryField : String) (start expiry : ℤ) : Dict :=
  [("status", .str "authenticated"), ("plan_id", (plan.providerPlanId.map Json.str).getD .null),
    (startField, .int start), (expiryField, .int expiry)]

theorem FieldsRecorded.reported (h : FieldsRecorded settings) (start : ℤ) :
    ∃ entity, Reports settings plan (some start) expireBy entity := by
  obtain ⟨startField, expiryField, hs, he, hne, hs', he'⟩ := h
  refine ⟨reportOf plan startField expiryField start expireBy, ?_, ?_, ?_, ?_⟩
  · simp [reportOf, Dict.get, Json.str?]
  · cases hp : plan.providerPlanId <;> simp [reportOf, Dict.get, List.lookup_cons, isPlanId, hp]
  · rintro field hf
    obtain rfl : startField = field := Option.some.inj (hs.symm.trans hf)
    simp only [List.mem_cons, List.not_mem_nil, or_false, not_or] at hs'
    simp [reportOf, Dict.get, List.lookup_cons, beq_eq_false_iff_ne.mpr hs'.1,
      beq_eq_false_iff_ne.mpr hs'.2,
      Json.int?]
  · rintro field hf
    obtain rfl : expiryField = field := Option.some.inj (he.symm.trans hf)
    simp only [List.mem_cons, List.not_mem_nil, or_false, not_or] at he'
    simp [reportOf, Dict.get, List.lookup_cons, beq_eq_false_iff_ne.mpr he'.1,
      beq_eq_false_iff_ne.mpr he'.2,
      beq_eq_false_iff_ne.mpr hne.symm, Json.int?]

end Reports

section Start

variable {env : Env} {s : State} {sub : Subscription} {plan : Plan} {kind : ReplacementKind}

def Requested (plan : Plan) (terms : Terms) (s t : State) : Prop :=
  ∃ answer, t.journal.calls = s.journal.calls ++ [.subscription
    (.createSubscription plan.providerPlanId terms.startAt (some (toUnix terms.expiresAt))) answer]

theorem createReplacementSubscription_requests {terms : Terms} {current : Option Ref} :
    Program.returns env (createReplacementSubscription plan terms current)
      (fun _ t => 0 < toUnix terms.expiresAt ∧ Requested plan terms s t) s := by
  unfold createReplacementSubscription
  rw [Program.returns, Program.wp_ite]
  refine ⟨fun _ => trivial, fun hpositive => ?_⟩
  have hexpires : 0 < toUnix terms.expiresAt := by
    simp only [not_or, not_le] at hpositive
    exact hpositive.2
  refine Program.returns_bind (P := fun _ t => Requested plan terms s t) ?_ ?_
  · refine wp_rejectedIsUnavailable (E := fun _ => True) (wp_razorpay.mpr ⟨fun entity _ => ?_, ?_⟩)
    · exact ⟨.ok entity, rfl⟩
    · exact fun _ _ => trivial
  · rintro entity t ht
    unfold usableCreated
    split
    · rw [Program.returns, Program.wp_ite]
      exact ⟨fun _ => trivial, fun _ => ⟨hexpires, ht⟩⟩
    · exact trivial

theorem storeReplacement_stores {ref : Ref} {expiresAt : Time} {actor : ℕ} :
    Program.returns env (storeReplacement sub plan kind ref expiresAt actor)
      (fun _ t => t.journal = s.journal ∧
        t.data.sub? = some (withReplacement sub plan kind ref expiresAt)) s := by
  unfold storeReplacement
  refine Program.returns_savepoint (Program.returns_bind saveSubscription_spec ?_)
  rintro _ t ⟨hjournal, hsub, -⟩
  refine Program.returns_mono (Program.returns_of_wp audit_spec) fun _ u hu => ?_
  exact ⟨hu.1.trans hjournal, hu.sub?.trans hsub⟩

theorem startPlanChangeReplacement_stores {actor : ℕ} {acknowledged : Bool} :
    Program.returns env (startPlanChangeReplacement sub plan kind actor acknowledged env.settings)
      (fun _ t => ∃ window terms ref, replacementWindow env.settings kind = some window ∧
        replacementTerms env.settings sub kind window (env.oracle.clock s.journal.ticks) =
        .ok terms ∧
        0 < toUnix terms.expiresAt ∧ Requested plan terms s t ∧
        t.data.sub? = some (withReplacement sub plan kind ref terms.expiresAt)) s := by
  unfold startPlanChangeReplacement
  cases hwindow : replacementWindow env.settings kind with
  | none => exact trivial
  | some window =>
    rw [Program.returns, Program.wp_bind, wp_timezoneNow]
    cases hterms : replacementTerms env.settings sub kind window
        (env.oracle.clock s.journal.ticks) with
    | error error => exact trivial
    | ok terms =>
      dsimp only
      unfold createReplacement
      rw [Program.wp_ite]
      refine ⟨fun _ => trivial, fun _ => ?_⟩
      rw [Program.wp_ite]
      refine ⟨fun _ => trivial, fun _ => ?_⟩
      rw [Program.wp_bind, Program.wp_ask]
      refine Program.returns_bind (createReplacementSubscription_requests (s := s.tick)) ?_
      rintro created t ⟨hexpires, hrequested⟩
      refine Program.returns_bind storeReplacement_stores ?_
      rintro _ u ⟨hjournal, hstored⟩
      refine ⟨window, terms, created.ref, rfl, hterms, hexpires, ?_, hstored⟩
      unfold Requested at *
      rw [hjournal]
      exact hrequested

end Start

section Terms

variable {settings : Settings} {sub row : Subscription} {plan : Plan}
    {kind : ReplacementKind} {ref : Ref}
  {window now : Time} {terms : Terms}

theorem replacementTerms_upgrade
    (h : replacementTerms settings sub .upgrade window now = .ok terms) :
    terms = ⟨none, now + window⟩ := by
  cases h
  rfl

theorem replacementTerms_downgrade
    (h : replacementTerms settings sub .downgrade window now = .ok terms) :
    ∃ stop, sub.currentPeriodEnd = some stop ∧ now < stop - window ∧
      terms = ⟨some (toUnix stop), stop - window - seconds 1⟩ := by
  unfold replacementTerms at h
  cases hstop : sub.currentPeriodEnd with
  | none => rw [hstop] at h; cases h
  | some stop =>
    simp only [hstop] at h
    split at h
    · cases h
    · next hlate =>
      cases h
      exact ⟨stop, rfl, not_le.mp (not_or.mp hlate).2, rfl⟩

theorem upgrade_usable {n : ℤ} (hn : 0 < n) :
    UsableDeadline settings plan .upgrade now (seconds n)
      (withReplacement sub plan .upgrade ref (now + seconds n)) none
      (toUnix (now + seconds n)) where
  sameSecond := by
    have hwindow : seconds 0 < seconds n := seconds_lt_seconds.mpr hn
    exact ⟨now + seconds n, rfl, rfl, lt_add_of_pos_right now hwindow⟩
  afterNow := by
    have hcut := lt_seconds_toUnix_add (now + seconds n)
    have hwindow : seconds 1 ≤ seconds n := seconds_le_seconds.mpr hn
    linarith
  beforeCutoff := nofun
  reportable := nofun
  verifies := nofun

variable {stop : Time} {n : ℤ}

theorem Reports.verified {entity : Dict} {authorized : Time} {expiresAt : Time}
    (hfields : FieldsRecorded settings)
    (hwindow : replacementWindow settings .downgrade = some window)
    (hstop : row.currentPeriodEnd = some stop) (hplan : row.replacementPlan = some plan)
    (hexpires : row.replacementExpiresAt = some expiresAt) (hpositive : 0 < toUnix expiresAt)
    (hcutoff : expiresAt < stop - window)
    (h : Reports settings plan (some (toUnix stop)) (toUnix expiresAt) entity)
    (hbefore : authorized < seconds (toUnix expiresAt)) :
    downgradeVerified settings row entity authorized = true := by
  obtain ⟨startField, expiryField, hstart, hexpiry, -⟩ := hfields
  have hauthorized : authorized < stop - window :=
    hbefore.trans (lt_of_le_of_lt (seconds_toUnix_le hpositive) hcutoff)
  unfold downgradeVerified
  simp only [hstart, hexpiry, hwindow, hplan, hstop, hexpires, h.start startField hstart,
    h.expiry expiryField hexpiry, Bool.and_eq_true, decide_eq_true_eq]
  refine ⟨⟨⟨⟨⟨?_, h.plan⟩, trivial⟩, trivial⟩, hbefore⟩, hauthorized⟩
  unfold statusIn
  rw [h.status]
  rfl

theorem fieldsRecorded_of_verified {entity : Dict} {authorized : Time} {start expiry : ℤ}
    (hne : start ≠ expiry) (h : Reports settings plan (some start) expiry entity)
    (hv : downgradeVerified settings row entity authorized = true) : FieldsRecorded settings := by
  unfold downgradeVerified at hv
  split at hv
  · next startField expiryField margin target hstart hexpiry _ _ =>
    have hs := Json.int?_eq_some.mp (h.start startField hstart)
    have he := Json.int?_eq_some.mp (h.expiry expiryField hexpiry)
    have hown : ∀ field, (∃ z, entity.get field = .int z) → field ∉ ["status", "plan_id"] := by
      rintro field ⟨z, hz⟩ hmem
      have hstatus := h.status
      have hplan := h.plan
      simp only [List.mem_cons, List.not_mem_nil, or_false] at hmem
      rcases hmem with rfl | rfl
      · rw [hz] at hstatus
        cases hstatus
      · rw [hz] at hplan
        cases hplan
    refine ⟨startField, expiryField, hstart, hexpiry, ?_, hown _ ⟨_, hs⟩, hown _ ⟨_, he⟩⟩
    rintro rfl
    rw [hs] at he
    cases he
    exact hne rfl
  · cases hv

/-- The deadline of a downgrade is usable when the clock leaves it a second, and the provider's
answer can be verified. -/
theorem downgrade_usable (hn : 0 < n)
    (hwindow : replacementWindow settings .downgrade = some (seconds n))
    (hstop : sub.currentPeriodEnd = some stop)
    (hpositive : 0 < toUnix (stop - seconds n - seconds 1)) :
    UsableDeadline settings plan .downgrade now (seconds n)
        (withReplacement sub plan .downgrade ref (stop - seconds n - seconds 1))
        (some (toUnix stop))
        (toUnix (stop - seconds n - seconds 1)) ↔
      FieldsRecorded settings ∧ AheadOfCutoff settings sub now := by
  have hsecond : toUnix (stop - seconds n - seconds 1) = toUnix (stop - seconds n) - 1 :=
    toUnix_sub_seconds one_pos.le hpositive
  have hbefore : stop - seconds n - seconds 1 < stop - seconds n := by
    have : seconds 0 < seconds 1 := seconds_lt_seconds.mpr one_pos
    exact sub_lt_self _ this
  have hahead : AheadOfCutoff settings sub now ↔
      now < seconds (toUnix (stop - seconds n - seconds 1)) := by
    unfold AheadOfCutoff
    rw [lt_seconds_iff hpositive, hwindow, hstop]
    simp only [Option.mem_def, Option.some.injEq, forall_eq', hsecond]
    omega
  rw [hahead]
  constructor
  · intro h
    refine ⟨?_, h.afterNow⟩
    obtain ⟨entity, hentity⟩ := h.reportable rfl
    refine fieldsRecorded_of_verified ?_ hentity (h.verifies rfl entity now hentity h.afterNow)
    -- the period ends after the deadline by the margin and a second
    have hend : toUnix (stop - seconds n) = toUnix stop - n :=
      toUnix_sub_seconds hn.le (by omega)
    omega
  · rintro ⟨hfields, hnow⟩
    have hle := seconds_toUnix_le hpositive
    exact {
      sameSecond := ⟨_, rfl, rfl, hnow.trans_le hle⟩
      afterNow := hnow
      beforeCutoff := fun _ => ⟨_, stop, rfl, hstop, hbefore, lt_of_le_of_lt hle hbefore⟩
      reportable := fun _ => hfields.reported _
      verifies := fun _ entity authorized hentity hauthorized =>
        hentity.verified hfields hwindow hstop rfl rfl hpositive hbefore hauthorized }

end Terms

/-- A stored replacement has a usable deadline exactly when it is an upgrade's, or the two fields
are recorded and the clock was not in the last second before the cutoff. -/
theorem replacement_deadline {env : Env} {s t : State} {sub : Subscription} {plan : Plan}
    {kind : ReplacementKind} {actor : ℕ} {acknowledged : Bool} {result : CheckoutResult}
    (hrun : (startPlanChangeReplacement sub plan kind actor acknowledged env.settings).run env s =
      (.ok result, t)) :
    ∃ window row startAt expireBy, StoredReplacement env s t plan kind window row startAt expireBy ∧
      (UsableDeadline env.settings plan kind (env.oracle.clock s.journal.ticks) window row
      startAt expireBy ↔
        kind = .upgrade ∨ FieldsRecorded env.settings ∧
          AheadOfCutoff env.settings sub (env.oracle.clock s.journal.ticks)) := by
  obtain ⟨window, terms, ref, hwindow, hterms, hpositive, hrequested, hrow⟩ :=
    Program.wp_ok startPlanChangeReplacement_stores hrun
  refine ⟨window, _, terms.startAt, toUnix terms.expiresAt, ⟨hwindow, hrow, hrequested⟩, ?_⟩
  obtain ⟨n, hn, rfl⟩ := replacementWindow_eq_some hwindow
  cases kind with
  | upgrade =>
    obtain rfl := replacementTerms_upgrade hterms
    exact ⟨fun _ => Or.inl rfl, fun _ => upgrade_usable hn⟩
  | downgrade =>
    obtain ⟨stop, hstop, -, rfl⟩ := replacementTerms_downgrade hterms
    rw [downgrade_usable hn hwindow hstop hpositive]
    simp

def onGrowth : Subscription where
  plan := growth
  status := .active
  currentPeriodStart := some (seconds 1000)
  currentPeriodEnd := some (seconds 2000)
  paymentProviderRef := some refA

/-- The second subscription can be created, with the clock at `now` and the cutoff at 1900. -/
def createsB (now : ℤ) : Env :=
  ({ create := .ok (entityOf "sub_b" "plan_s" "created" 0 0) } : Answers).at now

def beforeChange : State := ⟨rowless.withRow onGrowth (by decide), .empty⟩

def startsDowngrade (env : Env) : Except Error CheckoutResult × State :=
  (startPlanChangeReplacement onGrowth starter .downgrade 7 true env.settings).run env beforeChange

theorem replacement_deadline_early : ∃ window row startAt expireBy,
    (startsDowngrade (createsB 1500)).2.data.sub? = some row ∧
      UsableDeadline someSettings starter .downgrade (seconds 1500) window row
      startAt expireBy := by
  have hrun : startsDowngrade (createsB 1500) =
      (.ok ⟨true, some (checkoutPayload someSettings refB)⟩, (startsDowngrade (createsB 1500)).2) :=
        rfl
  unfold startsDowngrade at hrun
  obtain ⟨window, row, startAt, expireBy, hstored, husable⟩ := replacement_deadline hrun
  refine ⟨window, row, startAt, expireBy, hstored.row, husable.mpr (Or.inr ⟨?_, ?_⟩)⟩
  · exact ⟨"start_at", "expire_by", rfl, rfl, by decide, by decide, by decide⟩
  · rintro window ⟨⟩ stop ⟨⟩
    decide

/-- In the second before the cutoff the deadline is the clock itself. -/
theorem replacement_born_lapsed : ∃ window row startAt expireBy,
    StoredReplacement (createsB 1899) beforeChange (startsDowngrade (createsB 1899)).2
    starter .downgrade
        window row startAt expireBy ∧
      ¬ UsableDeadline someSettings starter .downgrade (seconds 1899) window row
      startAt expireBy := by
  refine ⟨seconds 100,
    withReplacement onGrowth starter .downgrade refB (seconds 1899), some 2000, 1899,
    ⟨rfl, rfl, _, rfl⟩, fun h => ?_⟩
  exact absurd h.afterNow (lt_irrefl _)

end ReviewFlow.Billing
