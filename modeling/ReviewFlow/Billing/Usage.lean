import ReviewFlow.Billing.Tasks

/-!
# The usage records

A record belongs to one period. No operation of the model changes a record: a
transaction only adds new ones, at zero, for periods that had none.
-/

namespace ReviewFlow.Billing

abbrev Period := Time × Time

def UsageRecord.period (u : UsageRecord) : Period := (u.periodStart, u.periodEnd)

/-- `billing_usagerecord_merchant_period_uniq`. -/
def UniquePeriods (usage : List UsageRecord) : Prop := (usage.map UsageRecord.period).Nodup

instance (usage : List UsageRecord) : Decidable (UniquePeriods usage) :=
  inferInstanceAs (Decidable (List.Nodup _))

/-- What is used of a period, none of it where there is no record. -/
def usedOn (usage : List UsageRecord) (p : Period) : ℕ :=
  ((usage.find? fun u => decide (u.period = p)).map (·.requestsUsed)).getD 0

section Usage

variable {usage usage' : List UsageRecord} {p : Period} {u v : UsageRecord}

theorem UniquePeriods.eq (h : UniquePeriods usage) (hu : u ∈ usage) (hv : v ∈ usage)
    (hp : u.period = v.period) : u = v :=
  List.inj_on_of_nodup_map h hu hv hp

theorem usedOn_eq (h : UniquePeriods usage) (hu : u ∈ usage) :
    usedOn usage u.period = u.requestsUsed := by
  unfold usedOn
  cases hf : usage.find? fun v => decide (v.period = u.period) with
  | none => exact absurd (decide_eq_true rfl) (List.find?_eq_none.mp hf u hu)
  | some v =>
    have hv := List.mem_of_find?_eq_some hf
    have hp := List.find?_some hf
    rw [h.eq hv hu (of_decide_eq_true hp)]
    rfl

def Extends : List UsageRecord → List UsageRecord → Prop :=
  Relation.ReflTransGen fun a b => ∃ start stop, Opened a b start stop

theorem Extends.refl (usage : List UsageRecord) : Extends usage usage := Relation.ReflTransGen.refl

theorem Extends.trans {a b c : List UsageRecord} (h : Extends a b)
    (h' : Extends b c) : Extends a c :=
  Relation.ReflTransGen.trans h h'

theorem Opened.extends {start stop : Time} (h : Opened usage usage' start stop) :
    Extends usage usage' :=
  Relation.ReflTransGen.single ⟨start, stop, h⟩

theorem Extends.mem (h : Extends usage usage') (hu : u ∈ usage) : u ∈ usage' := by
  induction h with
  | refl => exact hu
  | tail _ hm ih =>
    obtain ⟨start, stop, rfl | ⟨-, rfl⟩⟩ := hm
    · exact ih
    · exact List.mem_append_left _ ih

theorem Extends.unique (h : Extends usage usage') (hu : UniquePeriods usage) :
    UniquePeriods usage' := by
  induction h with
  | refl => exact hu
  | tail _ hm ih =>
    obtain ⟨start, stop, rfl | ⟨hnew, rfl⟩⟩ := hm
    · exact ih
    · rw [UniquePeriods, List.map_append, List.nodup_append]
      refine ⟨ih, by simp, ?_⟩
      intro a ha b hb hab
      subst hab
      obtain ⟨w, hw, rfl⟩ := List.mem_map.mp ha
      rw [List.map_singleton, List.mem_singleton] at hb
      exact hnew w hw ⟨congrArg Prod.fst hb, congrArg Prod.snd hb⟩

theorem Extends.usedOn (h : Extends usage usage') (p : Period) :
    usedOn usage' p = usedOn usage p := by
  induction h with
  | refl => rfl
  | tail _ hm ih =>
    obtain ⟨start, stop, rfl | ⟨hnew, rfl⟩⟩ := hm
    · exact ih
    · rw [← ih, Billing.usedOn, Billing.usedOn, List.find?_append]
      cases List.find? (fun u : UsageRecord => decide (u.period = p)) _ with
      | some v => rfl
      | none =>
        rw [Option.none_or, List.find?_singleton]
        split <;> rfl

end Usage

theorem Entitling.extends {calls : List Call} {db db' : Database} (h : Entitling calls db db') :
    Extends db.usage db'.usage := by
  cases h with
  | snapshot answered invoiced done =>
    have hu := done.usage
    split at hu
    · obtain ⟨start, stop, -, ho⟩ := hu
      exact ho.extends
    · exact hu ▸ .refl _
  | switched answered invoiced done => exact done.usage.extends

theorem Tending.usage {calls : List Call} {db db' : Database} (h : Tending calls db db') :
    db'.usage = db.usage := by
  cases h with
  | retires done => exact done.usage
  | committed candidate done => exact done.usage
  | uncommitted done => exact done.usage
  | undone before row after usage events => exact usage
  | retiredCleared gone done => exact done.usage
  | plain done => exact done.usage

theorem Quiet.usage {calls : List Call} {db db' : Database} (h : Quiet calls db db') :
    db'.usage = db.usage := by
  cases h with
  | tending done => exact done.usage
  | stored inactive fresh gone done => exact done.usage
  | inserted plan absent after => rw [after]

theorem Move.extends {calls : List Call} {db db' : Database} (h : Move calls db db') :
    Extends db.usage db'.usage :=
  h.elim Entitling.extends fun hq => hq.usage ▸ .refl _

theorem Keeping.extends {calls : List Call} {db db' : Database} (h : Keeping calls db db') :
    Extends db.usage db'.usage := by
  induction h with
  | refl => exact .refl _
  | tail _ hm ih => exact ih.trans (Move.extends hm.1)

theorem QuietPath.usage {calls : List Call} {db db' : Database} (h : QuietPath calls db db') :
    db'.usage = db.usage := by
  induction h with
  | refl => rfl
  | tail _ hm ih => exact hm.1.usage.trans ih

theorem Course.extends {calls : List Call} {db db' : Database} (h : Course calls db db') :
    Extends db.usage db'.usage := by
  obtain ⟨mid, hfirst, htail⟩ := h
  have hmid : Extends db.usage mid.usage := by
    rcases hfirst with rfl | hm
    · exact .refl _
    · exact hm.extends
  rcases htail with (hk | ⟨-, hq⟩) | ⟨-, -, -, done⟩
  · exact hmid.trans hk.extends
  · rwa [hq.usage]
  · rwa [done.usage]

theorem Tended.extends {calls : List Call} {db db' : Database} (h : Tended calls db db') :
    Extends db.usage db'.usage := by
  obtain ⟨mid, hm, hi⟩ := h
  rw [hi.usage]
  rcases hm with rfl | hm | hm
  · exact .refl _
  · exact hm.extends
  · exact hm.usage ▸ .refl _

end ReviewFlow.Billing
