import Mathlib.Tactic
import ReviewFlow.Interleaving

/-!
# The context managers of `core.tenancy`

A session holds the context variables, the transaction-local settings and the blocks that
are open, innermost first. A `with` block is an entry and an exit, and the exits come in the
order of the stack, so any list of entries and exits is a well-nested use. `SET LOCAL` lasts
to the end of the outermost transaction; a savepoint that is rolled back takes it back.
-/

namespace ReviewFlow.Tenancy

open Interleaving

abbrev Uuid := ℕ

/-- What a setting holds: on a pooled connection it reads `''` once the transaction that set it is
over. -/
inductive Raw (α : Type) where
  | unset
  | empty
  | value (a : α)
  deriving DecidableEq

/-- `NULLIF(current_setting(name, true), '')`. -/
def Raw.nullif {α : Type} : Raw α → Option α
  | .value a => some a
  | _ => none

def Raw.ended {α : Type} : Raw α → Raw α
  | .unset => .unset
  | _ => .empty

inductive Lookup where
  | userId
  | apiKeyHash
  | integrationId
  | billingRef
  | phoneNumberId
  | platformWrite
  deriving DecidableEq

inductive Literal where
  | uuid (u : Uuid)
  | text (first : Char) (rest : List Char)
  deriving DecidableEq

structure Settings where
  merchant : Raw Uuid
  lookup : Lookup → Raw Literal

def Settings.ended (s : Settings) : Settings := ⟨s.merchant.ended, fun k => (s.lookup k).ended⟩

def Settings.setLookup (s : Settings) (k : Lookup) (v : Literal) : Settings :=
  { s with lookup := Function.update s.lookup k (.value v) }

structure Context where
  merchant : Option Uuid
  lookup : Lookup → Option Literal

inductive Manager where
  /-- None is an argument that `uuid.UUID` refuses. -/
  | tenantContext (merchantId : Option Uuid)
  | tenantAtomic (durable : Bool)
  /-- None is an argument that fails the manager's own check. -/
  | lookupAtomic (k : Lookup) (value : Option Literal)
  | atomic (durable : Bool)

def literal (valid : List Char → Bool) (text : String) : Option Literal :=
  match text.toList with
  | [] => none
  | c :: cs => if valid (c :: cs) then some (.text c cs) else none

def isLowerHex (c : Char) : Bool := c.isDigit || ('a' ≤ c && c ≤ 'f')

/-- `^[0-9a-f]{64}$` with `match`: a newline may follow. -/
def isHex64 (text : List Char) : Bool :=
  (text.take 64).all isLowerHex && (text.length == 64 || text.drop 64 == ['\n'])

def isValidBillingRef (text : List Char) : Bool :=
  text.length ≤ 64 && text.all fun c => c.isAlphanum || c == '_'

def isValidPhoneNumberId (text : List Char) : Bool := text.length ≤ 64 && text.all Char.isDigit

def isPlatformWriteScope (text : List Char) : Bool :=
  text == "whatsapp_shared_pool".toList || text == "staff_auth".toList

def userLookupAtomic (userId : Option Uuid) : Manager := .lookupAtomic .userId (userId.map .uuid)
def apiKeyLookupAtomic (keyHash : String) : Manager :=
  .lookupAtomic .apiKeyHash (literal isHex64 keyHash)
def integrationLookupAtomic (integrationId : Option Uuid) : Manager :=
  .lookupAtomic .integrationId (integrationId.map .uuid)
def billingRefLookupAtomic (ref : String) : Manager :=
  .lookupAtomic .billingRef (literal isValidBillingRef ref)
def whatsappNumberLookupAtomic (phoneNumberId : String) : Manager :=
  .lookupAtomic .phoneNumberId (literal isValidPhoneNumberId phoneNumberId)
def platformWriteAtomic (scope : String) : Manager :=
  .lookupAtomic .platformWrite (literal isPlatformWriteScope scope)

inductive Opened where
  | tenant
  | lookup (k : Lookup) (v : Literal)
  | plain
  deriving DecidableEq

inductive Frame where
  | context (before : Context)
  | block (opened : Opened) (before : Context) (outer : Settings)

def Frame.opened? : Frame → Option Opened
  | .context _ => none
  | .block opened _ _ => some opened

def outermost (frames : List Frame) : Option Opened := (frames.filterMap Frame.opened?).getLast?

structure Session where
  context : Context
  settings : Settings
  frames : List Frame

/-- `connection.in_atomic_block`. -/
def Session.inAtomic (s : Session) : Bool := (outermost s.frames).isSome

/-- `transaction.atomic(durable=...)` around settings that are made in it. -/
def Session.begin (s : Session) (durable : Bool) (opened : Opened) (context : Context)
    (settings : Settings) :
    Option Session :=
  if durable && s.inAtomic then none
  else some ⟨context, settings, .block opened s.context s.settings :: s.frames⟩

def Session.enter (s : Session) : Manager → Option Session
  | .tenantContext none => none
  | .tenantContext (some merchantId) =>
    if s.context.merchant.all (· == merchantId) then
      some { s with
        context := { s.context with merchant := some merchantId }
        frames := .context s.context :: s.frames }
    else none
  | .tenantAtomic durable => match s.context.merchant with
    | none => none
    | some merchantId =>
      s.begin durable .tenant s.context { s.settings with merchant := .value merchantId }
  | .lookupAtomic k value =>
    if s.context.merchant.isSome then none
    else match value with
      | none => none
      | some v => s.begin true (.lookup k v)
          { s.context with lookup := Function.update s.context.lookup k (some v) }
            (s.settings.setLookup k v)
  | .atomic durable => s.begin durable .plain s.context s.settings

/-- The settings after the innermost block: the transaction is over, or a savepoint is
released or rolled back. -/
def settingsAfter (rest : List Frame) (raised : Bool) (outer settings : Settings) : Settings :=
  if outermost rest = none then settings.ended else if raised then outer else settings

def Session.exit (s : Session) (raised : Bool) : Session :=
  match s.frames with
  | [] => s
  | .context before :: rest => { s with context := before, frames := rest }
  | .block _ before outer :: rest => ⟨before, settingsAfter rest raised outer s.settings, rest⟩

inductive Event where
  | enter (m : Manager)
  | exit (raised : Bool)

def Session.step (s : Session) : Event → Session
  | .enter m => (s.enter m).getD s
  | .exit raised => s.exit raised

abbrev SessionTransition := Transition Session Event

def Session.idle (left : Settings) : Session := ⟨⟨none, fun _ => none⟩, left.ended, []⟩

def sessionRun (left : Settings) (events : List Event) : List SessionTransition :=
  trace Session.step (.idle left) events

def SessionTransition.Raises (t : SessionTransition) : Prop :=
  ∃ m, t.label = .enter m ∧ t.before.enter m = none

def Settings.Separate (s : Settings) : Prop :=
  (∀ k, s.merchant.nullif ≠ none → (s.lookup k).nullif = none) ∧
    ∀ k l, (s.lookup k).nullif ≠ none → (s.lookup l).nullif ≠ none → k = l

/-- A `tenant_atomic()` that is not durable is entered, in a tenant context, inside a lookup or
platform block. -/
def SessionTransition.NestsTenant (t : SessionTransition) : Prop :=
  t.label = .enter (.tenantAtomic false) ∧ t.before.context.merchant ≠ none ∧
    ∃ k v, outermost t.before.frames = some (.lookup k v)

section Frames

variable {P : Settings → Option Opened → Prop} {s : Session} {frames rest : List Frame}

@[simp] theorem outermost_nil : outermost [] = none := rfl

@[simp] theorem outermost_context (before : Context) :
    outermost (.context before :: rest) = outermost rest := rfl

@[simp] theorem outermost_block (o : Opened) (before : Context) (outer : Settings) :
    outermost (.block o before outer :: rest) = some ((outermost rest).getD o) := by
  have h : (Frame.block o before outer :: rest).filterMap Frame.opened? =
      o :: rest.filterMap Frame.opened? :=
    List.filterMap_cons_some rfl
  rw [outermost, h, List.getLast?_cons, outermost]

/-- Each block below was entered in a state that `P` describes. -/
def Below (P : Settings → Option Opened → Prop) : List Frame → Prop
  | [] => True
  | .context _ :: rest => Below P rest
  | .block _ _ outer :: rest => P outer (outermost rest) ∧ Below P rest

/-- `P` of the settings and the outermost block, now and after any rollback. -/
def Holds (P : Settings → Option Opened → Prop) (s : Session) : Prop :=
  P s.settings (outermost s.frames) ∧ Below P s.frames

/-- What the managers need of `P`. -/
structure Preserved (P : Settings → Option Opened → Prop) (inner : Opened → Prop) : Prop where
  ended : ∀ s, P (Settings.ended s) none
  tenant : ∀ s m, P s none → P { s with merchant := .value m } (some .tenant)
  nested : ∀ s m o, inner o → P s (some o) → P { s with merchant := .value m } (some o)
  lookup : ∀ s k v, P s none → P (s.setLookup k v) (some (.lookup k v))
  plain : ∀ s, P s none → P s (some .plain)

theorem holds_exit (hP : ∀ s, P (Settings.ended s) none) (h : Holds P s) (raised : Bool) :
    Holds P (s.exit raised) := by
  obtain ⟨context, settings, frames⟩ := s
  match frames with
  | [] => exact h
  | .context before :: rest => exact h
  | .block o before outer :: rest =>
    obtain ⟨hnow, houter, hrest⟩ := h
    refine ⟨?_, hrest⟩
    simp only [Session.exit, settingsAfter]
    split
    case isTrue hnone =>
      rw [hnone]
      exact hP settings
    case isFalse hsome =>
      obtain ⟨x, hx⟩ := Option.ne_none_iff_exists'.mp hsome
      simp only [outermost_block, hx, Option.getD_some] at hnow
      split
      · exact houter
      · rw [hx]
        exact hnow

theorem holds_begin {durable : Bool} {o : Opened} {context : Context}
    {settings : Settings} {s' : Session}
    (h : Holds P s) (hb : s.begin durable o context settings = some s')
    (hout : outermost s.frames = none → P settings (some o))
    (hin : ∀ x, durable = false → outermost s.frames = some x → P settings (some x)) :
    Holds P s' := by
  unfold Session.begin at hb
  split at hb
  · cases hb
  case isFalse hdur =>
    cases hb
    refine ⟨?_, h⟩
    simp only [outermost_block]
    cases ho : outermost s.frames with
    | none => exact hout ho
    | some x =>
      apply hin x _ ho
      simpa [Session.inAtomic, ho] using hdur

theorem holds_enter {inner : Opened → Prop} (hP : Preserved P inner) {m : Manager}
    {s' : Session} (h : Holds P s)
    (hinner : ∀ o, m = .tenantAtomic false → s.context.merchant ≠ none →
      outermost s.frames = some o → inner o)
    (he : s.enter m = some s') : Holds P s' := by
  have hnow := h.1
  cases m with
  | tenantContext merchantId =>
    cases merchantId with
    | none => cases he
    | some merchantId =>
      simp only [Session.enter] at he
      split at he
      · cases he
        exact h
      · cases he
  | tenantAtomic durable =>
    simp only [Session.enter] at he
    cases hm : s.context.merchant with
    | none => simp [hm] at he
    | some merchantId =>
      rw [hm] at he
      apply holds_begin h he
      · intro ho
        rw [ho] at hnow
        exact hP.tenant _ _ hnow
      · rintro x rfl ho
        rw [ho] at hnow
        exact hP.nested _ _ _ (hinner x rfl (by simp [hm]) ho) hnow
  | lookupAtomic k value =>
    simp only [Session.enter] at he
    split at he
    · cases he
    cases value with
    | none => cases he
    | some v =>
      apply holds_begin h he
      · intro ho
        rw [ho] at hnow
        exact hP.lookup _ _ _ hnow
      · exact fun x hd => absurd hd (by decide)
  | atomic durable =>
    apply holds_begin h he
    · intro ho
      rw [ho] at hnow
      exact hP.plain _ hnow
    · intro x _ ho
      rwa [ho] at hnow

theorem holds_step {inner : Opened → Prop} (hP : Preserved P inner) (s : Session) (e : Event)
    (h : Holds P s)
    (hinner : ∀ o, e = .enter (.tenantAtomic false) → s.context.merchant ≠ none →
      outermost s.frames = some o →
      inner o) : Holds P (s.step e) := by
  cases e with
  | exit raised => exact holds_exit hP.ended h raised
  | enter m =>
    cases he : s.enter m with
    | none =>
      have hs : s.step (.enter m) = s := by simp [Session.step, he]
      rwa [hs]
    | some s' =>
      have hs : s.step (.enter m) = s' := by simp [Session.step, he]
      rw [hs]
      exact holds_enter hP h (fun o hm => hinner o (hm ▸ rfl)) he

end Frames

section Separation

variable {left : Settings} {events : List Event} {t : SessionTransition}

@[simp] theorem Raw.nullif_ended {α : Type} (r : Raw α) : r.ended.nullif = none := by
  cases r <;> rfl

structure Held (s : Settings) (o : Option Opened) : Prop where
  held : ∀ k v, o = some (.lookup k v) → (s.lookup k).nullif = some v
  only : ∀ k, (s.lookup k).nullif ≠ none → ∃ v, o = some (.lookup k v)
  merchant : o = none → s.merchant.nullif = none

def Apart (s : Settings) (o : Option Opened) : Prop :=
  Held s o ∧ (s.merchant.nullif ≠ none → ∀ k v, o ≠ some (.lookup k v))

theorem held_lookup {s : Settings} {k : Lookup} {v : Literal} (h : Held s none) :
    Held (s.setLookup k v) (some (.lookup k v)) where
  held l w heq := by
    simp only [Option.some.injEq, Opened.lookup.injEq] at heq
    obtain ⟨rfl, rfl⟩ := heq
    simp [Settings.setLookup, Raw.nullif]
  only l hl := by
    by_cases hkl : l = k
    · exact ⟨v, by rw [hkl]⟩
    · simp only [Settings.setLookup, Function.update_of_ne hkl] at hl
      obtain ⟨w, hw⟩ := h.only l hl
      cases hw
  merchant := nofun

theorem held_preserved : Preserved Held fun _ => True where
  ended s := ⟨nofun, fun k h => absurd (Raw.nullif_ended _) h, fun _ => Raw.nullif_ended _⟩
  tenant s m h := by
    refine ⟨nofun, fun k hk => ?_, nofun⟩
    obtain ⟨v, hv⟩ := h.only k hk
    cases hv
  nested s m o _ h := ⟨h.held, h.only, nofun⟩
  lookup _ _ _ h := held_lookup h
  plain s h := by
    refine ⟨nofun, fun k hk => ?_, nofun⟩
    obtain ⟨v, hv⟩ := h.only k hk
    cases hv

theorem apart_preserved : Preserved Apart fun o => ∀ k v, o ≠ .lookup k v where
  ended s := ⟨held_preserved.ended s, fun h => absurd (Raw.nullif_ended _) h⟩
  tenant s m h := ⟨held_preserved.tenant s m h.1, nofun⟩
  nested s m o ho h :=
    ⟨held_preserved.nested s m o trivial h.1, fun _ k v heq => ho k v (Option.some.inj heq)⟩
  lookup _ _ _ h := ⟨held_lookup h.1, fun hm => absurd (h.1.merchant rfl) hm⟩
  plain s h := ⟨held_preserved.plain s h.1, nofun⟩

theorem Apart.separate {s : Settings} {o : Option Opened} (h : Apart s o) : s.Separate := by
  constructor
  · intro k hm
    by_contra hk
    obtain ⟨v, hv⟩ := h.1.only k hk
    exact h.2 hm k v hv
  · intro k l hk hl
    obtain ⟨v, hv⟩ := h.1.only k hk
    obtain ⟨w, hw⟩ := h.1.only l hl
    rw [hv] at hw
    cases hw
    rfl

theorem holds_idle {P : Settings → Option Opened → Prop} (hP : ∀ s, P (Settings.ended s) none) :
    Holds P (.idle left) :=
  ⟨hP left, trivial⟩

theorem not_separate_of_nests (h : t.NestsTenant) (hb : Holds Held t.before)
    (ht : t = transition Session.step t.before t.label) : ¬ t.after.settings.Separate := by
  obtain ⟨hlabel, hcontext, k, v, hout⟩ := h
  obtain ⟨m, hm⟩ := Option.ne_none_iff_exists'.mp hcontext
  have hafter : t.after.settings = { t.before.settings with merchant := .value m } := by
    rw [ht, transition, hlabel]
    simp [Session.step, Session.enter, hm, Session.begin]
  have hlookup := hb.1.held k v hout
  intro hsep
  have hnone := hsep.1 k (by simp [hafter, Raw.nullif])
  rw [hafter] at hnone
  simp only [hlookup, reduceCtorEq] at hnone

theorem separate_iff :
    (∀ t ∈ sessionRun left events, t.after.settings.Separate) ↔
      ∀ t ∈ sessionRun left events, ¬ t.NestsTenant := by
  constructor
  · intro h t ht hn
    have hb : Holds Held t.before := reachable_invariant (I := Holds Held)
      (holds_idle held_preserved.ended)
      (fun s e hs => holds_step held_preserved s e hs fun _ _ _ _ => trivial) t ht
    exact not_separate_of_nests hn hb (trace_step ht) (h t ht)
  · intro h t ht
    have hstep : ∀ s e, Holds Apart s →
      ¬ SessionTransition.NestsTenant (transition Session.step s e) →
        Holds Apart (s.step e) := by
      intro s e hs hn
      apply holds_step apart_preserved s e hs
      rintro o rfl hcontext hout k v rfl
      exact hn ⟨rfl, hcontext, k, v, hout⟩
    have hb : Holds Apart t.before :=
      trace_invariant (I := Holds Apart) (holds_idle apart_preserved.ended) hstep h t ht
    have heq := trace_step ht
    have hafter := hstep t.before t.label hb (heq ▸ h t ht)
    rw [heq]
    exact hafter.1.separate

/-- In a run in which no manager raises, no transaction has the merchant setting together with
another one, or two others, if and only if no `tenant_atomic()` is nested in a lookup block. -/
theorem settings_never_meet (left : Settings) (events : List Event) :
    ((∃ t ∈ sessionRun left events, t.Raises) ∨
      ∀ t ∈ sessionRun left events, t.after.settings.Separate) ↔
      (∃ t ∈ sessionRun left events, t.Raises) ∨ ∀ t ∈ sessionRun left events, ¬ t.NestsTenant :=
  or_congr_right separate_iff

/-- A tenant transaction inside the membership lookup of a login. -/
theorem lookup_meets_tenant : ¬ ∀ left events,
    (∃ t ∈ sessionRun left events, t.Raises) ∨
    ∀ t ∈ sessionRun left events, t.after.settings.Separate := by
  intro h
  let left : Settings := ⟨.unset, fun _ => .unset⟩
  let events : List Event :=
    [.enter (userLookupAtomic (some 7)), .enter (.tenantContext (some 1)),
      .enter (.tenantAtomic false)]
  rcases h left events with ⟨t, ht, m, hlabel, hraise⟩ | hsep
  · have hmem : t ∈ [_, _, _] := ht
    simp only [List.mem_cons, List.not_mem_nil, or_false] at hmem
    rcases hmem with rfl | rfl | rfl <;> cases hlabel <;> cases hraise
  · have hlast := hsep ((sessionRun left events).get ⟨2, by decide⟩) (List.get_mem _ _)
    have := hlast.1 .userId (by decide)
    revert this
    decide

end Separation

end ReviewFlow.Tenancy
