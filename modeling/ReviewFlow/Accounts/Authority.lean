import ReviewFlow.RowLocks
import ReviewFlow.Accounts.Team

/-!
# Who changes the team

Three results about every run: an accepted OWNER always remains; what touches an OWNER
is done by another accepted OWNER, but for one kind of invite; and a committed change is
made by an OWNER or ADMIN, but for the requests of an actor demoted while they wait.
-/

namespace ReviewFlow.Accounts

open Savepoint Tables Program Interleaving

section Owners

variable {env : Env} {db db' : Database} {p : Pending} {request : TeamRequest}
    {a b m : Member} {k : Uuid}

theorem owner_saved {fields : MemberFields} (ha : a ∈ db.members) (ho : a.isOwner = true)
    (h : a.id = k → fields.role = none) : ∃ b ∈ db.members.save k fields, b.isOwner = true := by
  refine ⟨a.saved k fields, Members.mem_save.mpr ⟨a, ha, rfl⟩, ?_⟩
  unfold Member.isOwner Member.accepted at ho ⊢
  rw [Bool.and_eq_true, beq_iff_eq] at ho ⊢
  by_cases hk : a.id = k
  · obtain ⟨t, ht⟩ := Option.isSome_iff_exists.mp ho.2
    cases hf : fields.acceptedAt <;> simp [Member.saved, hk, h hk, ho.1, ht, hf]
  · rw [Member.saved_of_ne hk]
    exact ho

theorem Performed.keeps_owner (h : Performed env db k request db')
    (ho : ∃ a ∈ db.members, a.isOwner = true) : ∃ a ∈ db'.members, a.isOwner = true := by
  obtain ⟨o, hmem, howner⟩ := ho
  -- The actor of a change of an OWNER is an OWNER, and remains one.
  have remains : ∀ {c t : Member} {newRole : Option Role}, Acting db k c →
      t ∈ db.members → ¬ DeniedManage c t newRole → o.id = t.id →
      c.isOwner = true ∧ c.id ≠ t.id := by
    intro c t newRole acting ht allowed hid
    have hrole : t.role = .owner := by
      rw [← members_eq hmem ht hid]
      exact beq_iff_eq.mp (Bool.and_eq_true_iff.mp howner).1
    have hc : c.role = .owner := by
      by_contra hno
      exact allowed (.inr ⟨hno, .inl hrole⟩)
    exact ⟨by simp [Member.isOwner, hc, acting.accepted], fun h => allowed (.inl h.symm)⟩
  cases h with
  | invited acting grants pending isRole later unknown rows audited =>
    exact ⟨o, by rw [Table.mem_def, rows]; exact List.mem_append_left _ hmem, howner⟩
  | @reinvited _ _ _ t _ acting grants ht pending addressed saved audited =>
    rw [saved]
    apply owner_saved hmem howner
    intro hid
    rw [← members_eq hmem ht hid, (Bool.and_eq_true_iff.mp howner).2] at pending
    cases pending
  | roleKept => exact ⟨o, hmem, howner⟩
  | @roleChanged _ role c t _ acting ht id allowed changed saved audited =>
    rw [saved]
    by_cases hid : o.id = t.id
    · obtain ⟨hc, hne⟩ := remains acting ht allowed hid
      exact owner_saved acting.mem hc fun h => absurd h hne
    · exact owner_saved hmem howner fun h => absurd h hid
  | @removed _ c t _ acting ht id allowed deleted audited =>
    rw [deleted]
    by_cases hid : o.id = t.id
    · obtain ⟨hc, hne⟩ := remains acting ht allowed hid
      exact ⟨c, Table.mem_delete.mpr ⟨acting.mem, by simpa using hne⟩, hc⟩
    · exact ⟨o, Table.mem_delete.mpr ⟨hmem, by simpa using hid⟩, howner⟩
  | relocated acting manages members =>
    rw [members]
    exact ⟨o, hmem, howner⟩

theorem Moved.keeps_owner (h : Moved env db p db') (ho : ∃ a ∈ db.members, a.isOwner = true) :
    ∃ a ∈ db'.members, a.isOwner = true := by
  cases h with
  | changed h => exact h.performed.keeps_owner ho
  | accepted h =>
    obtain ⟨m, -, now, -, saved⟩ := h.saved
    obtain ⟨o, hmem, howner⟩ := ho
    rw [saved]
    exact owner_saved hmem howner fun _ => rfl
  | rolledBack => exact ho

theorem step_keeps_owner (s : Team) (choice : TeamChoice) (hf : s.db.Fresh)
    (ho : ∃ a ∈ s.db.members, a.isOwner = true) :
    ∃ a ∈ (s.step choice).db.members, a.isOwner = true := by
  have h := s.stepped choice
  generalize s.step choice = s' at h
  cases h with
  | performed _ transacted => exact transacted ▸ (transact_moved _ hf _).keeps_owner ho
  | checked => exact ho
  | looked => exact ho
  | aside members => exact members ▸ ho

def TeamTransition.error (t : TeamTransition) : Option Error :=
  match t.label with
  | .perform i env => match t.before.requests[i]? with
    | some (some p) => match (p.transact env t.before.db).1 with
      | .error e => some e
      | .ok () => none
    | _ => none
  | _ => none

theorem error_not_lastOwner {t : TeamTransition} (hf : t.before.db.Fresh) :
    t.error ≠ some .lastOwner := by
  unfold TeamTransition.error
  split
  case h_1 i env _ =>
    split
    case h_1 p _ =>
      have h := transact_not_lastOwner env hf p
      split
      case h_1 e he =>
        intro heq
        rw [Option.some.inj heq] at he
        exact h he
      · exact nofun
    · exact nofun
  · exact nofun

/-- A merchant is never orphaned, and the last-owner check never fires. -/
theorem never_orphaned (db : Database) (choices : List TeamChoice)
    (h : ∃ m ∈ db.members, m.role = .owner ∧ m.accepted = true) :
    ∀ t ∈ teamRun db choices,
      (∃ m ∈ t.after.db.members, m.role = .owner ∧ m.accepted = true) ∧
      t.error ≠ some .lastOwner := by
  have toOwner : ∀ m : Member, m.isOwner = true ↔ m.role = .owner ∧ m.accepted = true := fun m => by
    rw [Member.isOwner, Bool.and_eq_true, beq_iff_eq]
  simp only [← toOwner] at h ⊢
  intro t ht
  have hinv : t.before.db.Fresh ∧ ∃ m ∈ t.before.db.members, m.isOwner = true :=
    reachable_invariant (I := fun s : Team => s.db.Fresh ∧ ∃ m ∈ s.db.members, m.isOwner = true)
      ⟨start_fresh, h⟩ (fun s c hs => ⟨step_fresh s c hs.1, step_keeps_owner s c hs.1 hs.2⟩) t ht
  refine ⟨?_, error_not_lastOwner hinv.1⟩
  rw [trace_step ht]
  exact step_keeps_owner _ _ hinv.1 hinv.2

def smallTeam : Database where
  active := true
  users := ⟨[⟨1, "owner", some "pw"⟩, ⟨2, "admin", some "pw"⟩, ⟨3, "invited", none⟩], by decide⟩
  members := ⟨[⟨11, 1, .owner, none, some 0⟩, ⟨12, 2, .admin, none, some 0⟩,
    ⟨13, 3, .owner, some 1, none⟩],
    by decide⟩
  locations := []
  assigned := []
  audit := []
  nextId := 14

def quietEnv : Env := ⟨5, id, fun _ => rfl, fun _ => []⟩

def demotion : List TeamTransition :=
  teamRun smallTeam [.check 1 (.changeRole 12 .viewer), .perform 0 quietEnv]

theorem never_orphaned_demotion :
    (∃ m ∈ (demotion.get ⟨1, by decide⟩).after.db.members, m.role = .owner ∧ m.accepted = true) ∧
      (demotion.get ⟨1, by decide⟩).error ≠ some .lastOwner :=
  never_orphaned _ _ ⟨⟨11, 1, .owner, none, some 0⟩, List.mem_cons_self, rfl, rfl⟩ _
    (List.get_mem _ _)

end Owners

section Touching

def Member.invitation (m : Member) : Role × Option Time := (m.role, m.invitedAt)

/-- The membership is created, gets another role or a fresh invitation, or is removed. -/
def TeamTransition.Touches (t : TeamTransition) (k : Uuid) : Prop :=
  (t.before.db.members.byId k).map Member.invitation ≠
    (t.after.db.members.byId k).map Member.invitation

def TeamTransition.TouchesOwner (t : TeamTransition) (k : Uuid) : Prop :=
  t.Touches k ∧ ∃ m : Member, m.role = .owner ∧
    (t.before.db.members.byId k = some m ∨ t.after.db.members.byId k = some m)

/-- An accepted OWNER performs the request, on a membership that is not its own. -/
def TeamTransition.ByOwner (t : TeamTransition) (k : Uuid) : Prop :=
  ∃ i env actor request a, t.Performs i env (.change actor request) ∧
    Acting t.before.db actor.id a ∧
    a.role = .owner ∧ a.id ≠ k

/-- An actor who is no OWNER invites the address of a pending OWNER again, to another role. -/
def TeamTransition.ReinvitesOwner (t : TeamTransition) : Prop :=
  ∃ i env actor address role a m, t.Performs i env (.change actor (.invite address role)) ∧
    Acting t.before.db actor.id a ∧ a.role ≠ .owner ∧ role ≠ .owner ∧
    m ∈ t.before.db.members ∧ Addressed env t.before.db address m ∧
    m.accepted = false ∧ m.role = .owner

variable {env : Env} {db db' : Database} {p : Pending} {request : TeamRequest}
    {a b m : Member} {k : Uuid}
  {t : TeamTransition}

theorem owner_of_allowed {newRole : Option Role} (h : ¬ DeniedManage a m newRole)
    (ho : m.role = .owner ∨ newRole = some .owner) : a.role = .owner ∧ a.id ≠ m.id := by
  constructor
  · by_contra hno
    exact h (.inr ⟨hno, ho⟩)
  · exact fun hid => h (.inl hid.symm)

theorem saved_touched {fields : MemberFields} {j : Uuid} (hm : m ∈ db.members)
    (h : (db.members.byId j).map Member.invitation ≠
      ((db.members.save m.id fields).byId j).map Member.invitation) :
    j = m.id ∧ db.members.byId j = some m ∧
      (db.members.save m.id fields).byId j = some (m.saved m.id fields) := by
  rw [Members.byId_save] at h ⊢
  cases hj : db.members.byId j with
  | none => simp [hj] at h
  | some b =>
    obtain ⟨hb, hbid⟩ := Members.byId_eq_some.mp hj
    by_cases hbm : b.id = m.id
    · obtain rfl := members_eq hb hm hbm
      exact ⟨hbid.symm, rfl, rfl⟩
    · simp [hj, Member.saved_of_ne hbm] at h

theorem Performed.touched (h : Performed env db k request db') (hf : db.Fresh) {j : Uuid}
    (ht : (db.members.byId j).map Member.invitation ≠ (db'.members.byId j).map Member.invitation)
    (ho : ∃ m : Member, m.role = .owner ∧
      (db.members.byId j = some m ∨ db'.members.byId j = some m)) :
    (∃ a, Acting db k a ∧ a.role = .owner ∧ a.id ≠ j) ∨
      ∃ address role a m, request = .invite address role ∧ Acting db k a ∧ a.role ≠ .owner ∧
        role ≠ .owner ∧ m ∈ db.members ∧ Addressed env db address m ∧ m.accepted = false ∧
        m.role = .owner := by
  obtain ⟨o, horole, hpost⟩ := ho
  cases h with
  | @invited address role a new _ acting grants pending isRole later unknown rows audited =>
    left
    rw [Members.byId_append rows] at ht hpost
    cases hj : db.members.byId j with
    | some b => simp [hj] at ht
    | none =>
      by_cases hnew : new.id = j
      · simp only [hj, hnew, Option.none_or, ↓reduceIte, reduceCtorEq, false_or,
          Option.some.injEq] at hpost
        refine ⟨a, acting, ?_, ?_⟩
        · by_contra hno
          exact grants ⟨isRole.symm.trans (hpost ▸ horole), hno⟩
        · exact Nat.ne_of_lt (lt_of_lt_of_le (hf.members a acting.mem) (hnew ▸ later))
      · simp [hj, hnew] at ht
  | @reinvited address role a m _ acting grants mem pending addressed saved audited =>
    rw [saved] at ht hpost
    obtain ⟨rfl, hbefore, hafter⟩ := saved_touched mem ht
    have hne := acting.ne_pending mem pending
    by_cases ha : a.role = .owner
    · exact .inl ⟨a, acting, ha, hne⟩
    · right
      have hrole : role ≠ .owner := fun h => grants ⟨h, ha⟩
      refine ⟨address, role, a, m, rfl, acting, ha, hrole, mem, addressed, pending, ?_⟩
      rcases hpost with h | h
      · rw [hbefore, Option.some.injEq] at h
        exact h ▸ horole
      · rw [hafter, Option.some.injEq] at h
        subst h
        simp only [Member.saved, ↓reduceIte, Option.getD_some] at horole
        exact absurd horole hrole
  | roleKept => exact absurd rfl ht
  | @roleChanged _ role a m _ acting mem id allowed changed saved audited =>
    left
    rw [saved] at ht hpost
    obtain ⟨rfl, hbefore, hafter⟩ := saved_touched mem ht
    have howner : m.role = .owner ∨ some role = some Role.owner := by
      rcases hpost with h | h
      · rw [hbefore, Option.some.injEq] at h
        exact .inl (h ▸ horole)
      · rw [hafter, Option.some.injEq] at h
        subst h
        simp only [Member.saved, ↓reduceIte, Option.getD_some] at horole
        exact .inr (congrArg some horole)
    obtain ⟨ha, hne⟩ := owner_of_allowed allowed howner
    exact ⟨a, acting, ha, hne⟩
  | @removed _ a m _ acting mem id allowed deleted audited =>
    left
    rw [deleted] at ht hpost
    by_cases hj : j = m.id
    · subst hj
      have hgone : Members.byId (db.members.delete (·.id == m.id)) m.id = none :=
        Members.byId_eq_none.mpr fun b hb => by simpa using (Table.mem_delete.mp hb).2
      have howner : m.role = .owner := by
        rcases hpost with h | h
        · rw [Members.byId_eq_some.mpr ⟨mem, rfl⟩, Option.some.injEq] at h
          exact h ▸ horole
        · rw [hgone] at h
          cases h
      obtain ⟨ha, hne⟩ := owner_of_allowed allowed (.inl howner)
      exact ⟨a, acting, ha, hne⟩
    · rw [Members.byId_delete hj] at ht
      exact absurd rfl ht
  | relocated acting manages members =>
    rw [members] at ht
    exact absurd rfl ht

theorem Accepted.untouched (h : Accepted db db') (j : Uuid) :
    (db.members.byId j).map Member.invitation = (db'.members.byId j).map Member.invitation := by
  obtain ⟨m, hm, now, -, saved⟩ := h.saved
  by_contra hne
  rw [saved] at hne
  obtain ⟨-, hbefore, hafter⟩ := saved_touched hm hne
  rw [hbefore, hafter] at hne
  simp [Member.invitation, Member.saved] at hne

theorem touched_cases {choices : List TeamChoice} (ht : t ∈ teamRun db choices)
    (h : t.TouchesOwner k) :
    t.ByOwner k ∨ t.ReinvitesOwner := by
  obtain ⟨touched, howner⟩ := h
  have hf := run_fresh t ht
  have hstep : t.before.Stepped t.label t.after := by
    rw [trace_step ht]
    exact Team.stepped _ _
  obtain ⟨before, label, after⟩ := t
  dsimp only [TeamTransition.Touches] at touched howner hf hstep
  cases hstep with
  | @performed i env p db' waits transacted =>
    have hmoved := transact_moved env hf p
    rw [← transacted] at hmoved
    cases hmoved with
    | @changed actor request _ hreturned =>
      rcases hreturned.performed.touched hf touched howner with ⟨a, acting, ha, hne⟩ | h
      · exact .inl ⟨i, env, actor, request, a, ⟨rfl, waits⟩, acting, ha, hne⟩
      · obtain ⟨address, role, a, m, rfl, h⟩ := h
        exact .inr ⟨i, env, actor, address, role, a, m, ⟨rfl, waits⟩, h⟩
    | accepted h => exact absurd (h.untouched k) touched
    | rolledBack => exact absurd rfl touched
  | checked => exact absurd rfl touched
  | looked => exact absurd rfl touched
  | aside members =>
    rw [members] at touched
    exact absurd rfl touched

theorem reinvited_members {i : ℕ} {actor : Member} {address : String} {role : Role}
    (hf : t.before.db.Fresh) (ht : t = transition Team.step t.before t.label)
    (hp : t.Performs i env (.change actor (.invite address role)))
    (acting : Acting t.before.db actor.id a)
    (grants : ¬ (role = .owner ∧ a.role ≠ .owner)) (hm : m ∈ t.before.db.members)
    (hadr : Addressed env t.before.db address m) (pending : m.accepted = false) :
    t.after.db.members = t.before.db.members.save m.id ⟨some role, some env.now, none⟩ := by
  have only : ∀ b ∈ t.before.db.members, Addressed env t.before.db address b → b = m := by
    rintro b hb ⟨u, hu, hue, hbu⟩
    obtain ⟨v, hv, hve, hmv⟩ := hadr
    have huv : u = v := Table.eq_of_clash User.Clash.symm hu hv (.inr (hue.trans hve.symm))
    exact Table.eq_of_clash Member.Clash.symm hb hm (.inr (by rw [hbu, hmv, huv]))
  have passes : TeamRequest.Passes env t.before.db a (.invite address role) :=
    ⟨grants, fun b hb hadrb => only b hb hadrb ▸ pending⟩
  have hafter : t.after.db =
      ((Pending.change actor (.invite address role)).transact env t.before.db).2 := by
    rw [ht, transition, hp.1]
    simp only [Team.step, hp.2]
  have h := change_transact env actor (.invite address role) hf
  rcases hrun : (Pending.change actor (.invite address role)).transact env
    t.before.db with ⟨e | _, db'⟩ <;>
    rw [hrun] at h hafter
  · exact absurd passes (h.2.refused a acting)
  · rw [hafter]
    cases h.performed with
    | invited _ _ _ _ _ unknown => exact absurd hadr (unknown m hm)
    | reinvited _ _ mem _ addressed saved => rw [saved, only _ mem addressed]

theorem reinvite_lowers (hf : t.before.db.Fresh) (ht : t = transition Team.step t.before t.label)
    (h : t.ReinvitesOwner) : ∃ k, t.TouchesOwner k ∧ ¬ t.ByOwner k := by
  obtain ⟨i, env, actor, address, role, a, m, ⟨hlabel, hwaits⟩, acting, ha, hrole, hm,
    hadr, hp, ho⟩ := h
  have hsaved := reinvited_members hf ht ⟨hlabel, hwaits⟩ acting (fun h => hrole h.1) hm hadr hp
  have hbefore : t.before.db.members.byId m.id = some m := Members.byId_eq_some.mpr ⟨hm, rfl⟩
  refine ⟨m.id, ⟨?_, m, ho, .inl hbefore⟩, ?_⟩
  · rw [TeamTransition.Touches, hsaved, Members.byId_save, hbefore]
    intro heq
    simp only [Option.map_some, Option.some.injEq, Member.invitation, Member.saved, ↓reduceIte,
      Option.getD_some, Prod.mk.injEq] at heq
    exact hrole (heq.1.symm.trans ho)
  · rintro ⟨j, env', actor', request', b, ⟨hlabel', hwaits'⟩, acting', hb, -⟩
    rw [hlabel] at hlabel'
    cases hlabel'
    rw [hwaits] at hwaits'
    cases hwaits'
    exact ha (acting.eq acting' ▸ hb)

/-- Only an accepted OWNER touches an OWNER, unless the step invites a pending OWNER again. -/
theorem only_owner_touches_owner (db : Database) (choices : List TeamChoice) :
    ∀ t ∈ teamRun db choices, (∀ k, t.TouchesOwner k → t.ByOwner k) ↔ ¬ t.ReinvitesOwner := by
  intro t ht
  constructor
  · intro h hr
    obtain ⟨k, hk, hno⟩ := reinvite_lowers (run_fresh t ht) (trace_step ht) hr
    exact hno (h k hk)
  · intro hr k hk
    exact (touched_cases ht hk).resolve_right hr

def ownerLowered : List TeamTransition :=
  teamRun smallTeam [.check 1 (.changeRole 12 .owner), .perform 0 quietEnv,
    .check 1 (.changeRole 12 .viewer), .perform 1 quietEnv]

theorem only_owner_touches_owner_lowering :
    (ownerLowered.get ⟨3, by decide⟩).TouchesOwner 12 ∧
      ((∀ k, (ownerLowered.get ⟨3, by decide⟩).TouchesOwner k →
        (ownerLowered.get ⟨3, by decide⟩).ByOwner k) ↔
        ¬ (ownerLowered.get ⟨3, by decide⟩).ReinvitesOwner) := by
  refine ⟨⟨?_, ⟨12, 2, .owner, none, some 0⟩, rfl, .inl (by decide)⟩,
    only_owner_touches_owner _ _ _ (List.get_mem _ _)⟩
  unfold TeamTransition.Touches
  decide

/-- An ADMIN makes the invited OWNER a VIEWER. -/
theorem admin_lowers_owner :
    ¬ ∀ db choices, ∀ t ∈ teamRun db choices, ∀ k, t.TouchesOwner k → t.ByOwner k := by
  intro h
  let choices : List TeamChoice := [.check 2 (.invite "invited" .viewer), .perform 0 quietEnv]
  let t := (teamRun smallTeam choices).get ⟨1, by decide⟩
  have ht : t ∈ teamRun smallTeam choices := List.get_mem _ _
  have touched : t.TouchesOwner 13 := by
    refine ⟨?_, ⟨13, 3, .owner, some 1, none⟩, rfl, .inl (by decide)⟩
    unfold TeamTransition.Touches
    decide
  obtain ⟨i, env, actor, request, a, ⟨hlabel, hwaits⟩, acting, ha, -⟩ :=
    h smallTeam choices t ht 13 touched
  cases hlabel
  cases hwaits
  have hmem : a ∈ [_, _, _] := acting.mem
  have hid := acting.id
  simp only [List.mem_cons, List.not_mem_nil, or_false] at hmem
  rcases hmem with rfl | rfl | rfl
  · cases hid
  · cases ha
  · cases hid

end Touching

section Demotion

/-- The step commits a role change of the membership `k` to MANAGER or VIEWER. -/
def TeamTransition.Demotes (t : TeamTransition) (k : Uuid) : Prop :=
  ∃ i env actor role, t.Performs i env (.change actor (.changeRole k role)) ∧ role.manages = false ∧
    t.after.db ≠ t.before.db

/-- The `i`-th request passed its check and waits for the lock. -/
abbrev Team.Waits (s : Team) (i : ℕ) (actor : Member) (request : TeamRequest) : Prop :=
  s.requests[i]? = some (some (.change actor request))

/-- The actor was demoted while its request, the `i`-th, waited for the lock. -/
def Demoted (h : List TeamTransition) (i : ℕ) (actor : Member) (request : TeamRequest) : Prop :=
  ∃ before d after, h = before ++ d :: after ∧
    d.before.Waits i actor request ∧ TeamTransition.Demotes d actor.id

/-- A change that the step commits is made by an accepted OWNER or ADMIN. -/
def TeamTransition.Authorised (t : TeamTransition) : Prop :=
  ∀ i env actor request, t.Performs i env (.change actor request) → t.after.db ≠ t.before.db →
    ∃ a, Acting t.before.db actor.id a ∧ a.role.manages = true

/-- The step performs a request whose actor was demoted while it waited, and is MANAGER or
VIEWER still. The other checks of the request pass. -/
def Overtaken (h : List TeamTransition) (t : TeamTransition) : Prop :=
  ∃ i env actor request a, t.Performs i env (.change actor request) ∧ Demoted h i actor request ∧
    Acting t.before.db actor.id a ∧ a.role.manages = false ∧ request.Passes env t.before.db a

variable {h : List TeamTransition} {t : TeamTransition} {s : Team} {env : Env} {db db' : Database}
  {actor a b m : Member} {request : TeamRequest} {k : Uuid} {i j : ℕ} {p : Pending}

theorem Demoted.mono (hd : Demoted h i actor request) (ts : List TeamTransition) :
    Demoted (h ++ ts) i actor request := by
  obtain ⟨before, d, after, rfl, hrest⟩ := hd
  exact ⟨before, d, after ++ ts, by simp, hrest⟩

/-- A waiting actor is still accepted and OWNER or ADMIN, unless it was demoted meanwhile. -/
structure Watched (h : List TeamTransition) (s : Team) : Prop where
  fresh : s.db.Fresh
  known : ∀ i actor request, s.Waits i actor request → actor.id < s.db.nextId
  actors : ∀ i actor request, s.Waits i actor request → ∀ a ∈ s.db.members, a.id = actor.id →
    a.accepted = true ∧ (a.role.manages = true ∨ Demoted h i actor request)

theorem saved_accepted {fields : MemberFields} (ha : a.accepted = true) :
    (a.saved k fields).accepted = true := by
  unfold Member.saved Member.accepted
  split
  · obtain ⟨now, hnow⟩ := Option.isSome_iff_exists.mp ha
    cases hf : fields.acceptedAt <;> simp [hnow]
  · exact ha

/-- After a request every accepted membership is as before, or has the role the request gives it. -/
theorem Performed.member (hp : Performed env db k request db') (hb : b ∈ db'.members)
    (hid : b.id < db.nextId) :
    ∃ a ∈ db.members, a.id = b.id ∧
      (a.accepted = true →
        b.accepted = true ∧ (b.role = a.role ∨ request = .changeRole b.id b.role)) := by
  cases hp with
  | @invited _ _ _ new _ acting grants pending isRole later unknown rows audited =>
    rw [Table.mem_def, rows] at hb
    rcases List.mem_append.mp hb with hb | hb
    · exact ⟨b, hb, rfl, fun ha => ⟨ha, .inl rfl⟩⟩
    · obtain rfl := List.mem_singleton.mp hb
      exact absurd (lt_of_lt_of_le hid later) (Nat.lt_irrefl _)
  | @reinvited _ role _ m _ acting grants mem pending addressed saved audited =>
    rw [saved] at hb
    obtain ⟨a, ha, rfl⟩ := Members.mem_save.mp hb
    refine ⟨a, ha, by simp, fun hacc => ⟨saved_accepted hacc, .inl ?_⟩⟩
    rw [Member.saved_of_ne]
    intro heq
    rw [← members_eq ha mem heq, hacc] at pending
    cases pending
  | roleKept => exact ⟨b, hb, rfl, fun ha => ⟨ha, .inl rfl⟩⟩
  | @roleChanged _ role _ m _ acting mem id allowed changed saved audited =>
    rw [saved] at hb
    obtain ⟨a, ha, rfl⟩ := Members.mem_save.mp hb
    refine ⟨a, ha, by simp, fun hacc => ⟨saved_accepted hacc, ?_⟩⟩
    by_cases heq : a.id = m.id
    · right
      rw [Member.saved_id, heq, id]
      simp [Member.saved, heq, id]
    · exact .inl (by rw [Member.saved_of_ne heq])
  | removed acting mem id allowed deleted audited =>
    rw [deleted] at hb
    exact ⟨b, (Table.mem_delete.mp hb).1, rfl, fun ha => ⟨ha, .inl rfl⟩⟩
  | relocated acting manages members =>
    rw [members] at hb
    exact ⟨b, hb, rfl, fun ha => ⟨ha, .inl rfl⟩⟩

theorem Moved.member (hm : Moved env db p db') (hb : b ∈ db'.members) (hid : b.id < db.nextId) :
    ∃ a ∈ db.members, a.id = b.id ∧ (a.accepted = true → b.accepted = true ∧
      (b.role = a.role ∨ ∃ actor, p = .change actor (.changeRole b.id b.role))) := by
  cases hm with
  | @changed actor request _ hreturned =>
    obtain ⟨a, ha, haid, hrest⟩ := hreturned.performed.member hb hid
    refine ⟨a, ha, haid, fun hacc => ⟨(hrest hacc).1, (hrest hacc).2.imp_right ?_⟩⟩
    rintro rfl
    exact ⟨actor, rfl⟩
  | accepted haccept =>
    obtain ⟨m, -, now, -, saved⟩ := haccept.saved
    rw [saved] at hb
    obtain ⟨a, ha, rfl⟩ := Members.mem_save.mp hb
    refine ⟨a, ha, by simp, fun hacc => ⟨saved_accepted hacc, .inl ?_⟩⟩
    unfold Member.saved
    split <;> rfl
  | rolledBack => exact ⟨b, hb, rfl, fun ha => ⟨ha, .inl rfl⟩⟩

theorem step_watched (hs : Watched h s) (choice : TeamChoice) :
    Watched (h ++ [transition Team.step s choice]) (s.step choice) := by
  have hfresh := step_fresh s choice hs.fresh
  have hstep := s.stepped choice
  have hafter : (transition Team.step s choice).after = s.step choice := rfl
  revert hfresh hafter
  generalize ht : transition Team.step s choice = t
  have hlabel : t.label = choice := ht ▸ rfl
  have hbefore : t.before = s := ht ▸ rfl
  generalize s.step choice = s' at hstep
  intro hfresh hafter
  cases hstep with
  | @performed i env p db' waits transacted =>
    have hmoved := transact_moved env hs.fresh p
    rw [← transacted] at hmoved
    have later := (hmoved.fresh hs.fresh).2
    have still : ∀ j actor request, (s.requests.set i none)[j]? =
      some (some (Pending.change actor request)) →
        s.Waits j actor request := by
      intro j actor request hj
      rw [List.getElem?_set] at hj
      split at hj
      · split at hj <;> simp at hj
      · exact hj
    refine ⟨hfresh,
      fun j actor request hj =>
        lt_of_lt_of_le (hs.known j actor request (still j _ _ hj)) later, ?_⟩
    intro j actor request hj b hb hbid
    have hold := still j actor request hj
    have hknown : b.id < s.db.nextId := hbid ▸ hs.known j actor request hold
    obtain ⟨a, ha, haid, hrest⟩ := hmoved.member hb hknown
    obtain ⟨hacc, hrole⟩ := hs.actors j actor request hold a ha (haid.trans hbid)
    refine ⟨(hrest hacc).1, ?_⟩
    cases hm : b.role.manages with
    | true => exact .inl rfl
    | false =>
      right
      rcases hrole with hrole | hrole
      · rcases (hrest hacc).2 with hsame | ⟨changer, rfl⟩
        · rw [hsame, hrole] at hm
          cases hm
        · refine ⟨h, t, [], rfl, hbefore ▸ hold, i, env, changer, b.role, ⟨hlabel, ?_⟩, hm, ?_⟩
          · rw [hbefore, ← hbid]
            exact waits
          · rw [hbefore, hafter]
            intro heq
            have hsame : b.role = a.role := by
              have hb' : b ∈ s.db.members := heq ▸ hb
              rw [members_eq hb' ha haid.symm]
            rw [hsame, hrole] at hm
            cases hm
      · exact hrole.mono _
  | @checked userId request actor mem accepted manages =>
    have append : ∀ j c r, (s.requests ++ [some (Pending.change actor request)])[j]? =
      some (some (.change c r)) →
        s.Waits j c r ∨ c = actor := by
      intro j c r hj
      rcases RowLocks.getElem?_append_singleton hj with hj | hj
      · exact .inl hj
      · cases hj
        exact .inr rfl
    refine ⟨hfresh, fun j c r hj => ?_, fun j c r hj b hb hbid => ?_⟩
    · rcases append j c r hj with hj | rfl
      · exact hs.known j c r hj
      · exact hs.fresh.members c mem
    · rcases append j c r hj with hj | rfl
      · obtain ⟨hacc, hrole⟩ := hs.actors j c r hj b hb hbid
        exact ⟨hacc, hrole.imp_right fun hd => hd.mono _⟩
      · rw [members_eq hb mem hbid]
        exact ⟨accepted, .inl manages⟩
  | looked =>
    refine ⟨hfresh, fun j c r hj => ?_, fun j c r hj b hb hbid => ?_⟩
    · rcases RowLocks.getElem?_append_singleton hj with hj | hj
      · exact hs.known j c r hj
      · cases hj
    · rcases RowLocks.getElem?_append_singleton hj with hj | hj
      · obtain ⟨hacc, hrole⟩ := hs.actors j c r hj b hb hbid
        exact ⟨hacc, hrole.imp_right fun hd => hd.mono _⟩
      · cases hj
  | aside members fresh later =>
    refine ⟨hfresh, fun j c r hj => lt_of_lt_of_le (hs.known j c r hj) later,
      fun j c r hj b hb hbid => ?_⟩
    obtain ⟨hacc, hrole⟩ := hs.actors j c r hj b (members ▸ hb) hbid
    exact ⟨hacc, hrole.imp_right fun hd => hd.mono _⟩

theorem performed_commits (ht : t = transition Team.step t.before t.label) (hf : t.before.db.Fresh)
    (hp : t.Performs i env (.change actor request)) :
    t.after.db ≠ t.before.db ↔
      ∃ a, Acting t.before.db actor.id a ∧ request.Passes env t.before.db a := by
  have hafter : t.after.db = ((Pending.change actor request).transact env t.before.db).2 := by
    rw [ht, transition, hp.1]
    simp only [Team.step, hp.2]
  rw [hafter]
  exact change_commits hf

theorem authorised_iff (ht : t = transition Team.step t.before t.label) (hs : Watched h t.before) :
    t.Authorised ↔ ¬ Overtaken h t := by
  constructor
  · rintro hauth ⟨i, env, actor, request, a, hp, -, acting, hno, passes⟩
    have hne := (performed_commits ht hs.fresh hp).mpr ⟨a, acting, passes⟩
    obtain ⟨b, acting', hyes⟩ := hauth i env actor request hp hne
    rw [acting.eq acting', hyes] at hno
    cases hno
  · intro hno i env actor request hp hne
    obtain ⟨a, acting, passes⟩ := (performed_commits ht hs.fresh hp).mp hne
    refine ⟨a, acting, ?_⟩
    by_contra hm
    have hdemoted := ((hs.actors i actor request hp.2 a acting.mem acting.id).2).resolve_left hm
    exact hno ⟨i, env, actor, request, a, hp, hdemoted, acting, by simpa using hm, passes⟩

/-- A committed change is made by an OWNER or ADMIN, unless its actor was demoted while it
waited. -/
theorem authorised_under_lock (db : Database) (choices : List TeamChoice) :
    Meets (fun h (t : TeamTransition) => t.Authorised ↔ ¬ Overtaken h t) (teamRun db choices) := by
  have hinit : Watched [] (Team.start db) :=
    ⟨start_fresh, by simp [Team.start], by simp [Team.start]⟩
  apply MeetsFrom.of_invariant (P := Watched) (C := fun _ _ => True) hinit
  · intro h s choice hs _
    exact ⟨step_watched hs choice, authorised_iff (t := transition Team.step s choice) rfl hs⟩
  · exact MeetsFrom.of_forall (fun _ _ => trivial) []

/-- An ADMIN made a VIEWER invites another ADMIN. -/
theorem demoted_admin_invites : ¬ ∀ db choices, ∀ t ∈ teamRun db choices, t.Authorised := by
  intro h
  let choices : List TeamChoice :=
    [.check 2 (.invite "new" .admin), .check 1 (.changeRole 12 .viewer),
    .perform 1 quietEnv, .perform 0 quietEnv]
  let t := (teamRun smallTeam choices).get ⟨3, by decide⟩
  have ht : t ∈ teamRun smallTeam choices := List.get_mem _ _
  have committed : t.after.db ≠ t.before.db := by
    intro heq
    have hlength := congrArg (fun db => db.members.rows.length) heq
    revert hlength
    decide
  obtain ⟨a, acting, manages⟩ := h smallTeam choices t ht 0 quietEnv ⟨12, 2, .admin, none, some 0⟩
    (.invite "new" .admin) ⟨rfl, rfl⟩ committed
  have hmem : a ∈ [_, _, _] := acting.mem
  have hid := acting.id
  simp only [List.mem_cons, List.not_mem_nil, or_false] at hmem
  rcases hmem with rfl | rfl | rfl
  · cases hid
  · cases manages
  · cases hid

end Demotion

end ReviewFlow.Accounts
