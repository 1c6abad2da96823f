import ReviewFlow.Accounts.Services
import ReviewFlow.Rollback

/-!
# Rules for the team operations

The weakest precondition of each step, and of each operation from them. New keys are
taken from a counter that is past every key in use, so an insert clashes on the other
constraint only.
-/

namespace ReviewFlow.Accounts

open Savepoint Tables Program

structure Database.Fresh (db : Database) : Prop where
  users : ∀ u ∈ db.users, u.id < db.nextId
  members : ∀ m ∈ db.members, m.id < db.nextId
  memberUsers : ∀ m ∈ db.members, m.userId < db.nextId

theorem mem_setPassword {users : Table User User.Clash} {k : Uuid} {password : String} {u : User}
    (h : u ∈ setPassword users k password) : ∃ v ∈ users, v.id = u.id := by
  obtain ⟨v, hv, hvu⟩ := Table.mem_update.mp h
  subst hvu
  refine ⟨v, hv, ?_⟩
  split <;> rfl

section Rules

variable {α : Type} {env : Env} {s : Store Database Unit} {E : Error → Store Database Unit → Prop}
  {actor a m : Member} {k : Uuid} {role : Role} {email : String} {user : User}

theorem wp_lockTeam {Q : Member → Store Database Unit → Prop} :
    wp env (lockTeam actor) Q E s ↔
      (∀ a ∈ s.data.members, a.id = actor.id → a.accepted = true → Q a s) ∧
      ((∀ a ∈ s.data.members, a.id = actor.id → a.accepted = false) →
        E .teamPermissionDenied s) := by
  unfold lockTeam
  rw [wp_bind, wp_get]
  cases h : (s.data.members.byId actor.id).filter (·.accepted) with
  | none =>
    have hno : ∀ a ∈ s.data.members, a.id = actor.id → a.accepted = false := by
      intro a ha hid
      rw [Members.byId_eq_some.mpr ⟨ha, hid⟩] at h
      simpa [Option.filter] using h
    simp only [wp_raise]
    constructor
    · intro he
      exact ⟨fun a ha hid hacc => absurd hacc (by simp [hno a ha hid]), fun _ => he⟩
    · exact fun h => h.2 hno
  | some a =>
    obtain ⟨ha, hacc⟩ := Option.filter_eq_some_iff.mp h
    obtain ⟨hmem, hid⟩ := Members.byId_eq_some.mp ha
    simp only [wp_pure]
    constructor
    · intro hq
      refine ⟨fun b hb hbid _ => ?_, fun hno => ?_⟩
      · rwa [members_eq hb hmem (hbid.trans hid.symm)]
      · rw [hno a hmem hid] at hacc
        cases hacc
    · exact fun h => h.1 a hmem hid hacc

theorem wp_lockTarget {Q : Member → Store Database Unit → Prop} :
    wp env (lockTarget k) Q E s ↔ (∀ m ∈ s.data.members, m.id = k → Q m s) ∧
      ((∀ m ∈ s.data.members, m.id ≠ k) → E .teamMemberNotFound s) := by
  unfold lockTarget
  rw [wp_bind, wp_get]
  cases h : s.data.members.byId k with
  | none =>
    have hno := Members.byId_eq_none.mp h
    simp only [wp_raise]
    exact ⟨fun he => ⟨fun m hm hid => absurd hid (hno m hm), fun _ => he⟩, fun h => h.2 hno⟩
  | some m =>
    obtain ⟨hm, hid⟩ := Members.byId_eq_some.mp h
    simp only [wp_pure]
    constructor
    · intro hq
      refine ⟨fun b hb hbid => ?_, fun hno => absurd hid (hno m hm)⟩
      rwa [members_eq hb hm (hbid.trans hid.symm)]
    · exact fun h => h.1 m hm hid

/-- The cases in which `_check_can_manage` raises. -/
def DeniedManage (actor target : Member) (newRole : Option Role) : Prop :=
  target.id = actor.id ∨ actor.role ≠ .owner ∧ (target.role = .owner ∨ newRole = some .owner)

theorem wp_checkCanManage {Q : Unit → Store Database Unit → Prop} {newRole : Option Role} :
    wp env (checkCanManage actor m newRole) Q E s ↔
      (DeniedManage actor m newRole → E .teamPermissionDenied s) ∧
      (¬ DeniedManage actor m newRole → Q () s) := by
  simp only [checkCanManage, wp_bind, wp_whenever, wp_raise, DeniedManage]
  tauto

theorem wp_checkCanGrantOwner {Q : Unit → Store Database Unit → Prop} :
    wp env (checkCanGrantOwner actor role) Q E s ↔
      (role = .owner ∧ actor.role ≠ .owner → E .teamPermissionDenied s) ∧
      (¬ (role = .owner ∧ actor.role ≠ .owner) → Q () s) := by
  simp only [checkCanGrantOwner, wp_whenever, wp_raise]

theorem wp_record {Q : Unit → Store Database Unit → Prop} {action : String} {target : Uuid}
    {metadata : List (String × List String)} (ha : a ∈ s.data.members) (hacc : a.accepted = true) :
    wp env (record action a.userId target metadata) Q E s ↔
      Q () ⟨{ s.data with audit := s.data.audit ++ [⟨action, a.userId, target, metadata⟩] },
        s.journal⟩ := by
  have hmember : ¬ (s.data.members.rows.all fun m => !(m.userId == a.userId && m.accepted)) =
      true := by
    intro h
    have := List.all_eq_true.mp h a ha
    simp [hacc] at this
  simp only [record, wp_savepoint, wp_bind, wp_get, wp_whenever, wp_raise, wp_modify, hmember]
  simp

@[simp] theorem wp_saveMember {Q : Unit → Store Database Unit → Prop} {fields : MemberFields} :
    wp env (saveMember k fields) Q E s ↔
      Q () ⟨{ s.data with members := s.data.members.save k fields }, s.journal⟩ := Iff.rfl

theorem wp_inviteUser {Q : User → Store Database Unit → Prop} (hf : s.data.Fresh)
    (hn : env.normalizeEmail email = email) :
    wp env (inviteUser email) Q E s ↔
      (∀ u ∈ s.data.users, u.email = email → Q u s) ∧
      (∀ users, s.data.users.insert? (s.data.newUser email) = some users →
        Q (s.data.newUser email)
          ⟨{ s.data with users := users, nextId := s.data.nextId + 1 }, s.journal⟩) := by
  unfold inviteUser
  rw [wp_handle, wp_savepoint, createUser, wp_query]
  simp only [hn]
  cases h : s.data.users.insert? (s.data.newUser email) with
  | some users =>
    have hno : ∀ u ∈ s.data.users, u.email ≠ email := fun u hu he =>
      (Table.insert?_eq_some.mp h).1 u hu (.inr he)
    simp only [Except.ok.injEq, forall_eq', reduceCtorEq, false_implies, implies_true, and_true,
      Option.some.injEq]
    exact ⟨fun hq => ⟨fun u hu he => absurd he (hno u hu), hq⟩, fun ⟨_, hq⟩ => hq⟩
  | none =>
    obtain ⟨u, hu, hid | he⟩ := Table.insert?_eq_none.mp h
    · exact absurd hid (Nat.ne_of_lt (hf.users u hu))
    · have key : ∀ a b : User, (a.email == email) = true → (b.email == email) = true → a.Clash b :=
        fun a b ha hb => .inr ((beq_iff_eq.mp ha).trans (beq_iff_eq.mp hb).symm)
      have hfind : s.data.users.find? (·.email == email) = some u :=
        Table.find?_eq_some_of_mem (p := (·.email == email)) User.Clash.symm hu
          (beq_iff_eq.mpr he) key
      have hone : ∀ v ∈ s.data.users, v.email = email → v = u := fun v hv hve =>
        Table.eq_of_clash User.Clash.symm hv hu (.inr (hve.trans he.symm))
      simp only [reduceCtorEq, false_implies, implies_true, true_and,
        Except.error.injEq, forall_eq',
        onIntegrityError, ↓reduceIte, getUser, wp_bind, wp_get, hfind, wp_pure, and_true]
      exact ⟨fun hq v hv hve => hone v hv hve ▸ hq, fun hq => hq u hu he⟩

theorem wp_reinvite {Q : Member → Store Database Unit → Prop} (hm : m ∈ s.data.members)
    (hu : m.userId = user.id) :
    wp env (reinvite user role) Q E s ↔
      (m.accepted = true → E .alreadyMember s) ∧
      (m.accepted = false → Q { m with role := role, invitedAt := some env.now }
        ⟨{ s.data with members := s.data.members.save m.id ⟨some role, some env.now, none⟩ },
          s.journal⟩) := by
  have key : ∀ a b : Member, (a.userId == user.id) = true →
      (b.userId == user.id) = true → a.Clash b :=
    fun a b ha hb => .inr ((beq_iff_eq.mp ha).trans (beq_iff_eq.mp hb).symm)
  have hfind : s.data.members.find? (·.userId == user.id) = some m :=
    Table.find?_eq_some_of_mem (p := (·.userId == user.id)) Member.Clash.symm hm
      (beq_iff_eq.mpr hu) key
  simp only [reinvite, wp_bind, wp_ask, wp_get, hfind, wp_whenever, wp_raise,
    wp_saveMember, wp_pure,
    Bool.not_eq_true]

theorem wp_inviteMember {Q : Member → Store Database Unit → Prop} (hf : s.data.Fresh) :
    wp env (inviteMember user role) Q E s ↔
      (∀ m ∈ s.data.members, m.userId = user.id → (m.accepted = true → E .alreadyMember s) ∧
        (m.accepted = false → Q { m with role := role, invitedAt := some env.now }
          ⟨{ s.data with members := s.data.members.save m.id ⟨some role, some env.now, none⟩ },
            s.journal⟩)) ∧
      (∀ members, s.data.members.insert? (s.data.newMember user role env.now) = some members →
        Q (s.data.newMember user role env.now)
          ⟨{ s.data with members := members, nextId := s.data.nextId + 1 }, s.journal⟩) := by
  unfold inviteMember
  rw [wp_handle, wp_savepoint, createMember, wp_query]
  cases h : s.data.members.insert? (s.data.newMember user role env.now) with
  | some members =>
    have hno : ∀ m ∈ s.data.members, m.userId ≠ user.id := fun m hm he =>
      (Table.insert?_eq_some.mp h).1 m hm (.inr he)
    simp only [Except.ok.injEq, forall_eq', reduceCtorEq, false_implies, implies_true, and_true,
      Option.some.injEq]
    exact ⟨fun hq => ⟨fun m hm he => absurd he (hno m hm), hq⟩, fun ⟨_, hq⟩ => hq⟩
  | none =>
    obtain ⟨m, hm, hid | he⟩ := Table.insert?_eq_none.mp h
    · exact absurd hid (Nat.ne_of_lt (hf.members m hm))
    · have hone : ∀ v ∈ s.data.members, v.userId = user.id → v = m := fun v hv hve =>
        Table.eq_of_clash Member.Clash.symm hv hm (.inr (hve.trans he.symm))
      simp only [reduceCtorEq, false_implies, implies_true, true_and,
        Except.error.injEq, forall_eq',
        onIntegrityError, ↓reduceIte, and_true]
      rw [wp_reinvite hm he]
      exact ⟨fun hq v hv hve => hone v hv hve ▸ hq, fun hq => hq m hm he⟩

theorem keeps_whenever_raise {f : Database → α} {c : Prop} [Decidable c] (e : Error) :
    Keeps f (whenever c (raise e) : TeamM Unit) :=
  .whenever (keeps_raise e)

theorem record_keeps {f : Database → α} {action : String} {actor target : Uuid}
    {metadata : List (String × List String)} (h : ∀ db audit, f { db with audit := audit } = f db) :
    Keeps f (record action actor target metadata) := by
  unfold record
  refine .savepoint (keeps_get.bind fun db => ?_)
  exact (keeps_whenever_raise _).bind fun _ => keeps_modify fun _ => h _ _

theorem lockTeam_keeps {f : Database → α} : Keeps f (lockTeam actor) := by
  unfold lockTeam
  refine keeps_get.bind fun db => ?_
  split
  · exact keeps_pure _
  · exact keeps_raise _

theorem lockTarget_keeps {f : Database → α} : Keeps f (lockTarget k) := by
  unfold lockTarget
  refine keeps_get.bind fun db => ?_
  split
  · exact keeps_pure _
  · exact keeps_raise _

end Rules

end ReviewFlow.Accounts
