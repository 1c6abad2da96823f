import ReviewFlow.Accounts.Rules

/-!
# What a team operation changes

`Performed` says what a request that returns did to the memberships, and on whose
authority. The locks make the membership that the request reads again the stored one.
-/

namespace ReviewFlow.Accounts

open Savepoint Tables Program

inductive TeamRequest where
  | invite (address : String) (role : Role)
  | changeRole (memberId : Uuid) (role : Role)
  | revoke (memberId : Uuid)
  | setLocations (memberId : Uuid) (locationIds : List Uuid)
  deriving DecidableEq

def TeamRequest.program (actor : Member) : TeamRequest → TeamM Unit
  | .invite address role => do
    let _ ← inviteTeamMember actor address role
    pure ()
  | .changeRole memberId role => changeTeamMemberRole actor memberId role
  | .revoke memberId => revokeTeamMember actor memberId
  | .setLocations memberId locationIds => setTeamMemberLocations actor memberId locationIds

/-- `a` is the accepted membership of the key `k`. -/
structure Acting (db : Database) (k : Uuid) (a : Member) : Prop where
  mem : a ∈ db.members
  id : a.id = k
  accepted : a.accepted = true

def Addressed (env : Env) (db : Database) (address : String) (m : Member) : Prop :=
  ∃ u ∈ db.users, u.email = env.normalizeEmail address ∧ m.userId = u.id

def Audited (db db' : Database) : Prop := ∃ r, db'.audit = db.audit ++ [r]

inductive Performed (env : Env) (db : Database) (k : Uuid) : TeamRequest → Database → Prop
  | invited {address : String} {role : Role} {a new : Member} {db' : Database}
    (acting : Acting db k a)
      (grants : ¬ (role = .owner ∧ a.role ≠ .owner)) (pending : new.accepted = false)
      (isRole : new.role = role) (later : db.nextId ≤ new.id)
      (unknown : ∀ m ∈ db.members, ¬ Addressed env db address m)
      (rows : db'.members.rows = db.members.rows ++ [new]) (audited : Audited db db') :
      Performed env db k (.invite address role) db'
  | reinvited {address : String} {role : Role} {a m : Member} {db' : Database}
    (acting : Acting db k a)
      (grants : ¬ (role = .owner ∧ a.role ≠ .owner)) (mem : m ∈ db.members)
      (pending : m.accepted = false)
      (addressed : Addressed env db address m)
      (saved : db'.members = db.members.save m.id ⟨some role, some env.now, none⟩)
      (audited : Audited db db') : Performed env db k (.invite address role) db'
  | roleKept {memberId : Uuid} {role : Role} : Performed env db k (.changeRole memberId role) db
  | roleChanged {memberId : Uuid} {role : Role} {a m : Member} {db' : Database}
    (acting : Acting db k a)
      (mem : m ∈ db.members) (id : m.id = memberId) (allowed : ¬ DeniedManage a m (some role))
      (changed : m.role ≠ role) (saved : db'.members = db.members.save m.id ⟨some role, none, none⟩)
      (audited : Audited db db') : Performed env db k (.changeRole memberId role) db'
  | removed {memberId : Uuid} {a m : Member} {db' : Database} (acting : Acting db k a)
      (mem : m ∈ db.members) (id : m.id = memberId) (allowed : ¬ DeniedManage a m none)
      (deleted : db'.members = db.members.delete (·.id == m.id)) (audited : Audited db db') :
      Performed env db k (.revoke memberId) db'
  | relocated {memberId : Uuid} {locationIds : List Uuid} {a : Member} {db' : Database}
      (acting : Acting db k a) (manages : a.role.manages = true)
      (members : db'.members = db.members) :
      Performed env db k (.setLocations memberId locationIds) db'

/-- The checks of the request itself, for the stored membership `a` of its actor. -/
def TeamRequest.Passes (env : Env) (db : Database) (a : Member) : TeamRequest → Prop
  | .invite address role => ¬ (role = .owner ∧ a.role ≠ .owner) ∧
      ∀ m ∈ db.members, Addressed env db address m → m.accepted = false
  | .changeRole memberId role =>
      ∃ m ∈ db.members, m.id = memberId ∧ ¬ DeniedManage a m (some role) ∧ m.role ≠ role
  | .revoke memberId => ∃ m ∈ db.members, m.id = memberId ∧ ¬ DeniedManage a m none
  | .setLocations memberId locationIds => a.role.manages = true ∧
      ∃ m ∈ db.members, m.id = memberId ∧ m.role = .manager ∧ locationIds ⊆ db.locations ∧
        ¬ (db.locationsOf memberId ⊆ locationIds ∧ locationIds ⊆ db.locationsOf memberId)

structure Returned (env : Env) (db : Database) (k : Uuid) (request : TeamRequest)
    (db' : Database) : Prop where
  performed : Performed env db k request db'
  fresh : db'.Fresh
  later : db.nextId ≤ db'.nextId
  effect : db' = db ∧ (∀ a, Acting db k a → ¬ request.Passes env db a) ∨
    (∃ a, Acting db k a ∧ request.Passes env db a) ∧ Audited db db'

structure Raised (env : Env) (db : Database) (k : Uuid) (request : TeamRequest)
    (e : Error) : Prop where
  owned : e ≠ .lastOwner
  refused : ∀ a, Acting db k a → ¬ request.Passes env db a

section Requests

variable {env : Env} {s : Store Database Unit} {actor a b m : Member} {k : Uuid} {role : Role}
  {address : String} {db db' : Database}

theorem Acting.eq (ha : Acting db k a) (hb : Acting db k b) : a = b :=
  members_eq ha.mem hb.mem (ha.id.trans hb.id.symm)

theorem raised_denied {request : TeamRequest}
    (h : ∀ a ∈ db.members, a.id = k → a.accepted = false) :
    Raised env db k request .teamPermissionDenied where
  owned := by decide
  refused a ha := by
    have := h a ha.mem ha.id
    rw [ha.accepted] at this
    cases this

theorem Acting.raised {request : TeamRequest} {e : Error} (ha : Acting db k a) (he : e ≠ .lastOwner)
    (h : ¬ request.Passes env db a) : Raised env db k request e where
  owned := he
  refused _ hb := ha.eq hb ▸ h

theorem Database.Fresh.inserted {users : Table User User.Clash} {email : String} (hf : db.Fresh)
    (h : db.users.insert? (db.newUser email) = some users) :
    Database.Fresh { db with users := users, nextId := db.nextId + 1 } where
  users u hu := by
    rcases (Table.mem_insert? h).mp hu with hu | rfl
    · exact Nat.lt_succ_of_lt (hf.users u hu)
    · exact Nat.lt_succ_self _
  members m hm := Nat.lt_succ_of_lt (hf.members m hm)
  memberUsers m hm := Nat.lt_succ_of_lt (hf.memberUsers m hm)

theorem Database.Fresh.created {members : Members} {user : User} {now : Time} (hf : db.Fresh)
    (hu : user.id < db.nextId)
    (h : db.members.insert? (db.newMember user role now) = some members) :
    Database.Fresh { db with members := members, nextId := db.nextId + 1 } where
  users u hu := Nat.lt_succ_of_lt (hf.users u hu)
  members m hm := by
    rcases (Table.mem_insert? h).mp hm with hm | rfl
    · exact Nat.lt_succ_of_lt (hf.members m hm)
    · exact Nat.lt_succ_self _
  memberUsers m hm := by
    rcases (Table.mem_insert? h).mp hm with hm | rfl
    · exact Nat.lt_succ_of_lt (hf.memberUsers m hm)
    · exact Nat.lt_succ_of_lt hu

theorem Database.Fresh.of_members (hf : db.Fresh) (hu : db'.users = db.users)
    (hn : db'.nextId = db.nextId)
    (hm : ∀ m ∈ db'.members, ∃ b ∈ db.members, b.id = m.id ∧ b.userId = m.userId) : db'.Fresh where
  users u h := hn ▸ hf.users u (hu ▸ h)
  members m h := by
    obtain ⟨b, hb, hid, -⟩ := hm m h
    exact hn ▸ hid ▸ hf.members b hb
  memberUsers m h := by
    obtain ⟨b, hb, -, hid⟩ := hm m h
    exact hn ▸ hid ▸ hf.memberUsers b hb

theorem Members.save_keys {members : Members} {fields : MemberFields} :
    ∀ m ∈ members.save k fields, ∃ b ∈ members, b.id = m.id ∧ b.userId = m.userId := by
  intro m hm
  obtain ⟨b, hb, rfl⟩ := Members.mem_save.mp hm
  exact ⟨b, hb, by simp, by simp⟩

theorem Acting.mem_save (fields : MemberFields) (ha : Acting db k a) (hne : a.id ≠ m.id) :
    a ∈ db.members.save m.id fields :=
  Members.mem_save.mpr ⟨a, ha.mem, Member.saved_of_ne hne⟩

theorem Acting.ne_pending (ha : Acting db k a) (hm : m ∈ db.members) (hp : m.accepted = false) :
    a.id ≠ m.id := by
  intro h
  rw [← members_eq ha.mem hm h, ha.accepted] at hp
  cases hp

theorem inviteMember_performed {t : Store Database Unit} {user : User} (hf : t.data.Fresh)
    (hu : user.id < t.data.nextId) (hm : t.data.members = s.data.members)
    (ha : t.data.audit = s.data.audit)
    (hl : s.data.nextId ≤ t.data.nextId) (acting : Acting s.data k a)
    (grants : ¬ (role = .owner ∧ a.role ≠ .owner))
    (hadr : ∀ m ∈ s.data.members, Addressed env s.data address m ↔ m.userId = user.id) :
    wp env (do
        let member ← inviteMember user role
        record auditInvited a.userId member.id [("role", [role.value])]
        pure (member, makeInviteToken member))
      (fun _ u => Returned env s.data k (.invite address role) u.data)
      (fun e _ => Raised env s.data k (.invite address role) e) t := by
  have acting' : Acting t.data k a := ⟨hm ▸ acting.mem, acting.id, acting.accepted⟩
  rw [wp_bind, wp_inviteMember hf]
  refine ⟨fun m hmem huser => ⟨fun hacc => ?_, fun pending => ?_⟩, fun members hins => ?_⟩
  · apply acting.raised (by decide)
    rintro ⟨-, hpend⟩
    have hmem' := hm ▸ hmem
    rw [hpend m hmem' ((hadr m hmem').mpr huser)] at hacc
    cases hacc
  · have hmem' := hm ▸ hmem
    have hsaved :=
      acting'.mem_save ⟨some role, some env.now, none⟩ (acting'.ne_pending hmem pending)
    rw [wp_bind, wp_record hsaved acting.accepted, wp_pure]
    have audited : ∀ r, Audited s.data { t.data with
        members := t.data.members.save m.id ⟨some role, some env.now, none⟩,
            audit := t.data.audit ++ [r] } :=
      fun r => ⟨r, by rw [ha]⟩
    refine ⟨.reinvited acting grants hmem' pending ((hadr m hmem').mpr huser)
      (by rw [hm]) (audited _),
      hf.of_members rfl rfl Members.save_keys, hl, .inr ⟨⟨a, acting, grants, ?_⟩, audited _⟩⟩
    intro b hb hadrb
    rw [Table.eq_of_clash Member.Clash.symm hb hmem'
      (.inr (((hadr b hb).mp hadrb).trans huser.symm))]
    exact pending
  · have hnone := (Table.insert?_eq_some.mp hins).1
    have hmem := (Table.mem_insert? hins).mpr (.inl acting'.mem)
    rw [wp_bind, wp_record hmem acting.accepted, wp_pure]
    have audited : ∀ r, Audited s.data { t.data with
        members := members, nextId := t.data.nextId + 1, audit := t.data.audit ++ [r] } :=
      fun r => ⟨r, by rw [ha]⟩
    have unknown : ∀ m ∈ s.data.members, ¬ Addressed env s.data address m := fun b hb hadrb =>
      hnone b (hm ▸ hb) (.inr ((hadr b hb).mp hadrb))
    refine ⟨.invited acting grants rfl rfl hl unknown
      ((Table.insert?_eq_some.mp hins).2.trans (by rw [hm]))
      (audited _), ⟨(hf.created hu hins).users, (hf.created hu hins).members,
        (hf.created hu hins).memberUsers⟩,
      Nat.le_succ_of_le hl, .inr ⟨⟨a, acting, grants, ?_⟩, audited _⟩⟩
    exact fun b hb hadrb => absurd hadrb (unknown b hb)

theorem invite_spec (hf : s.data.Fresh) :
    wp env (inviteTeamMember actor address role)
      (fun _ t => Returned env s.data actor.id (.invite address role) t.data)
      (fun e _ => Raised env s.data actor.id (.invite address role) e) s := by
  unfold inviteTeamMember
  rw [wp_bind, wp_ask, wp_bind, wp_lockTeam]
  refine ⟨fun a ha hid hacc => ?_, raised_denied⟩
  have acting : Acting s.data actor.id a := ⟨ha, hid, hacc⟩
  rw [wp_bind, wp_checkCanGrantOwner]
  refine ⟨fun denied => acting.raised (by decide) fun h => h.1 denied, fun grants => ?_⟩
  rw [wp_bind, wp_inviteUser hf (env.normalize_normalize address)]
  refine ⟨fun u hu hemail => ?_, fun users hins => ?_⟩
  · refine inviteMember_performed hf (hf.users u hu) rfl rfl (le_refl _) acting grants fun m _ => ?_
    constructor
    · rintro ⟨v, hv, hve, hmv⟩
      rw [hmv, Table.eq_of_clash User.Clash.symm hv hu (.inr (hve.trans hemail.symm))]
    · exact fun h => ⟨u, hu, hemail, h⟩
  · refine inviteMember_performed (hf.inserted hins) (Nat.lt_succ_self _) rfl rfl
      (Nat.le_succ _) acting grants
      fun m hm => ?_
    constructor
    · rintro ⟨v, hv, hve, -⟩
      exact absurd (.inr hve) ((Table.insert?_eq_some.mp hins).1 v hv)
    · intro h
      exact absurd h (Nat.ne_of_lt (hf.memberUsers m hm))

theorem Acting.not_orphan {newRole : Option Role} (acting : Acting db k a)
    (allowed : ¬ DeniedManage a m newRole) : ¬ wouldOrphanOwners db m = true := by
  unfold wouldOrphanOwners
  rw [Bool.and_eq_true, beq_iff_eq, Bool.not_eq_true', not_and]
  intro howner
  have hne : a.id ≠ m.id := fun h => allowed (.inl h.symm)
  have hrole : a.role = .owner := by
    by_contra hno
    exact allowed (.inr ⟨hno, .inl howner⟩)
  have hany : (db.members.rows.any fun b => b.isOwner && b.id != m.id) = true := by
    apply List.any_eq_true.mpr
    exact ⟨a, acting.mem, by simp [Member.isOwner, hrole, acting.accepted, hne]⟩
  rw [hany]
  decide

theorem change_spec (hf : s.data.Fresh) :
    wp env (changeTeamMemberRole actor k role)
      (fun _ t => Returned env s.data actor.id (.changeRole k role) t.data)
      (fun e _ => Raised env s.data actor.id (.changeRole k role) e) s := by
  unfold changeTeamMemberRole
  rw [wp_bind, wp_lockTeam]
  refine ⟨fun a ha hid hacc => ?_, raised_denied⟩
  have acting : Acting s.data actor.id a := ⟨ha, hid, hacc⟩
  rw [wp_bind, wp_lockTarget]
  refine ⟨fun m hm hmid => ?_, fun hno => ?_⟩
  · have only : ∀ b ∈ s.data.members, b.id = k → b = m := fun b hb hbid =>
      members_eq hb hm (hbid.trans hmid.symm)
    rw [wp_bind, wp_checkCanManage]
    refine ⟨fun denied => acting.raised (by decide) ?_, fun allowed => ?_⟩
    · rintro ⟨b, hb, hbid, hall, -⟩
      exact hall (only b hb hbid ▸ denied)
    rw [wp_whenever]
    refine ⟨fun hne => ?_, fun hsame => ?_⟩
    · have hsaved := acting.mem_save ⟨some role, none, none⟩ fun h => allowed (.inl h.symm)
      have passes : TeamRequest.Passes env s.data a (.changeRole k role) :=
        ⟨m, hm, hmid, allowed, hne⟩
      have post : ∀ assigned r, Returned env s.data actor.id (.changeRole k role) { s.data with
          members := s.data.members.save m.id ⟨some role, none, none⟩
          assigned := assigned
          audit := s.data.audit ++ [r] } := fun assigned r =>
        ⟨.roleChanged acting hm hmid allowed hne rfl ⟨r, rfl⟩,
          hf.of_members rfl rfl Members.save_keys,
          le_refl _, .inr ⟨⟨a, acting, passes⟩, r, rfl⟩⟩
      rw [wp_bind, wp_get, wp_bind, wp_whenever]
      refine ⟨fun ⟨_, _, horphan⟩ => absurd horphan (acting.not_orphan allowed), fun _ => ?_⟩
      rw [wp_bind, wp_saveMember, wp_bind, wp_whenever]
      refine ⟨fun _ => ?_, fun _ => ?_⟩
      · rw [wp_modify, wp_record hsaved hacc]
        exact post _ _
      · rw [wp_record hsaved hacc]
        exact post _ _
    · refine ⟨.roleKept, hf, le_refl _, .inl ⟨rfl, ?_⟩⟩
      rintro b - ⟨c, hc, hcid, -, hne⟩
      exact hsame (only c hc hcid ▸ hne)
  · apply acting.raised (by decide)
    rintro ⟨b, hb, hbid, -⟩
    exact hno b hb hbid

theorem revoke_spec (hf : s.data.Fresh) :
    wp env (revokeTeamMember actor k)
      (fun _ t => Returned env s.data actor.id (.revoke k) t.data)
      (fun e _ => Raised env s.data actor.id (.revoke k) e) s := by
  unfold revokeTeamMember
  rw [wp_bind, wp_lockTeam]
  refine ⟨fun a ha hid hacc => ?_, raised_denied⟩
  have acting : Acting s.data actor.id a := ⟨ha, hid, hacc⟩
  rw [wp_bind, wp_lockTarget]
  refine ⟨fun m hm hmid => ?_, fun hno => ?_⟩
  · rw [wp_bind, wp_checkCanManage]
    refine ⟨fun denied => acting.raised (by decide) ?_, fun allowed => ?_⟩
    · rintro ⟨b, hb, hbid, hall⟩
      exact hall (members_eq hb hm (hbid.trans hmid.symm) ▸ denied)
    rw [wp_bind, wp_get, wp_bind, wp_whenever]
    refine ⟨fun horphan => absurd horphan (acting.not_orphan allowed), fun _ => ?_⟩
    rw [wp_bind, wp_record ha hacc, wp_modify]
    refine ⟨.removed acting hm hmid allowed rfl ⟨_, rfl⟩, hf.of_members rfl rfl ?_, le_refl _,
      .inr ⟨⟨a, acting, m, hm, hmid, allowed⟩, _, rfl⟩⟩
    intro b hb
    exact ⟨b, (Table.mem_delete.mp hb).1, rfl, rfl⟩
  · apply acting.raised (by decide)
    rintro ⟨b, hb, hbid, -⟩
    exact hno b hb hbid

theorem locations_spec {locationIds : List Uuid} (hf : s.data.Fresh) :
    wp env (setTeamMemberLocations actor k locationIds)
      (fun _ t => Returned env s.data actor.id (.setLocations k locationIds) t.data)
      (fun e _ => Raised env s.data actor.id (.setLocations k locationIds) e) s := by
  unfold setTeamMemberLocations
  rw [wp_bind, wp_lockTeam]
  refine ⟨fun a ha hid hacc => ?_, raised_denied⟩
  have acting : Acting s.data actor.id a := ⟨ha, hid, hacc⟩
  rw [wp_bind, wp_whenever]
  refine ⟨fun hno => acting.raised (by decide) fun h => ?_, fun hyes => ?_⟩
  · rw [h.1] at hno
    cases hno
  have manages : a.role.manages = true := by simpa using hyes
  rw [wp_bind, wp_lockTarget]
  refine ⟨fun m hm hmid => ?_, fun hno => ?_⟩
  · have only : ∀ b ∈ s.data.members, b.id = k → b = m := fun b hb hbid =>
      members_eq hb hm (hbid.trans hmid.symm)
    have hids : ∀ {l : List Uuid}, (locationIds.dedup ⊆ l ↔ locationIds ⊆ l) ∧
        (l ⊆ locationIds.dedup ↔ l ⊆ locationIds) := by
      intro l
      simp [List.subset_def]
    rw [wp_bind, wp_whenever]
    refine ⟨fun hrole => acting.raised (by decide) ?_, fun hrole => ?_⟩
    · rintro ⟨-, b, hb, hbid, hbrole, -⟩
      exact hrole (only b hb hbid ▸ hbrole)
    rw [wp_bind, wp_get, wp_bind, wp_whenever]
    refine ⟨fun hsub => acting.raised (by decide) ?_, fun hsub => ?_⟩
    · rintro ⟨-, b, -, -, -, hall, -⟩
      exact hsub (hids.1.mpr hall)
    rw [wp_whenever]
    refine ⟨fun hne => ?_, fun hsame => ?_⟩
    · rw [wp_bind, wp_modify, wp_record (by exact ha) hacc]
      refine ⟨.relocated acting manages rfl,
        hf.of_members rfl rfl fun b hb => ⟨b, hb, rfl, rfl⟩, le_refl _,
        .inr ⟨⟨a, acting, manages, m, hm, hmid, not_not.mp hrole, hids.1.mp (not_not.mp hsub), ?_⟩,
          _, rfl⟩⟩
      rw [hids.1, hids.2, hmid] at hne
      exact hne
    · refine ⟨.relocated acting manages rfl, hf, le_refl _, .inl ⟨rfl, ?_⟩⟩
      rintro b - ⟨-, c, -, -, -, -, hne⟩
      rw [hids.1, hids.2, hmid] at hsame
      exact hsame hne
  · apply acting.raised (by decide)
    rintro ⟨-, b, hb, hbid, -⟩
    exact hno b hb hbid

theorem request_spec {request : TeamRequest} (hf : s.data.Fresh) :
    wp env (request.program actor) (fun _ t => Returned env s.data actor.id request t.data)
      (fun e _ => Raised env s.data actor.id request e) s := by
  cases request with
  | invite address role =>
    rw [TeamRequest.program, wp_bind]
    exact wp_mono (invite_spec hf) (fun _ _ h => h) (fun _ _ h => h)
  | changeRole memberId role => exact change_spec hf
  | revoke memberId => exact revoke_spec hf
  | setLocations memberId locationIds => exact locations_spec hf

structure Accepted (db db' : Database) : Prop where
  saved : ∃ m ∈ db.members, ∃ now, m.accepted = false ∧
    db'.members = db.members.save m.id ⟨none, none, some now⟩
  fresh : db'.Fresh
  later : db.nextId ≤ db'.nextId

theorem accept_spec {invite : Invite} {password : String} (hf : s.data.Fresh) :
    wp env (acceptInvite invite password) (fun _ t => Accepted s.data t.data)
      (fun e _ => e ≠ .lastOwner) s := by
  unfold acceptInvite
  rw [wp_bind, wp_ask, wp_bind, wp_get, wp_bind, wp_whenever]
  refine ⟨fun _ => by rw [wp_raise]; decide, fun _ => ?_⟩
  split
  · rw [wp_raise]
    decide
  case h_2 member hfind =>
    obtain ⟨hm, hcond⟩ := Table.mem_of_find? hfind
    simp only [Bool.and_eq_true, beq_iff_eq, Bool.not_eq_true'] at hcond
    rw [wp_bind, wp_whenever]
    refine ⟨fun _ => by rw [wp_raise]; decide, fun _ => ?_⟩
    split
    · rw [wp_raise]
      decide
    case h_2 user huser =>
      obtain ⟨hu, huid⟩ := Table.mem_of_find? huser
      have post : ∀ (t : Store Database Unit), t.data.members = s.data.members → t.data.Fresh →
          t.data.nextId = s.data.nextId →
          wp env (do
              saveMember member.id ⟨none, none, some env.now⟩
              record auditAccepted user.id member.id [])
            (fun _ u => Accepted s.data u.data) (fun e _ => e ≠ .lastOwner) t := by
        intro t hmem hfresh hnext
        have hin : member.saved member.id ⟨none, none, some env.now⟩ ∈
            t.data.members.save member.id ⟨none, none, some env.now⟩ :=
          Members.mem_save.mpr ⟨member, hmem ▸ hm, rfl⟩
        have hacc : (member.saved member.id ⟨none, none, some env.now⟩).accepted = true := by
          simp [Member.saved, Member.accepted]
        have huserId : user.id = (member.saved member.id ⟨none, none, some env.now⟩).userId := by
          rw [Member.saved_userId, hcond.1.2]
          exact beq_iff_eq.mp huid
        rw [wp_bind, wp_saveMember, huserId, wp_record hin hacc]
        exact ⟨⟨member, hm, env.now, hcond.2, by rw [hmem]⟩,
          hfresh.of_members rfl rfl Members.save_keys, le_of_eq hnext.symm⟩
      split
      · rw [wp_bind, wp_whenever]
        exact ⟨fun _ => by rw [wp_raise]; decide, fun _ => post s rfl hf rfl⟩
      · rw [wp_bind, wp_whenever]
        refine ⟨fun _ => by rw [wp_raise]; exact nofun, fun _ => ?_⟩
        rw [wp_bind, wp_modify]
        have fresh : Database.Fresh
            { s.data with users := setPassword s.data.users user.id password } := by
          refine ⟨fun u hset => ?_, hf.members, hf.memberUsers⟩
          obtain ⟨v, hv, hvid⟩ := mem_setPassword hset
          exact hvid ▸ hf.users v hv
        exact post ⟨_, s.journal⟩ rfl fresh rfl

end Requests

end ReviewFlow.Accounts
