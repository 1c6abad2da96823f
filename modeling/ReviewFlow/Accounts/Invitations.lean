import ReviewFlow.Accounts.Platform

/-!
# Invitations

`Effect` says where each membership after a transaction comes from. A token names its
membership, whose key is never used again, and the time of the invitation, which the latest one
overwrites.
-/

namespace ReviewFlow.Accounts

open Savepoint Tables Program Interleaving

inductive RowEffect (db : Database) (event : TeamEvent) (m' : Member) : Prop
  | kept (m : Member) (mem : m ∈ db.members) (id : m'.id = m.id) (userId : m'.userId = m.userId)
      (invitedAt : m'.invitedAt = m.invitedAt) (acceptedAt : m'.acceptedAt = m.acceptedAt)
      (other : event.member ≠ some m'.id)
  | issued (token : Invite) (event : event = .issued token) (pending : m'.accepted = false)
      (signed : makeInviteToken m' = some token)
      (origin : (∃ m ∈ db.members, m.id = m'.id ∧ m.accepted = false) ∨ db.nextId ≤ m'.id)
  | accepted (token : Invite) (event : event = .accepted token) (m : Member) (mem : m ∈ db.members)
      (id : m'.id = m.id) (member : m'.id = token.member) (accepted : m'.accepted = true)

theorem RowEffect.origin {db : Database} {event : TeamEvent} {m' : Member}
    (h : RowEffect db event m') :
    (∃ m ∈ db.members, m.id = m'.id) ∨ db.nextId ≤ m'.id := by
  cases h with
  | kept m mem id => exact .inl ⟨m, mem, id.symm⟩
  | accepted token event m mem id => exact .inl ⟨m, mem, id.symm⟩
  | issued token event pending signed origin =>
    rcases origin with ⟨m, mem, id, -⟩ | hlater
    · exact .inl ⟨m, mem, id⟩
    · exact .inr hlater

structure Effect (db : Database) (event : TeamEvent) (db' : Database) : Prop where
  rows : ∀ m' ∈ db'.members, RowEffect db event m'
  accepts : ∀ token, event = .accepted token →
    db.active = true ∧ ∃ m ∈ db.members, m.accepted = false ∧ makeInviteToken m = some token
  named : ∀ k, event.member = some k → (∃ m ∈ db.members, m.id = k) ∨ db.nextId ≤ k
  passwords : KeepsPasswords db.users db'.users
  fresh : db'.Fresh
  later : db.nextId ≤ db'.nextId

section Effects

variable {env : Env} {s : Store Database Unit} {actor a m : Member} {k : Uuid} {role : Role}
  {address : String} {db db' : Database}

theorem Effect.idle (hf : db.Fresh) : Effect db .quiet db where
  rows m hm := .kept m hm rfl rfl rfl rfl nofun
  accepts := nofun
  named := nofun
  passwords := .refl _
  fresh := hf
  later := le_refl _

theorem Performed.effect {request : TeamRequest} (h : Returned env db k request db')
    (hinvite : ∀ address role, request ≠ .invite address role) (husers : db'.users = db.users) :
    Effect db .quiet db' where
  rows m' hm' := by
    cases h.performed with
    | invited => exact absurd rfl (hinvite _ _)
    | reinvited => exact absurd rfl (hinvite _ _)
    | roleKept => exact .kept m' hm' rfl rfl rfl rfl nofun
    | relocated acting manages members => exact .kept m' (members ▸ hm') rfl rfl rfl rfl nofun
    | removed acting mem id allowed deleted audited =>
      rw [deleted] at hm'
      exact .kept m' (Table.mem_delete.mp hm').1 rfl rfl rfl rfl nofun
    | roleChanged acting mem id allowed changed saved audited =>
      rw [saved] at hm'
      obtain ⟨b, hb, rfl⟩ := Members.mem_save.mp hm'
      refine .kept b hb Member.saved_id Member.saved_userId ?_ ?_ nofun
      · unfold Member.saved
        split <;> rfl
      · unfold Member.saved
        split <;> rfl
  accepts := nofun
  named := nofun
  passwords := husers ▸ .refl _
  fresh := h.fresh
  later := h.later

theorem change_keeps_users {memberId : Uuid} :
    Keeps Database.users (changeTeamMemberRole actor memberId role) := by
  unfold changeTeamMemberRole checkCanManage
  refine lockTeam_keeps.bind fun a => lockTarget_keeps.bind fun m => ?_
  refine ((keeps_whenever_raise _).bind fun _ => keeps_whenever_raise _).bind fun _ => .whenever ?_
  refine keeps_get.bind fun db => (keeps_whenever_raise _).bind fun _ => ?_
  refine Keeps.bind ?_ fun _ => Keeps.bind ?_ fun _ => record_keeps fun _ _ => rfl
  · exact keeps_modify fun _ => rfl
  · exact .whenever (keeps_modify fun _ => rfl)

theorem revoke_keeps_users {memberId : Uuid} :
    Keeps Database.users (revokeTeamMember actor memberId) := by
  unfold revokeTeamMember checkCanManage
  refine lockTeam_keeps.bind fun a => lockTarget_keeps.bind fun m => ?_
  refine ((keeps_whenever_raise _).bind fun _ => keeps_whenever_raise _).bind fun _ => ?_
  refine keeps_get.bind fun db => (keeps_whenever_raise _).bind fun _ => ?_
  exact (record_keeps fun _ _ => rfl).bind fun _ => keeps_modify fun _ => rfl

theorem locations_keep_users {memberId : Uuid} {locationIds : List Uuid} :
    Keeps Database.users (setTeamMemberLocations actor memberId locationIds) := by
  unfold setTeamMemberLocations
  refine lockTeam_keeps.bind fun a => (keeps_whenever_raise _).bind fun _ =>
    lockTarget_keeps.bind fun m => ?_
  refine (keeps_whenever_raise _).bind fun _ => keeps_get.bind fun db =>
    (keeps_whenever_raise _).bind fun _ => ?_
  refine .whenever (Keeps.bind ?_ fun _ => record_keeps fun _ _ => rfl)
  exact keeps_modify fun _ => rfl

theorem request_effect {request : TeamRequest} (hf : s.data.Fresh)
    (hinvite : ∀ address role, request ≠ .invite address role)
    (hkeeps : Keeps Database.users (request.program actor)) :
    wp env (do
        request.program actor
        pure TeamEvent.quiet)
      (fun event t => Effect s.data event t.data) (fun _ _ => True) s := by
  rw [wp_bind]
  exact wp_mono (wp_and (request_spec hf) (hkeeps.wp env s))
    (fun _ t h => Performed.effect h.1 hinvite h.2) (fun _ _ _ => trivial)

theorem reinvited_effect {users : Table User User.Clash} {nextId : Uuid}
    {audit : List AuditLog} {now : Time}
    (hm : m ∈ db.members) (hp : m.accepted = false) (hu : KeepsPasswords db.users users)
    (hf : Database.Fresh { db with users := users, nextId := nextId }) (hl : db.nextId ≤ nextId) :
    Effect db (.issued ⟨m.id, m.userId, now⟩)
      { db with
        users := users
        nextId := nextId
        members := db.members.save m.id ⟨some role, some now, none⟩
        audit := audit } where
  rows m' hm' := by
    obtain ⟨b, hb, rfl⟩ := Members.mem_save.mp hm'
    by_cases hid : b.id = m.id
    · obtain rfl := members_eq hb hm hid
      refine .issued _ rfl ?_ ?_ (.inl ⟨b, hb, Member.saved_id.symm, hp⟩)
      · simpa [Member.saved, Member.accepted] using hp
      · simp [Member.saved, makeInviteToken]
    · rw [Member.saved_of_ne hid]
      exact .kept b hb rfl rfl rfl rfl fun h => hid (Option.some.inj h).symm
  accepts := nofun
  named k hk := .inl ⟨m, hm, Option.some.inj hk⟩
  passwords := hu
  fresh := hf.of_members rfl rfl Members.save_keys
  later := hl

theorem invited_effect {users : Table User User.Clash} {members : Members}
    {nextId : Uuid} {user : User}
    {audit : List AuditLog} {now : Time} (hu : KeepsPasswords db.users users)
    (hf : Database.Fresh { db with users := users, nextId := nextId }) (hl : db.nextId ≤ nextId)
    (huser : user.id < nextId)
    (hins : db.members.insert? (Database.newMember { db with nextId := nextId } user role now) =
      some members) :
    Effect db (.issued ⟨nextId, user.id, now⟩)
      { db with
        users := users
        nextId := nextId + 1
        members := members
        audit := audit } where
  rows m' hm' := by
    rcases (Table.mem_insert? hins).mp hm' with hm' | rfl
    · have hlt : m'.id < nextId := hf.members m' hm'
      exact .kept m' hm' rfl rfl rfl rfl fun h => (Nat.ne_of_gt hlt) (Option.some.inj h)
    · exact .issued _ rfl rfl rfl (.inr hl)
  accepts := nofun
  named k hk := by
    obtain rfl := Option.some.inj hk
    exact .inr hl
  passwords := hu
  fresh := ⟨(hf.created huser hins).users, (hf.created huser hins).members,
    (hf.created huser hins).memberUsers⟩
  later := Nat.le_succ_of_le hl

theorem inviteMember_effect {users : Table User User.Clash} {nextId : Uuid} {user : User}
    (hu : KeepsPasswords s.data.users users)
    (hf : Database.Fresh { s.data with users := users, nextId := nextId })
    (hl : s.data.nextId ≤ nextId)
    (huser : user.id < nextId) (ha : a ∈ s.data.members) (hacc : a.accepted = true) :
    wp env (do
        let member ← inviteMember user role
        record auditInvited a.userId member.id [("role", [role.value])]
        pure (member, makeInviteToken member))
      (fun out t => Effect s.data (out.2.elim .quiet .issued) t.data) (fun _ _ => True)
      ⟨{ s.data with users := users, nextId := nextId }, s.journal⟩ := by
  rw [wp_bind, wp_inviteMember hf]
  refine ⟨fun m hmem huser' => ⟨fun _ => trivial, fun pending => ?_⟩, fun members hins => ?_⟩
  · have acting : Acting s.data a.id a := ⟨ha, rfl, hacc⟩
    have hsaved := acting.mem_save ⟨some role, some env.now, none⟩ (acting.ne_pending hmem pending)
    rw [wp_bind, wp_record hsaved hacc, wp_pure]
    exact reinvited_effect (m := m) hmem pending hu hf hl
  · have hmem := (Table.mem_insert? hins).mpr (.inl ha)
    rw [wp_bind, wp_record hmem hacc, wp_pure]
    exact invited_effect hu hf hl huser hins

theorem invite_effect (hf : s.data.Fresh) :
    wp env (inviteTeamMember actor address role)
      (fun out t => Effect s.data (out.2.elim .quiet .issued) t.data) (fun _ _ => True) s := by
  unfold inviteTeamMember
  rw [wp_bind, wp_ask, wp_bind, wp_lockTeam]
  refine ⟨fun a ha hid hacc => ?_, fun _ => trivial⟩
  rw [wp_bind, wp_checkCanGrantOwner]
  refine ⟨fun _ => trivial, fun _ => ?_⟩
  rw [wp_bind, wp_inviteUser hf (env.normalize_normalize address)]
  refine ⟨fun u hu _ => ?_, fun users hins => ?_⟩
  · exact inviteMember_effect (.refl _) hf (le_refl _) (hf.users u hu) ha hacc
  · exact inviteMember_effect (insert_keepsPasswords hins) (hf.inserted hins) (Nat.le_succ _)
      (Nat.lt_succ_self _) ha hacc

theorem accepted_effect {users : Table User User.Clash} {audit : List AuditLog}
    {token : Invite} {now : Time}
    (hactive : db.active = true) (hm : m ∈ db.members) (hp : m.accepted = false)
    (hsigned : makeInviteToken m = some token) (hu : KeepsPasswords db.users users)
    (hf : Database.Fresh { db with users := users }) :
    Effect db (.accepted token)
      { db with
        users := users
        members := db.members.save m.id ⟨none, none, some now⟩
        audit := audit } where
  rows m' hm' := by
    have hid : token.member = m.id := by
      obtain ⟨at', -, rfl⟩ := Option.map_eq_some_iff.mp hsigned
      rfl
    obtain ⟨b, hb, rfl⟩ := Members.mem_save.mp hm'
    by_cases hbid : b.id = m.id
    · refine .accepted _ rfl b hb Member.saved_id (Member.saved_id.trans (hbid.trans hid.symm)) ?_
      simp [Member.saved, hbid, Member.accepted]
    · rw [Member.saved_of_ne hbid]
      exact .kept b hb rfl rfl rfl rfl fun h => hbid ((Option.some.inj h).symm.trans hid)
  accepts t ht := by
    cases ht
    exact ⟨hactive, m, hm, hp, hsigned⟩
  named k hk := by
    obtain ⟨at', -, rfl⟩ := Option.map_eq_some_iff.mp hsigned
    exact .inl ⟨m, hm, Option.some.inj hk⟩
  passwords := hu
  fresh := hf.of_members rfl rfl Members.save_keys
  later := le_refl _

theorem accept_effect {invite : Invite} {password : String} (hf : s.data.Fresh) :
    wp env (acceptInvite invite password) (fun _ t => Effect s.data (.accepted invite) t.data)
      (fun _ _ => True) s := by
  unfold acceptInvite
  rw [wp_bind, wp_ask, wp_bind, wp_get, wp_bind, wp_whenever]
  refine ⟨fun _ => trivial, fun hactive => ?_⟩
  split
  · trivial
  case h_2 member hfind =>
    obtain ⟨hm, hcond⟩ := Table.mem_of_find? hfind
    simp only [Bool.and_eq_true, beq_iff_eq, Bool.not_eq_true'] at hcond
    obtain ⟨⟨hid, hmuser⟩, hp⟩ := hcond
    rw [wp_bind, wp_whenever]
    refine ⟨fun _ => trivial, fun htime => ?_⟩
    have hsigned : makeInviteToken member = some invite := by
      rw [makeInviteToken, not_not.mp htime, hid, hmuser]
      rfl
    split
    · trivial
    case h_2 user huser =>
      obtain ⟨hu, huid⟩ := Table.mem_of_find? huser
      have post : ∀ users, KeepsPasswords s.data.users users →
          Database.Fresh { s.data with users := users } →
          wp env (do
              saveMember member.id ⟨none, none, some env.now⟩
              record auditAccepted user.id member.id [])
            (fun _ t => Effect s.data (.accepted invite) t.data) (fun _ _ => True)
            ⟨{ s.data with users := users }, s.journal⟩ := by
        intro users hkeeps hfresh
        have hin : member.saved member.id ⟨none, none, some env.now⟩ ∈
            s.data.members.save member.id ⟨none, none, some env.now⟩ :=
          Members.mem_save.mpr ⟨member, hm, rfl⟩
        have hacc : (member.saved member.id ⟨none, none, some env.now⟩).accepted = true := by
          simp [Member.saved, Member.accepted]
        have huserId : user.id = (member.saved member.id ⟨none, none, some env.now⟩).userId := by
          rw [Member.saved_userId, hmuser]
          exact beq_iff_eq.mp huid
        rw [wp_bind, wp_saveMember, huserId, wp_record hin hacc]
        exact accepted_effect (by simpa using hactive) hm hp hsigned hkeeps hfresh
      split
      · rw [wp_bind, wp_whenever]
        exact ⟨fun _ => trivial, fun _ => post _ (.refl _) hf⟩
      case h_2 hnone =>
        rw [wp_bind, wp_whenever]
        refine ⟨fun _ => trivial, fun _ => ?_⟩
        rw [wp_bind, wp_modify]
        refine post _ (setPassword_keepsPasswords hu hnone)
          ⟨fun u hset => ?_, hf.members, hf.memberUsers⟩
        obtain ⟨v, hv, hvid⟩ := mem_setPassword hset
        exact hvid ▸ hf.users v hv

theorem act_effect (hf : s.data.Fresh) (p : Pending) :
    wp env p.act (fun event t => Effect s.data event t.data) (fun _ _ => True) s := by
  cases p with
  | change actor request =>
    cases request with
    | invite address role =>
      rw [Pending.act, wp_bind]
      exact invite_effect hf
    | changeRole memberId role => exact request_effect hf nofun change_keeps_users
    | revoke memberId => exact request_effect hf nofun revoke_keeps_users
    | setLocations memberId locationIds => exact request_effect hf nofun locations_keep_users
  | accept invite password =>
    rw [Pending.act, wp_bind]
    exact accept_effect hf

theorem perform_effect (env : Env) (hf : db.Fresh) (p : Pending) :
    Effect db (p.perform env db).1 (p.perform env db).2 := by
  have h : wp env (savepoint p.act) (fun event t => Effect db event t.data)
      (fun _ _ => True) ⟨db, ()⟩ :=
    (wp_savepoint _).mpr (act_effect hf p)
  unfold Pending.perform
  rcases hrun : (savepoint p.act).run env ⟨db, ()⟩ with ⟨e | event, t⟩
  · exact .idle hf
  · exact wp_ok h hrun

end Effects

end ReviewFlow.Accounts
