import ReviewFlow.Rollback
import ReviewFlow.Accounts.Authority

/-!
# Locations belong to managers

Of the three operations that write a role only a role change deletes the assignments of
a former MANAGER. An invite that gives a pending MANAGER another role leaves them.
-/

namespace ReviewFlow.Accounts

open Savepoint Tables Program Interleaving

def Database.ManagersOnly (db : Database) : Prop :=
  ∀ p ∈ db.assigned, ∃ m ∈ db.members, m.id = p.1 ∧ m.role = .manager

def TeamRequest.Assigns (db db' : Database) : TeamRequest → Prop
  | .invite _ _ => db'.assigned = db.assigned
  | .changeRole k role => ∀ m ∈ db.members, m.id = k → db'.assigned =
      if m.role = .manager ∧ role ≠ .manager then db.assigned.filter fun p => p.1 != k
      else db.assigned
  | .revoke k => db'.assigned = db.assigned.filter fun p => p.1 != k
  | .setLocations k _ => ∀ p ∈ db'.assigned, p ∈ db.assigned ∨
      p.1 = k ∧ ∃ m ∈ db.members, m.id = k ∧ m.role = .manager

section Requests

variable {env : Env} {s : Store Database Unit} {actor m : Member} {k : Uuid} {role : Role}
  {address : String} {locationIds : List Uuid}

theorem record_keeps_assigned {action : String} {user target : Uuid}
    {metadata : List (String × List String)} :
    Keeps Database.assigned (record action user target metadata) :=
  record_keeps fun _ _ => rfl

theorem saveMember_keeps_assigned {fields : MemberFields} :
    Keeps Database.assigned (saveMember k fields) := keeps_modify fun _ => rfl

theorem onIntegrityError_keeps_assigned {α : Type} {handler : TeamM α}
    (h : Keeps Database.assigned handler) (e : Error) :
    Keeps Database.assigned (onIntegrityError handler e) := by
  unfold onIntegrityError
  split
  · exact h
  · exact keeps_raise _

theorem inviteUser_keeps_assigned {email : String} :
    Keeps Database.assigned (inviteUser email) := by
  unfold inviteUser
  have hget : Keeps Database.assigned (getUser email) := by
    unfold getUser
    refine keeps_get.bind fun db => ?_
    split
    · exact keeps_pure _
    · exact keeps_raise _
  have hcreate : Keeps Database.assigned (createUser email) := by
    refine keeps_query fun env db => ?_
    split <;> rfl
  exact hcreate.savepoint.handle (onIntegrityError_keeps_assigned hget)

theorem inviteMember_keeps_assigned {user : User} :
    Keeps Database.assigned (inviteMember user role) := by
  unfold inviteMember
  have hre : Keeps Database.assigned (reinvite user role) := by
    unfold reinvite
    refine keeps_ask.bind fun env => keeps_get.bind fun db => ?_
    split
    · exact keeps_raise _
    · refine (keeps_whenever_raise _).bind fun _ => ?_
      exact saveMember_keeps_assigned.bind fun _ => keeps_pure _
  have hcreate : Keeps Database.assigned (createMember user role) := by
    refine keeps_query fun env db => ?_
    split <;> rfl
  exact hcreate.savepoint.handle (onIntegrityError_keeps_assigned hre)

theorem invite_assigns : wp env (inviteTeamMember actor address role)
    (fun _ t => TeamRequest.Assigns s.data t.data (.invite address role)) (fun _ _ => True) s := by
  have hkeeps : Keeps Database.assigned (inviteTeamMember actor address role) := by
    unfold inviteTeamMember
    refine keeps_ask.bind fun env => lockTeam_keeps.bind fun a => ?_
    refine (keeps_whenever_raise _).bind fun _ => inviteUser_keeps_assigned.bind fun user => ?_
    refine inviteMember_keeps_assigned.bind fun member => ?_
    exact record_keeps_assigned.bind fun _ => keeps_pure _
  exact wp_mono (hkeeps.wp env s) (fun _ _ h => h) (fun _ _ _ => trivial)

theorem change_assigns : wp env (changeTeamMemberRole actor k role)
    (fun _ t => TeamRequest.Assigns s.data t.data (.changeRole k role)) (fun _ _ => True) s := by
  unfold changeTeamMemberRole
  rw [wp_bind, wp_lockTeam]
  refine ⟨fun a ha hid hacc => ?_, fun _ => trivial⟩
  rw [wp_bind, wp_lockTarget]
  refine ⟨fun m hm hmid => ?_, fun _ => trivial⟩
  -- The key names one membership.
  have post : ∀ t : Store Database Unit, t.data.assigned =
      (if m.role = .manager ∧ role ≠ .manager then s.data.assigned.filter fun p => p.1 != k
        else s.data.assigned) → TeamRequest.Assigns s.data t.data (.changeRole k role) := by
    intro t ht b hb hbid
    rw [members_eq hb hm (hbid.trans hmid.symm)]
    exact ht
  rw [wp_bind, wp_checkCanManage]
  refine ⟨fun _ => trivial, fun _ => ?_⟩
  rw [wp_whenever]
  refine ⟨fun hne => ?_, fun hsame => ?_⟩
  · rw [wp_bind, wp_get, wp_bind, wp_whenever]
    refine ⟨fun _ => trivial, fun _ => ?_⟩
    rw [wp_bind, wp_saveMember, wp_bind, wp_whenever]
    refine ⟨fun hformer => ?_, fun hother => ?_⟩
    · rw [wp_modify]
      refine wp_mono (record_keeps_assigned.wp env _) (fun _ t ht => post t ?_)
        (fun _ _ _ => trivial)
      rw [ht, if_pos hformer, hmid]
    · refine wp_mono (record_keeps_assigned.wp env _) (fun _ t ht => post t ?_)
        (fun _ _ _ => trivial)
      rw [ht, if_neg hother]
  · rw [not_not] at hsame
    refine post s (if_neg ?_).symm
    rintro ⟨hmanager, hno⟩
    exact hno (hsame ▸ hmanager)

theorem revoke_assigns : wp env (revokeTeamMember actor k)
    (fun _ t => TeamRequest.Assigns s.data t.data (.revoke k)) (fun _ _ => True) s := by
  unfold revokeTeamMember
  rw [wp_bind, wp_lockTeam]
  refine ⟨fun a ha hid hacc => ?_, fun _ => trivial⟩
  rw [wp_bind, wp_lockTarget]
  refine ⟨fun m hm hmid => ?_, fun _ => trivial⟩
  rw [wp_bind, wp_checkCanManage]
  refine ⟨fun _ => trivial, fun _ => ?_⟩
  rw [wp_bind, wp_get, wp_bind, wp_whenever]
  refine ⟨fun _ => trivial, fun _ => ?_⟩
  refine wp_bind_of (record_keeps_assigned.wp env _) (fun _ t ht => ?_) (fun _ _ _ => trivial)
  rw [wp_modify]
  dsimp only [TeamRequest.Assigns]
  rw [ht, hmid]

theorem locations_assigns : wp env (setTeamMemberLocations actor k locationIds)
    (fun _ t => TeamRequest.Assigns s.data t.data (.setLocations k locationIds))
    (fun _ _ => True) s := by
  unfold setTeamMemberLocations
  rw [wp_bind, wp_lockTeam]
  refine ⟨fun a ha hid hacc => ?_, fun _ => trivial⟩
  rw [wp_bind, wp_whenever]
  refine ⟨fun _ => trivial, fun _ => ?_⟩
  rw [wp_bind, wp_lockTarget]
  refine ⟨fun m hm hmid => ?_, fun _ => trivial⟩
  rw [wp_bind, wp_whenever]
  refine ⟨fun _ => trivial, fun hrole => ?_⟩
  rw [not_not] at hrole
  rw [wp_bind, wp_get, wp_bind, wp_whenever]
  refine ⟨fun _ => trivial, fun _ => ?_⟩
  rw [wp_whenever]
  refine ⟨fun _ => ?_, fun _ p hp => .inl hp⟩
  rw [wp_bind, wp_modify]
  refine wp_mono (record_keeps_assigned.wp env _) (fun _ t ht p hp => ?_) (fun _ _ _ => trivial)
  rw [ht] at hp
  rcases List.mem_append.mp hp with hp | hp
  · exact .inl (List.mem_filter.mp hp).1
  · obtain ⟨l, -, rfl⟩ := List.mem_map.mp hp
    exact .inr ⟨hmid, m, hm, hmid, hrole⟩

theorem request_assigns (request : TeamRequest) : wp env (request.program actor)
    (fun _ t => request.Assigns s.data t.data) (fun _ _ => True) s := by
  cases request with
  | invite address role =>
    rw [TeamRequest.program, wp_bind]
    exact wp_mono invite_assigns (fun _ _ h => h) (fun _ _ h => h)
  | changeRole memberId role => exact change_assigns
  | revoke memberId => exact revoke_assigns
  | setLocations memberId locationIds => exact locations_assigns

theorem accept_keeps_assigned {invite : Invite} {password : String} :
    Keeps Database.assigned (acceptInvite invite password) := by
  have rest : ∀ (env : Env) (user : User) (member : Member), Keeps Database.assigned (do
      saveMember member.id ⟨none, none, some env.now⟩
      record auditAccepted user.id member.id []) := fun _ _ _ =>
    saveMember_keeps_assigned.bind fun _ => record_keeps_assigned
  unfold acceptInvite
  refine keeps_ask.bind fun env => keeps_get.bind fun db => ?_
  refine (keeps_whenever_raise _).bind fun _ => ?_
  split
  · exact keeps_raise _
  · refine (keeps_whenever_raise _).bind fun _ => ?_
    split
    · exact keeps_raise _
    · split
      · exact (keeps_whenever_raise _).bind fun _ => rest env _ _
      · refine (keeps_whenever_raise _).bind fun _ => ?_
        exact Keeps.bind (keeps_modify (f := Database.assigned) fun db => rfl) fun _ => rest env _ _

end Requests

inductive Reassigned (env : Env) (db : Database) : Pending → Database → Prop
  | changed {actor : Member} {request : TeamRequest} {db' : Database}
      (performed : Performed env db actor.id request db') (assigns : request.Assigns db db') :
      Reassigned env db (.change actor request) db'
  | accepted {invite : Invite} {password : String} {db' : Database} (accepted : Accepted db db')
      (assigned : db'.assigned = db.assigned) : Reassigned env db (.accept invite password) db'
  | rolledBack {p : Pending} : Reassigned env db p db

/-- The step invites a pending MANAGER who has locations again, to another role. -/
def TeamTransition.LowersAssigned (t : TeamTransition) : Prop :=
  ∃ i env actor address role a m, t.Performs i env (.change actor (.invite address role)) ∧
    Acting t.before.db actor.id a ∧ ¬ (role = .owner ∧ a.role ≠ .owner) ∧
    m ∈ t.before.db.members ∧ Addressed env t.before.db address m ∧ m.accepted = false ∧
    m.role = .manager ∧ role ≠ .manager ∧ t.before.db.locationsOf m.id ≠ []

/-- A member who becomes a MANAGER in the step has no assigned location. -/
def TeamTransition.StartsBare (t : TeamTransition) : Prop :=
  ∀ k m m', t.before.db.members.byId k = some m → t.after.db.members.byId k = some m' →
    m.role ≠ .manager → m'.role = .manager → t.after.db.locationsOf k = []

section Steps

variable {env : Env} {db db' : Database} {p : Pending} {t : TeamTransition} {m : Member} {k : Uuid}

theorem Pending.transact_of {Q : Database → Prop}
    (h : wp env p.program (fun _ t => Q t.data) (fun _ _ => True) ⟨db, ()⟩) :
    (p.transact env db).2 = db ∨ Q (p.transact env db).2 := by
  have ha : wp env (savepoint p.program) _ _ ⟨db, ()⟩ := wp_atomic (E := fun _ => True) h
  rw [wp_iff_run] at ha
  unfold Pending.transact
  rcases hrun : (savepoint p.program).run env ⟨db, ()⟩ with ⟨e | _, u⟩
  · exact .inl (ha.2 e u hrun).1
  · exact .inr (ha.1 () u hrun)

theorem transact_reassigned (env : Env) (hf : db.Fresh) (p : Pending) :
    Reassigned env db p (p.transact env db).2 := by
  cases p with
  | change actor request =>
    have hreturned : wp env (request.program actor)
      (fun _ t => Returned env db actor.id request t.data)
        (fun e _ => Raised env db actor.id request e) ⟨db, ()⟩ := request_spec hf
    have h := wp_and hreturned (request_assigns request)
    rcases Pending.transact_of (p := .change actor request)
        (Q := fun db' => Returned env db actor.id request db' ∧ request.Assigns db db')
        (wp_mono h (fun _ _ ht => ht) (fun _ _ _ => trivial)) with heq | ⟨hr, ha⟩
    · rw [heq]
      exact .rolledBack
    · exact .changed hr.performed ha
  | accept invite password =>
    have haccepted : wp env (acceptInvite invite password) (fun _ t => Accepted db t.data)
        (fun e _ => e ≠ .lastOwner) ⟨db, ()⟩ := accept_spec hf
    have h := wp_and haccepted (accept_keeps_assigned.wp env ⟨db, ()⟩)
    rcases Pending.transact_of (p := .accept invite password)
        (Q := fun db' => Accepted db db' ∧ db'.assigned = db.assigned)
        (wp_mono h (fun _ _ ht => ht) (fun _ _ _ => trivial)) with heq | ⟨hr, ha⟩
    · rw [heq]
      exact .rolledBack
    · exact .accepted hr ha

theorem Team.step_performs (s : Team) (choice : TeamChoice) :
    (∃ i env p, choice = .perform i env ∧ s.requests[i]? = some (some p) ∧
      (s.step choice).db = (p.transact env s.db).2) ∨
      (s.step choice).db.members = s.db.members ∧ (s.step choice).db.assigned = s.db.assigned := by
  cases choice with
  | check userId request =>
    right
    rw [Team.step]
    split <;> exact ⟨rfl, rfl⟩
  | lookup token password =>
    right
    rw [Team.step]
    split <;> exact ⟨rfl, rfl⟩
  | perform i env =>
    rw [Team.step]
    split
    case h_1 p h => exact .inl ⟨i, env, p, rfl, h, rfl⟩
    case h_2 => exact .inr ⟨rfl, rfl⟩
  | register email password =>
    refine .inr ⟨Database.register_members email password, ?_⟩
    rw [Team.step]
    unfold Database.register
    split <;> rfl
  | elsewhere active locations => exact .inr ⟨rfl, rfl⟩

theorem Reassigned.members_or_subset (h : Reassigned env db p db') :
    db'.members = db.members ∨ db'.assigned ⊆ db.assigned := by
  cases h with
  | @changed actor request db' performed assigns =>
    cases performed with
    | invited => exact .inr (assigns ▸ List.Subset.refl _)
    | reinvited => exact .inr (assigns ▸ List.Subset.refl _)
    | roleKept => exact .inl rfl
    | roleChanged acting mem id =>
      right
      rw [assigns _ mem id]
      split
      · exact List.filter_subset_self _
      · exact List.Subset.refl _
    | removed => exact .inr (assigns ▸ List.filter_subset_self _)
    | relocated acting manages members => exact .inl members
  | accepted _ assigned => exact .inr (assigned ▸ List.Subset.refl _)
  | rolledBack => exact .inl rfl

theorem mem_locationsOf {l : Uuid} : l ∈ db.locationsOf k ↔ (k, l) ∈ db.assigned := by
  simp [Database.locationsOf]

theorem Database.ManagersOnly.role (h : db.ManagersOnly) {l : Uuid} (hp : (k, l) ∈ db.assigned)
    (hm : m ∈ db.members) (hid : m.id = k) : m.role = .manager := by
  obtain ⟨b, hb, hbid, hrole⟩ := h _ hp
  rw [members_eq hm hb (hid.trans hbid.symm)]
  exact hrole

theorem Database.ManagersOnly.saved {fields : MemberFields} (h : db.ManagersOnly)
    (hm : m ∈ db.members)
    (hsub : db'.assigned ⊆ db.assigned) (hs : db'.members = db.members.save m.id fields)
    (hrole : ∀ l, (m.id, l) ∈ db'.assigned → fields.role.getD m.role = .manager) :
    db'.ManagersOnly := by
  rintro ⟨k, l⟩ hp
  obtain ⟨b, hb, hbid, hbrole⟩ := h _ (hsub hp)
  refine ⟨b.saved m.id fields, hs ▸ Members.mem_save.mpr ⟨b, hb, rfl⟩, by simpa using hbid, ?_⟩
  by_cases hbm : b.id = m.id
  · obtain rfl := members_eq hb hm hbm
    obtain rfl : b.id = k := hbid
    simpa [Member.saved] using hrole l hp
  · rw [Member.saved_of_ne hbm]
    exact hbrole

theorem Reassigned.managersOnly (h : Reassigned env db p db') (hdb : db.ManagersOnly)
    (hno : ∀ actor address role a m, p = .change actor (.invite address role) →
      Acting db actor.id a →
      ¬ (role = .owner ∧ a.role ≠ .owner) → m ∈ db.members → Addressed env db address m →
      m.accepted = false → m.role = .manager → db.locationsOf m.id ≠ [] → role = .manager) :
    db'.ManagersOnly := by
  cases h with
  | @changed actor request db' performed assigns =>
    cases performed with
    | invited acting grants pending isRole later unknown rows =>
      intro q hq
      obtain ⟨b, hb, hrest⟩ := hdb q (assigns ▸ hq)
      refine ⟨b, ?_, hrest⟩
      rw [Table.mem_def, rows]
      exact List.mem_append_left _ hb
    | @reinvited address role a m _ acting grants mem pending addressed saved =>
      refine hdb.saved mem (assigns ▸ List.Subset.refl _) saved fun l hl => ?_
      have hl' : (m.id, l) ∈ db.assigned := assigns ▸ hl
      exact hno actor address role a m rfl acting grants mem addressed pending
        (hdb.role hl' mem rfl)
        (List.ne_nil_of_mem (mem_locationsOf.mpr hl'))
    | roleKept => exact hdb
    | @roleChanged memberId role a m _ acting mem id allowed changed saved =>
      have has := assigns m mem id
      refine hdb.saved mem ?_ saved fun l hl => ?_
      · rw [has]
        split
        · exact List.filter_subset_self _
        · exact List.Subset.refl _
      · by_contra hrole
        have hl' : (m.id, l) ∈ db.assigned := by
          rw [has] at hl
          split at hl
          · exact (List.mem_filter.mp hl).1
          · exact hl
        rw [has, if_pos ⟨hdb.role hl' mem rfl, hrole⟩] at hl
        simpa [id] using (List.mem_filter.mp hl).2
    | @removed memberId a m _ acting mem id allowed deleted =>
      intro q hq
      rw [assigns, List.mem_filter] at hq
      obtain ⟨b, hb, hbid, hrole⟩ := hdb q hq.1
      refine ⟨b, deleted ▸ Table.mem_delete.mpr ⟨hb, ?_⟩, hbid, hrole⟩
      rw [hbid, id]
      simpa using hq.2
    | relocated acting manages members =>
      intro q hq
      rw [members]
      rcases assigns q hq with hq | ⟨hid, m, hm, hmid, hrole⟩
      · exact hdb q hq
      · exact ⟨m, hm, hmid.trans hid.symm, hrole⟩
  | accepted haccept assigned =>
    obtain ⟨m, hm, now, -, saved⟩ := haccept.saved
    refine hdb.saved hm (assigned ▸ List.Subset.refl _) saved fun l hl => ?_
    exact hdb.role (assigned ▸ hl) hm rfl
  | rolledBack => exact hdb

theorem lowersAssigned_breaks (hf : t.before.db.Fresh)
    (ht : t = transition Team.step t.before t.label)
    (h : t.LowersAssigned) : ¬ t.after.db.ManagersOnly := by
  obtain ⟨i, env, actor, address, role, a, m, hp, acting, grants, hm, hadr, pending,
    -, hrole, hloc⟩ := h
  have hsaved := reinvited_members hf ht hp acting grants hm hadr pending
  obtain ⟨l, hl⟩ := List.exists_mem_of_ne_nil _ hloc
  have hafter : (m.id, l) ∈ t.after.db.assigned := by
    have hdb : t.after.db =
        ((Pending.change actor (.invite address role)).transact env t.before.db).2 := by
      rw [ht, transition, hp.1]
      simp only [Team.step, hp.2]
    have hre := transact_reassigned env hf (.change actor (.invite address role))
    rw [← hdb] at hre
    generalize t.after.db = db' at hre
    cases hre with
    | changed _ assigns => exact assigns ▸ mem_locationsOf.mp hl
    | rolledBack => exact mem_locationsOf.mp hl
  intro hmanagers
  have hmem : m.saved m.id ⟨some role, some env.now, none⟩ ∈ t.after.db.members :=
    hsaved ▸ Members.mem_save.mpr ⟨m, hm, rfl⟩
  have := hmanagers.role hafter hmem (by simp)
  exact hrole (by simpa [Member.saved] using this)

theorem step_managersOnly (s : Team) (choice : TeamChoice) (hf : s.db.Fresh)
    (h : s.db.ManagersOnly) :
    (s.step choice).db.ManagersOnly ↔
      ¬ TeamTransition.LowersAssigned (transition Team.step s choice) := by
  constructor
  · intro hj hl
    exact lowersAssigned_breaks (t := transition Team.step s choice) hf rfl hl hj
  · intro hno
    rcases s.step_performs choice with ⟨i, env, p, rfl, hwaits, hdb⟩ | ⟨hm, ha⟩
    · rw [hdb]
      refine (transact_reassigned env hf p).managersOnly h ?_
      rintro actor address role a m rfl acting grants hm hadr pending hmanager hloc
      by_contra hrole
      exact hno ⟨i, env, actor, address, role, a, m, ⟨rfl, hwaits⟩, acting, grants,
        hm, hadr, pending,
        hmanager, hrole, hloc⟩
    · intro q hq
      rw [hm]
      exact h q (ha ▸ hq)

theorem startsBare (s : Team) (choice : TeamChoice) (hf : s.db.Fresh) (h : s.db.ManagersOnly) :
    TeamTransition.StartsBare (transition Team.step s choice) := by
  intro k m m' hbefore hafter hno hmanager
  dsimp only [transition] at hbefore hafter ⊢
  have hcases : (s.step choice).db.members = s.db.members ∨
      (s.step choice).db.assigned ⊆ s.db.assigned := by
    rcases s.step_performs choice with ⟨i, env, p, rfl, hwaits, hdb⟩ | ⟨hm, -⟩
    · rw [hdb]
      exact (transact_reassigned env hf p).members_or_subset
    · exact .inl hm
  rcases hcases with hm | hsub
  · rw [hm, hbefore] at hafter
    cases hafter
    exact absurd hmanager hno
  · by_contra hloc
    obtain ⟨l, hl⟩ := List.exists_mem_of_ne_nil _ hloc
    obtain ⟨hmem, hid⟩ := Members.byId_eq_some.mp hbefore
    exact hno (h.role (hsub (mem_locationsOf.mp hl)) hmem hid)

end Steps

/-- Only managers have locations, and a new one has none, if and only if no step invites a
pending MANAGER with locations again to another role. -/
theorem locations_of_managers (db : Database) (choices : List TeamChoice) (h : db.ManagersOnly) :
    (∀ t ∈ teamRun db choices, t.after.db.ManagersOnly ∧ t.StartsBare) ↔
      ∀ t ∈ teamRun db choices, ¬ t.LowersAssigned := by
  have hiff : (∀ t ∈ teamRun db choices, t.after.db.ManagersOnly) ↔
      ∀ t ∈ teamRun db choices, ¬ t.LowersAssigned :=
    trace_invariant_iff (I := fun s : Team => s.db.Fresh) (J := fun s : Team => s.db.ManagersOnly)
      (C := fun t => ¬ TeamTransition.LowersAssigned t) start_fresh h step_fresh step_managersOnly
  constructor
  · exact fun hall => hiff.mp fun t ht => (hall t ht).1
  · intro hno t ht
    have hinv : t.before.db.Fresh ∧ t.before.db.ManagersOnly :=
      trace_invariant (I := fun s : Team => s.db.Fresh ∧ s.db.ManagersOnly)
        (C := fun t => ¬ TeamTransition.LowersAssigned t) ⟨start_fresh, h⟩
        (fun s c hs hc => ⟨step_fresh s c hs.1, (step_managersOnly s c hs.1 hs.2).mpr hc⟩) hno t ht
    refine ⟨hiff.mpr hno t ht, ?_⟩
    rw [trace_step ht]
    exact startsBare _ _ hinv.1 hinv.2

/-- The OWNER invites a MANAGER, gives the pending member a location, and invites it again as
a VIEWER. -/
def managerLowered : List TeamChoice :=
  [.elsewhere true [7], .check 1 (.invite "new" .manager), .perform 0 quietEnv,
    .check 1 (.setLocations 15 [7]), .perform 1 quietEnv,
    .check 1 (.invite "new" .viewer), .perform 2 quietEnv]

def managerPlaced : List TeamTransition := teamRun smallTeam (managerLowered.take 5)

theorem locations_of_managers_placed :
    (managerPlaced.get ⟨4, by decide⟩).after.db.assigned = [(15, 7)] ∧
      ((∀ t ∈ managerPlaced, t.after.db.ManagersOnly ∧ t.StartsBare) ↔
        ∀ t ∈ managerPlaced, ¬ t.LowersAssigned) :=
  ⟨by decide, locations_of_managers smallTeam _ (by intro p hp; cases hp)⟩

theorem viewer_keeps_location : ¬ ∀ db choices, Database.ManagersOnly db →
    ∀ t ∈ teamRun db choices, t.after.db.ManagersOnly ∧ t.StartsBare := by
  intro h
  let t := (teamRun smallTeam managerLowered).get ⟨6, by decide⟩
  have ht : t ∈ teamRun smallTeam managerLowered := List.get_mem _ _
  have hall := (h smallTeam managerLowered (by intro p hp; cases hp) t ht).1
  have hfind : t.after.db.members.byId 15 = some ⟨15, 14, .viewer, some 5, none⟩ := by decide
  have hassigned : (15, 7) ∈ t.after.db.assigned := by decide
  obtain ⟨hmem, hid⟩ := Members.byId_eq_some.mp hfind
  exact absurd (hall.role hassigned hmem hid) (by decide)

end ReviewFlow.Accounts
