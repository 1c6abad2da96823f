import ReviewFlow.InForce
import ReviewFlow.Accounts.Assignments

/-!
# The locations of a membership

A membership has a location if and only if a committed request gave it the location and none has
taken it since. `set_team_member_locations` gives and takes, and a role change or a removal takes.
-/

namespace ReviewFlow.Accounts

open Savepoint Tables Program Interleaving

/-- The step performs this request, and its checks pass for the stored membership of its actor. -/
def TeamTransition.Commits (t : TeamTransition) (a : Member) (request : TeamRequest) : Prop :=
  ∃ i env actor, t.Performs i env (.change actor request) ∧ Acting t.before.db actor.id a ∧
    request.Passes env t.before.db a

def TeamTransition.Gives (k l : Uuid) (t : TeamTransition) : Prop :=
  ∃ a ids, t.Commits a (.setLocations k ids) ∧ l ∈ ids

/-- The location is left out of the new ones, the member is no longer a MANAGER or removed. -/
def TeamTransition.Takes (k l : Uuid) (t : TeamTransition) : Prop :=
  (∃ a ids, t.Commits a (.setLocations k ids) ∧ l ∉ ids) ∨
    (∃ a role, t.Commits a (.changeRole k role) ∧
      ∃ m ∈ t.before.db.members, m.id = k ∧ m.role = .manager) ∨
    ∃ a, t.Commits a (.revoke k)

section Effects

variable {env : Env} {s : Store Database Unit} {db db' : Database} {actor : Member} {k l : Uuid}
  {ids : List Uuid}

theorem locations_replaced : wp env (setTeamMemberLocations actor k ids)
    (fun _ t => ∀ p, p ∈ t.data.assigned ↔ if p.1 = k then p.2 ∈ ids else p ∈ s.data.assigned)
    (fun _ _ => True) s := by
  unfold setTeamMemberLocations
  rw [wp_bind, wp_lockTeam]
  refine ⟨fun a _ _ _ => ?_, fun _ => trivial⟩
  rw [wp_bind, wp_whenever]
  refine ⟨fun _ => trivial, fun _ => ?_⟩
  rw [wp_bind, wp_lockTarget]
  refine ⟨fun m _ hmid => ?_, fun _ => trivial⟩
  rw [wp_bind, wp_whenever]
  refine ⟨fun _ => trivial, fun _ => ?_⟩
  rw [wp_bind, wp_get, wp_bind, wp_whenever]
  refine ⟨fun _ => trivial, fun _ => ?_⟩
  have mem_current : ∀ l, l ∈ s.data.locationsOf m.id ↔ (k, l) ∈ s.data.assigned := by
    intro l
    rw [mem_locationsOf, hmid]
  rw [wp_whenever]
  refine ⟨fun _ => ?_, fun hsame => ?_⟩
  · rw [wp_bind, wp_modify]
    refine wp_mono (record_keeps_assigned.wp env _) (fun _ t ht => ?_) (fun _ _ _ => trivial)
    rintro ⟨k', l⟩
    rw [ht]
    by_cases hk : k' = k
    · by_cases hcurrent : (k, l) ∈ s.data.assigned <;>
        simp [hk, hmid, hcurrent, Database.locationsOf]
    · have hk' : k ≠ k' := fun h => hk h.symm
      simp [hk, hk', hmid]
  · rw [not_not] at hsame
    rintro ⟨k', l⟩
    split
    case isTrue hk =>
      obtain rfl : k' = k := hk
      rw [← mem_current l]
      constructor
      · exact fun hl => List.mem_dedup.mp (hsame.1 hl)
      · exact fun hl => hsame.2 (List.mem_dedup.mpr hl)
    · exact Iff.rfl

theorem transact_replaced (env : Env) (db : Database) (actor : Member) (k : Uuid)
    (ids : List Uuid) : ((Pending.change actor (.setLocations k ids)).transact env db).2 = db ∨
      ∀ p, p ∈ ((Pending.change actor (.setLocations k ids)).transact env db).2.assigned ↔
        if p.1 = k then p.2 ∈ ids else p ∈ db.assigned :=
  Pending.transact_of (p := .change actor (.setLocations k ids))
    (Q := fun db' => ∀ p, p ∈ db'.assigned ↔ if p.1 = k then p.2 ∈ ids else p ∈ db.assigned)
    locations_replaced

theorem committed_assigned {a : Member} {request : TeamRequest} (hf : db.Fresh)
    (acting : Acting db actor.id a) (passes : request.Passes env db a) :
    (k, l) ∈ ((Pending.change actor request).transact env db).2.assigned ↔
      (∃ ids, request = .setLocations k ids ∧ l ∈ ids) ∨
      (k, l) ∈ db.assigned ∧ ¬ ((∃ ids, request = .setLocations k ids ∧ l ∉ ids) ∨
        (∃ role, request = .changeRole k role ∧ ∃ m ∈ db.members, m.id = k ∧ m.role = .manager) ∨
        request = .revoke k) := by
  have hne := (change_commits hf).mpr ⟨a, acting, passes⟩
  have hre := transact_reassigned env hf (.change actor request)
  have hset := fun j ids => transact_replaced env db actor j ids
  generalize hdb : ((Pending.change actor request).transact env db).2 = db' at hne hre
  cases hre with
  | rolledBack => exact absurd rfl hne
  | changed performed assigns =>
    cases request with
    | invite address role =>
      have hsame : db'.assigned = db.assigned := assigns
      simp [hsame]
    | changeRole memberId role =>
      obtain ⟨m, hm, hmid, -, hrole⟩ := passes
      rw [assigns m hm hmid]
      by_cases hk : memberId = k
      · subst hk
        have hmanager : (∃ r, TeamRequest.changeRole memberId role = .changeRole memberId r ∧
            ∃ b ∈ db.members, b.id = memberId ∧ b.role = .manager) ↔ m.role = .manager := by
          constructor
          · rintro ⟨r, -, b, hb, hbid, hbrole⟩
            rwa [← members_eq hb hm (hbid.trans hmid.symm)]
          · exact fun h => ⟨role, rfl, m, hm, hmid, h⟩
        rw [hmanager]
        by_cases hold : m.role = .manager
        · have hnew : role ≠ .manager := fun h => hrole (hold.trans h.symm)
          simp [hold, hnew]
        · simp [hold]
      · have hk' : k ≠ memberId := fun h => hk h.symm
        split <;> simp [hk, hk']
    | revoke memberId =>
      have hgone : db'.assigned = db.assigned.filter fun p => p.1 != memberId := assigns
      rw [hgone]
      by_cases hk : memberId = k
      · simp [hk]
      · have hk' : k ≠ memberId := fun h => hk h.symm
        simp [hk, hk']
    | setLocations memberId ids =>
      rcases hset memberId ids with hsame | hnew
      · exact absurd (hdb.symm.trans hsame) hne
      · rw [hdb] at hnew
        rw [hnew]
        by_cases hk : k = memberId
        · subst hk
          by_cases hl : l ∈ ids <;> simp [hl]
        · have hk' : memberId ≠ k := fun h => hk h.symm
          simp [hk, hk']

end Effects

section Steps

variable {t : TeamTransition} {k l : Uuid}

theorem assigned_kept (s : Team) (choice : TeamChoice) (hf : s.db.Fresh)
    (hno : ∀ a request, ¬ TeamTransition.Commits (transition Team.step s choice) a request) :
    (s.step choice).db.assigned = s.db.assigned := by
  rcases s.step_performs choice with ⟨i, env, p, rfl, hwaits, hdb⟩ | ⟨-, hsame⟩
  · cases p with
    | change actor request =>
      have hback : ((Pending.change actor request).transact env s.db).2 = s.db := by
        by_contra hne
        obtain ⟨a, acting, passes⟩ := (change_commits hf).mp hne
        exact hno a request ⟨i, env, actor, ⟨rfl, hwaits⟩, acting, passes⟩
      rw [hdb, hback]
    | accept invite password =>
      have hre := transact_reassigned env hf (.accept invite password)
      rw [← hdb] at hre
      generalize s.step (.perform i env) = s' at hre
      generalize s'.db = db' at hre
      cases hre with
      | accepted _ assigned => exact assigned
      | rolledBack => rfl
  · exact hsame

theorem assigned_step (s : Team) (choice : TeamChoice) (hf : s.db.Fresh) :
    (k, l) ∈ (s.step choice).db.assigned ↔
      TeamTransition.Gives k l (transition Team.step s choice) ∨
      (k, l) ∈ s.db.assigned ∧ ¬ TeamTransition.Takes k l (transition Team.step s choice) := by
  by_cases hc : ∃ a request, TeamTransition.Commits (transition Team.step s choice) a request
  · obtain ⟨a, request, i, env, actor, ⟨hlabel, hwaits⟩, acting, passes⟩ := hc
    obtain rfl : choice = .perform i env := hlabel
    have hdb : (s.step (.perform i env)).db =
        ((Pending.change actor request).transact env s.db).2 := by
      simp only [Team.step]
      rw [show s.requests[i]? = _ from hwaits]
    -- the step commits this request and no other
    have hcommits : ∀ b r, TeamTransition.Commits (transition Team.step s (.perform i env)) b r ↔
        r = request ∧ Acting s.db actor.id b ∧ r.Passes env s.db b := by
      intro b r
      constructor
      · rintro ⟨j, env', actor', ⟨hlabel', hwaits'⟩, acting', passes'⟩
        cases hlabel'
        cases hwaits.symm.trans hwaits'
        exact ⟨rfl, acting', passes'⟩
      · rintro ⟨rfl, acting', passes'⟩
        exact ⟨i, env, actor, ⟨rfl, hwaits⟩, acting', passes'⟩
    have hsome : ∀ {β : Type} (f : β → TeamRequest) (P : β → Prop),
        (∃ b x, TeamTransition.Commits (transition Team.step s (.perform i env)) b (f x) ∧ P x) ↔
          ∃ x, request = f x ∧ P x := by
      intro β f P
      constructor
      · rintro ⟨b, x, hb, hx⟩
        exact ⟨x, ((hcommits b _).mp hb).1.symm, hx⟩
      · rintro ⟨x, rfl, hx⟩
        exact ⟨a, x, (hcommits a _).mpr ⟨rfl, acting, passes⟩, hx⟩
    have hrevoke : (∃ b, TeamTransition.Commits (transition Team.step s (.perform i env)) b
        (.revoke k)) ↔ request = .revoke k := by
      simpa using hsome (fun _ : Unit => .revoke k) fun _ => True
    rw [hdb, committed_assigned hf acting passes]
    exact or_congr (hsome (.setLocations k) _).symm (and_congr_right' (not_congr (or_congr
      (hsome (.setLocations k) _).symm
      (or_congr (hsome (.changeRole k) _).symm hrevoke.symm))))
  · have hno : ∀ a request, ¬ TeamTransition.Commits (transition Team.step s choice) a request :=
      fun a request h => hc ⟨a, request, h⟩
    have hgives : ¬ TeamTransition.Gives k l (transition Team.step s choice) := by
      intro hgiven
      obtain ⟨a, ids, h, -⟩ := hgiven
      exact hno a _ h
    have htakes : ¬ TeamTransition.Takes k l (transition Team.step s choice) := by
      rintro (⟨a, ids, h, -⟩ | ⟨a, role, h, -⟩ | ⟨a, h⟩)
      · exact hno a _ h
      · exact hno a _ h
      · exact hno a _ h
    rw [assigned_kept s choice hf hno]
    simp [hgives, htakes]

end Steps

end ReviewFlow.Accounts
