import ReviewFlow.Interleaving
import ReviewFlow.Accounts.Changes

/-!
# Requests on the team, one after another under the lock

A request is checked first and performed later, in a transaction of its own that either
commits whole or leaves the tables as they were. In between any number of others pass.
-/

namespace ReviewFlow.Accounts

open Savepoint Tables Program Interleaving

inductive Pending where
  | change (actor : Member) (request : TeamRequest)
  | accept (invite : Invite) (password : String)

structure Team where
  db : Database
  /-- All requests so far. None is one that is done. -/
  requests : List (Option Pending)

inductive TeamChoice where
  | check (userId : Uuid) (request : TeamRequest)
  | lookup (token : Option Invite) (password : String)
  | perform (i : ℕ) (env : Env)
  | register (email : String) (password : Option String)
  | elsewhere (active : Bool) (locations : List Uuid)

def Pending.program : Pending → TeamM Unit
  | .change actor request => request.program actor
  | .accept invite password => acceptInvite invite password

def Pending.transact (p : Pending) (env : Env) (db : Database) : Except Error Unit × Database :=
  let r := (savepoint p.program).run env ⟨db, ()⟩
  (r.1, r.2.data)

def Database.register (db : Database) (email : String) (password : Option String) : Database :=
  match db.users.insert? ⟨db.nextId, email, password⟩ with
  | some users => { db with users := users, nextId := db.nextId + 1 }
  | none => db

def Team.step (s : Team) : TeamChoice → Team
  | .check userId request => match isOwnerOrAdmin s.db userId with
    | some actor => { s with requests := s.requests ++ [some (.change actor request)] }
    | none => s
  | .lookup token password => match lookupInvite s.db token with
    | some invite => { s with requests := s.requests ++ [some (.accept invite password)] }
    | none => s
  | .perform i env => match s.requests[i]? with
    | some (some p) => ⟨(p.transact env s.db).2, s.requests.set i none⟩
    | _ => s
  | .register email password => { s with db := s.db.register email password }
  | .elsewhere active locations =>
    { s with db := { s.db with active := active, locations := locations } }

abbrev TeamTransition := Transition Team TeamChoice

def Database.nextKey (db : Database) : Uuid :=
  (db.users.rows.map User.id ++ db.members.rows.map Member.id ++
    db.members.rows.map Member.userId).foldr max 0 + 1

def Team.start (db : Database) : Team := ⟨{ db with nextId := db.nextKey }, []⟩

def teamRun (db : Database) (choices : List TeamChoice) : List TeamTransition :=
  trace Team.step (Team.start db) choices

def TeamTransition.Performs (t : TeamTransition) (i : ℕ) (env : Env) (p : Pending) : Prop :=
  t.label = .perform i env ∧ t.before.requests[i]? = some (some p)

section Steps

variable {db db' : Database} {env : Env} {p : Pending} {actor a : Member} {request : TeamRequest}

theorem start_fresh : (Team.start db).db.Fresh where
  users u hu := by
    apply Nat.lt_succ_of_le
    apply le_foldr_max
    exact List.mem_append_left _ (List.mem_append_left _ (List.mem_map_of_mem hu))
  members m hm := by
    apply Nat.lt_succ_of_le
    apply le_foldr_max
    exact List.mem_append_left _ (List.mem_append_right _ (List.mem_map_of_mem hm))
  memberUsers m hm := by
    apply Nat.lt_succ_of_le
    apply le_foldr_max
    exact List.mem_append_right _ (List.mem_map_of_mem hm)

theorem change_transact (env : Env) (actor : Member) (request : TeamRequest) (hf : db.Fresh) :
    match (Pending.change actor request).transact env db with
    | (.ok (), db') => Returned env db actor.id request db'
    | (.error e, db') => db' = db ∧ Raised env db actor.id request e := by
  have h : wp env (savepoint (request.program actor)) _ _ ⟨db, ()⟩ := wp_atomic (request_spec hf)
  rw [wp_iff_run] at h
  change match (((savepoint (request.program actor)).run env ⟨db, ()⟩).1,
    ((savepoint (request.program actor)).run env ⟨db, ()⟩).2.data) with
    | (.ok (), db') => _ | (.error e, db') => _
  rcases hrun : (savepoint (request.program actor)).run env ⟨db, ()⟩ with ⟨e | _, t⟩
  · exact h.2 e t hrun
  · exact h.1 () t hrun

theorem accept_transact (env : Env) (invite : Invite) (password : String) (hf : db.Fresh) :
    match (Pending.accept invite password).transact env db with
    | (.ok (), db') => Accepted db db'
    | (.error e, db') => db' = db ∧ e ≠ .lastOwner := by
  have h : wp env (savepoint (acceptInvite invite password)) _ _ ⟨db, ()⟩ :=
    wp_atomic (accept_spec hf)
  rw [wp_iff_run] at h
  change match (((savepoint (acceptInvite invite password)).run env ⟨db, ()⟩).1,
    ((savepoint (acceptInvite invite password)).run env ⟨db, ()⟩).2.data) with
    | (.ok (), db') => _ | (.error e, db') => _
  rcases hrun : (savepoint (acceptInvite invite password)).run env ⟨db, ()⟩ with ⟨e | _, t⟩
  · exact h.2 e t hrun
  · exact h.1 () t hrun

inductive Moved (env : Env) (db : Database) : Pending → Database → Prop
  | changed {actor : Member} {request : TeamRequest} {db' : Database}
      (h : Returned env db actor.id request db') : Moved env db (.change actor request) db'
  | accepted {invite : Invite} {password : String} {db' : Database} (h : Accepted db db') :
      Moved env db (.accept invite password) db'
  | rolledBack {p : Pending} : Moved env db p db

theorem transact_moved (env : Env) (hf : db.Fresh) (p : Pending) :
    Moved env db p (p.transact env db).2 := by
  cases p with
  | change actor request =>
    have h := change_transact env actor request hf
    rcases hrun : (Pending.change actor request).transact env db with ⟨e | _, db'⟩ <;>
      rw [hrun] at h
    · obtain ⟨rfl, -⟩ := h
      exact .rolledBack
    · exact .changed h
  | accept invite password =>
    have h := accept_transact env invite password hf
    rcases hrun : (Pending.accept invite password).transact env db with ⟨e | _, db'⟩ <;>
      rw [hrun] at h
    · obtain ⟨rfl, -⟩ := h
      exact .rolledBack
    · exact .accepted h

theorem change_commits (hf : db.Fresh) :
    ((Pending.change actor request).transact env db).2 ≠ db ↔
      ∃ a, Acting db actor.id a ∧ request.Passes env db a := by
  have h := change_transact env actor request hf
  rcases hrun : (Pending.change actor request).transact env db with ⟨e | _, db'⟩ <;> rw [hrun] at h
  · obtain ⟨rfl, hr⟩ := h
    constructor
    · exact fun hne => absurd rfl hne
    · rintro ⟨a, ha, hp⟩
      exact absurd hp (hr.refused a ha)
  · rcases h.effect with ⟨rfl, hno⟩ | ⟨hyes, r, hr⟩
    · constructor
      · exact fun hne => absurd rfl hne
      · rintro ⟨a, ha, hp⟩
        exact absurd hp (hno a ha)
    · refine ⟨fun _ => hyes, fun _ heq => ?_⟩
      obtain rfl : db' = db := heq
      simp at hr

theorem transact_not_lastOwner (env : Env) (hf : db.Fresh) (p : Pending) :
    (p.transact env db).1 ≠ .error .lastOwner := by
  cases p with
  | change actor request =>
    have h := change_transact env actor request hf
    rcases hrun : (Pending.change actor request).transact env db with ⟨e | _, db'⟩ <;>
      rw [hrun] at h
    · exact fun he => h.2.owned (Except.error.inj he)
    · exact nofun
  | accept invite password =>
    have h := accept_transact env invite password hf
    rcases hrun : (Pending.accept invite password).transact env db with ⟨e | _, db'⟩ <;>
      rw [hrun] at h
    · exact fun he => h.2 (Except.error.inj he)
    · exact nofun

theorem Moved.fresh (h : Moved env db p db') (hf : db.Fresh) :
    db'.Fresh ∧ db.nextId ≤ db'.nextId := by
  cases h with
  | changed h => exact ⟨h.fresh, h.later⟩
  | accepted h => exact ⟨h.fresh, h.later⟩
  | rolledBack => exact ⟨hf, le_refl _⟩

theorem Database.register_members (email : String) (password : Option String) :
    (db.register email password).members = db.members := by
  unfold Database.register
  split <;> rfl

theorem Database.Fresh.register (hf : db.Fresh) (email : String) (password : Option String) :
    (db.register email password).Fresh := by
  unfold Database.register
  split
  case h_1 users h =>
    refine ⟨fun u hu => ?_, fun m hm => Nat.lt_succ_of_lt (hf.members m hm),
      fun m hm => Nat.lt_succ_of_lt (hf.memberUsers m hm)⟩
    rcases (Table.mem_insert? h).mp hu with hu | rfl
    · exact Nat.lt_succ_of_lt (hf.users u hu)
    · exact Nat.lt_succ_self _
  · exact hf

/-- What one step is: a request performed, one that now waits, or nothing of the team. -/
inductive Team.Stepped (s : Team) : TeamChoice → Team → Prop
  | performed {i : ℕ} {env : Env} {p : Pending} {db' : Database}
    (waits : s.requests[i]? = some (some p))
      (transacted : db' = (p.transact env s.db).2) :
      Stepped s (.perform i env) ⟨db', s.requests.set i none⟩
  | checked {userId : Uuid} {request : TeamRequest} {actor : Member} (mem : actor ∈ s.db.members)
      (accepted : actor.accepted = true) (manages : actor.role.manages = true) :
      Stepped s (.check userId request)
      { s with requests := s.requests ++ [some (.change actor request)] }
  | looked {token : Option Invite} {password : String} {invite : Invite} :
      Stepped s (.lookup token password)
        { s with requests := s.requests ++ [some (.accept invite password)] }
  | aside {choice : TeamChoice} {db' : Database} (members : db'.members = s.db.members)
      (fresh : s.db.Fresh → db'.Fresh) (later : s.db.nextId ≤ db'.nextId)
      (idle : ∀ i env p, choice = .perform i env → s.requests[i]? = some (some p) → False) :
      Stepped s choice { s with db := db' }

theorem Team.stepped (s : Team) (choice : TeamChoice) : s.Stepped choice (s.step choice) := by
  cases choice with
  | check userId request =>
    rw [Team.step]
    split
    case h_1 actor h =>
      obtain ⟨hfind, hmanages⟩ := Option.filter_eq_some_iff.mp h
      obtain ⟨hm, hcond⟩ := Table.mem_of_find? hfind
      simp only [Bool.and_eq_true] at hcond
      exact .checked hm hcond.1.2 hmanages
    · exact .aside rfl id (le_refl _) fun _ _ _ h => nomatch h
  | lookup token password =>
    rw [Team.step]
    split
    · exact .looked
    · exact .aside rfl id (le_refl _) fun _ _ _ h => nomatch h
  | perform i env =>
    rw [Team.step]
    split
    case h_1 p h => exact .performed h rfl
    case h_2 h =>
      refine .aside rfl id (le_refl _) ?_
      rintro j _ p ⟨⟩ hp
      exact h p hp
  | register email password =>
    rw [Team.step]
    have later : s.db.nextId ≤ (s.db.register email password).nextId := by
      unfold Database.register
      split
      · exact Nat.le_succ _
      · exact le_refl _
    exact .aside (Database.register_members email password)
      (fun hf => hf.register email password) later
      fun _ _ _ h => nomatch h
  | elsewhere active locations =>
    rw [Team.step]
    exact .aside rfl (fun hf => ⟨hf.users, hf.members, hf.memberUsers⟩) (le_refl _) fun _ _ _ h =>
      nomatch h

theorem step_fresh (s : Team) (choice : TeamChoice) (hf : s.db.Fresh) :
    (s.step choice).db.Fresh := by
  have h := s.stepped choice
  generalize s.step choice = s' at h
  cases h with
  | performed _ transacted => exact transacted ▸ ((transact_moved _ hf _).fresh hf).1
  | checked => exact hf
  | looked => exact hf
  | aside _ fresh => exact fresh hf

theorem run_fresh {db : Database} {choices : List TeamChoice} :
    ∀ t ∈ teamRun db choices, t.before.db.Fresh :=
  reachable_invariant (I := fun s : Team => s.db.Fresh) start_fresh step_fresh

end Steps

end ReviewFlow.Accounts
