import ReviewFlow.Accounts.Scope
import ReviewFlow.GoogleReviews.Provenance
import ReviewFlow.Locations.Services

/-!
# What a member reaches

A MANAGER reaches exactly the locations given to that membership and not taken since. A request
shows and writes only what its member reached when it looked, and nothing else changes a location
or a mapping.
-/

namespace ReviewFlow.Locations

open Savepoint Tables Program Interleaving
open Accounts (Member Role Team TeamChoice TeamTransition)
open GoogleReviews (Mapping.Task Mapping.taskProgram Mapping.ProviderLocation)

variable {s s' : Site} {ls : List Label} {l : Label} {env : Env} {v : Visit} {actor : Member}
  {place : Uuid} {i : ℕ}

section Reads

theorem accessible_iff : s.accessible actor place = true ↔
    place ∈ s.locationIds ∧ (actor.role = .manager → (actor.id, place) ∈ s.team.db.assigned) := by
  unfold Site.accessible Site.accessibleLocations Site.locationIds
  by_cases hrole : actor.role = .manager
  · simp [hrole]
    grind
  · simp [hrole]

theorem accessible_of_mem {row : Location} (h : row ∈ s.accessibleLocations actor) :
    s.accessible actor row.id = true := by
  apply List.any_eq_true.mpr
  exact ⟨row, h, by simp⟩

theorem getAccessibleLocation_found {row : Location}
    (h : s.getAccessibleLocation actor place = some row) :
    row.id = place ∧ s.accessible actor place = true := by
  have hid : row.id = place := by simpa using List.find?_some h
  exact ⟨hid, hid ▸ accessible_of_mem (List.mem_of_find?_eq_some h)⟩

theorem listTransactions_mem {filter : TransactionFilter} {row : Sales.Transaction} :
    row ∈ s.listTransactions actor filter ↔
      row ∈ s.sales.transactions ∧ s.accessible actor row.location = true ∧
        filter.apply row = true := by
  unfold Site.listTransactions
  rw [List.mem_reverse, List.mem_filter, List.mem_filter, and_assoc]
  exact Iff.rfl

theorem getTransaction_found {row : Sales.Transaction} {pk : Uuid}
    (h : s.getTransaction actor pk = some row) : s.accessible actor row.location = true :=
  (List.mem_filter.mp (List.mem_of_find?_eq_some h)).2

theorem listReviews_accessible {filter : ReviewFilter} {row : Uuid × _}
    (h : row ∈ s.listReviews (some actor) filter) : s.accessible actor row.1 = true :=
  (List.mem_filter.mp (List.mem_filter.mp h).1).2

/-- A session is shown what an API key is, but for the locations out of reach. -/
theorem listTransactions_eq (filter : TransactionFilter) :
    s.listTransactions actor filter =
      (s.listSales filter).filter fun row => s.accessible actor row.location := by
  unfold Site.listTransactions Site.listSales
  rw [List.filter_reverse, List.filter_filter, List.filter_filter]
  congr 2
  funext row
  exact Bool.and_comm _ _

end Reads

section Parts

open GoogleReviews.Mapping

variable {genv : GoogleReviews.Mapping.Env} {db : Database} {location connectionId : Uuid}
  {googleLocationId reviewLink : String} {found : ProviderLocation}

theorem mapRead_accessible (genv : GoogleReviews.Mapping.Env) (db : Database)
    (location connectionId : Uuid) (googleLocationId : String) :
    wp genv (mapRead location connectionId googleLocationId)
    (fun _ _ => genv.accessible location = true) (fun _ _ => True) ⟨db, ()⟩ := by
  simp only [mapRead, wp_bind, wp_ask, wp_whenever]
  refine ⟨fun _ => trivial, fun h => ?_⟩
  have haccessible : genv.accessible location = true := by simpa using h
  exact wp_mono wp_trivial (fun _ _ _ => haccessible) (fun _ _ _ => trivial)

theorem saveMapping_others {m : GoogleLocation} {d : Database} (hm : m.locationId = location)
    (hold : ∀ x ∈ d.locations, x.id = m.id → x.locationId = location) : wp genv (saveMapping m)
    (fun _ t => ∀ x, x.locationId ≠ location → (x ∈ t.data.locations ↔ x ∈ d.locations))
    (fun _ _ => True) ⟨d, ()⟩ := by
  refine wp_mono saveMapping_spec (fun _ t ht x hx => ?_) (fun _ _ h => h)
  rw [ht.2.2.2 x]
  constructor
  · rintro (h | rfl)
    · exact h.1
    · exact absurd hm hx
  · exact fun h => .inl ⟨h, fun hid => hx (hold x h hid)⟩

theorem writeMapping_others (hf : db.Fresh) :
    wp genv (writeMapping location connectionId found reviewLink)
      (fun _ t => ∀ x, x.locationId ≠ location → (x ∈ t.data.locations ↔ x ∈ db.locations))
      (fun _ _ => True) ⟨db, ()⟩ := by
  simp only [writeMapping, wp_bind, wp_ask]
  split
  · trivial
  simp only [lockMapping, wp_bind, wp_ask, wp_get, wp_whenever, wp_raise]
  refine ⟨fun _ => trivial, fun _ => ⟨fun _ => trivial, fun _ => ?_⟩⟩
  split
  · simp only [wp_pure]
    apply saveMapping_others rfl
    intro x hx hid
    exact absurd hid (Nat.ne_of_lt (hf.locations x hx))
  case h_2 old hfind =>
    have hold : old ∈ db.locations ∧ old.locationId = location := by
      split at hfind
      · cases hfind
      · obtain ⟨hmem, hid⟩ := Table.mem_of_find? hfind
        exact ⟨hmem, by simpa using hid⟩
    have hsame : ∀ x ∈ db.locations, x.id = old.id → x.locationId = location := by
      intro x hx hid
      rw [locations_eq hx hold.1 hid]
      exact hold.2
    split
    · simp only [wp_bind, wp_modify, wp_pure]
      exact saveMapping_others hold.2 hsame
    · simp only [wp_pure]
      exact saveMapping_others hold.2 hsame

theorem mapWrite_others (genv : GoogleReviews.Mapping.Env) (location connectionId : Uuid)
    (found : ProviderLocation) (reviewLink : String) (hf : db.Fresh) :
    wp genv (mapWrite location connectionId found reviewLink)
      (fun _ t => ∀ x, x.locationId ≠ location → (x ∈ t.data.locations ↔ x ∈ db.locations))
      (fun _ _ => True) ⟨db, ()⟩ := by
  simp only [mapWrite, wp_bind, wp_handle]
  refine wp_mono (wp_of_savepoint (s := ⟨db, ()⟩) (writeMapping_others hf)) ?_ ?_
  · exact fun _ _ h => h
  · rintro e t -
    unfold alreadyMapped
    split
    · split <;> trivial
    · trivial

end Parts

section Requests

open GoogleReviews.Mapping (Task.Next taskProgram_spec)

theorem mapLocation_cases (s : Site) (env : Env) (actor : Member) (place : Uuid)
    (task : Mapping.Task) :
    (∃ next, (s.mapLocation env actor place task).1 = .goesOn (.mapping place next) ∧
      ∃ genv, task.Next genv next) ∨ (s.mapLocation env actor place task).1 =
        .answered (.mapped place) ∨
      ∃ e, (s.mapLocation env actor place task).1 = .answered (.error e) := by
  have hspec := taskProgram_spec { env.google with accessible := s.accessible actor } s.google task
  rw [wp_iff_run] at hspec
  unfold Site.mapLocation
  rcases hrun : (Mapping.taskProgram task).run
      { env.google with accessible := s.accessible actor } ⟨s.google, ()⟩ with ⟨e | next, t⟩
  · exact .inr (.inr ⟨_, rfl⟩)
  · cases next with
    | none => exact .inr (.inl rfl)
    | some next => exact .inl ⟨next, rfl, _, (hspec.1 _ t hrun).2 next rfl⟩

theorem mapRead_reaches (env : Env) {connectionId : Uuid} {googleLocationId : String} (h : ∀ e,
    (s.mapLocation env actor place (.mapRead place connectionId googleLocationId)).1 ≠
      .answered (.error e)) : s.accessible actor place = true := by
  have hread := mapRead_accessible { env.google with accessible := s.accessible actor } s.google
    place connectionId googleLocationId
  rw [wp_iff_run] at hread
  unfold Site.mapLocation at h
  rcases hrun : (Mapping.taskProgram (.mapRead place connectionId googleLocationId)).run
      { env.google with accessible := s.accessible actor } ⟨s.google, ()⟩ with ⟨e | next, t⟩
  · rw [hrun] at h
    exact absurd rfl (h _)
  · exact hread.1 next t hrun

/-- A part of `map_location` that is for this location. -/
def MapsTo (place : Uuid) : Mapping.Task → Prop
  | .mapRead pk _ _ | .mapList pk _ _ _ | .mapWrite pk _ _ _ => pk = place
  | _ => False

theorem MapsTo.next {genv : GoogleReviews.Mapping.Env} {task next : Mapping.Task}
    (h : MapsTo place task) (hnext : task.Next genv next) : MapsTo place next := by
  cases hnext with
  | list => exact h
  | write => exact h
  | token => exact h
  | begins => exact h
  | answered => exact h
  | more => exact h
  | finish => exact h

def Stage.location : Stage → Option Uuid
  | .arrived _ => none
  | .found row _ => some row.id
  | .mapping pk _ => some pk

def Stage.Sound : Stage → Prop
  | .mapping pk task => MapsTo pk task
  | _ => True

/-- The location was within reach at an earlier step of the request, or is now. -/
def Visit.Reaches (s : Site) (v : Visit) (place : Uuid) : Prop :=
  v.stage.location = some place ∨ s.accessible v.actor place = true

theorem serve_goesOn {stage : Stage} (h : (s.serve env v).1 = .goesOn stage)
    (hsound : v.stage.Sound) : stage.Sound ∧
      (∀ role, v.stage.permits role = true → stage.permits role = true) ∧
      ∀ place ∈ stage.location, v.Reaches s place := by
  have maps : ∀ pk task, (s.mapLocation env v.actor pk task).1 = .goesOn stage → MapsTo pk task →
      stage.Sound ∧ (∀ role, stage.permits role = writes role) ∧ stage.location = some pk := by
    intro pk task hgoes hto
    rcases mapLocation_cases s env v.actor pk task with
      ⟨next, hnext, genv, hn⟩ | hmapped | ⟨e, herror⟩
    · rw [hgoes] at hnext
      cases hnext
      exact ⟨hto.next hn, fun _ => rfl, rfl⟩
    · rw [hgoes] at hmapped
      cases hmapped
    · rw [hgoes] at herror
      cases herror
  obtain ⟨actor, at'⟩ := v
  cases at' with
  | arrived request =>
    cases request with
    | location pk action =>
      simp only [Site.serve] at h
      split at h
      case h_1 row hrow =>
        cases h
        obtain ⟨hid, hreach⟩ := getAccessibleLocation_found hrow
        refine ⟨trivial, fun _ hp => hp, fun place hplace => .inr ?_⟩
        cases hplace
        exact hid ▸ hreach
      case h_2 => cases h
    | mapLocation pk connectionId googleLocationId =>
      obtain ⟨hs, hp, hplace⟩ := maps pk _ h rfl
      refine ⟨hs, fun role hr => (hp role).trans hr, fun place hmem => .inr ?_⟩
      obtain rfl : pk = place := Option.some.inj (hplace.symm.trans hmem)
      apply mapRead_reaches env
      intro e he
      cases he.symm.trans h
    | createLocation name address phone timezone =>
      simp only [Site.serve, Site.createLocation] at h
      split at h
      · split at h <;> cases h
      · cases h
    | getTransaction pk =>
      simp only [Site.serve] at h
      split at h <;> cases h
    | listLocations => cases h
    | listTransactions filter => cases h
    | listReviews filter => cases h
  | found row action =>
    cases action with
    | update fields =>
      simp only [Site.serve, Site.updateLocation] at h
      split at h <;> cases h
    | read => cases h
    | deactivate => cases h
    | googleLocation => cases h
  | mapping pk task =>
    obtain ⟨hs, hp, hplace⟩ := maps pk task h hsound
    refine ⟨hs, fun role hr => (hp role).trans hr, fun place hmem => .inl ?_⟩
    exact hplace.symm.trans hmem

theorem serve_places {answer : Answer} (h : (s.serve env v).1 = .answered answer) :
    ∀ place ∈ answer.places, v.Reaches s place := by
  have maps : ∀ pk task, (s.mapLocation env v.actor pk task).1 = .answered answer →
      answer = .mapped pk ∨ answer.places = [] := by
    intro pk task hanswer
    rcases mapLocation_cases s env v.actor pk task with
      ⟨next, hnext, -⟩ | hmapped | ⟨e, herror⟩
    · rw [hanswer] at hnext
      cases hnext
    · rw [hanswer] at hmapped
      cases hmapped
      exact .inl rfl
    · rw [hanswer] at herror
      cases herror
      exact .inr rfl
  obtain ⟨actor, at'⟩ := v
  intro place hplace
  cases at' with
  | arrived request =>
    right
    cases request with
    | listLocations =>
      cases h
      obtain ⟨row, hrow, rfl⟩ := List.mem_map.mp hplace
      exact accessible_of_mem hrow
    | location pk action =>
      simp only [Site.serve] at h
      split at h
      · cases h
      · cases h
        cases hplace
    | createLocation name address phone timezone =>
      simp only [Site.serve, Site.createLocation] at h
      split at h
      · split at h <;> cases h <;> cases hplace
      · cases h
        cases hplace
    | listTransactions filter =>
      cases h
      obtain ⟨row, hrow, rfl⟩ := List.mem_map.mp hplace
      exact (listTransactions_mem.mp hrow).2.1
    | getTransaction pk =>
      simp only [Site.serve] at h
      split at h
      case h_1 row hrow =>
        cases h
        obtain rfl := List.mem_singleton.mp hplace
        exact getTransaction_found hrow
      case h_2 =>
        cases h
        cases hplace
    | listReviews filter =>
      cases h
      obtain ⟨row, hrow, rfl⟩ := List.mem_map.mp hplace
      exact listReviews_accessible hrow
    | mapLocation pk connectionId googleLocationId =>
      rcases maps pk _ h with rfl | hnone
      · obtain rfl := List.mem_singleton.mp hplace
        apply mapRead_reaches env
        intro e he
        cases he.symm.trans h
      · rw [hnone] at hplace
        cases hplace
  | found row action =>
    left
    cases action with
    | update fields =>
      simp only [Site.serve, Site.updateLocation] at h
      split at h <;> cases h
      · rw [List.mem_singleton.mp hplace]
        rfl
      · cases hplace
    | read =>
      cases h
      rw [List.mem_singleton.mp hplace]
      rfl
    | deactivate =>
      cases h
      rw [List.mem_singleton.mp hplace]
      rfl
    | googleLocation =>
      cases h
      rw [List.mem_singleton.mp hplace]
      rfl
  | mapping pk task =>
    left
    rcases maps pk task h with rfl | hnone
    · rw [List.mem_singleton.mp hplace]
      rfl
    · rw [hnone] at hplace
      cases hplace

end Requests

def Gives (k place : Uuid) (t : Transition Site Label) : Prop :=
  ∃ choice, t.label = .team choice ∧
    TeamTransition.Gives k place (transition Team.step t.before.team choice)

def Takes (k place : Uuid) (t : Transition Site Label) : Prop :=
  ∃ choice, t.label = .team choice ∧
    TeamTransition.Takes k place (transition Team.step t.before.team choice)

section Steps

variable {k : Uuid}

theorem serve_team (s : Site) (env : Env) (v : Visit) : (s.serve env v).2.team = s.team ∨
    ∃ ids, (s.serve env v).2.team = s.team.step (.elsewhere s.team.db.active ids) := by
  have create : ∀ name address phone timezone,
      (s.createLocation env name address phone timezone).2.team = s.team ∨
        ∃ ids, (s.createLocation env name address phone timezone).2.team =
          s.team.step (.elsewhere s.team.db.active ids) := by
    intro name address phone timezone
    unfold Site.createLocation
    split
    · split
      · exact .inr ⟨_, rfl⟩
      · exact .inl rfl
    · exact .inl rfl
  obtain ⟨actor, at'⟩ := v
  cases at' with
  | arrived request =>
    cases request with
    | createLocation name address phone timezone => exact create name address phone timezone
    | location pk action =>
      left
      simp only [Site.serve]
      split <;> rfl
    | getTransaction pk =>
      left
      simp only [Site.serve]
      split <;> rfl
    | listLocations => exact .inl rfl
    | listTransactions filter => exact .inl rfl
    | listReviews filter => exact .inl rfl
    | mapLocation pk connectionId googleLocationId => exact .inl rfl
  | found row action =>
    left
    cases action with
    | update fields =>
      simp only [Site.serve, Site.updateLocation]
      split
      · split <;> rfl
      · rfl
    | deactivate =>
      simp only [Site.serve, Site.deactivateLocation]
      split <;> rfl
    | read => rfl
    | googleLocation => rfl
  | mapping pk task => exact .inl rfl

def IsElsewhere (choice : TeamChoice) : Prop := ∃ active ids, choice = .elsewhere active ids

/-- A step is one of the team, or leaves all of the team but what is known of the locations. -/
theorem step_team (s : Site) (l : Label) : (∃ choice, l = .team choice ∧
      (s.step l).team = s.team.step choice) ∨
    ((s.step l).team = s.team ∨ ∃ choice, IsElsewhere choice ∧
      (s.step l).team = s.team.step choice) ∧ ∀ choice, l = .team choice → IsElsewhere choice := by
  cases l with
  | team choice =>
    cases choice with
    | elsewhere active ids =>
      refine .inr ⟨.inr ⟨_, ⟨_, _, rfl⟩, rfl⟩, fun choice hchoice => ?_⟩
      cases hchoice
      exact ⟨_, _, rfl⟩
    | check userId request => exact .inl ⟨_, rfl, rfl⟩
    | lookup token password => exact .inl ⟨_, rfl, rfl⟩
    | perform i env => exact .inl ⟨_, rfl, rfl⟩
    | register email password => exact .inl ⟨_, rfl, rfl⟩
  | arrive userId request =>
    refine .inr ⟨.inl ?_, nofun⟩
    simp only [Site.step]
    split <;> rfl
  | serve i env =>
    refine .inr ⟨?_, nofun⟩
    simp only [Site.step]
    split
    case h_1 v _ =>
      rcases serve_team s env v with hsame | ⟨ids, hids⟩
      · exact .inl hsame
      · exact .inr ⟨_, ⟨_, _, rfl⟩, hids⟩
    case h_2 => exact .inl rfl
  | sale call => exact .inr ⟨.inl rfl, nofun⟩
  | sync task env =>
    refine .inr ⟨.inl ?_, nofun⟩
    simp only [Site.step]
    split <;> rfl

theorem step_team_fresh (s : Site) (l : Label) (hf : s.team.db.Fresh) :
    (s.step l).team.db.Fresh := by
  rcases step_team s l with ⟨choice, -, hteam⟩ | ⟨hsame | ⟨choice, -, hteam⟩, -⟩
  · rw [hteam]
    exact Accounts.step_fresh _ _ hf
  · rw [hsame]
    exact hf
  · rw [hteam]
    exact Accounts.step_fresh _ _ hf

theorem IsElsewhere.commits {t : Team} {choice : TeamChoice} (h : IsElsewhere choice) {a : Member}
    {request : Accounts.TeamRequest} :
    ¬ TeamTransition.Commits (transition Team.step t choice) a request := by
  obtain ⟨active, ids, rfl⟩ := h
  rintro ⟨i, env, actor, ⟨hlabel, -⟩, -⟩
  cases hlabel

theorem gives_team {choice : TeamChoice} : Gives k place (transition Site.step s (.team choice)) ↔
    TeamTransition.Gives k place (transition Team.step s.team choice) := by
  constructor
  · rintro ⟨choice', hlabel, h⟩
    cases hlabel
    exact h
  · exact fun h => ⟨choice, rfl, h⟩

theorem takes_team {choice : TeamChoice} : Takes k place (transition Site.step s (.team choice)) ↔
    TeamTransition.Takes k place (transition Team.step s.team choice) := by
  constructor
  · rintro ⟨choice', hlabel, h⟩
    cases hlabel
    exact h
  · exact fun h => ⟨choice, rfl, h⟩

theorem step_assigned (s : Site) (l : Label) (hf : s.team.db.Fresh) :
    (k, place) ∈ (s.step l).team.db.assigned ↔ Gives k place (transition Site.step s l) ∨
      (k, place) ∈ s.team.db.assigned ∧ ¬ Takes k place (transition Site.step s l) := by
  rcases step_team s l with ⟨choice, rfl, hteam⟩ | ⟨hteam, hlabel⟩
  · rw [hteam, gives_team, takes_team]
    exact Accounts.assigned_step s.team choice hf
  · have hgives : ¬ Gives k place (transition Site.step s l) := by
      rintro ⟨choice, hl, a, ids, h, -⟩
      exact (hlabel choice hl).commits h
    have htakes : ¬ Takes k place (transition Site.step s l) := by
      rintro ⟨choice, hl, ⟨a, ids, h, -⟩ | ⟨a, role, h, -⟩ | ⟨a, h⟩⟩
      · exact (hlabel choice hl).commits h
      · exact (hlabel choice hl).commits h
      · exact (hlabel choice hl).commits h
    have hsame : (s.step l).team.db.assigned = s.team.db.assigned := by
      rcases hteam with hteam | ⟨choice, ⟨active, ids, rfl⟩, hteam⟩
      · rw [hteam]
      · rw [hteam]
        rfl
    rw [hsame]
    simp [hgives, htakes]

theorem start_team_fresh (s : Site) : s.start.team.db.Fresh :=
  Accounts.start_fresh

end Steps

/-- A MANAGER reaches exactly the locations that a committed request has given to the membership,
or that it had at first, and that none has taken since. Other members reach all. -/
theorem reached_locations (s : Site) (ls : List Label) (actor : Member) (place : Uuid) :
    (run Site.step s.start ls).accessible actor place = true ↔
      place ∈ (run Site.step s.start ls).locationIds ∧ (actor.role = .manager →
        InForce ((actor.id, place) ∈ s.team.db.assigned) (Gives actor.id place)
          (Takes actor.id place) (trace Site.step s.start ls)) := by
  rw [accessible_iff]
  refine and_congr_right' (imp_congr_right fun _ => ?_)
  exact run_inForce (I := fun u : Site => u.team.db.Fresh)
    (J := fun u : Site => (actor.id, place) ∈ u.team.db.assigned)
    (start_team_fresh s) step_team_fresh step_assigned

end ReviewFlow.Locations
