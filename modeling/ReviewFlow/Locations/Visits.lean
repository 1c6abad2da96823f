import ReviewFlow.Locations.Scoped

/-!
# What requests show and change

In every run each location that a request shows or changes was within reach of its member when the
request looked for it, and nothing but such a request changes a location or a Google mapping.
-/

namespace ReviewFlow.Locations

open Savepoint Tables Program Interleaving
open Accounts (Member Role Team)
open GoogleReviews (Mapping.Task Mapping.taskProgram Mapping.GoogleLocation)

variable {s u : Site} {ls : List Label} {l : Label} {env : Env} {v : Visit} {actor : Member}
  {place : Uuid} {i : ℕ}

def Admits (actor : Member) (s : Site) (l : Label) : Prop :=
  ∃ userId request, l = .arrive userId request ∧ actor ∈ s.team.db.members ∧
    actor.userId = userId ∧ actor.accepted = true ∧ s.team.db.active = true

def Checks (i : ℕ) (actor : Member) (place : Uuid) (s : Site) (l : Label) : Prop :=
  ∃ env v, l = .serve i env ∧ s.visits[i]? = some (some v) ∧ v.actor = actor ∧
    s.accessible actor place = true

structure Warranted (s : Site) (ls : List Label) (i : ℕ) (v : Visit) : Prop where
  admitted : Earlier Site.step s.start ls (Admits v.actor)
  permitted : v.stage.permits v.actor.role = true
  sound : v.stage.Sound
  checked : ∀ place ∈ v.stage.location, Earlier Site.step s.start ls (Checks i v.actor place)

theorem Warranted.append (h : Warranted s ls i v) (ls' : List Label) :
    Warranted s (ls ++ ls') i v where
  admitted := h.admitted.append ls'
  permitted := h.permitted
  sound := h.sound
  checked place hplace := (h.checked place hplace).append ls'

theorem Warranted.reaches (h : Warranted s ls i v)
    (hv : (run Site.step s.start ls).visits[i]? = some (some v))
    (hreach : v.Reaches (run Site.step s.start ls) place) :
    Earlier Site.step s.start (ls ++ [.serve i env]) (Checks i v.actor place) := by
  rcases hreach with hfound | hnow
  · exact (h.checked place hfound).append _
  · exact .last ⟨env, v, rfl, hv, rfl, hnow⟩

section Steps

theorem isMerchantMember_eq_some {db : Accounts.Database} {userId : Uuid} {m : Member}
    (h : isMerchantMember db userId = some m) :
    m ∈ db.members ∧ m.userId = userId ∧ m.accepted = true ∧ db.active = true := by
  obtain ⟨hm, hcond⟩ := Table.mem_of_find? h
  simp only [Bool.and_eq_true, beq_iff_eq] at hcond
  exact ⟨hm, hcond.1.1, hcond.1.2, hcond.2⟩

/-- The requests under way after a step: those before, a new one, or one that has gone on. -/
theorem step_visits (hv : (u.step l).visits[i]? = some (some v)) :
    u.visits[i]? = some (some v) ∨
    (∃ userId request, l = .arrive userId request ∧ v.stage = .arrived request ∧
      isMerchantMember u.team.db userId = some v.actor ∧ request.permits v.actor.role = true) ∨
    ∃ env w, l = .serve i env ∧ u.visits[i]? = some (some w) ∧ w.actor = v.actor ∧
      (u.serve env w).1 = .goesOn v.stage := by
  cases l with
  | team choice =>
    left
    cases choice <;> exact hv
  | arrive userId request =>
    simp only [Site.step] at hv
    split at hv
    case h_1 actor hactor =>
      rcases RowLocks.getElem?_append_singleton hv with hold | hnew
      · exact .inl hold
      · cases hnew
        obtain ⟨hmember, hpermits⟩ := Option.filter_eq_some_iff.mp hactor
        exact .inr (.inl ⟨userId, request, rfl, rfl, hmember, hpermits⟩)
    case h_2 => exact .inl hv
  | serve j env =>
    simp only [Site.step] at hv
    split at hv
    case h_1 w hw =>
      rcases RowLocks.getElem?_set_cases hv with ⟨rfl, hnext⟩ | ⟨-, hold⟩
      · right; right
        refine ⟨env, w, rfl, hw, ?_⟩
        cases hout : (u.serve env w).1 with
        | goesOn stage =>
          rw [hout] at hnext
          cases hnext
          exact ⟨rfl, rfl⟩
        | answered answer =>
          rw [hout] at hnext
          cases hnext
      · exact .inl hold
    case h_2 => exact .inl hv
  | sale call => exact .inl hv
  | sync task env =>
    left
    simp only [Site.step] at hv
    split at hv <;> exact hv

theorem step_warranted (h : ∀ i v, (run Site.step s.start ls).visits[i]? = some (some v) →
      Warranted s ls i v)
    (hv : ((run Site.step s.start ls).step l).visits[i]? = some (some v)) :
    Warranted s (ls ++ [l]) i v := by
  rcases step_visits hv with hold | ⟨userId, request, rfl, hstage, hmember, hpermits⟩ |
    ⟨env, w, rfl, hw, hactor, hgoes⟩
  · exact (h i v hold).append [l]
  · obtain ⟨hm, huser, hacc, hactive⟩ := isMerchantMember_eq_some hmember
    refine ⟨.last ⟨userId, request, rfl, hm, huser, hacc, hactive⟩, ?_, ?_, ?_⟩
    · rw [hstage]
      exact hpermits
    · rw [hstage]
      trivial
    · rw [hstage]
      exact nofun
  · have hw' := h i w hw
    obtain ⟨hsound, hpermits, hplaces⟩ := serve_goesOn hgoes hw'.sound
    refine ⟨?_, ?_, hsound, fun place hplace => ?_⟩
    · exact hactor ▸ hw'.admitted.append _
    · exact hactor ▸ hpermits _ hw'.permitted
    · exact hactor ▸ hw'.reaches hw (hplaces place hplace)

theorem run_warranted (s : Site) (ls : List Label) :
    ∀ i v, (run Site.step s.start ls).visits[i]? = some (some v) → Warranted s ls i v := by
  have hrun : run Site.step s.start ls = run Site.step s.start ls ∧
      ∀ i v, (run Site.step s.start ls).visits[i]? = some (some v) → Warranted s ls i v :=
    run_history (P := fun h u => u = run Site.step s.start h ∧
      ∀ i v, u.visits[i]? = some (some v) → Warranted s h i v)
    ⟨rfl, fun i v hv => by simp [Site.start] at hv⟩
    (fun h u l hu => ⟨by rw [hu.1, run_snoc], fun i v hv =>
      step_warranted (hu.1 ▸ hu.2) (hu.1 ▸ hv)⟩)
  exact hrun.2

end Steps

/-- Every location that a request shows or changes was within reach of its member at a step of this
request, now or before, and the role that was read for the request permits it. -/
theorem visits_scoped (s : Site) (ls : List Label) (i : ℕ) (env : Env) (v : Visit)
    (answer : Answer) (hv : (run Site.step s.start ls).visits[i]? = some (some v))
    (hanswer : ((run Site.step s.start ls).serve env v).1 = .answered answer) :
    Earlier Site.step s.start ls (Admits v.actor) ∧ v.stage.permits v.actor.role = true ∧
      ∀ place ∈ answer.places,
        Earlier Site.step s.start (ls ++ [.serve i env]) (Checks i v.actor place) := by
  have hw := run_warranted s ls i v hv
  refine ⟨hw.admitted, hw.permitted, fun place hplace => ?_⟩
  exact hw.reaches hv (serve_places hanswer place hplace)

def managerSite : Site where
  team := ⟨⟨true, Table.empty, ⟨[⟨3, 1, .manager, none, some 0⟩], List.pairwise_singleton _ _⟩,
    [], [(3, 7)], [], 0⟩, []⟩
  locations := ⟨[⟨7, "North", none, none, none, true⟩, ⟨8, "South", none, none, none, true⟩],
    by decide⟩
  sales := ⟨Table.empty, ⟨[⟨0, 7, none, 5, "a", 100, "INR", none, .completed, 0⟩,
    ⟨1, 8, none, 5, "b", 100, "INR", none, .completed, 0⟩], by decide⟩⟩
  google := ⟨Table.empty, Table.empty, 0⟩
  visits := []

def managerEnv : Env := ⟨fun _ => true, 9, GoogleReviews.Mapping.answering 1⟩

theorem visits_scoped_manager :
    Earlier Site.step managerSite.start
      [.arrive 1 (.listTransactions ⟨none, none, none, none⟩), .serve 0 managerEnv]
      (Checks 0 ⟨3, 1, .manager, none, some 0⟩ 7) := by
  have h := visits_scoped managerSite [.arrive 1 (.listTransactions ⟨none, none, none, none⟩)] 0
    managerEnv
    ⟨⟨3, 1, .manager, none, some 0⟩, .arrived (.listTransactions ⟨none, none, none, none⟩)⟩
    (.transactions [⟨0, 7, none, 5, "a", 100, "INR", none, .completed, 0⟩]) rfl rfl
  exact h.2.2 7 (by decide)

def Serves (s : Site) (ls : List Label) (l : Label) (i : ℕ) (env : Env) (v : Visit) : Prop :=
  l = .serve i env ∧ (run Site.step s.start ls).visits[i]? = some (some v) ∧ Warranted s ls i v

def target (m : Mapping.GoogleLocation) : Uuid × String × Option String × String :=
  (m.googleConnectionId, m.googleLocationId, m.googlePlaceId, m.reviewLink)

def Site.mapped (s : Site) (place : Uuid) : Option (Uuid × String × Option String × String) :=
  (s.google.locations.find? (·.locationId == place)).map target

section Changes

inductive Visit.Rewrites (env : Env) (row : Location) : Visit → Location → Prop
  | updated {actor : Member} {loaded : Location} {fields : LocationFields} (id : loaded.id = row.id)
      (timezone : fields.timezone.all (·.all env.timezones) = true) :
      Rewrites env row ⟨actor, .found loaded (.update fields)⟩ (fields.set row)
  | deactivated {actor : Member} {loaded : Location} (id : loaded.id = row.id) :
      Rewrites env row ⟨actor, .found loaded .deactivate⟩ row.deactivated

theorem updateRow_row {pk : Uuid} {f : Location → Location} {h : ∀ row, (f row).id = row.id}
    {row : Location} (hrow : row ∈ s.locations) :
    row ∈ (s.updateRow pk f h).locations ∨
      row.id = pk ∧ f row ∈ (s.updateRow pk f h).locations := by
  have hmem : (if row.id = pk then f row else row) ∈ (s.updateRow pk f h).locations :=
    List.mem_map.mpr ⟨row, hrow, rfl⟩
  split at hmem
  case isTrue hid => exact .inr ⟨hid, hmem⟩
  case isFalse => exact .inl hmem

theorem updateRow_ids {pk : Uuid} {f : Location → Location} {h : ∀ row, (f row).id = row.id}
    {row' : Location} (hrow : row' ∈ (s.updateRow pk f h).locations) :
    ∃ row ∈ s.locations, row.id = row'.id := by
  obtain ⟨row, hmem, rfl⟩ := List.mem_map.mp hrow
  refine ⟨row, hmem, ?_⟩
  split
  · exact (h row).symm
  · rfl

theorem serve_rows (env : Env) (v : Visit) {row : Location} (hrow : row ∈ s.locations) :
    ∃ row' ∈ (s.serve env v).2.locations, row'.id = row.id ∧
      (row' = row ∨ v.Rewrites env row row') := by
  have kept : ∀ {t : Site}, t.locations = s.locations → ∃ row' ∈ t.locations, row'.id = row.id ∧
      (row' = row ∨ v.Rewrites env row row') := fun h => ⟨row, h ▸ hrow, rfl, .inl rfl⟩
  obtain ⟨actor, at'⟩ := v
  cases at' with
  | arrived request =>
    cases request with
    | createLocation name address phone timezone =>
      simp only [Site.serve, Site.createLocation]
      split
      · split
        case h_1 locations hins =>
          exact ⟨row, (Table.mem_insert? hins).mpr (.inl hrow), rfl, .inl rfl⟩
        case h_2 => exact kept rfl
      · exact kept rfl
    | location pk action =>
      simp only [Site.serve]
      split <;> exact kept rfl
    | getTransaction pk =>
      simp only [Site.serve]
      split <;> exact kept rfl
    | listLocations => exact kept rfl
    | listTransactions filter => exact kept rfl
    | listReviews filter => exact kept rfl
    | mapLocation pk connectionId googleLocationId => exact kept rfl
  | found loaded action =>
    cases action with
    | update fields =>
      simp only [Site.serve, Site.updateLocation]
      split
      case isTrue htimezone =>
        split
        · exact kept rfl
        · rcases updateRow_row (f := fields.set) (h := fun _ => rfl) hrow with hkept | ⟨hid, hset⟩
          · exact ⟨row, hkept, rfl, .inl rfl⟩
          · exact ⟨_, hset, rfl, .inr (.updated hid.symm htimezone)⟩
      case isFalse => exact kept rfl
    | deactivate =>
      simp only [Site.serve, Site.deactivateLocation]
      split
      · rcases updateRow_row (f := Location.deactivated) (h := fun _ => rfl) hrow with
          hkept | ⟨hid, hset⟩
        · exact ⟨row, hkept, rfl, .inl rfl⟩
        · exact ⟨_, hset, rfl, .inr (.deactivated hid.symm)⟩
      · exact kept rfl
    | read => exact kept rfl
    | googleLocation => exact kept rfl
  | mapping pk task => exact kept rfl

theorem serve_added {row' : Location} (hrow : row' ∈ (s.serve env v).2.locations) :
    (∃ row ∈ s.locations, row.id = row'.id) ∨ ∃ name address phone timezone,
      v.stage = .arrived (.createLocation name address phone timezone) ∧
        timezone.all env.timezones = true ∧
          row' = ⟨env.newId, name, address, phone, timezone, true⟩ := by
  have kept : ∀ {t : Site}, t.locations = s.locations → row' ∈ t.locations →
      ∃ row ∈ s.locations, row.id = row'.id := fun h hmem => ⟨row', h ▸ hmem, rfl⟩
  obtain ⟨actor, at'⟩ := v
  cases at' with
  | arrived request =>
    cases request with
    | createLocation name address phone timezone =>
      simp only [Site.serve, Site.createLocation] at hrow
      split at hrow
      case isTrue htimezone =>
        split at hrow
        case h_1 locations hins =>
          rcases (Table.mem_insert? hins).mp hrow with hold | hnew
          · exact .inl ⟨row', hold, rfl⟩
          · exact .inr ⟨name, address, phone, timezone, rfl, htimezone, hnew⟩
        case h_2 => exact .inl (kept rfl hrow)
      case isFalse => exact .inl (kept rfl hrow)
    | location pk action =>
      simp only [Site.serve] at hrow
      split at hrow <;> exact .inl (kept rfl hrow)
    | getTransaction pk =>
      simp only [Site.serve] at hrow
      split at hrow <;> exact .inl (kept rfl hrow)
    | listLocations => exact .inl (kept rfl hrow)
    | listTransactions filter => exact .inl (kept rfl hrow)
    | listReviews filter => exact .inl (kept rfl hrow)
    | mapLocation pk connectionId googleLocationId => exact .inl (kept rfl hrow)
  | found loaded action =>
    left
    cases action with
    | update fields =>
      simp only [Site.serve, Site.updateLocation] at hrow
      split at hrow
      · split at hrow
        · exact kept rfl hrow
        · exact updateRow_ids (f := fields.set) (h := fun _ => rfl) hrow
      · exact kept rfl hrow
    | deactivate =>
      simp only [Site.serve, Site.deactivateLocation] at hrow
      split at hrow
      · exact updateRow_ids (f := Location.deactivated) (h := fun _ => rfl) hrow
      · exact kept rfl hrow
    | read => exact kept rfl hrow
    | googleLocation => exact kept rfl hrow
  | mapping pk task => exact .inl (kept rfl hrow)

theorem step_locations (s : Site) (l : Label) : (s.step l).locations = s.locations ∨
    ∃ i env v, l = .serve i env ∧ s.visits[i]? = some (some v) ∧
      (s.step l).locations = (s.serve env v).2.locations := by
  cases l with
  | team choice =>
    left
    cases choice <;> rfl
  | arrive userId request =>
    left
    simp only [Site.step]
    split <;> rfl
  | serve i env =>
    simp only [Site.step]
    split
    case h_1 v hv => exact .inr ⟨i, env, v, rfl, hv, rfl⟩
    case h_2 => exact .inl rfl
  | sale call => exact .inl rfl
  | sync task env =>
    left
    simp only [Site.step]
    split <;> rfl

end Changes

section Mappings

open GoogleReviews.Mapping (taskProgram_spec counted counted_keys counted_clash GoogleLocation)

theorem find_others {t t' : Table Mapping.GoogleLocation GoogleReviews.Mapping.GoogleLocation.Clash}
    {pk : Uuid} (h : ∀ x, x.locationId ≠ pk → (x ∈ t' ↔ x ∈ t)) (hne : place ≠ pk) :
    t'.find? (·.locationId == place) = t.find? (·.locationId == place) := by
  have symm : ∀ a b : Mapping.GoogleLocation, a.Clash b → b.Clash a := fun a b hab =>
    hab.imp Eq.symm (Or.imp Eq.symm fun h => ⟨h.1.symm, h.2.symm⟩)
  have key : ∀ a b : Mapping.GoogleLocation, (a.locationId == place) = true →
      (b.locationId == place) = true → a.Clash b := by
    intro a b ha hb
    exact .inr (.inl ((beq_iff_eq.mp ha).trans (beq_iff_eq.mp hb).symm))
  cases hfind : t.find? (·.locationId == place) with
  | some m =>
    obtain ⟨hm, hid⟩ := Table.mem_of_find? hfind
    have hplace : m.locationId = place := beq_iff_eq.mp hid
    have hm' : m ∈ t' := (h m (hplace ▸ hne)).mpr hm
    exact Table.find?_eq_some_of_mem symm hm' hid key
  | none =>
    rw [Table.find?_eq_none] at hfind ⊢
    intro m hm
    by_cases hplace : m.locationId = place
    · exact hfind m ((h m (hplace ▸ hne)).mp hm)
    · simpa using hplace

theorem mapped_same {db : GoogleReviews.Mapping.Database} (h : db.locations = s.google.locations) :
    Site.mapped { s with google := db } place = s.mapped place := by
  unfold Site.mapped
  rw [h]

theorem counted_mapped (sync : GoogleReviews.Mapping.Sync) (now : Time) :
    Site.mapped
      { s with
        google := { s.google with
          locations := s.google.locations.update (counted sync now) (counted_clash sync now) } }
      place = s.mapped place := by
  have hfind : ((fun m : Mapping.GoogleLocation => m.locationId == place) ∘ counted sync now) =
      fun m => m.locationId == place := by
    funext m
    simp only [Function.comp_apply, counted_keys]
  have htarget : target ∘ counted sync now = target := by
    funext m
    simp only [Function.comp_apply, counted]
    split <;> rfl
  unfold Site.mapped
  rw [Table.find?_update, hfind, Option.map_map, htarget]

/-- A part of a sync or of a mapping request leaves what a location is mapped to, unless it writes
that mapping. -/
theorem task_mapped (genv : GoogleReviews.Mapping.Env) {task : Mapping.Task}
    (hf : s.google.Fresh) (hno : ∀ connectionId found reviewLink,
      task ≠ .mapWrite place connectionId found reviewLink) :
    Site.mapped
      { s with google := ((Mapping.taskProgram task).run genv ⟨s.google, ()⟩).2.data } place =
        s.mapped place := by
  have hspec := taskProgram_spec genv s.google task
  rw [wp_iff_run] at hspec
  rcases hrun : (Mapping.taskProgram task).run genv ⟨s.google, ()⟩ with ⟨e | next, t⟩
  · have hsame := hspec.2 e t hrun
    apply mapped_same
    rw [hsame]
  · have heffect := (hspec.1 next t hrun).1
    cases task with
    | mapWrite pk connectionId found reviewLink =>
      have hne : place ≠ pk := by
        rintro rfl
        exact hno connectionId found reviewLink rfl
      have hothers := mapWrite_others genv pk connectionId found reviewLink hf
      rw [wp_iff_run] at hothers
      unfold Site.mapped
      rw [find_others (hothers.1 next t hrun) hne]
    | mapRead | mapList | syncRead | syncToken | syncPage =>
      generalize t.data = db' at heffect ⊢
      cases heffect
      rfl
    | syncUpsert sync page =>
      generalize t.data = db' at heffect ⊢
      cases heffect with
      | same => rfl
      | upserted => exact mapped_same rfl
    | syncFinish sync =>
      generalize t.data = db' at heffect ⊢
      cases heffect with
      | same => rfl
      | counted => exact counted_mapped sync genv.now

/-- The request is at this part of `map_location`. -/
def Visit.AtPart (v : Visit) (task : Mapping.Task) : Prop :=
  (∃ pk, v.stage = .mapping pk task) ∨ ∃ pk connectionId googleLocationId,
    task = .mapRead pk connectionId googleLocationId

theorem serve_google (s : Site) (env : Env) (v : Visit) : (s.serve env v).2.google = s.google ∨
    ∃ genv task, v.AtPart task ∧
      (s.serve env v).2.google = ((Mapping.taskProgram task).run genv ⟨s.google, ()⟩).2.data := by
  obtain ⟨actor, at'⟩ := v
  cases at' with
  | arrived request =>
    cases request with
    | createLocation name address phone timezone =>
      left
      simp only [Site.serve, Site.createLocation]
      split
      · split <;> rfl
      · rfl
    | location pk action =>
      left
      simp only [Site.serve]
      split <;> rfl
    | getTransaction pk =>
      left
      simp only [Site.serve]
      split <;> rfl
    | listLocations => exact .inl rfl
    | listTransactions filter => exact .inl rfl
    | listReviews filter => exact .inl rfl
    | mapLocation pk connectionId googleLocationId =>
      exact .inr ⟨_, _, .inr ⟨pk, connectionId, googleLocationId, rfl⟩, rfl⟩
  | found row action =>
    left
    cases action with
    | update fields =>
      simp only [Site.serve, Site.updateLocation]
      split
      · split <;> rfl
      · rfl
    | deactivate =>
      simp only [Site.serve, Site.deactivateLocation]
      split <;> rfl
    | read => rfl
    | googleLocation => rfl
  | mapping pk task => exact .inr ⟨_, task, .inl ⟨pk, rfl⟩, rfl⟩

/-- A step leaves the Google tables, or runs a part of a sync or of a mapping request on them. -/
theorem step_google (s : Site) (l : Label) : (s.step l).google = s.google ∨ ∃ genv task,
    (s.step l).google = ((Mapping.taskProgram task).run genv ⟨s.google, ()⟩).2.data ∧
      (isSync task = true ∨
        ∃ i env v, l = .serve i env ∧ s.visits[i]? = some (some v) ∧ v.AtPart task) := by
  cases l with
  | team choice =>
    left
    cases choice <;> rfl
  | arrive userId request =>
    left
    simp only [Site.step]
    split <;> rfl
  | serve i env =>
    simp only [Site.step]
    split
    case h_1 v hv =>
      rcases serve_google s env v with hsame | ⟨genv, task, hpart, hrun⟩
      · exact .inl hsame
      · exact .inr ⟨genv, task, hrun, .inr ⟨i, env, v, rfl, hv, hpart⟩⟩
    case h_2 => exact .inl rfl
  | sale call => exact .inl rfl
  | sync task genv =>
    simp only [Site.step]
    split
    case isTrue hsync => exact .inr ⟨genv, task, rfl, .inl hsync⟩
    case isFalse => exact .inl rfl

theorem step_google_fresh (s : Site) (l : Label) (hf : s.google.Fresh) :
    (s.step l).google.Fresh := by
  rcases step_google s l with hsame | ⟨genv, task, hrun, -⟩
  · rw [hsame]
    exact hf
  · have hspec := taskProgram_spec genv s.google task
    rw [wp_iff_run] at hspec
    rw [hrun]
    rcases h : (Mapping.taskProgram task).run genv ⟨s.google, ()⟩ with ⟨e | next, t⟩
    · rw [hspec.2 e t h]
      exact hf
    · exact (hspec.1 next t h).1.fresh hf

theorem step_mapped (s : Site) (l : Label) (hf : s.google.Fresh)
    (hne : (s.step l).mapped place ≠ s.mapped place) :
    ∃ i env v connectionId found reviewLink, l = .serve i env ∧ s.visits[i]? = some (some v) ∧
      v.AtPart (.mapWrite place connectionId found reviewLink) := by
  rcases step_google s l with hsame | ⟨genv, task, hrun, hpart⟩
  · refine absurd ?_ hne
    unfold Site.mapped
    rw [hsame]
  · by_cases hno : ∀ connectionId found reviewLink,
      task ≠ .mapWrite place connectionId found reviewLink
    · refine absurd ?_ hne
      rw [← task_mapped genv hf hno]
      unfold Site.mapped
      rw [hrun]
    · push Not at hno
      obtain ⟨connectionId, found, reviewLink, rfl⟩ := hno
      rcases hpart with hsync | ⟨i, env, v, hl, hv, hat⟩
      · cases hsync
      · exact ⟨i, env, v, connectionId, found, reviewLink, hl, hv, hat⟩

theorem start_google_fresh (s : Site) : s.start.google.Fresh where
  locations m hm := by
    apply Nat.lt_succ_of_le
    apply le_foldr_max
    exact List.mem_append_left _ (List.mem_map_of_mem hm)
  reviews row hrow := by
    apply Nat.lt_succ_of_le
    apply le_foldr_max
    exact List.mem_append_right _ (List.mem_map_of_mem (f := (·.googleLocation)) hrow)

theorem run_google_fresh (s : Site) (ls : List Label) : (run Site.step s.start ls).google.Fresh :=
  run_history (P := fun _ u => u.google.Fresh) (start_google_fresh s)
    fun _ u l hu => step_google_fresh u l hu

end Mappings

/-- Locations are never removed. A column of one changes only by a request that names it or
deactivates the location, a new one only by a request that creates it, and a Google mapping only by
a mapping request for that location; each of these requests is warranted. -/
theorem changes_scoped (s : Site) (ls : List Label) (l : Label) :
    (∀ row ∈ (run Site.step s.start ls).locations,
      ∃ row' ∈ (run Site.step s.start (ls ++ [l])).locations, row'.id = row.id ∧
        (row' = row ∨ ∃ i env v, Serves s ls l i env v ∧ v.Rewrites env row row')) ∧
    (∀ row' ∈ (run Site.step s.start (ls ++ [l])).locations,
      (∃ row ∈ (run Site.step s.start ls).locations, row.id = row'.id) ∨
        ∃ i env v name address phone timezone, Serves s ls l i env v ∧
          v.stage = .arrived (.createLocation name address phone timezone) ∧
            timezone.all env.timezones = true ∧
              row' = ⟨env.newId, name, address, phone, timezone, true⟩) ∧
    ∀ place, (run Site.step s.start (ls ++ [l])).mapped place ≠
        (run Site.step s.start ls).mapped place →
      ∃ i env v connectionId found reviewLink, Serves s ls l i env v ∧
        v.stage = .mapping place (.mapWrite place connectionId found reviewLink) := by
  have hserves : ∀ {i env v}, l = .serve i env →
      (run Site.step s.start ls).visits[i]? = some (some v) → Serves s ls l i env v :=
    fun hl hv => ⟨hl, hv, run_warranted s ls _ _ hv⟩
  rw [run_snoc]
  refine ⟨fun row hrow => ?_, fun row' hrow => ?_, fun place hne => ?_⟩
  · rcases step_locations (run Site.step s.start ls) l with hsame | ⟨i, env, v, hl, hv, hserve⟩
    · exact ⟨row, hsame ▸ hrow, rfl, .inl rfl⟩
    · obtain ⟨row', hmem, hid, hkept⟩ := serve_rows env v hrow
      refine ⟨row', hserve ▸ hmem, hid, hkept.imp id fun hrewrites => ?_⟩
      exact ⟨i, env, v, hserves hl hv, hrewrites⟩
  · rcases step_locations (run Site.step s.start ls) l with hsame | ⟨i, env, v, hl, hv, hserve⟩
    · exact .inl ⟨row', hsame ▸ hrow, rfl⟩
    · rw [hserve] at hrow
      refine (serve_added hrow).imp id ?_
      rintro ⟨name, address, phone, timezone, hstage, hvalid, hnew⟩
      exact ⟨i, env, v, name, address, phone, timezone, hserves hl hv, hstage, hvalid, hnew⟩
  · obtain ⟨i, env, v, connectionId, found, reviewLink, hl, hv, hpart⟩ :=
      step_mapped _ l (run_google_fresh s ls) hne
    rcases hpart with ⟨pk, hstage⟩ | ⟨pk, c, g, htask⟩
    · have hserve : Serves s ls l i env v := hserves hl hv
      have hsound := hserve.2.2.sound
      rw [hstage] at hsound
      obtain rfl : place = pk := hsound
      exact ⟨i, env, v, connectionId, found, reviewLink, hserve, hstage⟩
    · cases htask

end ReviewFlow.Locations
