import ReviewFlow.Loops
import ReviewFlow.GoogleReviews.Reviews

/-!
# The pages of a sync

`sync_location_reviews` on its own: at each of its steps it meets an environment and the tables as
the other requests have left them. The loop over the pages goes on while the provider names a page
token that it has not named before.
-/

namespace ReviewFlow.GoogleReviews.Mapping

open Savepoint Tables Program Loops

structure Moment where
  env : Env
  db : Database

def Task.turn (m : Moment) (task : Task) : Place Task (Except Error Unit) :=
  match ((taskProgram task).run m.env ⟨m.db, ()⟩).1 with
  | .ok (some next) => .running next
  | .ok none => .ended (.ok ())
  | .error e => .ended (.error e)

/-- Where `sync_location_reviews` is after `n` steps. -/
def syncLocationReviews (location : Uuid) (moments : ℕ → Moment) :
    ℕ → Place Task (Except Error Unit) :=
  place (fun n => Task.turn (moments n)) (.running (.syncRead location))

/-- It is at a call of `list_reviews`. -/
def Task.lists : Task → Prop
  | .syncPage _ => True
  | _ => False

/-- `_upsert_reviews` stores the reviews, or there are none to store. -/
def Moment.Stores (m : Moment) (location : Uuid) (googleLocationId : String)
    (reviews : List ProviderReview) : Prop :=
  reviewRows location m.env.now reviews = [] ∨
    (∃ x ∈ m.db.locations, x.id = location ∧ x.googleLocationId = googleLocationId) ∧
      ∀ row ∈ reviewRows location m.env.now reviews, 1 ≤ row.rating ∧ row.rating ≤ 5

/-- The mapping is there and its connection is active and has an access token. -/
structure Starts (location : Uuid) (moments : ℕ → Moment) (googleLocationId token : String) :
    Prop where
  mapped : ∃ x, (moments 0).db.locations.find? (·.id == location) = some x ∧
    ((moments 0).env.connection x.googleConnectionId).any (·.status == .active) = true ∧
    x.googleLocationId = googleLocationId
  token : (moments 1).env.accessToken = some token

/-- The provider answers each call with a page that names a new page token, and no page is
refused. -/
structure Endless (location : Uuid) (moments : ℕ → Moment) (googleLocationId token : String)
    (pages : ℕ → ReviewPage) (tokens : ℕ → String) : Prop where
  starts : Starts location moments googleLocationId token
  first : (moments 2).env.listReviews token googleLocationId none = .ok (pages 0)
  next : ∀ n, (moments (2 * n + 4)).env.listReviews token googleLocationId (some (tokens n)) =
    .ok (pages (n + 1))
  stores : ∀ n, (moments (2 * n + 3)).Stores location googleLocationId (pages n).reviews
  names : ∀ n, (pages n).nextPageToken = some (tokens n) ∧ tokens n ≠ ""
  fresh : tokens.Injective

section Turns

variable {m : Moment} {task next : Task} {location : Uuid} {googleLocationId : String}

theorem turn_eq_running : task.turn m = .running next ↔
    wp m.env (taskProgram task) (fun after _ => after = some next) (fun _ _ => False)
      ⟨m.db, ()⟩ := by
  unfold Task.turn wp
  rcases (taskProgram task).run m.env ⟨m.db, ()⟩ with ⟨e | after, t⟩
  · simp
  · cases after <;> simp

theorem turn_syncRead : (Task.syncRead location).turn m = .running next ↔
    ∃ x, m.db.locations.find? (·.id == location) = some x ∧
      (m.env.connection x.googleConnectionId).any (·.status == .active) = true ∧
      next = .syncToken location x.googleLocationId := by
  rw [turn_eq_running, taskProgram, syncRead]
  simp only [wp_bind, wp_ask, wp_get]
  cases m.db.locations.find? (·.id == location) with
  | none => simp
  | some x =>
    by_cases hactive : (m.env.connection x.googleConnectionId).any (·.status == .active) = true
    · simp only [hactive, if_true, wp_pure, Option.some.injEq, true_and, exists_eq_left']
      exact eq_comm
    · simp [hactive]

theorem turn_syncToken : (Task.syncToken location googleLocationId).turn m = .running next ↔
    ∃ token, m.env.accessToken = some token ∧
      next = .syncPage ⟨location, googleLocationId, token, none, [], none, none⟩ := by
  rw [turn_eq_running, taskProgram, syncToken]
  simp only [wp_bind, wp_ask, wp_pure, Option.map_eq_some_iff]
  exact exists_congr fun token => and_congr_right fun _ => eq_comm

theorem turn_syncPage {sync : Sync} : (Task.syncPage sync).turn m = .running next ↔
    ∃ page, m.env.listReviews sync.token sync.googleLocationId sync.pageToken = .ok page ∧
      next = .syncUpsert sync page := by
  rw [turn_eq_running, taskProgram, syncPage]
  simp only [wp_bind, wp_ask]
  cases m.env.listReviews sync.token sync.googleLocationId sync.pageToken with
  | ok page => simp [eq_comm]
  | error e => cases e <;> simp

theorem bulkCreate_stores {rows : List GoogleReview} {s : Store Database Unit} {P : Prop} :
    wp m.env (bulkCreate rows) (fun _ _ => P) (fun _ _ => False) s ↔
      (∀ row ∈ rows, 1 ≤ row.rating ∧ row.rating ≤ 5) ∧ P := by
  have hall : (rows.all fun row => decide (1 ≤ row.rating ∧ row.rating ≤ 5)) = true ↔
      ∀ row ∈ rows, 1 ≤ row.rating ∧ row.rating ≤ 5 := by
    simp only [List.all_eq_true, decide_eq_true_eq]
  rw [bulkCreate, wp_query]
  by_cases h : ∀ row ∈ rows, 1 ≤ row.rating ∧ row.rating ≤ 5
  · simp only [if_pos (hall.mpr h)]
    simpa using fun _ : P => h
  · simp only [if_neg (mt hall.mp h)]
    simp [h]

theorem upsertReviews_stores {reviews : List ProviderReview} {P : Prop} :
    wp m.env (upsertReviews location reviews googleLocationId) (fun same _ => same = true ∧ P)
      (fun _ _ => False) ⟨m.db, ()⟩ ↔ m.Stores location googleLocationId reviews ∧ P := by
  have hmapped : (m.db.locations.rows.any fun x => x.id == location &&
      x.googleLocationId == googleLocationId) = true ↔
      ∃ x ∈ m.db.locations, x.id = location ∧ x.googleLocationId = googleLocationId := by
    simp only [List.any_eq_true, Bool.and_eq_true, beq_iff_eq, Table.mem_def]
  rw [upsertReviews, Moment.Stores]
  simp only [wp_bind, wp_ask]
  by_cases hrows : reviewRows location m.env.now reviews = []
  · simp [hrows]
  simp only [hrows, if_false, false_or, wp_savepoint, wp_bind, wp_get, ← hmapped]
  cases m.db.locations.rows.any fun x => x.id == location &&
      x.googleLocationId == googleLocationId with
  | false => simp
  | true => simp [wp_bind, bulkCreate_stores]

theorem firstPage_seen (sync : Sync) (page : ReviewPage) :
    (sync.firstPage page).seen = sync.seen := by
  unfold Sync.firstPage
  split <;> rfl

def Sync.following (sync : Sync) (page : ReviewPage) (token : String) : Sync :=
  { sync.firstPage page with pageToken := some token, seen := sync.seen ++ [token] }

theorem turn_syncUpsert {sync : Sync} {page : ReviewPage} :
    (Task.syncUpsert sync page).turn m = .running next ↔
      m.Stores sync.location sync.googleLocationId page.reviews ∧
        (page.nextPageToken.filter (· != "") = none ∧ next = .syncFinish (sync.firstPage page) ∨
        ∃ token, page.nextPageToken.filter (· != "") = some token ∧ token ∉ sync.seen ∧
          next = .syncPage (sync.following page token)) := by
  rw [turn_eq_running, taskProgram, syncUpsert, wp_bind, ← upsertReviews_stores]
  refine iff_of_eq (congrArg (fun Q => wp m.env _ Q _ _) ?_)
  funext same t
  cases same with
  | false => simp
  | true =>
    simp only [firstPage_seen, Bool.true_eq_false, if_false, true_and]
    cases page.nextPageToken.filter (· != "") with
    | none => simp [eq_comm]
    | some token =>
      by_cases hseen : token ∈ sync.seen
      · simp [hseen]
      · simp [hseen, Sync.following, eq_comm]

theorem turn_syncFinish {sync : Sync} : (Task.syncFinish sync).turn m = .ended (.ok ()) := rfl

end Turns

section Rounds

variable {location : Uuid} {moments : ℕ → Moment} {googleLocationId token : String}
  {pages : ℕ → ReviewPage} {tokens : ℕ → String}

/-- The sync at its `n`th call of `list_reviews`. -/
def syncAt (location : Uuid) (googleLocationId token : String) (pages : ℕ → ReviewPage)
    (tokens : ℕ → String) : ℕ → Sync
  | 0 => ⟨location, googleLocationId, token, none, [], none, none⟩
  | n + 1 => (syncAt location googleLocationId token pages tokens n).following (pages n) (tokens n)

theorem firstPage_location (sync : Sync) (page : ReviewPage) :
    (sync.firstPage page).location = sync.location ∧
      (sync.firstPage page).googleLocationId = sync.googleLocationId ∧
      (sync.firstPage page).token = sync.token := by
  unfold Sync.firstPage
  split <;> exact ⟨rfl, rfl, rfl⟩

theorem syncAt_spec (location : Uuid) (googleLocationId token : String) (pages : ℕ → ReviewPage)
    (tokens : ℕ → String) (n : ℕ) :
    (syncAt location googleLocationId token pages tokens n).location = location ∧
      (syncAt location googleLocationId token pages tokens n).googleLocationId =
        googleLocationId ∧
      (syncAt location googleLocationId token pages tokens n).token = token ∧
      (syncAt location googleLocationId token pages tokens n).seen = (List.range n).map tokens := by
  induction n with
  | zero => exact ⟨rfl, rfl, rfl, rfl⟩
  | succ n ih =>
    obtain ⟨hlocation, hgoogle, htoken⟩ :=
      firstPage_location (syncAt location googleLocationId token pages tokens n) (pages n)
    refine ⟨hlocation.trans ih.1, hgoogle.trans ih.2.1, htoken.trans ih.2.2.1, ?_⟩
    rw [syncAt, Sync.following, ih.2.2.2, List.range_succ, List.map_append, List.map_singleton]

theorem names_iff {page : ReviewPage} {next : String} :
    page.nextPageToken.filter (· != "") = some next ↔
      page.nextPageToken = some next ∧ next ≠ "" := by
  rw [Option.filter_eq_some_iff, bne_iff_ne]

theorem fresh_of_injective (h : tokens.Injective) (n : ℕ) :
    tokens n ∉ (List.range n).map tokens := by
  intro hmem
  obtain ⟨j, hj, heq⟩ := List.mem_map.mp hmem
  exact Nat.ne_of_lt (List.mem_range.mp hj) (h heq)

theorem injective_of_fresh (h : ∀ n, tokens n ∉ (List.range n).map tokens) : tokens.Injective := by
  have hne : ∀ {j n}, j < n → tokens j ≠ tokens n := fun hjn heq =>
    h _ (List.mem_map.mpr ⟨_, List.mem_range.mpr hjn, heq⟩)
  intro j n heq
  rcases Nat.lt_trichotomy j n with hjn | hjn | hjn
  · exact absurd heq (hne hjn)
  · exact hjn
  · exact absurd heq.symm (hne hjn)

/-- While the pages name new tokens the sync is at its next call two steps later. -/
theorem Endless.place (h : Endless location moments googleLocationId token pages tokens) (n : ℕ) :
    syncLocationReviews location moments (2 * n + 2) =
      .running (.syncPage (syncAt location googleLocationId token pages tokens n)) := by
  induction n with
  | zero =>
    obtain ⟨x, hx, hactive, rfl⟩ := h.starts.mapped
    have hread : syncLocationReviews location moments 1 =
        .running (.syncToken location x.googleLocationId) :=
      turn_syncRead.mpr ⟨x, hx, hactive, rfl⟩
    exact (place_succ hread).trans (turn_syncToken.mpr ⟨token, h.starts.token, rfl⟩)
  | succ n ih =>
    obtain ⟨hlocation, hgoogle, htoken, hseen⟩ :=
      syncAt_spec location googleLocationId token pages tokens n
    have hlisted : syncLocationReviews location moments (2 * n + 3) =
        .running (.syncUpsert (syncAt location googleLocationId token pages tokens n)
          (pages n)) := by
      refine (place_succ ih).trans (turn_syncPage.mpr ⟨pages n, ?_, rfl⟩)
      rw [htoken, hgoogle]
      cases n with
      | zero => exact h.first
      | succ n => exact h.next n
    refine (place_succ hlisted).trans (turn_syncUpsert.mpr ⟨?_, .inr ⟨tokens n, ?_, ?_, rfl⟩⟩)
    · rw [hlocation, hgoogle]
      exact h.stores n
    · exact names_iff.mpr (h.names n)
    · rw [hseen]
      exact fresh_of_injective h.fresh n

theorem Endless.not_ends (h : Endless location moments googleLocationId token pages tokens) :
    ¬ Ends (fun n => Task.turn (moments n)) (.running (.syncRead location)) := by
  rintro ⟨n, result, hn⟩
  have hrunning := h.place n
  rw [syncLocationReviews, ended_stays hn (by omega)] at hrunning
  cases hrunning

/-- A sync that goes on after a call was answered with a page that names a new token. -/
theorem round {tasks : ℕ → Task}
    (hnext : ∀ n, (tasks n).turn (moments n) = .running (tasks (n + 1)))
    {k : ℕ} {sync : Sync} (hk : tasks k = .syncPage sync) :
    ∃ page next, (moments k).env.listReviews sync.token sync.googleLocationId sync.pageToken =
        .ok page ∧
      (moments (k + 1)).Stores sync.location sync.googleLocationId page.reviews ∧
      (page.nextPageToken = some next ∧ next ≠ "") ∧ next ∉ sync.seen ∧
      tasks (k + 2) = .syncPage (sync.following page next) := by
  obtain ⟨page, hpage, hupsert⟩ := turn_syncPage.mp (hk ▸ hnext k)
  obtain ⟨hstores, ⟨-, hfinish⟩ | ⟨next, hnames, hnew, hgoes⟩⟩ :=
    turn_syncUpsert.mp (hupsert ▸ hnext (k + 1))
  · have hended := hnext (k + 2)
    rw [hfinish, turn_syncFinish] at hended
    cases hended
  · exact ⟨page, next, hpage, hstores, names_iff.mp hnames, hnew, hgoes⟩

theorem endless_of_tasks {tasks : ℕ → Task} (hstart : tasks 0 = .syncRead location)
    (hnext : ∀ n, (tasks n).turn (moments n) = .running (tasks (n + 1))) :
    ∃ googleLocationId token pages tokens,
      Endless location moments googleLocationId token pages tokens := by
  obtain ⟨x, hx, hactive, hread⟩ := turn_syncRead.mp (hstart ▸ hnext 0)
  obtain ⟨token, htoken, hfirst⟩ := turn_syncToken.mp (hread ▸ hnext 1)
  have calls : ∀ n, ∃ sync, tasks (2 * n + 2) = .syncPage sync := by
    intro n
    induction n with
    | zero => exact ⟨_, hfirst⟩
    | succ n ih =>
      obtain ⟨sync, hsync⟩ := ih
      obtain ⟨page, next, -, -, -, -, hgoes⟩ := round hnext hsync
      exact ⟨_, hgoes⟩
  choose syncs hsyncs using calls
  choose pages tokens hpages hstores hnames hnew hgoes using fun n => round hnext (hsyncs n)
  have hsync : ∀ n, syncs n = syncAt location x.googleLocationId token pages tokens n := by
    intro n
    induction n with
    | zero => exact Task.syncPage.inj ((hsyncs 0).symm.trans hfirst)
    | succ n ih =>
      rw [syncAt, ← ih]
      exact Task.syncPage.inj ((hsyncs (n + 1)).symm.trans (hgoes n))
  simp only [hsync] at hpages hstores hnew
  have spec := syncAt_spec location x.googleLocationId token pages tokens
  refine ⟨x.googleLocationId, token, pages, tokens, ⟨⟨x, hx, hactive, rfl⟩, htoken⟩, hpages 0,
    fun n => ?_, fun n => ?_, hnames, injective_of_fresh fun n => ?_⟩
  · have hpage := hpages (n + 1)
    rw [(spec (n + 1)).2.1, (spec (n + 1)).2.2.1] at hpage
    exact hpage
  · have hstore := hstores n
    rw [(spec n).1, (spec n).2.1] at hstore
    exact hstore
  · have hfresh := hnew n
    rw [(spec n).2.2.2] at hfresh
    exact hfresh

theorem ends_iff : Ends (fun n => Task.turn (moments n)) (.running (.syncRead location)) ↔
    ¬ ∃ googleLocationId token pages tokens,
      Endless location moments googleLocationId token pages tokens := by
  constructor
  · rintro hends ⟨googleLocationId, token, pages, tokens, h⟩
    exact h.not_ends hends
  · intro h
    by_contra hends
    obtain ⟨tasks, hstart, hnext⟩ := not_ends_iff.mp hends
    exact h (endless_of_tasks (Place.running.inj hstart).symm hnext)

end Rounds

/-- The sync makes finitely many calls of `list_reviews` and ends, unless the provider goes on with
new page tokens for ever. -/
theorem review_paging_ends (location : Uuid) (moments : ℕ → Moment) :
    ({n | ∃ task, syncLocationReviews location moments n = .running task ∧ task.lists}.Finite ∧
        ∃ n result, syncLocationReviews location moments n = .ended result) ↔
      ¬ ∃ googleLocationId token pages tokens,
        Endless location moments googleLocationId token pages tokens := by
  rw [← ends_iff]
  exact ⟨fun h => h.2, fun h => ⟨h.finite Task.lists, h⟩⟩

section Unbounded

/-- The page tokens `"t"`, `"tt"` and so on. -/
def longerToken : ℕ → String
  | 0 => "t"
  | n + 1 => (longerToken n).push 't'

theorem longerToken_length (n : ℕ) : (longerToken n).length = n + 1 := by
  induction n with
  | zero => rfl
  | succ n ih => rw [longerToken, String.length_push, ih]

theorem longerToken_ne_empty (n : ℕ) : longerToken n ≠ "" := by
  intro h
  have hlength := longerToken_length n
  rw [h] at hlength
  cases hlength

theorem longerToken_injective : longerToken.Injective := by
  intro j n h
  have hlength := congrArg String.length h
  rw [longerToken_length, longerToken_length] at hlength
  exact Nat.succ.inj hlength

/-- One mapped location, and a provider that answers a page token with a longer one. -/
def unboundedMoment : Moment where
  env :=
    { now := 0
      refreshMargin := 0
      accessible := fun _ => true
      connection := fun _ => some ⟨.active, 0, "token", true⟩
      accessToken := some "token"
      listLocations := fun _ => .ok []
      plainHttps := fun _ => true
      listReviews := fun _ _ pageToken => .ok ⟨[], none, none, some ((pageToken.getD "").push 't')⟩
      raced := false }
  db := ⟨⟨[⟨0, 0, 0, "accounts/1/locations/1", none, "", none, none, none⟩],
    List.pairwise_singleton _ _⟩, .empty, 1⟩

theorem unboundedMoment_endless : Endless 0 (fun _ => unboundedMoment) "accounts/1/locations/1"
    "token" (fun n => ⟨[], none, none, some (longerToken n)⟩) longerToken where
  starts := ⟨⟨_, rfl, rfl, rfl⟩, rfl⟩
  first := rfl
  next _ := rfl
  stores _ := .inl rfl
  names n := ⟨rfl, longerToken_ne_empty n⟩
  fresh := longerToken_injective

theorem unbounded_pages : ¬ ∀ (location : Uuid) (moments : ℕ → Moment),
    {n | ∃ task, syncLocationReviews location moments n = .running task ∧ task.lists}.Finite ∧
      ∃ n result, syncLocationReviews location moments n = .ended result := by
  intro h
  exact unboundedMoment_endless.not_ends (h 0 fun _ => unboundedMoment).2

end Unbounded

end ReviewFlow.GoogleReviews.Mapping
