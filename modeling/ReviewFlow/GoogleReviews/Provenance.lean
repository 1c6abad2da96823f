import ReviewFlow.GoogleReviews.Reviews

/-!
# Where the reviews of a mapping come from

Mapping requests and syncs in any interleaving, from no mapping at all. Each row, and each
counter, has a provider call in the history for the identity that its mapping has now.
-/

namespace ReviewFlow.GoogleReviews.Mapping

open Savepoint Tables Program Interleaving

structure System where
  db : Database
  /-- All requests and syncs so far. None is one that ended. -/
  threads : List (Option Task)

inductive Choice where
  | map (location connectionId : Uuid) (googleLocationId : String)
  | sync (location : Uuid)
  | advance (i : ℕ) (env : Env)
  | crash (i : ℕ)

def following : Except Error (Option Task) → Option Task
  | .ok next => next
  | .error _ => none

def System.step (s : System) : Choice → System
  | .map location connectionId googleLocationId =>
    { s with threads := s.threads ++ [some (.mapRead location connectionId googleLocationId)] }
  | .sync location => { s with threads := s.threads ++ [some (.syncRead location)] }
  | .advance i env => match s.threads[i]? with
    | some (some task) =>
      let r := (taskProgram task).run env ⟨s.db, ()⟩
      ⟨r.2.data, s.threads.set i (following r.1)⟩
    | _ => s
  | .crash i => { s with threads := s.threads.set i none }

abbrev MappingTransition := Transition System Choice

def System.start : System := ⟨⟨Table.empty, Table.empty, 0⟩, []⟩

def mappingRun (choices : List Choice) : List MappingTransition := trace System.step .start choices

def MappingTransition.Advances (t : MappingTransition) (i : ℕ) (env : Env) (task : Task) : Prop :=
  t.label = .advance i env ∧ t.before.threads[i]? = some (some task)

def MappingTransition.Calls (t : MappingTransition) (i : ℕ) (googleLocationId : String)
    (pageToken : Option String) (page : ReviewPage) : Prop :=
  ∃ env sync, t.Advances i env (.syncPage sync) ∧ sync.googleLocationId = googleLocationId ∧
    sync.pageToken = pageToken ∧ env.listReviews sync.token googleLocationId pageToken = .ok page

section Evidence

variable (h : List MappingTransition)

def ReviewObtained (googleLocationId : String) (row : GoogleReview) : Prop :=
  ∃ t ∈ h, ∃ i pageToken page, t.Calls i googleLocationId pageToken page ∧
    ∃ review ∈ page.reviews, reviewRow row.googleLocation row.fetchedAt review = some row

def AverageObtained (googleLocationId : String) (average : ℚ) : Prop :=
  ∃ t ∈ h, ∃ i page, t.Calls i googleLocationId none page ∧ page.averageRating = some average

def CountObtained (googleLocationId : String) (count : ℤ) : Prop :=
  ∃ t ∈ h, ∃ i page, t.Calls i googleLocationId none page ∧ page.reviewCount = some count

def SyncObtained (googleLocationId : String) (now : Time) : Prop :=
  ∃ i, (∃ t ∈ h, ∃ pageToken page, t.Calls i googleLocationId pageToken page) ∧
    ∃ t ∈ h, ∃ env sync, t.Advances i env (.syncFinish sync) ∧
    sync.googleLocationId = googleLocationId ∧
      env.now = now

/-- Every row under a mapping, and its counters, are from calls for the Google location it has. -/
structure Obtained (db : Database) : Prop where
  reviews : ∀ m ∈ db.locations, ∀ row ∈ db.reviews, row.googleLocation = m.id →
    ReviewObtained h m.googleLocationId row
  average : ∀ m ∈ db.locations, ∀ a ∈ m.averageRating, AverageObtained h m.googleLocationId a
  count : ∀ m ∈ db.locations, ∀ n ∈ m.reviewCount, CountObtained h m.googleLocationId n
  synced : ∀ m ∈ db.locations, ∀ now ∈ m.lastSyncedAt, SyncObtained h m.googleLocationId now

structure Sync.Carries (sync : Sync) : Prop where
  average : ∀ a ∈ sync.average, AverageObtained h sync.googleLocationId a
  count : ∀ n ∈ sync.count, CountObtained h sync.googleLocationId n

def Task.Backed (i : ℕ) : Task → Prop
  | .syncPage sync => sync.Carries h
  | .syncUpsert sync page =>
    sync.Carries h ∧ ∃ t ∈ h, t.Calls i sync.googleLocationId sync.pageToken page
  | .syncFinish sync => sync.Carries h ∧
    ∃ t ∈ h, ∃ pageToken page, t.Calls i sync.googleLocationId pageToken page
  | _ => True

end Evidence

inductive Remapped (db : Database) (m : GoogleLocation) :
    Table GoogleReview GoogleReview.Clash → Prop where
  | new (hid : m.id = db.nextId) (average : m.averageRating = none) (count : m.reviewCount = none)
      (synced : m.lastSyncedAt = none) : Remapped db m db.reviews
  | kept (old : GoogleLocation) (hold : old ∈ db.locations) (hid : m.id = old.id)
      (same : m.googleLocationId = old.googleLocationId)
        (average : m.averageRating = old.averageRating)
      (count : m.reviewCount = old.reviewCount) (synced : m.lastSyncedAt = old.lastSyncedAt) :
      Remapped db m db.reviews
  | moved (old : GoogleLocation) (hold : old ∈ db.locations) (hid : m.id = old.id)
      (average : m.averageRating = none) (count : m.reviewCount = none)
        (synced : m.lastSyncedAt = none) :
      Remapped db m (db.reviews.delete (·.googleLocation == m.id))

inductive Task.Effect (env : Env) (db : Database) : Task → Database → Prop where
  | same {task : Task} : Effect env db task db
  | mapped {location connectionId : Uuid} {found : ProviderLocation}
    {reviewLink : String} {db' : Database}
      (m : GoogleLocation)
        (hrows : ∀ x, x ∈ db'.locations ↔ (x ∈ db.locations ∧ x.id ≠ m.id) ∨ x = m)
      (hreviews : Remapped db m db'.reviews) (hnext : db.nextId ≤ db'.nextId)
        (hid : m.id < db'.nextId) :
      Effect env db (.mapWrite location connectionId found reviewLink) db'
  | upserted {sync : Sync} {page : ReviewPage} (m : GoogleLocation) (hm : m ∈ db.locations)
      (hid : m.id = sync.location) (hsame : m.googleLocationId = sync.googleLocationId) :
      Effect env db (.syncUpsert sync page) { db with
        reviews := (reviewRows sync.location env.now page.reviews).foldl Table.upsert db.reviews }
  | counted {sync : Sync} : Effect env db (.syncFinish sync) { db with
      locations := db.locations.update (counted sync env.now) (counted_clash sync env.now) }

inductive Task.Next (env : Env) : Task → Task → Prop where
  | list {location connectionId : Uuid} {googleLocationId token : String} :
      Next env (.mapRead location connectionId googleLocationId)
        (.mapList location connectionId googleLocationId token)
  | write {location connectionId : Uuid} {googleLocationId token : String}
    {found : ProviderLocation}
      {reviewLink : String} : Next env (.mapList location connectionId googleLocationId token)
        (.mapWrite location connectionId found reviewLink)
  | token {location : Uuid} {googleLocationId : String} :
      Next env (.syncRead location) (.syncToken location googleLocationId)
  | begins {location : Uuid} {googleLocationId token : String} : Next env
    (.syncToken location googleLocationId)
      (.syncPage ⟨location, googleLocationId, token, none, [], none, none⟩)
  | answered {sync : Sync} {page : ReviewPage}
      (h : env.listReviews sync.token sync.googleLocationId sync.pageToken = .ok page) :
      Next env (.syncPage sync) (.syncUpsert sync page)
  | more {sync : Sync} {page : ReviewPage} {token : String} : Next env (.syncUpsert sync page)
      (.syncPage { sync.firstPage page with
        pageToken := some token, seen := (sync.firstPage page).seen ++ [token] })
  | finish {sync : Sync} {page : ReviewPage} : Next env (.syncUpsert sync page)
    (.syncFinish (sync.firstPage page))

section Specs

variable {env : Env} {db : Database} {location connectionId : Uuid}
    {googleLocationId token : String}
  {found : ProviderLocation} {reviewLink : String} {sync : Sync} {page : ReviewPage}

theorem mapRead_spec : wp env (mapRead location connectionId googleLocationId)
    (fun next t => t.data = db ∧
      ∀ n ∈ next, (Task.mapRead location connectionId googleLocationId).Next env n)
    (fun _ t => t.data = db) ⟨db, ()⟩ := by
  simp only [mapRead, wp_bind, wp_ask, wp_whenever, wp_raise]
  refine ⟨fun _ => trivial, fun _ => ?_⟩
  split
  · rfl
  simp only [wp_bind, wp_whenever, wp_raise, readTokenInBlock, wp_ask, wp_ite, wp_pure]
  refine ⟨fun _ => trivial,
    fun _ => ⟨fun _ => trivial, fun _ => ⟨fun _ => trivial, fun _ => ⟨trivial, fun n hn => ?_⟩⟩⟩⟩
  cases hn
  exact .list

theorem mapList_spec : wp env (mapList location connectionId googleLocationId token)
    (fun next t => t.data = db ∧
      ∀ n ∈ next, (Task.mapList location connectionId googleLocationId token).Next env n)
    (fun _ t => t.data = db) ⟨db, ()⟩ := by
  simp only [mapList, wp_bind, wp_ask]
  split
  · rfl
  split
  · rfl
  simp only [wp_bind, wp_whenever, wp_raise]
  refine ⟨fun _ => trivial, fun _ => ?_⟩
  split
  · rfl
  · refine ⟨rfl, fun n hn => ?_⟩
    cases hn
    exact .write

theorem saveMapping_spec {m : GoogleLocation} {d : Database} : wp env (saveMapping m)
    (fun _ t => t.data.reviews = d.reviews ∧ d.nextId ≤ t.data.nextId ∧ m.id < t.data.nextId ∧
      ∀ x, x ∈ t.data.locations ↔ (x ∈ d.locations ∧ x.id ≠ m.id) ∨ x = m)
    (fun _ _ => True) ⟨d, ()⟩ := by
  simp only [saveMapping, wp_query]
  refine ⟨fun _ => ?_, fun _ _ => trivial⟩
  split
  case h_2 => intro h; cases h
  case h_1 locations hinsert =>
    refine fun _ =>
      ⟨rfl, le_max_left _ _, (Nat.lt_succ_self _).trans_le (le_max_right _ _), fun x => ?_⟩
    rw [Table.mem_insert? hinsert, Table.mem_delete, beq_eq_false_iff_ne]

theorem writeMapping_spec : wp env (writeMapping location connectionId found reviewLink)
    (fun _ t => (Task.mapWrite location connectionId found reviewLink).Effect env db t.data)
    (fun _ _ => True) ⟨db, ()⟩ := by
  simp only [writeMapping, wp_bind, wp_ask]
  split
  · trivial
  simp only [lockMapping, wp_bind, wp_ask, wp_get, wp_whenever, wp_raise]
  refine ⟨fun _ => trivial, fun _ => ⟨fun _ => trivial, fun _ => ?_⟩⟩
  split
  · simp only [wp_pure]
    refine wp_mono (saveMapping_spec (d := db)) ?_ (fun _ _ h => h)
    rintro - t ⟨hreviews, hnext, hid, hrows⟩
    exact .mapped _ hrows (hreviews ▸ .new rfl rfl rfl rfl) hnext hid
  case h_2 old hfind =>
    have hold : old ∈ db.locations := by
      split at hfind
      · cases hfind
      · exact (Table.mem_of_find? hfind).1
    split
    · simp only [wp_bind, wp_modify, wp_pure]
      refine wp_mono saveMapping_spec ?_ (fun _ _ h => h)
      rintro - t ⟨hreviews, hnext, hid, hrows⟩
      exact .mapped _ hrows (hreviews ▸ .moved old hold rfl rfl rfl rfl) hnext hid
    case isFalse hsame =>
      simp only [wp_pure]
      refine wp_mono (saveMapping_spec (d := db)) ?_ (fun _ _ h => h)
      rintro - t ⟨hreviews, hnext, hid, hrows⟩
      exact .mapped _ hrows
        (hreviews ▸ .kept old hold rfl (not_ne_iff.mp hsame).symm rfl rfl rfl) hnext hid

theorem mapWrite_spec : wp env (mapWrite location connectionId found reviewLink)
    (fun next t => (Task.mapWrite location connectionId found reviewLink).Effect env db t.data ∧
      next = none)
    (fun _ t => t.data = db) ⟨db, ()⟩ := by
  simp only [mapWrite, wp_bind, wp_handle]
  refine wp_mono (wp_of_savepoint (s := ⟨db, ()⟩) writeMapping_spec) ?_ ?_
  · exact fun _ _ h => ⟨h, rfl⟩
  · rintro e ⟨d, u⟩ rfl
    unfold alreadyMapped
    split
    · split <;> rfl
    · rfl

theorem upsertReviews_spec : wp env (upsertReviews sync.location page.reviews sync.googleLocationId)
    (fun _ t => (Task.syncUpsert sync page).Effect env db t.data)
    (fun _ t => t.data = db) ⟨db, ()⟩ := by
  simp only [upsertReviews, wp_bind, wp_ask, wp_ite]
  refine ⟨fun _ => .same, fun _ => wp_of_savepoint (s := ⟨db, ()⟩) ?_⟩
  simp only [wp_bind, wp_get, wp_ite]
  refine ⟨fun hany => ?_, fun _ => .same⟩
  obtain ⟨m, hm, hkey⟩ := List.any_eq_true.mp hany
  simp only [Bool.and_eq_true, beq_iff_eq] at hkey
  simp only [bulkCreate, wp_query]
  refine ⟨fun a => ?_, fun _ _ => trivial⟩
  split
  · exact fun _ => .upserted m hm hkey.1 hkey.2
  · intro h
    cases h

theorem syncUpsert_spec : wp env (syncUpsert sync page)
    (fun next t => (Task.syncUpsert sync page).Effect env db t.data ∧
      ∀ n ∈ next, (Task.syncUpsert sync page).Next env n)
    (fun _ t => t.data = db) ⟨db, ()⟩ := by
  simp only [syncUpsert, wp_bind]
  refine wp_mono upsertReviews_spec ?_ (fun _ _ h => h)
  intro same t heffect
  simp only [wp_ite, wp_pure]
  refine ⟨fun _ => ⟨heffect, forall_none⟩, fun _ => ?_⟩
  split
  · refine ⟨heffect, fun n hn => ?_⟩
    cases hn
    exact .finish
  · simp only [wp_ite, wp_pure]
    refine ⟨fun _ => ⟨heffect, forall_none⟩, fun _ => ⟨heffect, fun n hn => ?_⟩⟩
    cases hn
    exact .more

theorem taskProgram_spec (env : Env) (db : Database) (task : Task) : wp env (taskProgram task)
    (fun next t => task.Effect env db t.data ∧ ∀ n ∈ next, task.Next env n)
    (fun _ t => t.data = db) ⟨db, ()⟩ := by
  have same : ∀ {m : MappingM (Option Task)},
    wp env m (fun next t => t.data = db ∧ ∀ n ∈ next, task.Next env n)
      (fun _ t => t.data = db) ⟨db, ()⟩ → wp env m
        (fun next t => task.Effect env db t.data ∧ ∀ n ∈ next, task.Next env n)
            (fun _ t => t.data = db) ⟨db, ()⟩ :=
    fun h => wp_mono h (fun _ _ h => ⟨h.1 ▸ .same, h.2⟩) (fun _ _ h => h)
  cases task with
  | mapRead => exact same mapRead_spec
  | mapList => exact same mapList_spec
  | mapWrite => exact wp_mono mapWrite_spec (fun _ _ h => ⟨h.1, h.2 ▸ forall_none⟩) (fun _ _ h => h)
  | syncUpsert => exact syncUpsert_spec
  | syncRead location =>
    refine same ?_
    simp only [taskProgram, syncRead, wp_bind, wp_ask, wp_get]
    split
    · exact ⟨rfl, forall_none⟩
    split
    · refine ⟨rfl, fun n hn => ?_⟩
      cases hn
      exact .token
    · exact ⟨rfl, forall_none⟩
  | syncToken location googleLocationId =>
    refine same ⟨rfl, fun n hn => ?_⟩
    obtain ⟨token, -, rfl⟩ := Option.map_eq_some_iff.mp hn
    exact .begins
  | syncPage sync =>
    refine same ?_
    simp only [taskProgram, syncPage, wp_bind, wp_ask]
    split
    case h_1 page hpage =>
      refine ⟨rfl, fun n hn => ?_⟩
      cases hn
      exact .answered hpage
    · exact ⟨rfl, forall_none⟩
    · exact ⟨rfl, forall_none⟩
    · rfl
  | syncFinish sync => exact ⟨.counted, forall_none⟩

end Specs

section Invariant

variable {h : List MappingTransition} {t : MappingTransition} {env : Env}
    {db db' : Database} {s : System}
  {g : String}

theorem obtained_mono {P : MappingTransition → Prop} (hp : ∃ u ∈ h, P u) : ∃ u ∈ h ++ [t], P u :=
  hp.imp fun _ hu => ⟨List.mem_append_left _ hu.1, hu.2⟩

theorem SyncObtained.mono {now : Time} (ho : SyncObtained h g now) :
    SyncObtained (h ++ [t]) g now := by
  obtain ⟨i, hcall, hend⟩ := ho
  exact ⟨i, obtained_mono hcall, obtained_mono hend⟩

theorem Obtained.mono (ho : Obtained h db) : Obtained (h ++ [t]) db where
  reviews m hm row hrow hid := obtained_mono (ho.reviews m hm row hrow hid)
  average m hm a ha := obtained_mono (ho.average m hm a ha)
  count m hm n hn := obtained_mono (ho.count m hm n hn)
  synced m hm now hnow := (ho.synced m hm now hnow).mono

theorem Sync.Carries.mono {sync : Sync} (hc : sync.Carries h) : sync.Carries (h ++ [t]) where
  average a ha := obtained_mono (hc.average a ha)
  count n hn := obtained_mono (hc.count n hn)

theorem Task.Backed.mono {i : ℕ} {task : Task} (hb : task.Backed h i) :
    task.Backed (h ++ [t]) i := by
  cases task with
  | syncPage => exact Sync.Carries.mono hb
  | syncUpsert => exact ⟨hb.1.mono, obtained_mono hb.2⟩
  | syncFinish => exact ⟨hb.1.mono, obtained_mono hb.2⟩
  | _ => trivial

theorem Sync.firstPage_id (sync : Sync) (page : ReviewPage) :
    (sync.firstPage page).googleLocationId = sync.googleLocationId := by
  unfold firstPage
  split <;> rfl

theorem Sync.Carries.firstPage {i : ℕ} {sync : Sync} {page : ReviewPage} (hc : sync.Carries h)
    (hcall : ∃ t ∈ h, t.Calls i sync.googleLocationId sync.pageToken page) :
    (sync.firstPage page).Carries h := by
  unfold Sync.firstPage
  split
  case isTrue hnone =>
    obtain ⟨t, ht, hcall⟩ := hcall
    rw [hnone] at hcall
    exact ⟨fun a ha => ⟨t, ht, i, page, hcall, ha⟩, fun n hn => ⟨t, ht, i, page, hcall, hn⟩⟩
  case isFalse => exact hc

theorem Task.Next.backed {i : ℕ} {task next : Task} (hn : task.Next env next) (hb : task.Backed h i)
    (ht : t.Advances i env task) : next.Backed (h ++ [t]) i := by
  cases hn with
  | begins => exact ⟨forall_none, forall_none⟩
  | answered hpage =>
    exact ⟨Sync.Carries.mono hb, t, List.mem_append_right _ List.mem_cons_self, env, _,
      ht, rfl, rfl, hpage⟩
  | more =>
    have hc := (hb.1.firstPage hb.2).mono (t := t)
    exact ⟨hc.average, hc.count⟩
  | finish =>
    obtain ⟨u, hu, hcall⟩ := hb.2
    exact ⟨(hb.1.firstPage hb.2).mono, u, List.mem_append_left _ hu, _, _,
      (Sync.firstPage_id _ _).symm ▸ hcall⟩
  | _ => trivial

theorem mem_foldl_upsert {rows : List GoogleReview}
    {reviews : Table GoogleReview GoogleReview.Clash}
    {row : GoogleReview} (hrow : row ∈ rows.foldl Table.upsert reviews) :
    row ∈ reviews ∨ row ∈ rows := by
  induction rows generalizing reviews with
  | nil => exact .inl hrow
  | cons r rows ih =>
    rcases ih hrow with hr | hr
    · rcases Table.mem_upsert.mp hr with ⟨hr, -⟩ | rfl
      · exact .inl hr
      · exact .inr List.mem_cons_self
    · exact .inr (List.mem_cons_of_mem _ hr)

theorem mem_foldl_collapse {rows acc : List GoogleReview} {row : GoogleReview}
    (hrow : row ∈ rows.foldl
    (fun rows row => rows.filter (·.googleReviewId != row.googleReviewId) ++ [row]) acc) :
    row ∈ acc ∨ row ∈ rows := by
  induction rows generalizing acc with
  | nil => exact .inl hrow
  | cons r rows ih =>
    rcases ih hrow with hr | hr
    · rcases List.mem_append.mp hr with hr | hr
      · exact .inl (List.mem_filter.mp hr).1
      · exact .inr (List.mem_singleton.mp hr ▸ List.mem_cons_self)
    · exact .inr (List.mem_cons_of_mem _ hr)

theorem mem_reviewRows {location : Uuid} {now : Time} {reviews : List ProviderReview}
    {row : GoogleReview}
    (hrow : row ∈ reviewRows location now reviews) :
    row.googleLocation = location ∧
      ∃ review ∈ reviews, reviewRow row.googleLocation row.fetchedAt review = some row := by
  rcases mem_foldl_collapse hrow with hr | hr
  · cases hr
  · obtain ⟨review, hreview, hsome⟩ := List.mem_filterMap.mp hr
    have hkeys : row.googleLocation = location ∧ row.fetchedAt = now := by
      unfold reviewRow at hsome
      grind
    exact ⟨hkeys.1, review, hreview, by rw [hkeys.1, hkeys.2]; exact hsome⟩

/-- Keys of mappings, and of the mappings of reviews, are below the next one. -/
structure Database.Fresh (db : Database) : Prop where
  locations : ∀ m ∈ db.locations, m.id < db.nextId
  reviews : ∀ row ∈ db.reviews, row.googleLocation < db.nextId

theorem locations_eq {t : Table GoogleLocation GoogleLocation.Clash}
    {a b : GoogleLocation} (ha : a ∈ t)
    (hb : b ∈ t) (hid : a.id = b.id) : a = b := by
  refine Table.eq_of_clash (fun a b hab => ?_) ha hb (.inl hid)
  exact hab.imp Eq.symm (Or.imp Eq.symm fun h => ⟨h.1.symm, h.2.symm⟩)

theorem Remapped.subset {m : GoogleLocation} {reviews : Table GoogleReview GoogleReview.Clash}
    (hr : Remapped db m reviews) : ∀ row ∈ reviews, row ∈ db.reviews := by
  cases hr with
  | new => exact fun _ h => h
  | kept => exact fun _ h => h
  | moved => exact fun _ h => (Table.mem_delete.mp h).1

theorem Task.Effect.fresh {task : Task} (he : task.Effect env db db')
    (hf : db.Fresh) : db'.Fresh := by
  cases he with
  | same => exact hf
  | mapped m hrows hreviews hnext hid =>
    refine ⟨fun x hx => ?_,
      fun row hrow => (hf.reviews row (hreviews.subset row hrow)).trans_le hnext⟩
    rcases (hrows x).mp hx with ⟨hx, -⟩ | rfl
    · exact (hf.locations x hx).trans_le hnext
    · exact hid
  | upserted m hm hid =>
    refine ⟨hf.locations, fun row hrow => ?_⟩
    rcases mem_foldl_upsert hrow with hr | hr
    · exact hf.reviews row hr
    · rw [(mem_reviewRows hr).1, ← hid]
      exact hf.locations m hm
  | counted =>
    refine ⟨fun x hx => ?_, hf.reviews⟩
    obtain ⟨y, hy, rfl⟩ := (Table.mem_update (h := counted_clash _ _)).mp hx
    exact (counted_keys _ _ y).1 ▸ hf.locations y hy

/-- A first map and a remap start with nothing, and any other save keeps what there is. -/
theorem Remapped.obtained {m : GoogleLocation} {reviews : Table GoogleReview GoogleReview.Clash}
    (hr : Remapped db m reviews) (hf : db.Fresh) (ho : Obtained h db) :
    (∀ row ∈ reviews, row.googleLocation = m.id → ReviewObtained h m.googleLocationId row) ∧
      (∀ a ∈ m.averageRating, AverageObtained h m.googleLocationId a) ∧
      (∀ n ∈ m.reviewCount, CountObtained h m.googleLocationId n) ∧
      ∀ now ∈ m.lastSyncedAt, SyncObtained h m.googleLocationId now := by
  cases hr with
  | new hnew average count synced =>
    refine ⟨fun row hrow hid => absurd (hid.trans hnew) (hf.reviews row hrow).ne, ?_, ?_, ?_⟩ <;>
      simp [average, count, synced]
  | kept y hy hid same average count synced =>
    rw [same, average, count, synced]
    exact ⟨fun row hrow hrid => ho.reviews y hy row hrow (hrid.trans hid),
      ho.average y hy, ho.count y hy,
      ho.synced y hy⟩
  | moved y hy hid average count synced =>
    refine ⟨fun row hrow hrid => absurd hrid (by simpa using (Table.mem_delete.mp hrow).2), ?_, ?_,
      ?_⟩ <;>
      simp [average, count, synced]

theorem Task.Effect.obtained {i : ℕ} {task : Task} (he : task.Effect env db db') (hf : db.Fresh)
    (ho : Obtained h db) (hb : task.Backed h i) (ht : t.Advances i env task) :
    Obtained (h ++ [t]) db' := by
  have hm := ho.mono (t := t)
  cases he with
  | same => exact hm
  | mapped m hrows hreviews =>
    obtain ⟨reviews, average, count, synced⟩ := hreviews.obtained hf hm
    have old : ∀ x ∈ db'.locations, x ∈ db.locations ∨ x = m := fun x hx =>
      ((hrows x).mp hx).imp_left And.left
    refine ⟨fun x hx row hrow hid => ?_, fun x hx a ha => ?_, fun x hx n hn => ?_,
      fun x hx now hnow => ?_⟩ <;>
      rcases old x hx with hx | rfl
    · exact hm.reviews x hx row (hreviews.subset row hrow) hid
    · exact reviews row hrow hid
    · exact hm.average x hx a ha
    · exact average a ha
    · exact hm.count x hx n hn
    · exact count n hn
    · exact hm.synced x hx now hnow
    · exact synced now hnow
  | upserted m hmem hid hsame =>
    refine ⟨fun x hx row hrow hxid => ?_, hm.average, hm.count, hm.synced⟩
    rcases mem_foldl_upsert hrow with hr | hr
    · exact hm.reviews x hx row hr hxid
    · obtain ⟨hloc, hreview⟩ := mem_reviewRows hr
      obtain ⟨u, hu, hcall⟩ := hb.2
      cases locations_eq hx hmem (hxid.symm.trans (hloc.trans hid.symm))
      exact ⟨u, List.mem_append_left _ hu, i, _, _, hsame ▸ hcall, hreview⟩
  | @counted sync =>
    have hrow : ∀ x ∈ db.locations.update (Mapping.counted sync env.now)
      (counted_clash sync env.now), x ∈ db.locations ∨
        (x.googleLocationId = sync.googleLocationId ∧ x.averageRating = sync.average ∧
          x.reviewCount = sync.count ∧ x.lastSyncedAt = some env.now) := by
      intro x hx
      obtain ⟨y, hy, rfl⟩ := (Table.mem_update (h := counted_clash _ _)).mp hx
      unfold Mapping.counted
      split
      case isTrue hsame => exact .inr ⟨hsame.2, rfl, rfl, rfl⟩
      case isFalse => exact .inl hy
    have hcarries := hb.1.mono (t := t)
    refine ⟨fun x hx row hr hid => ?_, fun x hx a ha => ?_, fun x hx n hn => ?_,
      fun x hx now hnow => ?_⟩
    · obtain ⟨y, hy, rfl⟩ := (Table.mem_update (h := counted_clash _ _)).mp hx
      obtain ⟨hkey, -, -, hsame⟩ := counted_keys sync env.now y
      exact hsame ▸ hm.reviews y hy row hr (hid.trans hkey)
    · rcases hrow x hx with hx | ⟨hsame, average, -, -⟩
      · exact hm.average x hx a ha
      · exact hsame ▸ hcarries.average a (average ▸ ha)
    · rcases hrow x hx with hx | ⟨hsame, -, count, -⟩
      · exact hm.count x hx n hn
      · exact hsame ▸ hcarries.count n (count ▸ hn)
    · rcases hrow x hx with hx | ⟨hsame, -, -, synced⟩
      · exact hm.synced x hx now hnow
      · rw [synced] at hnow
        cases hnow
        exact ⟨i, hsame ▸ obtained_mono hb.2, t,
          List.mem_append_right _ List.mem_cons_self, env, sync, ht,
          hsame.symm, rfl⟩

structure Backed (h : List MappingTransition) (s : System) : Prop where
  fresh : s.db.Fresh
  obtained : Obtained h s.db
  threads : ∀ (i : ℕ) (task : Task), s.threads[i]? = some (some task) → task.Backed h i

theorem Backed.step (hb : Backed h s) (choice : Choice) :
    Backed (h ++ [transition System.step s choice]) (s.step choice) := by
  have spawned : ∀ {task : Task}, (∀ h i, task.Backed h i) → ∀ (i : ℕ) (u : Task),
      (s.threads ++ [some task])[i]? = some (some u) →
        u.Backed (h ++ [transition System.step s choice]) i := by
    intro task htask i u hu
    rcases RowLocks.getElem?_append_singleton hu with hu | hu
    · exact (hb.threads i u hu).mono
    · cases hu
      exact htask _ _
  cases choice with
  | map => exact ⟨hb.fresh, hb.obtained.mono, spawned fun _ _ => trivial⟩
  | sync => exact ⟨hb.fresh, hb.obtained.mono, spawned fun _ _ => trivial⟩
  | crash j =>
    refine ⟨hb.fresh, hb.obtained.mono, fun i u hu => ?_⟩
    rcases RowLocks.getElem?_set_cases hu with ⟨-, hn⟩ | ⟨-, hu⟩
    · cases hn
    · exact (hb.threads i u hu).mono
  | advance j env =>
    generalize ht : transition System.step s (.advance j env) = t
    have hlabel : t.label = .advance j env ∧ t.before = s := by
      rw [← ht]
      exact ⟨rfl, rfl⟩
    simp only [System.step]
    split
    case h_2 => exact ⟨hb.fresh, hb.obtained.mono, fun i u hu => (hb.threads i u hu).mono⟩
    case h_1 task htask =>
      have hadv : MappingTransition.Advances t j env task := ⟨hlabel.1, hlabel.2 ▸ htask⟩
      have hspec := taskProgram_spec env s.db task
      rw [wp_iff_run] at hspec
      have others : ∀ next : Option Task, (∀ n ∈ next, n.Backed (h ++ [t]) j) →
        ∀ (i : ℕ) (u : Task),
          (s.threads.set j next)[i]? = some (some u) → u.Backed (h ++ [t]) i := by
        intro next hnext i u hu
        rcases RowLocks.getElem?_set_cases hu with ⟨rfl, hn⟩ | ⟨-, hu⟩
        · exact hnext u hn.symm
        · exact (hb.threads i u hu).mono
      rcases hrun : (taskProgram task).run env ⟨s.db, ()⟩ with ⟨e | next, t'⟩
      · have hdb := hspec.2 e t' hrun
        refine ⟨hdb ▸ hb.fresh, hdb ▸ hb.obtained.mono, others none forall_none⟩
      · obtain ⟨heffect, hnext⟩ := hspec.1 next t' hrun
        exact ⟨heffect.fresh hb.fresh,
          heffect.obtained hb.fresh hb.obtained (hb.threads j task htask) hadv,
          others next fun n hn => (hnext n hn).backed (hb.threads j task htask) hadv⟩

end Invariant

/-- At every commit, each review under a mapping and each of its counters is from a call for
the Google location that the mapping has at that commit. -/
theorem reviews_of_mapped_location (choices : List Choice) :
    Meets (fun h t => Obtained (h ++ [t]) t.after.db) (mappingRun choices) := by
  refine MeetsFrom.of_invariant (P := Backed) (C := fun _ _ => True) ?_ ?_
    (MeetsFrom.of_forall (fun _ _ => trivial) _)
  · refine ⟨⟨fun _ hm => (nomatch hm), fun _ hr => (nomatch hr)⟩,
      ⟨fun _ hm => (nomatch hm), fun _ hm => (nomatch hm),
      fun _ hm => (nomatch hm), fun _ hm => (nomatch hm)⟩, fun i task ht => ?_⟩
    simp [System.start] at ht
  · intro h s choice hb _
    have hstep := hb.step choice
    exact ⟨hstep, hstep.obtained⟩

def answering (now : Time) : Env where
  now := now
  refreshMargin := 10
  accessible := fun _ => true
  connection := fun _ => some ⟨.active, 1000, "token", true⟩
  accessToken := some "token"
  listLocations :=
    fun _ => .ok [⟨"a/1", "Shop", some "p1", some "https://g/1"⟩,
      ⟨"a/2", "Shop", some "p2", some "https://g/2"⟩]
  plainHttps := fun _ => true
  listReviews := fun _ g _ => .ok ⟨[⟨g, none, some 5, none, some 3⟩], none, some 1, none⟩
  raced := false

/-- A first map and its sync, and a remap while a second sync has its page. -/
def remapped : List Choice := List.flatten
  [[.map 7 0 "a/1"], List.replicate 3 (.advance 0 (answering 1)),
    [.sync 0], List.replicate 5 (.advance 1 (answering 2)),
    [.sync 0], List.replicate 3 (.advance 2 (answering 3)),
    [.map 7 0 "a/2"], List.replicate 3 (.advance 3 (answering 4)), [.advance 2 (answering 5)]]

example : (run System.step .start (remapped.take 10)).db.reviews.rows.map (·.googleReviewId) =
    ["a/1"] := by
  decide +kernel

example : (run System.step .start remapped).db.reviews.rows = [] := by
  decide +kernel

end ReviewFlow.GoogleReviews.Mapping
