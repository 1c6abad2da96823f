import ReviewFlow.GoogleReviews.OAuth

/-!
# A refresh beside a reauthorization

Both writes of a refresh ask whether the row is still ACTIVE with the refresh token that
was read. An exchange that brings no refresh token keeps it, so that the answer is yes.
-/

namespace ReviewFlow.GoogleReviews

open Savepoint Tables Program Interleaving

def OAuthTransition.ReadsConnection (t : OAuthTransition) (i : ℕ) (k : Uuid) : Prop :=
  ∃ env, t.Advances i env (.readConnection k)

def OAuthTransition.WritesBack (t : OAuthTransition) (i : ℕ) (k : Uuid) : Prop :=
  ∃ env task seen, t.Advances i env task ∧ task.WritesBack k seen

def OAuthTransition.Reauthorizes (t : OAuthTransition) (k : Uuid) : Prop :=
  (∃ c ∈ t.before.db.connections, c.id = k) ∧
    ∃ a, t.Completes a ∧ ∀ y ∈ t.after.db.attempts, y.id = a → y.googleConnectionId = some k

def OAuthTransition.Replaces (t : OAuthTransition) (k : Uuid) : Prop :=
  ∃ c ∈ t.before.db.connections, ∃ d ∈ t.after.db.connections, c.id = k ∧ d.id = k ∧
    (d.refreshTokenEnc ≠ c.refreshTokenEnc ∨ c.status = .active ∧ d.status ≠ .active)

/-- A refresh leaves the row of an exchange that committed since its read. -/
def OAuthTransition.SparesReauthorized (h : List OAuthTransition) (t : OAuthTransition) : Prop :=
  ∀ i k rest, t.WritesBack i k → Since (·.ReadsConnection i k) h rest →
    (∃ u ∈ rest, u.Reauthorizes k) →
    t.after.db.connections.byId k = t.before.db.connections.byId k

/-- Since the read an exchange committed, and nothing replaced the refresh token. -/
def OAuthTransition.MeetsKeptToken (h : List OAuthTransition) (t : OAuthTransition) : Prop :=
  ∃ i k rest, t.WritesBack i k ∧ Since (·.ReadsConnection i k) h rest ∧
    (∃ u ∈ rest, u.Reauthorizes k) ∧
    ∀ u ∈ rest, ¬ u.Replaces k

section Rows

variable {env : Env} {db db' : Database} {s s' : System} {choice : Choice} {k : Uuid}
    {seen : Ciphertext}
  {c d : GoogleConnection}

inductive Renewed (lo hi : ℕ) (c d : GoogleConnection) : Prop where
  | same (h : d = c)
  | exchanged (active : d.status = .active) (h : d.refreshTokenEnc.Drawn lo hi ∨
      d.refreshTokenEnc = c.refreshTokenEnc ∧ c.status = .active)
  | written (h : TokenWrite lo hi c d)

theorem TokenWrite.ne {lo hi : ℕ} (h : TokenWrite lo hi c d) (hactive : c.status = .active)
    (hlo : c.accessTokenEnc.nonce < lo) : d ≠ c := by
  cases h with
  | marked =>
    intro heq
    rw [← heq] at hactive
    cases hactive
  | stored _ _ drawn =>
    intro heq
    rw [← heq] at hlo
    exact absurd drawn.1 hlo.not_ge
  | rotated _ _ _ drawn =>
    intro heq
    rw [← heq] at hlo
    exact absurd drawn.1 hlo.not_ge

theorem Refreshed.renewed (h : Refreshed k seen db db') (hc : c ∈ db.connections) :
    ∃ d ∈ db'.connections, d.id = c.id ∧ Renewed db.drawn db'.drawn c d := by
  obtain ⟨d, hd, hcd⟩ := h.kept c hc
  refine ⟨d, hd, ?_⟩
  split at hcd
  · exact ⟨by cases hcd <;> rfl, .written hcd⟩
  · exact ⟨hcd ▸ rfl, .same hcd⟩

theorem Refreshed.origin (h : Refreshed k seen db db') (hd : d ∈ db'.connections) :
    ∃ c ∈ db.connections, c.id = d.id := by
  obtain ⟨c, hc, hcd⟩ := h.connections d hd
  refine ⟨c, hc, ?_⟩
  split at hcd
  · cases hcd <;> rfl
  · exact hcd ▸ rfl

theorem Task.Effect.renewed {task : Task} (h : task.Effect env db db') (hc : c ∈ db.connections) :
    ∃ d ∈ db'.connections, d.id = c.id ∧ Renewed db.drawn db'.drawn c d := by
  cases h with
  | quiet _ h => exact ⟨c, h.connections ▸ hc, rfl, .same rfl⟩
  | marked h => exact h.renewed hc
  | persisted h => exact h.renewed hc
  | finished e h =>
    have hu := h.upserted
    by_cases hid : c.id = e.id
    · refine ⟨e, hu.mem, hid.symm, .exchanged hu.active ?_⟩
      cases hu.origin with
      | created _ _ drawn => exact .inl drawn
      | renewed e' _ _ _ drawn => exact .inl drawn
      | kept e' he' id _ same active =>
        rw [connections_eq hc he' (hid.trans id.symm)]
        exact .inr ⟨same, active⟩
    · exact ⟨c, (hu.others c hid).mpr hc, rfl, .same rfl⟩

theorem Task.Effect.origin {task : Task} (h : task.Effect env db db') (hd : d ∈ db'.connections) :
    (∃ c ∈ db.connections, c.id = d.id) ∨ d.refreshTokenEnc.Drawn db.drawn db'.drawn := by
  cases h with
  | quiet _ h => exact .inl ⟨d, h.connections ▸ hd, rfl⟩
  | marked h => exact .inl (h.origin hd)
  | persisted h => exact .inl (h.origin hd)
  | finished e h =>
    have hu := h.upserted
    by_cases hid : d.id = e.id
    · rw [connections_eq hd hu.mem hid]
      cases hu.origin with
      | created _ _ drawn => exact .inr drawn
      | renewed e' _ _ _ drawn => exact .inr drawn
      | kept e' he' id => exact .inl ⟨e', he', id⟩
    · exact .inl ⟨d, (hu.others d hid).mp hd, rfl⟩

/-- The refresh token that was read is still the one of the ACTIVE row. -/
def Database.Current (db : Database) (k : Uuid) (seen : Ciphertext) : Prop :=
  ∃ c ∈ db.connections, unrenewed k seen c = true

theorem unrenewed_iff :
    unrenewed k seen c = true ↔ c.id = k ∧ c.status = .active ∧ c.refreshTokenEnc = seen := by
  simp [unrenewed, and_assoc]

theorem Renewed.unrenewed {lo hi : ℕ} (h : Renewed lo hi c d) (hid : d.id = c.id)
    (hseen : seen.nonce < lo)
    (hd : unrenewed k seen d = true) : unrenewed k seen c = true := by
  obtain ⟨hdk, hactive, htoken⟩ := unrenewed_iff.mp hd
  have stale : ¬ d.refreshTokenEnc.Drawn lo hi := fun hdrawn => by
    have := hdrawn.1
    rw [htoken] at this
    omega
  refine unrenewed_iff.mpr ⟨hid.symm.trans hdk, ?_⟩
  cases h with
  | same h => exact h ▸ ⟨hactive, htoken⟩
  | exchanged _ h =>
    rcases h with h | ⟨hsame, hc⟩
    · exact absurd h stale
    · exact ⟨hc, hsame ▸ htoken⟩
  | written h =>
    cases h with
    | marked => simp at hactive
    | stored => exact ⟨hactive, htoken⟩
    | rotated _ _ _ _ drawn => exact absurd drawn stale

theorem System.Steps.effect (h : s.Steps choice s') :
    s'.db = s.db ∨ ∃ (env : Env) (task : Task), task.Effect env s.db s'.db := by
  cases h with
  | idle => exact .inl rfl
  | request _ _ h => exact .inr ⟨_, .takeCode 0, .quiet (fun _ _ h => by cases h) h⟩
  | spawned => exact .inl rfl
  | crashed => exact .inl rfl
  | advanced _ _ h => exact .inr ⟨_, _, h⟩

/-- The token that was read stays the current one exactly as long as no step replaces it. -/
theorem System.Steps.current (h : s.Steps choice s') (hseen : seen.nonce < s.db.drawn) :
    s'.db.Current k seen ↔ s.db.Current k seen ∧ ¬ OAuthTransition.Replaces ⟨s, choice, s'⟩ k := by
  rcases h.effect with heq | ⟨env, task, he⟩
  · rw [heq]
    refine ⟨fun hcur => ⟨hcur, ?_⟩, And.left⟩
    rintro ⟨c, hc, d, hd, rfl, hid, hrep⟩
    dsimp only at hc hd
    cases connections_eq (heq ▸ hd) hc hid
    rcases hrep with hne | ⟨hactive, hne⟩
    · exact hne rfl
    · exact hne hactive
  constructor
  · rintro ⟨d, hd, hcur⟩
    have hdrawn : ¬ d.refreshTokenEnc.Drawn s.db.drawn s'.db.drawn := fun hdrawn => by
      have := hdrawn.1
      rw [(unrenewed_iff.mp hcur).2.2] at this
      omega
    obtain ⟨c, hc, hid⟩ := (he.origin hd).resolve_right hdrawn
    obtain ⟨d', hd', hid', hren⟩ := he.renewed hc
    cases connections_eq hd' hd (hid'.trans hid)
    have hcur' := hren.unrenewed hid' hseen hcur
    refine ⟨⟨c, hc, hcur'⟩, ?_⟩
    obtain ⟨hk, hactive, htoken⟩ := unrenewed_iff.mp hcur
    obtain ⟨hk', hactive', htoken'⟩ := unrenewed_iff.mp hcur'
    rintro ⟨c₁, hc₁, d₁, hd₁, hidc, hidd, hrep⟩
    dsimp only at hc₁ hd₁
    cases connections_eq hc₁ hc (hidc.trans hk'.symm)
    cases connections_eq hd₁ hd (hidd.trans hk.symm)
    rcases hrep with hne | ⟨-, hne⟩
    · exact hne (htoken.trans htoken'.symm)
    · exact hne hactive
  · rintro ⟨⟨c, hc, hcur⟩, hno⟩
    obtain ⟨hk, hactive, htoken⟩ := unrenewed_iff.mp hcur
    obtain ⟨d, hd, hid, -⟩ := he.renewed hc
    have hkeep : d.refreshTokenEnc = c.refreshTokenEnc ∧ d.status = .active := by
      constructor <;> by_contra hne
      · exact hno ⟨c, hc, d, hd, hk, hid.trans hk, .inl hne⟩
      · exact hno ⟨c, hc, d, hd, hk, hid.trans hk, .inr ⟨hactive, hne⟩⟩
    exact ⟨d, hd, unrenewed_iff.mpr ⟨hid.trans hk, hkeep.2, hkeep.1.trans htoken⟩⟩

end Rows

section Flight

variable {s s' : System} {choice : Choice} {h : List OAuthTransition} {i k : ℕ} {seen : Ciphertext}

inductive Task.Refreshing (k : Uuid) (seen : Ciphertext) : Task → Prop where
  | refresh : Refreshing k seen (.refresh k seen)
  | writes {task : Task} (h : task.WritesBack k seen) : Refreshing k seen task

def System.Refreshing (s : System) (i : ℕ) (k : Uuid) (seen : Ciphertext) : Prop :=
  ∃ task, s.threads[i]? = some (some task) ∧ task.Refreshing k seen

/-- What a refresh has seen is current as long as nothing replaced it since the read. -/
def InFlight (h : List OAuthTransition) (s : System) : Prop :=
  ∀ i k seen, s.Refreshing i k seen →
    seen.nonce < s.db.drawn ∧ ∃ rest, Since (·.ReadsConnection i k) h rest ∧
    (s.db.Current k seen ↔ ∀ u ∈ rest, ¬ u.Replaces k)

theorem Task.Refreshing.not_read {task : Task} (h : task.Refreshing k seen) (c : Uuid) :
    task ≠ .readConnection c := by
  rintro rfl
  cases h with
  | writes h => cases h

theorem System.Steps.refreshing (hstep : s.Steps choice s') (hi : s'.Refreshing i k seen) :
    (s.Refreshing i k seen ∧ ¬ OAuthTransition.ReadsConnection ⟨s, choice, s'⟩ i k) ∨
      OAuthTransition.ReadsConnection ⟨s, choice, s'⟩ i k ∧ s'.db = s.db ∧ s.db.Current k seen := by
  obtain ⟨task, htask, hr⟩ := hi
  have unmoved : s.Unmoved choice → s.threads[i]? = some (some task) →
      s.Refreshing i k seen ∧ ¬ OAuthTransition.ReadsConnection ⟨s, choice, s'⟩ i k := by
    intro hu ht
    refine ⟨⟨task, ht, hr⟩, ?_⟩
    rintro ⟨env, hl, -⟩
    exact hu i env task hl ht
  cases hstep with
  | idle hu => exact .inl (unmoved hu htask)
  | request hu => exact .inl (unmoved hu htask)
  | spawned new hu hnew =>
    rcases RowLocks.getElem?_append_singleton htask with ht | ht
    · exact .inl (unmoved hu ht)
    · cases ht
      rcases hnew with ⟨a, rfl⟩ | ⟨c, rfl⟩
      · cases hr with | writes h => cases h
      · exact absurd rfl (hr.not_read c)
  | crashed j hu =>
    rcases RowLocks.getElem?_set_cases htask with ⟨-, ht⟩ | ⟨-, ht⟩
    · cases ht
    · exact .inl (unmoved hu ht)
  | @advanced j env old db' next hchoice hold heffect hnext =>
    rcases RowLocks.getElem?_set_cases htask with ⟨rfl, ht⟩ | ⟨hne, ht⟩
    · have hn := hnext _ ht.symm
      have noread : (∀ c, old ≠ .readConnection c) →
          ¬ OAuthTransition.ReadsConnection ⟨s, choice, ⟨db', s.threads.set i next⟩⟩ i k := by
        rintro hne ⟨env', -, hread⟩
        rw [hold] at hread
        cases hread
        exact hne _ rfl
      cases hr with
      | refresh =>
        cases hn with
        | refresh hc active same =>
          exact .inr ⟨⟨env, hchoice, hold⟩, same, _, hc, unrenewed_iff.mpr ⟨rfl, active, rfl⟩⟩
      | writes hw =>
        cases hw with
        | marks => cases hn with |
          mark => exact .inl ⟨⟨_, hold, .refresh⟩, noread fun _ h => nomatch h⟩
        | persists => cases hn with | persist =>
          exact .inl ⟨⟨_, hold, .refresh⟩, noread fun _ h => nomatch h⟩
    · refine .inl ⟨⟨task, ht, hr⟩, ?_⟩
      rintro ⟨env', hl, -⟩
      rw [hchoice] at hl
      cases hl
      exact hne rfl

theorem InFlight.step (hf : InFlight h s) (hs : s.Wf) (hstep : s.Steps choice s') :
    InFlight (h ++ [⟨s, choice, s'⟩]) s' := by
  intro i k seen hi
  rcases hstep.refreshing hi with ⟨hold, hnot⟩ | ⟨hread, hdb, hcur⟩
  · obtain ⟨hseen, rest, hsince, hiff⟩ := hf i k seen hold
    refine ⟨hseen.trans_le hstep.drawn, rest ++ [⟨s, choice, s'⟩], hsince.snoc hnot, ?_⟩
    rw [hstep.current hseen, hiff]
    constructor
    · rintro ⟨hall, ht⟩ u hu
      rcases List.mem_append.mp hu with hu | hu
      · exact hall u hu
      · exact List.mem_singleton.mp hu ▸ ht
    · intro hall
      exact ⟨fun u hu => hall u (List.mem_append_left _ hu),
        hall _ (List.mem_append_right _ List.mem_cons_self)⟩
  · refine ⟨?_, [], .of_last hread, ?_⟩
    · obtain ⟨c, hc, hun⟩ := hcur
      rw [hdb, ← (unrenewed_iff.mp hun).2.2]
      exact hs.fresh.refresh c hc
    · rw [hdb]
      exact iff_of_true hcur fun u hu => nomatch hu

theorem Refreshed.byId_iff {db db' : Database} (hr : Refreshed k seen db db') (hf : db.Fresh) :
    db'.connections.byId k = db.connections.byId k ↔ ¬ db.Current k seen := by
  constructor
  · rintro heq ⟨c, hc, hcur⟩
    obtain ⟨hk, hactive, -⟩ := unrenewed_iff.mp hcur
    obtain ⟨d, hd, hcd⟩ := hr.kept c hc
    rw [if_pos hcur] at hcd
    have hd' : db'.connections.byId k = some d :=
      Connections.byId_eq_some.mpr
        ⟨hd, (hcd.fresh hr.drawn (hf.access c hc) (hf.refresh c hc)).1.trans hk⟩
    rw [hd', Connections.byId_eq_some.mpr ⟨hc, hk⟩, Option.some.injEq] at heq
    exact hcd.ne hactive (hf.access c hc) heq
  · intro hno
    have hrow : ∀ c ∈ db.connections, ¬ unrenewed k seen c = true :=
      fun c hc hcur => hno ⟨c, hc, hcur⟩
    ext c
    simp only [Connections.byId_eq_some]
    refine and_congr_left fun _ => ⟨fun hc => ?_, fun hc => ?_⟩
    · obtain ⟨c', hc', hcc⟩ := hr.connections c hc
      rw [if_neg (hrow c' hc')] at hcc
      exact hcc ▸ hc'
    · obtain ⟨c', hc', hcc⟩ := hr.kept c hc
      rw [if_neg (hrow c hc)] at hcc
      exact hcc ▸ hc'

theorem System.Steps.writesBack (hstep : s.Steps choice s')
    (hw : OAuthTransition.WritesBack ⟨s, choice, s'⟩ i k) :
    ∃ seen, s.Refreshing i k seen ∧ Refreshed k seen s.db s'.db := by
  obtain ⟨env, task, seen, ⟨hl, ht⟩, hw⟩ := hw
  refine ⟨seen, ⟨task, ht, .writes hw⟩, ?_⟩
  cases hstep with
  | idle hu => exact absurd ht (hu i env task hl)
  | request hu => exact absurd ht (hu i env task hl)
  | spawned _ hu => exact absurd ht (hu i env task hl)
  | crashed _ hu => exact absurd ht (hu i env task hl)
  | advanced hchoice htask heffect =>
    dsimp only at hl ht
    rw [hchoice] at hl
    cases hl
    rw [htask] at ht
    cases ht
    cases heffect with
    | quiet hno => exact absurd hw (hno k seen)
    | finished => cases hw
    | marked h => cases hw; exact h
    | persisted h => cases hw; exact h

theorem InFlight.spares_iff (hf : InFlight h s) (hs : s.Wf) (hstep : s.Steps choice s') :
    OAuthTransition.SparesReauthorized h ⟨s, choice, s'⟩ ↔
      ¬ OAuthTransition.MeetsKeptToken h ⟨s, choice, s'⟩ := by
  constructor
  · rintro hspares ⟨i, k, rest, hw, hsince, hre, hno⟩
    obtain ⟨seen, hi, hr⟩ := hstep.writesBack hw
    obtain ⟨-, rest', hsince', hiff⟩ := hf i k seen hi
    cases hsince.unique hsince'
    exact (hr.byId_iff hs.fresh).mp (hspares i k rest hw hsince hre) (hiff.mpr hno)
  · intro hno i k rest hw hsince hre
    obtain ⟨seen, hi, hr⟩ := hstep.writesBack hw
    obtain ⟨-, rest', hsince', hiff⟩ := hf i k seen hi
    cases hsince.unique hsince'
    refine (hr.byId_iff hs.fresh).mpr fun hcur => ?_
    exact hno ⟨i, k, rest, hw, hsince, hre, hiff.mp hcur⟩

end Flight

/-- A refresh spares every reauthorization since its read, if and only if its write never
meets the token it has read behind one. -/
theorem refresh_spares_reauthorization (db : Database) (choices : List Choice) (hdb : db.Checked) :
    Meets OAuthTransition.SparesReauthorized (oauthRun db choices) ↔
      Meets (fun h t => ¬ OAuthTransition.MeetsKeptToken h t) (oauthRun db choices) := by
  have hiff : Meets
    (fun h t => OAuthTransition.SparesReauthorized h t ↔ ¬ OAuthTransition.MeetsKeptToken h t)
      (oauthRun db choices) := by
    refine MeetsFrom.of_invariant (P := fun h s => s.Wf ∧ InFlight h s) (C := fun _ _ => True)
      ⟨start_wf hdb, ?_⟩ ?_ (MeetsFrom.of_forall (fun _ _ => trivial) _)
    · rintro i k seen ⟨task, hi, -⟩
      simp at hi
    · intro h s choice ⟨hs, hf⟩ _
      have hstep : s.Steps choice (s.step choice) := System.step_steps hs.sound
      exact ⟨⟨hstep.wf hs, hf.step hs hstep⟩, hf.spares_iff hs hstep⟩
  constructor
  · exact fun hall => (hall.and hiff).mono fun _ _ ⟨hs, hi⟩ => hi.mp hs
  · exact fun hall => (hall.and hiff).mono fun _ _ ⟨hs, hi⟩ => hi.mpr hs

def reconnecting : Database where
  connections := ⟨[⟨0, "sub", "owner", ⟨0, "access"⟩, ⟨1, "refresh"⟩, 100, .active, some 1⟩],
    List.pairwise_singleton _ _⟩
  attempts := ⟨[⟨1, 5, "s'", "n'", .pending, some ⟨2, "code"⟩, none, none, 600, none⟩],
    List.pairwise_singleton _ _⟩
  audit := []
  nextId := 0
  drawn := 0

theorem reconnecting_checked : reconnecting.Checked := by
  intro a ha
  cases List.mem_singleton.mp ha
  exact ⟨.inr rfl, by decide, by decide⟩

/-- The refresh reads the connection, the exchange commits without a refresh token, and the
refresh stores the older answer. -/
def keptToken : List Choice :=
  [.exchange 1, .refresh 0, .advance 0 (granting 30 none), .advance 0 (granting 30 none),
    .advance 0 (granting 31 none), .advance 1 (granting 32 none), .advance 0 (granting 33 none),
    .advance 1 (granting 34 none), .advance 1 (granting 35 none)]

theorem refresh_spares_reauthorization_keptToken :
    Meets OAuthTransition.SparesReauthorized (oauthRun reconnecting keptToken) ↔
      Meets (fun h t => ¬ OAuthTransition.MeetsKeptToken h t) (oauthRun reconnecting keptToken) :=
  refresh_spares_reauthorization reconnecting keptToken reconnecting_checked

theorem refresh_overwrites_reauthorization : ¬ ∀ db choices, Database.Checked db →
    Meets OAuthTransition.SparesReauthorized (oauthRun db choices) := by
  intro h
  obtain ⟨-, -, -, -, -, -, -, -, hlast, -⟩ := h reconnecting keptToken reconnecting_checked
  let ts := oauthRun reconnecting keptToken
  have hreauth : (ts.get ⟨6, by decide⟩).Reauthorizes 0 := by
    refine ⟨⟨_, List.mem_singleton_self _, rfl⟩, 1,
      ⟨⟨_, List.mem_singleton_self _, rfl, rfl⟩, ?_⟩, ?_⟩
    · intro x hx _
      cases List.mem_singleton.mp hx
      decide
    · intro y hy _
      cases List.mem_singleton.mp hy
      rfl
  have hsame :=
    hlast 1 0 (ts.drop 6 |>.take 2) ⟨granting 35 none, _, ⟨1, "refresh"⟩, ⟨rfl, rfl⟩, .persists _⟩
    ⟨ts.take 5, ts.get ⟨5, by decide⟩, rfl, ⟨granting 32 none, rfl, rfl⟩, ?_⟩
    ⟨_, List.mem_cons_self, hreauth⟩
  · exact absurd hsame (by decide)
  · intro u hu
    rcases List.mem_cons.mp hu with rfl | hu
    · rintro ⟨env, hl, -⟩
      cases hl
    · cases List.mem_singleton.mp hu
      rintro ⟨env, -, ht⟩
      cases ht

end ReviewFlow.GoogleReviews
