import ReviewFlow.Accounts.Invitations

/-!
# A token is accepted once

The effect of one transaction is one on all merchants, because keys are never shared, and the
history of the invitations is an invariant of the platform.
-/

namespace ReviewFlow.Accounts

open Savepoint Tables Program Interleaving

/-- The counter is past every key in use, and no key is in two merchants. -/
structure Platform.Keyed (w : Platform) : Prop where
  users : ∀ u ∈ w.users, u.id < w.nextId
  members : ∀ r ∈ w.merchants, ∀ m ∈ r.members, m.id < w.nextId ∧ m.userId < w.nextId
  apart : ∀ (i j : ℕ) (r r' : MerchantRows), w.merchants[i]? = some r → w.merchants[j]? = some r' →
    ∀ m ∈ r.members, ∀ m' ∈ r'.members, m.id = m'.id → i = j

inductive PlatformRow (w : Platform) (event : TeamEvent) (m' : Member) : Prop
  | kept (r : MerchantRows) (merchant : r ∈ w.merchants) (m : Member) (mem : m ∈ r.members)
      (id : m'.id = m.id) (userId : m'.userId = m.userId) (invitedAt : m'.invitedAt = m.invitedAt)
      (acceptedAt : m'.acceptedAt = m.acceptedAt) (other : event.member ≠ some m'.id)
  | issued (token : Invite) (event : event = .issued token) (pending : m'.accepted = false)
      (signed : makeInviteToken m' = some token)
      (origin : (∃ r ∈ w.merchants, ∃ m ∈ r.members, m.id = m'.id ∧ m.accepted = false) ∨
        w.nextId ≤ m'.id)
  | accepted (token : Invite) (event : event = .accepted token) (member : m'.id = token.member)
      (accepted : m'.accepted = true)
  | founded (event : event = .quiet) (accepted : m'.accepted = true)

def Platform.Awaits (w : Platform) (token : Invite) : Prop :=
  ∃ r ∈ w.merchants, r.active = true ∧ ∃ m ∈ r.members, m.accepted = false ∧
    makeInviteToken m = some token

structure PlatformEffect (w : Platform) (event : TeamEvent) (w' : Platform) : Prop where
  rows : ∀ r' ∈ w'.merchants, ∀ m' ∈ r'.members, PlatformRow w event m'
  accepts : ∀ token, event = .accepted token → w.Awaits token
  passwords : KeepsPasswords w.users w'.users
  keyed : w'.Keyed
  later : w.nextId ≤ w'.nextId

section Steps

variable {w w' : Platform} {r r' : MerchantRows} {i j : ℕ}

theorem Platform.Keyed.view (hk : w.Keyed) (hr : r ∈ w.merchants) : (w.view r).Fresh where
  users := hk.users
  members m hm := (hk.members r hr m hm).1
  memberUsers m hm := (hk.members r hr m hm).2

theorem PlatformEffect.aside (hk : w.Keyed) (hu : w'.users = w.users) (hn : w'.nextId = w.nextId)
    (hm : ∀ (i : ℕ) (r' : MerchantRows), w'.merchants[i]? = some r' →
      ∃ r, w.merchants[i]? = some r ∧ r'.members = r.members) :
    PlatformEffect w .quiet w' where
  rows r' hr' m' hm' := by
    obtain ⟨i, hi⟩ := List.getElem?_of_mem hr'
    obtain ⟨r, hr, hmem⟩ := hm i r' hi
    exact .kept r (List.mem_of_getElem? hr) m' (hmem ▸ hm') rfl rfl rfl rfl nofun
  accepts := nofun
  passwords := hu ▸ .refl _
  keyed :=
    { users := fun u hmem => hn ▸ hk.users u (hu ▸ hmem)
      members := fun r' hr' m hmem => by
        obtain ⟨i, hi⟩ := List.getElem?_of_mem hr'
        obtain ⟨r, hr, hrm⟩ := hm i r' hi
        exact hn ▸ hk.members r (List.mem_of_getElem? hr) m (hrm ▸ hmem)
      apart := fun i j r r' hi hj m hmem m' hmem' hid => by
        obtain ⟨r₁, hr₁, hrm₁⟩ := hm i r hi
        obtain ⟨r₂, hr₂, hrm₂⟩ := hm j r' hj
        exact hk.apart i j r₁ r₂ hr₁ hr₂ m (hrm₁ ▸ hmem) m' (hrm₂ ▸ hmem') hid }
  later := hn.ge

theorem createUser_effect (hk : w.Keyed) (email : String) (password : Option String) :
    PlatformEffect w .quiet (w.createUser email password) := by
  unfold Platform.createUser
  split
  case h_1 users hins =>
    refine ⟨fun r hr m hm => .kept r hr m hm rfl rfl rfl rfl nofun, nofun,
      insert_keepsPasswords hins,
      ⟨fun u hu => ?_, fun r hr m hm => ?_, hk.apart⟩, Nat.le_succ _⟩
    · rcases (Table.mem_insert? hins).mp hu with hu | rfl
      · exact Nat.lt_succ_of_lt (hk.users u hu)
      · exact Nat.lt_succ_self _
    · have hlt := hk.members r hr m hm
      exact ⟨Nat.lt_succ_of_lt hlt.1, Nat.lt_succ_of_lt hlt.2⟩
  · exact .aside hk rfl rfl fun i r' h => ⟨r', h, rfl⟩

theorem createMerchantWithOwner_effect (hk : w.Keyed) (email password : String) (now : Time) :
    PlatformEffect w .quiet (w.createMerchantWithOwner email password now) := by
  unfold Platform.createMerchantWithOwner
  split
  case h_1 users hins =>
    -- the founder's membership is the only one of the new merchant, and its key is new
    have founder : ∀ {m : Member} {r : MerchantRows},
        r = ⟨true, ⟨[⟨w.nextId + 1, w.nextId, .owner, none, some now⟩],
          List.pairwise_singleton _ _⟩, [], [], []⟩ →
        m ∈ r.members → m = ⟨w.nextId + 1, w.nextId, .owner, none, some now⟩ := by
      intro m r hr hm
      subst hr
      exact List.mem_singleton.mp hm
    have at_ : ∀ {k : ℕ} {r r₀ : MerchantRows}, (w.merchants ++ [r₀])[k]? = some r →
        w.merchants[k]? = some r ∨ k = w.merchants.length ∧ r = r₀ := by
      intro k r r₀ h
      rw [List.getElem?_append] at h
      split at h
      · exact .inl h
      · rename_i hlt
        rw [List.getElem?_singleton] at h
        split at h
        · exact .inr ⟨by omega, (Option.some.inj h).symm⟩
        · cases h
    refine ⟨fun r hr m hm => ?_, nofun, insert_keepsPasswords hins,
      ⟨fun u hu => ?_, fun r hr m hm => ?_, fun i j r r' hi hj m hm m' hm' hid => ?_⟩,
        Nat.le_add_right _ _⟩
    · rcases List.mem_append.mp hr with hr | hr
      · exact .kept r hr m hm rfl rfl rfl rfl nofun
      · rw [founder (List.mem_singleton.mp hr) hm]
        exact .founded rfl rfl
    · rcases (Table.mem_insert? hins).mp hu with hu | rfl
      · exact Nat.lt_add_right 2 (hk.users u hu)
      · exact Nat.lt_add_of_pos_right Nat.two_pos
    · rcases List.mem_append.mp hr with hr | hr
      · have hlt := hk.members r hr m hm
        exact ⟨Nat.lt_add_right 2 hlt.1, Nat.lt_add_right 2 hlt.2⟩
      · rw [founder (List.mem_singleton.mp hr) hm]
        exact ⟨Nat.lt_succ_self _, Nat.lt_add_of_pos_right Nat.two_pos⟩
    · rcases at_ hi with hi | ⟨hi, hr⟩ <;> rcases at_ hj with hj | ⟨hj, hr'⟩
      · exact hk.apart i j r r' hi hj m hm m' hm' hid
      · have hlt := (hk.members r (List.mem_of_getElem? hi) m hm).1
        rw [hid, founder hr' hm'] at hlt
        exact absurd hlt (Nat.not_lt.mpr (Nat.le_succ _))
      · have hlt := (hk.members r' (List.mem_of_getElem? hj) m' hm').1
        rw [← hid, founder hr hm] at hlt
        exact absurd hlt (Nat.not_lt.mpr (Nat.le_succ _))
      · exact hi.trans hj.symm
  · exact .aside hk rfl rfl fun i r' h => ⟨r', h, rfl⟩

section Commit

variable {event : TeamEvent} {db' : Database} {k : ℕ}

theorem commit_merchants (h : (w.commit i k (event, db')).merchants[j]? = some r') :
    j = i ∧ r' = db'.rows ∨ j ≠ i ∧ w.merchants[j]? = some r' := by
  change (w.merchants.set i db'.rows)[j]? = some r' at h
  rw [List.getElem?_set] at h
  split at h
  · rename_i hij
    split at h
    · exact .inl ⟨hij.symm, (Option.some.inj h).symm⟩
    · cases h
  · rename_i hij
    exact .inr ⟨fun hji => hij hji.symm, h⟩

theorem Effect.elsewhere (hk : w.Keyed) (hr : w.merchants[i]? = some r)
    (heffect : Effect (w.view r) event db')
    (hj : w.merchants[j]? = some r') (hij : j ≠ i) {m' : Member} (hm' : m' ∈ r'.members) :
    event.member ≠ some m'.id := by
  intro hevent
  rcases heffect.named m'.id hevent with ⟨m, hm, hid⟩ | hlater
  · exact hij (hk.apart i j r r' hr hj m hm m' hm' hid).symm
  · exact absurd (hk.members r' (List.mem_of_getElem? hj) m' hm').1 (Nat.not_lt.mpr hlater)

theorem commit_keyed (hk : w.Keyed) (hr : w.merchants[i]? = some r)
    (heffect : Effect (w.view r) event db') :
    (w.commit i k (event, db')).Keyed where
  users := heffect.fresh.users
  members r' hr' m hm := by
    obtain ⟨j, hj⟩ := List.getElem?_of_mem hr'
    rcases commit_merchants hj with ⟨-, rfl⟩ | ⟨-, hj⟩
    · exact ⟨heffect.fresh.members m hm, heffect.fresh.memberUsers m hm⟩
    · have hlt := hk.members r' (List.mem_of_getElem? hj) m hm
      exact ⟨hlt.1.trans_le heffect.later, hlt.2.trans_le heffect.later⟩
  apart := by
    have mixed : ∀ {j r'}, w.merchants[j]? = some r' → j ≠ i → ∀ m ∈ db'.members, ∀ m' ∈ r'.members,
        m.id ≠ m'.id := by
      intro j r' hj hij m hm m' hm' hid
      rcases (heffect.rows m hm).origin with ⟨b, hb, hbid⟩ | hlater
      · exact hij (hk.apart i j r r' hr hj b hb m' hm' (hbid.trans hid)).symm
      · rw [hid] at hlater
        exact absurd (hk.members r' (List.mem_of_getElem? hj) m' hm').1 (Nat.not_lt.mpr hlater)
    intro j j' r₁ r₂ hj hj' m hm m' hm' hid
    rcases commit_merchants hj with ⟨hji, rfl⟩ | ⟨hji, hj⟩ <;>
      rcases commit_merchants hj' with ⟨hji', rfl⟩ | ⟨hji', hj'⟩
    · exact hji.trans hji'.symm
    · exact absurd hid (mixed hj' hji' m hm m' hm')
    · exact absurd hid.symm (mixed hj hji m' hm' m hm)
    · exact hk.apart j j' r₁ r₂ hj hj' m hm m' hm' hid

theorem commit_effect (hk : w.Keyed) (hr : w.merchants[i]? = some r)
    (heffect : Effect (w.view r) event db') :
    PlatformEffect w event (w.commit i k (event, db')) where
  rows r' hr' m' hm' := by
    have hmem := List.mem_of_getElem? hr
    obtain ⟨j, hj⟩ := List.getElem?_of_mem hr'
    rcases commit_merchants hj with ⟨-, rfl⟩ | ⟨hji, hj⟩
    · cases heffect.rows m' hm' with
      | kept m mem id userId invitedAt acceptedAt other =>
        exact .kept r hmem m mem id userId invitedAt acceptedAt other
      | issued token event pending signed origin =>
        exact .issued token event pending signed (origin.imp (fun ⟨m, h⟩ => ⟨r, hmem, m, h⟩) id)
      | accepted token event m mem id member accepted => exact .accepted token event member accepted
    · exact .kept r' (List.mem_of_getElem? hj) m' hm' rfl rfl rfl rfl
        (heffect.elsewhere hk hr hj hji hm')
  accepts token htoken := by
    obtain ⟨hactive, m, hm, hp, hsigned⟩ := heffect.accepts token htoken
    exact ⟨r, List.mem_of_getElem? hr, hactive, m, hm, hp, hsigned⟩
  passwords := heffect.passwords
  keyed := commit_keyed hk hr heffect
  later := heffect.later

end Commit

theorem act_platformEffect (hk : w.Keyed) (choice : PlatformChoice) :
    PlatformEffect w (w.act choice).1 (w.act choice).2 := by
  have same : ∀ {w' : Platform}, w'.users =
    w.users → w'.nextId = w.nextId → w'.merchants = w.merchants →
      PlatformEffect w .quiet w' := fun hu hn hm =>
    .aside hk hu hn fun i r' h => ⟨r', hm ▸ h, rfl⟩
  cases choice with
  | createMerchantWithOwner email password now =>
    exact createMerchantWithOwner_effect hk email password now
  | createUser email password => exact createUser_effect hk email password
  | check merchant userId request =>
    rw [Platform.act]
    split <;> exact same rfl rfl rfl
  | lookup token password =>
    rw [Platform.act]
    split <;> exact same rfl rfl rfl
  | perform i env =>
    rw [Platform.act]
    split
    · split
      case h_1 merchant p _ _ r hr =>
        exact commit_effect hk hr (perform_effect env (hk.view (List.mem_of_getElem? hr)) p)
      · exact same rfl rfl rfl
    · exact same rfl rfl rfl
  | elsewhere merchant active locations =>
    refine .aside hk rfl rfl fun i r' h => ?_
    change (w.merchants.modify merchant _)[i]? = some r' at h
    rw [List.getElem?_modify] at h
    obtain ⟨r, hr, hmod⟩ := Option.map_eq_some_iff.mp h
    refine ⟨r, hr, ?_⟩
    rw [← hmod]
    split <;> rfl

end Steps

/-- The last invitation to the membership of the token is the one that issued it. -/
def LastIssued (h : List PlatformTransition) (token : Invite) : Prop :=
  ∃ pre t post, h = pre ++ t :: post ∧ t.event = .issued token ∧
    ∀ u ∈ post, ∀ later, u.event = .issued later → later.member ≠ token.member

def PlatformTransition.SetsPassword (t : PlatformTransition) (k : Uuid) : Prop :=
  (∃ i env, t.label = .perform i env) ∧ passwordOf t.after.users k ≠ passwordOf t.before.users k

def InvitesSafely (h : List PlatformTransition) (u : PlatformTransition) : Prop :=
  (∀ token, u.event = .accepted token →
    (∀ t ∈ h, t.event ≠ .accepted token) ∧ LastIssued h token ∧ u.before.Awaits token) ∧
  (∀ k p, passwordOf u.before.users k = some p → passwordOf u.after.users k = some p) ∧
  ∀ k, u.SetsPassword k → ∀ t ∈ h, ¬ t.SetsPassword k

structure Invited (h : List PlatformTransition) (w : Platform) : Prop where
  keyed : w.Keyed
  accepted : ∀ t ∈ h, ∀ token, t.event = .accepted token →
    token.member < w.nextId ∧
    ∀ r ∈ w.merchants, ∀ m ∈ r.members, m.id = token.member → m.accepted = true
  latest : ∀ r ∈ w.merchants, ∀ m ∈ r.members, m.accepted = false →
    ∃ token, makeInviteToken m = some token ∧ LastIssued h token
  passwords : ∀ t ∈ h, ∀ k, t.SetsPassword k → ∃ p, passwordOf w.users k = some p

section History

variable {h : List PlatformTransition} {t : PlatformTransition} {w : Platform} {token : Invite}
  {choice : PlatformChoice}

theorem LastIssued.snoc (hl : LastIssued h token)
    (ht : ∀ later, t.event = .issued later → later.member ≠ token.member) :
    LastIssued (h ++ [t]) token := by
  obtain ⟨pre, u, post, rfl, hu, hpost⟩ := hl
  refine ⟨pre, u, post ++ [t], by simp, hu, fun v hv => ?_⟩
  rcases List.mem_append.mp hv with hv | hv
  · exact hpost v hv
  · rw [List.mem_singleton.mp hv]
    exact ht

theorem LastIssued.of_event (ht : t.event = .issued token) : LastIssued (h ++ [t]) token :=
  ⟨h, t, [], rfl, ht, fun _ hu => nomatch hu⟩

theorem transition_effect (hk : w.Keyed) (choice : PlatformChoice) :
    PlatformEffect w (PlatformTransition.event (transition Platform.step w choice))
    (w.step choice) :=
  act_platformEffect hk choice

theorem Invited.init : Invited [] Platform.empty where
  keyed :=
    { users := fun _ hu => nomatch hu
      members := fun _ hr => nomatch hr
      apart := fun _ _ _ _ hi => nomatch hi }
  accepted := fun _ ht => nomatch ht
  latest := fun _ hr => nomatch hr
  passwords := fun _ ht => nomatch ht

theorem Invited.step_accepted (hi : Invited h w) :
    ∀ t ∈ h ++ [transition Platform.step w choice], ∀ token, t.event = .accepted token →
      token.member < (w.step choice).nextId ∧
        ∀ r ∈ (w.step choice).merchants, ∀ m ∈ r.members, m.id = token.member →
          m.accepted = true := by
  have heffect := transition_effect hi.keyed choice
  intro t ht token htoken
  rcases List.mem_append.mp ht with ht | ht
  · obtain ⟨hlt, hall⟩ := hi.accepted t ht token htoken
    refine ⟨hlt.trans_le heffect.later, fun r' hr' m' hm' hid => ?_⟩
    cases heffect.rows r' hr' m' hm' with
    | kept r merchant m mem id userId invitedAt acceptedAt other =>
      rw [Member.accepted, acceptedAt]
      exact hall r merchant m mem (id.symm.trans hid)
    | issued k event pending signed origin =>
      rcases origin with ⟨r, hr, m, hm, hmid, hp⟩ | hlater
      · rw [hall r hr m hm (hmid.trans hid)] at hp
        cases hp
      · rw [hid] at hlater
        exact absurd hlt (Nat.not_lt.mpr hlater)
    | accepted k event member accepted => exact accepted
    | founded event accepted => exact accepted
  · have hn := List.mem_singleton.mp ht
    subst hn
    constructor
    · obtain ⟨r, hr, -, m, hm, -, hsigned⟩ := heffect.accepts token htoken
      obtain ⟨at', -, rfl⟩ := Option.map_eq_some_iff.mp hsigned
      exact (hi.keyed.members r hr m hm).1.trans_le heffect.later
    · intro r' hr' m' hm' hid
      cases heffect.rows r' hr' m' hm' with
      | kept r merchant m mem id userId invitedAt acceptedAt other =>
        rw [htoken, hid] at other
        exact absurd rfl other
      | issued k event pending signed origin =>
        rw [htoken] at event
        cases event
      | accepted k event member accepted => exact accepted
      | founded event accepted => exact accepted

theorem Invited.step_latest (hi : Invited h w) :
    ∀ r ∈ (w.step choice).merchants, ∀ m ∈ r.members, m.accepted = false →
      ∃ token, makeInviteToken m = some token ∧
      LastIssued (h ++ [transition Platform.step w choice]) token := by
  have heffect := transition_effect hi.keyed choice
  intro r' hr' m' hm' hp
  cases heffect.rows r' hr' m' hm' with
  | kept r merchant m mem id userId invitedAt acceptedAt other =>
    rw [Member.accepted, acceptedAt] at hp
    obtain ⟨token, hsigned, hlast⟩ := hi.latest r merchant m mem hp
    refine ⟨token,
      by rw [← hsigned, makeInviteToken, makeInviteToken, id, userId, invitedAt], hlast.snoc ?_⟩
    intro later hlater hsame
    obtain ⟨at', -, rfl⟩ := Option.map_eq_some_iff.mp hsigned
    rw [hlater, id] at other
    exact other (congrArg some hsame)
  | issued token event pending signed origin => exact ⟨token, signed, .of_event event⟩
  | accepted token event member accepted =>
    rw [accepted] at hp
    cases hp
  | founded event accepted =>
    rw [accepted] at hp
    cases hp

theorem sets_none {k : Uuid} (hk : w.Keyed)
    (hs : PlatformTransition.SetsPassword (transition Platform.step w choice) k) :
    passwordOf w.users k = none ∧ ∃ p, passwordOf (w.step choice).users k = some p := by
  have hne : passwordOf (w.step choice).users k ≠ passwordOf w.users k := hs.2
  have hnone : passwordOf w.users k = none := by
    rw [Option.eq_none_iff_forall_ne_some]
    intro p hp
    exact hne (((transition_effect hk choice).passwords k p hp).trans hp.symm)
  rw [hnone] at hne
  exact ⟨hnone, Option.ne_none_iff_exists'.mp hne⟩

theorem Invited.step (hi : Invited h w) :
    Invited (h ++ [transition Platform.step w choice]) (w.step choice) where
  keyed := (transition_effect hi.keyed choice).keyed
  accepted := hi.step_accepted
  latest := hi.step_latest
  passwords t ht k hs := by
    rcases List.mem_append.mp ht with ht | ht
    · obtain ⟨p, hp⟩ := hi.passwords t ht k hs
      exact ⟨p, (transition_effect hi.keyed choice).passwords k p hp⟩
    · have hn := List.mem_singleton.mp ht
      subst hn
      exact (sets_none hi.keyed hs).2

theorem Invited.safely (hi : Invited h w) :
    InvitesSafely h (transition Platform.step w choice) := by
  have heffect := transition_effect hi.keyed choice
  refine ⟨fun token htoken => ?_, heffect.passwords, fun k hs t ht hbefore => ?_⟩
  · obtain ⟨r, hr, hactive, m, hm, hp, hsigned⟩ := heffect.accepts token htoken
    refine ⟨fun t ht hbefore => ?_, ?_, r, hr, hactive, m, hm, hp, hsigned⟩
    · obtain ⟨at', -, rfl⟩ := Option.map_eq_some_iff.mp hsigned
      rw [(hi.accepted t ht _ hbefore).2 r hr m hm rfl] at hp
      cases hp
    · obtain ⟨last, hsigned', hlast⟩ := hi.latest r hr m hm hp
      rw [hsigned] at hsigned'
      exact Option.some.inj hsigned' ▸ hlast
  · obtain ⟨p, hp⟩ := hi.passwords t ht k hbefore
    rw [(sets_none hi.keyed hs).1] at hp
    cases hp

/-- In every interleaving of the requests of all merchants. Two invitations of one membership at
one instant sign one token, and the statement is about it as one. -/
theorem invites_safely (choices : List PlatformChoice) :
    Meets InvitesSafely (trace Platform.step Platform.empty choices) :=
  (MeetsFrom.of_forall (C := fun _ => True) (fun _ _ => trivial) []).of_invariant Invited.init
    fun _ _ _ hi _ => ⟨hi.step, hi.safely⟩

end History

end ReviewFlow.Accounts
