import ReviewFlow.Exceptions
import ReviewFlow.TwoFactor.Services

/-!
# A second factor is used once

`Effect` says what a transaction does to the row. The high-water mark of the time steps only
rises while a secret stays, and a hash that left the row does not come back: what is
generated is new.
-/

namespace ReviewFlow.TwoFactor

open Python Interleaving
open Exceptions (bind_eq_ok)

section Effects

variable {lib : Library} {env : Env} {user user' : User} {code : Str} {now : Time}

def User.Accepts (user : User) (now : Time) : Factor → Prop
  | .totp step => user.totpSecret.isSome = true ∧ user.totpLastUsedStep.getD (-1) < step ∧
      timecode now - 1 ≤ step ∧ step ≤ timecode now + 1
  | .recovery hash => hash ∈ user.totpRecoveryCodeHashes

def User.used (user : User) : Factor → User
  | .totp step => { user with totpLastUsedStep := some step }
  | .recovery hash =>
    { user with totpRecoveryCodeHashes := user.totpRecoveryCodeHashes.filter fun h => h != hash }

def User.disabled (user : User) : User :=
  { user with
    totpSecret := none
    totpConfirmedAt := none
    totpLastUsedStep := none
    totpRecoveryCodeHashes := [] }

inductive Effect (lib : Library) (env : Env) (user : User) : Option Factor → User → Prop
  | idle : Effect lib env user none user
  | setup (pending : user.isTotpEnabled = false) :
      Effect lib env user none { user with totpSecret := some env.randomBase32 }
  | used {factor : Factor} (accepts : user.Accepts env.now factor) :
      Effect lib env user (some factor) (user.used factor)
  | enabled {step : ℤ} (pending : user.isTotpEnabled = false)
      (accepts : user.Accepts env.now (.totp step)) :
      Effect lib env user (some (.totp step))
        { user.used (.totp step) with
          totpConfirmedAt := some env.confirmedAt
          totpRecoveryCodeHashes := generateRecoveryCodes lib env }
  | disabled {factor : Factor} (enrolled : user.isTotpEnabled = true)
      (accepts : user.Accepts env.now factor) : Effect lib env user (some factor) user.disabled

theorem raiseIf_bind {α : Type} {c : Prop} [Decidable c] {e : Error} {f : Except Error α} {a : α} :
    (raiseIf c e >>= fun _ => f) = .ok a ↔ ¬ c ∧ f = .ok a := by
  unfold raiseIf
  by_cases hc : c
  · rw [if_pos hc]
    exact ⟨fun h => (by cases h), fun h => absurd hc h.1⟩
  · rw [if_neg hc]
    exact ⟨fun h => ⟨hc, h⟩, fun h => h.2⟩

theorem matchingStep_some {secret : Str} {lastUsed step : ℤ} {offsets : List ℤ}
    (h : matchingStep lib secret code now lastUsed offsets = .ok (some step)) :
    lastUsed < step ∧ ∃ offset ∈ offsets, step = timecode now + offset := by
  induction offsets with
  | nil => cases h
  | cons offset rest ih =>
    have later : ∀ {s : ℤ}, lastUsed < s ∧ (∃ o ∈ rest, s = timecode now + o) →
        lastUsed < s ∧ ∃ o ∈ offset :: rest, s = timecode now + o := by
      rintro s ⟨hs, o, ho, rfl⟩
      exact ⟨hs, o, List.mem_cons_of_mem _ ho, rfl⟩
    rw [matchingStep] at h
    by_cases hle : timecode now + offset ≤ lastUsed
    · rw [if_pos hle] at h
      exact later (ih h)
    · rw [if_neg hle] at h
      obtain ⟨expected, -, h⟩ := bind_eq_ok.mp h
      obtain ⟨same, -, h⟩ := bind_eq_ok.mp h
      cases same with
      | true =>
        cases h
        exact ⟨by omega, offset, List.mem_cons_self, rfl⟩
      | false => exact later (ih h)

theorem verifyTotp_cases {result : Option ℤ}
    (h : verifyTotp lib user code now = .ok (result, user')) :
    (result = none ∧ user' = user) ∨
      ∃ step, result = some step ∧ user.Accepts now (.totp step) ∧
      user' = user.used (.totp step) := by
  unfold verifyTotp at h
  split at h
  · cases h
    exact Or.inl ⟨rfl, rfl⟩
  · rename_i secret hsecret
    obtain ⟨found, hfound, h⟩ := bind_eq_ok.mp h
    cases found with
    | none =>
      cases h
      exact Or.inl ⟨rfl, rfl⟩
    | some step =>
      cases h
      obtain ⟨hlast, offset, hoffset, rfl⟩ := matchingStep_some hfound
      have hwindow : offset = -1 ∨ offset = 0 ∨ offset = 1 := by simpa using hoffset
      refine Or.inr ⟨_, rfl, ⟨by rw [hsecret]; rfl, hlast, ?_, ?_⟩, rfl⟩ <;> omega

theorem consumeRecoveryCode_cases (lib : Library) (user : User) (code : Str) (now : Time) :
    consumeRecoveryCode lib user code = (none, user) ∨
      ∃ hash, consumeRecoveryCode lib user code = (some hash, user.used (.recovery hash)) ∧
        user.Accepts now (.recovery hash) := by
  unfold consumeRecoveryCode
  cases hfind : user.totpRecoveryCodeHashes.find? (· == hashRecoveryCode lib code) with
  | none => exact Or.inl rfl
  | some stored => exact Or.inr ⟨stored, rfl, List.mem_of_find?_eq_some hfind⟩

theorem verifyTotpCode_cases {result : Option ℤ}
    (h : verifyTotpCode lib user code now = .ok (result, user')) :
    (result = none ∧ user' = user) ∨
      ∃ step, result = some step ∧ user.Accepts now (.totp step) ∧
      user' = user.used (.totp step) := by
  unfold verifyTotpCode at h
  split at h
  · exact verifyTotp_cases h
  · cases h
    exact Or.inl ⟨rfl, rfl⟩

theorem verifySecondFactor_cases {result : Option Factor}
    (h : verifySecondFactor lib user code now = .ok (result, user')) :
    (result = none ∧ user' = user) ∨
      ∃ factor, result = some factor ∧ user.Accepts now factor ∧ user' = user.used factor := by
  obtain ⟨⟨step, mid⟩, hstep, hk⟩ := bind_eq_ok.mp h
  rcases verifyTotpCode_cases hstep with ⟨hs, hm⟩ | ⟨s, hs, ha, hm⟩ <;> subst hs hm
  · rcases consumeRecoveryCode_cases lib mid code now with hc | ⟨hash, hc, ha⟩
    · simp only [hc] at hk
      cases hk
      exact Or.inl ⟨rfl, rfl⟩
    · simp only [hc] at hk
      cases hk
      exact Or.inr ⟨_, rfl, ha, rfl⟩
  · cases hk
    exact Or.inr ⟨_, rfl, ha, rfl⟩

theorem record_bind {α : Type} {f : Except Error α} {a : α}
    (h : (record env >>= fun _ => f) = .ok a) : f = .ok a := by
  obtain ⟨-, -, h⟩ := bind_eq_ok.mp h
  exact h

theorem enable_effect {step : ℤ} {result : Option Factor} (hp : ¬ user.isTotpEnabled = true)
    (ha : user.Accepts env.now (.totp step))
    (h : enable lib env step (user.used (.totp step)) = .ok (result, user')) :
    Effect lib env user result user' := by
  have h := record_bind h
  cases h
  exact .enabled (eq_false_of_ne_true hp) ha

section Operations

variable {result : Option Factor} {password : Str}

theorem beginTotpSetup_effect (h : beginTotpSetup password env user = .ok (result, user')) :
    Effect lib env user result user' := by
  unfold beginTotpSetup at h
  obtain ⟨-, h⟩ := raiseIf_bind.mp h
  obtain ⟨hp, h⟩ := raiseIf_bind.mp h
  cases h
  exact .setup (eq_false_of_ne_true hp)

theorem beginStaffTotpSetup_effect (h : beginStaffTotpSetup env user = .ok (result, user')) :
    Effect lib env user result user' := by
  unfold beginStaffTotpSetup at h
  obtain ⟨-, h⟩ := raiseIf_bind.mp h
  obtain ⟨hp, h⟩ := raiseIf_bind.mp h
  cases h
  exact .setup (eq_false_of_ne_true hp)

theorem confirmTotpSetup_effect (h : confirmTotpSetup lib code env user = .ok (result, user')) :
    Effect lib env user result user' := by
  unfold confirmTotpSetup at h
  obtain ⟨hp, h⟩ := raiseIf_bind.mp h
  obtain ⟨-, h⟩ := raiseIf_bind.mp h
  obtain ⟨⟨step, mid⟩, hv, hk⟩ := bind_eq_ok.mp h
  rcases verifyTotp_cases hv with ⟨hs, hm⟩ | ⟨s, hs, ha, hm⟩ <;> subst hs hm
  · cases hk
  · exact enable_effect hp ha hk

theorem confirmStaffTotpSetup_effect
    (h : confirmStaffTotpSetup lib code env user = .ok (result, user')) :
    Effect lib env user result user' := by
  unfold confirmStaffTotpSetup at h
  obtain ⟨-, h⟩ := raiseIf_bind.mp h
  obtain ⟨hp, h⟩ := raiseIf_bind.mp h
  obtain ⟨-, h⟩ := raiseIf_bind.mp h
  obtain ⟨⟨step, mid⟩, hv, hk⟩ := bind_eq_ok.mp h
  rcases verifyTotpCode_cases hv with ⟨hs, hm⟩ | ⟨s, hs, ha, hm⟩ <;> subst hs hm
  · cases hk
  · exact enable_effect hp ha hk

theorem disableTotp_effect (h : disableTotp lib password code env user = .ok (result, user')) :
    Effect lib env user result user' := by
  unfold disableTotp at h
  obtain ⟨hp, h⟩ := raiseIf_bind.mp h
  obtain ⟨-, h⟩ := raiseIf_bind.mp h
  obtain ⟨⟨factor, mid⟩, hv, hk⟩ := bind_eq_ok.mp h
  rcases verifySecondFactor_cases hv with ⟨hf, hm⟩ | ⟨f, hf, ha, hm⟩ <;> subst hf hm
  · cases hk
  · have hk := record_bind hk
    cases hk
    have hdisabled : (user.used f).disabled = user.disabled := by cases f <;> rfl
    change Effect lib env user (some f) (user.used f).disabled
    rw [hdisabled]
    exact .disabled (eq_true_of_ne_false hp) ha

theorem completeTotpLogin_effect {pending : Option Pending}
    (h : completeTotpLogin lib pending code env user = .ok (result, user')) :
    Effect lib env user result user' := by
  cases pending with
  | none => cases h
  | some pending =>
    unfold completeTotpLogin at h
    obtain ⟨-, h⟩ := raiseIf_bind.mp h
    obtain ⟨-, h⟩ := raiseIf_bind.mp h
    obtain ⟨-, h⟩ := raiseIf_bind.mp h
    obtain ⟨-, h⟩ := raiseIf_bind.mp h
    obtain ⟨⟨factor, mid⟩, hv, hk⟩ := bind_eq_ok.mp h
    rcases verifySecondFactor_cases hv with ⟨hf, hm⟩ | ⟨f, hf, ha, hm⟩ <;> subst hf hm
    · cases hk
    · cases f with
      | totp step =>
        cases hk
        exact .used ha
      | recovery hash =>
        have hk := record_bind hk
        cases hk
        exact .used ha

theorem verifyStaffAdminLogin_effect
    (h : verifyStaffAdminLogin lib code env user = .ok (result, user')) :
    Effect lib env user result user' := by
  unfold verifyStaffAdminLogin at h
  by_cases hempty : strip code = []
  · rw [if_pos hempty] at h
    cases h
    exact .idle
  rw [if_neg hempty] at h
  by_cases hstaff : isActiveStaff user = false ∨ user.isTotpEnabled = false
  · rw [if_pos hstaff] at h
    cases h
    exact .idle
  rw [if_neg hstaff] at h
  by_cases hsix : totpCodeRe (strip code) = true
  · rw [if_pos hsix] at h
    obtain ⟨⟨step, mid⟩, hv, hk⟩ := bind_eq_ok.mp h
    rcases verifyTotp_cases hv with ⟨hs, hm⟩ | ⟨s, hs, ha, hm⟩ <;> subst hs hm <;> cases hk
    · exact .idle
    · exact .used ha
  · rw [if_neg hsix] at h
    rcases consumeRecoveryCode_cases lib user (strip code) env.now with hc | ⟨hash, hc, ha⟩
    · rw [hc] at h
      cases h
      exact .idle
    · rw [hc] at h
      have h := record_bind h
      cases h
      exact .used ha

theorem Operation.run_effect (op : Operation) (h : op.run lib env user = .ok (result, user')) :
    Effect lib env user result user' := by
  cases op with
  | beginTotpSetup password => exact beginTotpSetup_effect h
  | confirmTotpSetup code => exact confirmTotpSetup_effect h
  | disableTotp password code => exact disableTotp_effect h
  | completeTotpLogin pending code => exact completeTotpLogin_effect h
  | beginStaffTotpSetup => exact beginStaffTotpSetup_effect h
  | confirmStaffTotpSetup code => exact confirmStaffTotpSetup_effect h
  | verifyStaffAdminLogin code => exact verifyStaffAdminLogin_effect h

end Operations

theorem Operation.commit_effect (lib : Library) (op : Operation) (env : Env) (user : User) :
    Effect lib env user (op.commit lib env user).1 (op.commit lib env user).2 := by
  unfold Operation.commit
  split
  · rename_i out hrun _
    exact op.run_effect hrun
  · exact .idle

theorem Effect.hashes {result : Option Factor} {hash : Str}
    (heffect : Effect lib env user result user')
    (h : hash ∈ user'.totpRecoveryCodeHashes) :
    hash ∈ user.totpRecoveryCodeHashes ∨ hash ∈ generateRecoveryCodes lib env := by
  cases heffect with
  | idle => exact Or.inl h
  | setup pending => exact Or.inl h
  | enabled pending accepts => exact Or.inr h
  | disabled enrolled accepts => cases h
  | @used factor accepts =>
    cases factor with
    | totp step => exact Or.inl h
    | recovery code => exact Or.inl (List.mem_filter.mp h).1

theorem Effect.consumed {hash : Str} (heffect : Effect lib env user (some (.recovery hash)) user') :
    hash ∉ user'.totpRecoveryCodeHashes := by
  cases heffect with
  | used accepts => simp [User.used]
  | disabled enrolled accepts => simp [User.disabled]

/-- Under a secret that stays, the mark does not fall, and it is the step accepted last. -/
theorem Effect.mark {result : Option Factor} {secret : Str}
    (heffect : Effect lib env user result user')
    (hsecret : user'.totpSecret = some secret) (hne : secret ≠ env.randomBase32) :
    user.totpSecret = some secret ∧
      user.totpLastUsedStep.getD (-1) ≤ user'.totpLastUsedStep.getD (-1) ∧
      ∀ step, result = some (.totp step) → step ≤ user'.totpLastUsedStep.getD (-1) := by
  cases heffect with
  | idle => exact ⟨hsecret, le_rfl, fun _ h => by cases h⟩
  | setup pending =>
    cases hsecret
    exact absurd rfl hne
  | enabled pending accepts =>
    refine ⟨hsecret, accepts.2.1.le, fun step h => ?_⟩
    cases h
    exact le_rfl
  | disabled enrolled accepts => cases hsecret
  | @used factor accepts =>
    cases factor with
    | totp step =>
      refine ⟨hsecret, accepts.2.1.le, fun step h => ?_⟩
      cases h
      exact le_rfl
    | recovery code => exact ⟨hsecret, le_rfl, fun _ h => by cases h⟩

theorem Effect.accepts {factor : Factor} (heffect : Effect lib env user (some factor) user') :
    user.Accepts env.now factor := by
  cases heffect with
  | used accepts => exact accepts
  | enabled pending accepts => exact accepts
  | disabled enrolled accepts => exact accepts

theorem Effect.renewed {result : Option Factor} {hash : Str}
    (heffect : Effect lib env user result user')
    (hends : user.isTotpEnabled ≠ user'.isTotpEnabled) (h : hash ∈ user'.totpRecoveryCodeHashes) :
    hash ∈ generateRecoveryCodes lib env := by
  cases heffect with
  | idle => exact absurd rfl hends
  | setup pending => exact absurd rfl hends
  | enabled pending accepts => exact h
  | disabled enrolled accepts => cases h
  | @used factor accepts =>
    refine absurd ?_ hends
    cases factor <;> rfl

end Effects

variable {lib : Library}

/-- `pyotp.random_base32` and `secrets.token_hex` give what no row had before. -/
def Fresh (lib : Library) (h : List Transition) (t : Transition) : Prop :=
  ∀ u ∈ h ++ [t], u.before.totpSecret ≠ some t.label.2.randomBase32 ∧
    ∀ hash ∈ generateRecoveryCodes lib t.label.2, hash ∉ u.before.totpRecoveryCodeHashes

instance (h : List Transition) (t : Transition) : Decidable (Fresh lib h t) :=
  inferInstanceAs (Decidable (∀ u ∈ h ++ [t], _ ∧ ∀ hash ∈ generateRecoveryCodes lib t.label.2, _))

def Ends (t : Transition) : Prop := t.before.isTotpEnabled ≠ t.after.isTotpEnabled

def SingleUse (lib : Library) (h : List Transition) (u : Transition) : Prop :=
  (∀ step, accepted lib u = some (.totp step) →
    timecode u.label.2.now - 1 ≤ step ∧ step ≤ timecode u.label.2.now + 1 ∧
      ∀ t ∈ h, t.before.totpSecret = u.before.totpSecret →
        ∀ earlier, accepted lib t = some (.totp earlier) → earlier < step) ∧
  ∀ hash, accepted lib u = some (.recovery hash) →
    (∀ t ∈ h, accepted lib t ≠ some (.recovery hash)) ∧
      ∀ pre t post, h = pre ++ t :: post → Ends t →
        ∀ w ∈ pre ++ [t], hash ∉ w.before.totpRecoveryCodeHashes

structure Spent (lib : Library) (h : List Transition) (user : User) : Prop where
  marked : ∀ t ∈ h, t.before.totpSecret.isSome = true → t.before.totpSecret = user.totpSecret →
    ∀ step, accepted lib t = some (.totp step) → step ≤ user.totpLastUsedStep.getD (-1)
  consumed : ∀ t ∈ h, ∀ hash, accepted lib t = some (.recovery hash) →
    hash ∉ user.totpRecoveryCodeHashes
  ended : ∀ pre t post, h = pre ++ t :: post → Ends t → ∀ w ∈ pre ++ [t],
    ∀ hash ∈ w.before.totpRecoveryCodeHashes, hash ∉ user.totpRecoveryCodeHashes

theorem transition_effect (lib : Library) (user : User) (l : Operation × Env) :
    Effect lib l.2 user (accepted lib (transition (step lib) user l)) (step lib user l) :=
  l.1.commit_effect lib l.2 user

theorem accepted_mem {t : Transition} {hash : Str} (h : accepted lib t = some (.recovery hash)) :
    hash ∈ t.before.totpRecoveryCodeHashes := by
  have heffect := transition_effect lib t.before t.label
  have hres : accepted lib (transition (step lib) t.before t.label) = some (.recovery hash) := h
  rw [hres] at heffect
  exact heffect.accepts

theorem Spent.init (user : User) : Spent lib [] user where
  marked := fun _ ht => nomatch ht
  consumed := fun _ ht => nomatch ht
  ended := fun pre t post h => by simp at h

theorem Fresh.left {h : List Transition} {user : User} {l : Operation × Env}
    {w : Transition} {hash : Str}
    (hfresh : Fresh lib h (transition (step lib) user l)) (hw : w ∈ h)
    (hmem : hash ∈ w.before.totpRecoveryCodeHashes) (hnot : hash ∉ user.totpRecoveryCodeHashes) :
    hash ∉ (step lib user l).totpRecoveryCodeHashes := by
  intro hin
  rcases (transition_effect lib user l).hashes hin with hold | hnew
  · exact hnot hold
  · exact (hfresh w (List.mem_append_left _ hw)).2 hash hnew hmem

theorem Spent.step_marked {h : List Transition} {user : User} {l : Operation × Env}
    (hspent : Spent lib h user) (hfresh : Fresh lib h (transition (step lib) user l)) :
    ∀ t ∈ h ++ [transition (step lib) user l], t.before.totpSecret.isSome = true →
      t.before.totpSecret = (step lib user l).totpSecret →
        ∀ s, accepted lib t = some (.totp s) →
          s ≤ (step lib user l).totpLastUsedStep.getD (-1) := by
  intro t ht hsome hsame s hacc
  obtain ⟨secret, hsecret⟩ := Option.isSome_iff_exists.mp hsome
  have hne : secret ≠ l.2.randomBase32 := by
    intro heq
    exact (hfresh t ht).1 (hsecret.trans (congrArg some heq))
  obtain ⟨hstays, hmono, hlast⟩ :=
    (transition_effect lib user l).mark (hsame.symm.trans hsecret) hne
  rcases List.mem_append.mp ht with ht | ht
  · have hmark := hspent.marked t ht hsome (hsecret.trans hstays.symm) s hacc
    exact hmark.trans hmono
  · have hn := List.mem_singleton.mp ht
    subst hn
    exact hlast s hacc

theorem Spent.step_consumed {h : List Transition} {user : User} {l : Operation × Env}
    (hspent : Spent lib h user) (hfresh : Fresh lib h (transition (step lib) user l)) :
    ∀ t ∈ h ++ [transition (step lib) user l], ∀ hash, accepted lib t = some (.recovery hash) →
      hash ∉ (step lib user l).totpRecoveryCodeHashes := by
  intro t ht hash hacc
  rcases List.mem_append.mp ht with ht | ht
  · exact hfresh.left ht (accepted_mem hacc) (hspent.consumed t ht hash hacc)
  · have hn := List.mem_singleton.mp ht
    subst hn
    have heffect := transition_effect lib user l
    rw [hacc] at heffect
    exact heffect.consumed

theorem Spent.step_ended {h : List Transition} {user : User} {l : Operation × Env}
    (hspent : Spent lib h user) (hfresh : Fresh lib h (transition (step lib) user l)) :
    ∀ pre t post, h ++ [transition (step lib) user l] = pre ++ t :: post → Ends t →
      ∀ w ∈ pre ++ [t], ∀ hash ∈ w.before.totpRecoveryCodeHashes,
        hash ∉ (step lib user l).totpRecoveryCodeHashes := by
  intro pre t post hsplit hends w hw hash hmem
  rcases List.eq_nil_or_concat post with hpost | ⟨post', last, hpost⟩
  · subst hpost
    obtain ⟨hpre, ht⟩ := List.append_inj' hsplit rfl
    obtain rfl := (List.cons.inj ht).1
    subst hpre
    intro hin
    exact (hfresh w hw).2 hash ((transition_effect lib user l).renewed hends hin) hmem
  · have hsplit' : h ++ [transition (step lib) user l] = (pre ++ t :: post') ++ [last] := by
      rw [hsplit, hpost]
      simp
    obtain ⟨hh, -⟩ := List.append_inj' hsplit' rfl
    have hwh : w ∈ h := by
      rw [hh]
      rcases List.mem_append.mp hw with hw | hw
      · exact List.mem_append_left _ hw
      · rw [List.mem_singleton.mp hw]
        exact List.mem_append_right _ List.mem_cons_self
    exact hfresh.left hwh hmem (hspent.ended pre t post' hh hends w hw hash hmem)

theorem Spent.step {h : List Transition} {user : User} {l : Operation × Env}
    (hspent : Spent lib h user) (hfresh : Fresh lib h (transition (step lib) user l)) :
    Spent lib (h ++ [transition (step lib) user l]) (step lib user l) where
  marked := hspent.step_marked hfresh
  consumed := hspent.step_consumed hfresh
  ended := hspent.step_ended hfresh

theorem Spent.singleUse {h : List Transition} {user : User} {l : Operation × Env}
    (hspent : Spent lib h user) : SingleUse lib h (transition (TwoFactor.step lib) user l) := by
  have heffect := transition_effect lib user l
  constructor
  · intro s hacc
    rw [hacc] at heffect
    obtain ⟨hsome, hmark, hlow, hhigh⟩ := heffect.accepts
    refine ⟨hlow, hhigh, fun t ht hsame earlier hearlier => ?_⟩
    have hle := hspent.marked t ht (by rw [hsame]; exact hsome) hsame earlier hearlier
    exact lt_of_le_of_lt hle hmark
  · intro hash hacc
    rw [hacc] at heffect
    have hmem : hash ∈ user.totpRecoveryCodeHashes := heffect.accepts
    refine ⟨fun t ht hbefore => hspent.consumed t ht hash hbefore hmem, ?_⟩
    intro pre t post hsplit hends w hw hw'
    exact hspent.ended pre t post hsplit hends w hw hash hw' hmem

/-- Over every sequence of transactions, under any clock. -/
theorem single_use (lib : Library) (user : User) (labels : List (Operation × Env))
    (hfresh : Meets (Fresh lib) (trace (step lib) user labels)) :
    Meets (SingleUse lib) (trace (step lib) user labels) :=
  hfresh.of_invariant (Spent.init user) fun _ _ _ hspent hnew =>
    ⟨hspent.step hnew, hspent.singleUse⟩

section Enrolment

def plainLibrary : Library where
  generateOtp := fun _ step => text "00000" ++ [48 + (step % 10).toNat]
  sha256 := id
  lower := id

/-- An instant at which the `n`-th random values are drawn. -/
def drawn (s : ℤ) (n : ℕ) : Env where
  now := seconds s
  confirmedAt := seconds s
  randomBase32 := [65 + n]
  tokenHex := [[97 + n], [150 + n]]
  checkPassword := fun _ => true
  membership := true
  recorded := true
  commits := true

def enrolments : List (Operation × Env) :=
  let login := fun code : Str =>
    Operation.completeTotpLogin (some ⟨true, some (seconds 60), 0⟩) code
  [(.beginTotpSetup [], drawn 60 0), (.confirmTotpSetup (text "000002"), drawn 60 1),
    (login [98], drawn 61 2), (login [98], drawn 62 3), (login (text "000002"), drawn 63 4),
    (login (text "000003"), drawn 64 5), (.disableTotp [] [151], drawn 65 6),
    (.beginTotpSetup [], drawn 66 7), (.confirmTotpSetup (text "000002"), drawn 67 8),
    (login [151], drawn 68 9)]

theorem single_use_enrolments :
    (trace (step plainLibrary) ⟨true, false, none, none, none, []⟩ enrolments).map
    (accepted plainLibrary) =
        [none, some (.totp 2), some (.recovery [98]), none, none, some (.totp 3),
          some (.recovery [151]),
          none, some (.totp 2), none] ∧
      Meets (SingleUse plainLibrary)
      (trace (step plainLibrary) ⟨true, false, none, none, none, []⟩ enrolments) :=
  ⟨by decide, single_use _ _ _ (by decide)⟩

end Enrolment

end ReviewFlow.TwoFactor
