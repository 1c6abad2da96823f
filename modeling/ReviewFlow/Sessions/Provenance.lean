import ReviewFlow.RowLocks
import ReviewFlow.Sessions.Requests
import ReviewFlow.TwoFactor.SingleUse

/-!
# Where the content of a session comes from

Each field of a stored session is traced to the steps of the run that put it there. A request
holds a copy that may be old by the time it is stored, so the trace is carried by the copies as
well.
-/

namespace ReviewFlow.Sessions

open Python Interleaving SessionStore RowLocks
open TwoFactor (User Operation Library Pending Factor)
open Integrations.Callback (Query compareDigest verifyShopifyQueryHmac)

variable {σ : Type} {settings : Settings σ} {s₀ s : System σ} {ls : List Label}
  {u merchantId : Uuid} {data : Data} {env : Env} {db db' : Database} {change : Change Data}

/-- The step is the transaction of this request, in this session, and the request is let through. -/
def Handles (request : Request) (data : Data) (env : Env) (s : System σ) (l : Label) : Prop :=
  ∃ n key, l = .handle n env ∧ s.requests[n]? = some (.loaded request ⟨key, data⟩) ∧
    env.allowed = true

def PasswordStep (u : Uuid) (iat : Time) (s : System σ) (l : Label) : Prop :=
  ∃ email password data env, Handles (.login email password) data env s l ∧
    s.db.authenticate email password = some u ∧ s.db.isTotpEnabled u = true ∧ env.now = iat

/-- The password of a user who is not enrolled logs in. -/
def PasswordLogin (u merchantId : Uuid) (s : System σ) (l : Label) : Prop :=
  ∃ email password data env, Handles (.login email password) data env s l ∧
    s.db.authenticate email password = some u ∧ s.db.isTotpEnabled u = false ∧
    s.db.loginMerchant u = some merchantId

/-- A second factor is accepted on a marker that is not too old. -/
def FactorLogin (marker : Marker) (merchantId : Uuid) (s : System σ) (l : Label) : Prop :=
  ∃ code data env user factor, Handles (.loginTotp code) data env s l ∧
    data.pendingTotp = some marker ∧ marker.n < TwoFactor.totpMaxAttempts ∧
    env.now - marker.iat ≤ TwoFactor.totpPendingMaxAge ∧
    s.db.users marker.u = some user ∧ user.isActive = true ∧ user.isTotpEnabled = true ∧
    user.Accepts env.now factor ∧ s.db.loginMerchant marker.u = some merchantId

/-- The password of a staff user is accepted together with a second factor. -/
def StaffLogin (u : Uuid) (s : System σ) (l : Label) : Prop :=
  ∃ username password otpCode data env user factor,
    Handles (.adminLogin username password otpCode) data env s l ∧
    s.db.authenticate username password = some u ∧ s.db.users u = some user ∧
    user.isActive = true ∧ user.isStaff = true ∧ user.isTotpEnabled = true ∧
    user.Accepts env.now factor

def Installs (nonce : Nonce) (s : System σ) (l : Label) : Prop :=
  ∃ data env, Handles (.shopifyInstall nonce.shop) data env s l ∧ isShop nonce.shop = true ∧
    nonce.state = env.state ∧ nonce.issuedAt = env.now

/-- Shopify calls back, signed, with the state and the shop of a nonce that is not too old. -/
def CallsBack (settings : Settings σ) (nonce : Nonce) (pending : Installation) (s : System σ)
    (l : Label) : Prop :=
  ∃ query data env, Handles (.shopifyCallback query) data env s l ∧
    data.shopifyOauth = some nonce ∧
    verifyShopifyQueryHmac settings.hmac settings.shopify query = .ok true ∧
    nonce.state = query.get (text "state") ∧ nonce.shop = query.get (text "shop") ∧
    env.now - nonce.issuedAt ≤ stateMaxAge ∧
    pending.shop = nonce.shop ∧ pending.issuedAt = env.later

section Traced

variable (settings : Settings σ) (s₀ : System σ) (ls : List Label)

def TwoSteps (u merchantId : Uuid) : Prop :=
  ∃ ls₁ l ls₂ marker, ls = ls₁ ++ l :: ls₂ ∧ marker.u = u ∧
    FactorLogin marker merchantId (run (System.step settings) s₀ ls₁) l ∧
    Earlier (System.step settings) s₀ ls₁ (PasswordStep u marker.iat)

/-- The user logged in to the merchant, and with a second factor if enrolled. -/
def Entered (u merchantId : Uuid) : Prop :=
  Earlier (System.step settings) s₀ ls (PasswordLogin u merchantId) ∨
    TwoSteps settings s₀ ls u merchantId

/-- The installation of a shop, from the first request to the callback. -/
def Installed (pending : Installation) : Prop :=
  ∃ ls₁ l ls₂ nonce, ls = ls₁ ++ l :: ls₂ ∧
    CallsBack settings nonce pending (run (System.step settings) s₀ ls₁) l ∧
    Earlier (System.step settings) s₀ ls₁ (Installs nonce)

/-- Each field of a session comes from a request that was allowed to write it. -/
structure Traced (data : Data) : Prop where
  authUser : ∀ u, data.authUser = some u →
    (∃ merchantId, Entered settings s₀ ls u merchantId) ∨
      Earlier (System.step settings) s₀ ls (StaffLogin u)
  merchantId : ∀ merchantId, data.merchantId = some merchantId →
    ∃ u, data.authUser = some u ∧ Entered settings s₀ ls u merchantId
  pendingTotp : ∀ marker, data.pendingTotp = some marker →
    marker.n < TwoFactor.totpMaxAttempts ∧
      Earlier (System.step settings) s₀ ls (PasswordStep marker.u marker.iat)
  admin2faUserId : ∀ u, data.admin2faUserId = some u →
    data.authUser = some u ∧ Earlier (System.step settings) s₀ ls (StaffLogin u)
  shopifyOauth : ∀ nonce, data.shopifyOauth = some nonce →
    Earlier (System.step settings) s₀ ls (Installs nonce)
  shopifyPending : ∀ pending, data.shopifyPending = some pending →
    Installed settings s₀ ls pending

end Traced

section Append

theorem TwoSteps.append (h : TwoSteps settings s₀ ls u merchantId) (ls' : List Label) :
    TwoSteps settings s₀ (ls ++ ls') u merchantId := by
  obtain ⟨ls₁, l, ls₂, marker, rfl, hu, hf, hp⟩ := h
  exact ⟨ls₁, l, ls₂ ++ ls', marker, by simp, hu, hf, hp⟩

theorem Entered.append (h : Entered settings s₀ ls u merchantId) (ls' : List Label) :
    Entered settings s₀ (ls ++ ls') u merchantId :=
  h.imp (Earlier.append · ls') (TwoSteps.append · ls')

theorem Installed.append {pending : Installation} (h : Installed settings s₀ ls pending)
    (ls' : List Label) : Installed settings s₀ (ls ++ ls') pending := by
  obtain ⟨ls₁, l, ls₂, nonce, rfl, hc, hi⟩ := h
  exact ⟨ls₁, l, ls₂ ++ ls', nonce, by simp, hc, hi⟩

theorem Traced.append (h : Traced settings s₀ ls data) (ls' : List Label) :
    Traced settings s₀ (ls ++ ls') data where
  authUser u hu := (h.authUser u hu).imp (fun ⟨m, hm⟩ => ⟨m, hm.append ls'⟩) (Earlier.append · ls')
  merchantId m hm := by
    obtain ⟨u, hu, hentered⟩ := h.merchantId m hm
    exact ⟨u, hu, hentered.append ls'⟩
  pendingTotp marker hm := (h.pendingTotp marker hm).imp_right (Earlier.append · ls')
  admin2faUserId u hu := (h.admin2faUserId u hu).imp_right (Earlier.append · ls')
  shopifyOauth nonce hn := (h.shopifyOauth nonce hn).append ls'
  shopifyPending pending hp := (h.shopifyPending pending hp).append ls'

theorem traced_empty : Traced settings s₀ ls {} := by constructor <;> simp

end Append

section SignIn

theorem Traced.signIn (hsigns : settings.SignsIn) (h : Traced settings s₀ ls data) (env : Env)
    (write : Data → Data)
    (hu : (∃ merchantId, Entered settings s₀ ls u merchantId) ∨
      Earlier (System.step settings) s₀ ls (StaffLogin u)) :
    ∃ base, (signIn settings env data u write).data = some (write base) ∧ base.authUser = some u ∧
      Traced settings s₀ ls base := by
  have hclean : Traced settings s₀ ls { authUser := some u } := by
    constructor <;> simp
    exact hu
  refine ⟨(settings.signIn env.sameHash data u).2, ?_, ?_⟩
  · unfold Sessions.signIn
    dsimp only
    split <;> rfl
  cases hauth : data.authUser with
  | none =>
    rw [hsigns.anonymous env.sameHash data u hauth]
    refine ⟨rfl, ?_⟩
    constructor
    · rintro u' ⟨⟩
      exact hu
    · intro merchantId hm
      obtain ⟨u', hu', -⟩ := h.merchantId merchantId hm
      rw [hauth] at hu'
      cases hu'
    · exact h.pendingTotp
    · intro u' hu'
      have hother := (h.admin2faUserId u' hu').1
      rw [hauth] at hother
      cases hother
    · exact h.shopifyOauth
    · exact h.shopifyPending
  | some other =>
    by_cases hsame : other = u
    · subst hsame
      rcases hsigns.same env.sameHash data other hauth with heq | heq
      · rw [heq]
        exact ⟨hauth, h⟩
      · rw [heq]
        exact ⟨rfl, hclean⟩
    · rw [hsigns.another env.sameHash data u other hauth hsame]
      exact ⟨rfl, hclean⟩

theorem Traced.enter (h : Traced settings s₀ ls data) (hu : data.authUser = some u)
    (he : Entered settings s₀ ls u merchantId) :
    Traced settings s₀ ls { data with merchantId := some merchantId } where
  authUser := h.authUser
  merchantId m hm := by
    cases hm
    exact ⟨u, hu, he⟩
  pendingTotp := h.pendingTotp
  admin2faUserId := h.admin2faUserId
  shopifyOauth := h.shopifyOauth
  shopifyPending := h.shopifyPending

theorem Traced.unmark (h : Traced settings s₀ ls data) :
    Traced settings s₀ ls { data with pendingTotp := none } :=
  { h with pendingTotp := by simp }

theorem Traced.popNonce (h : Traced settings s₀ ls data) :
    Traced settings s₀ ls { data with shopifyOauth := none } :=
  { h with shopifyOauth := by simp }

theorem Traced.popInstallation (h : Traced settings s₀ ls data) :
    Traced settings s₀ ls { data with shopifyPending := none } :=
  { h with shopifyPending := by simp }

end SignIn

section Handled

theorem completeTotpLogin_eq_ok {marker : Marker} {code : Str} {result : Option Factor}
    {user' : User} (h : completeTotpLogin settings marker code env db = .ok (result, user')) :
    ∃ user factor merchantId, db.users marker.u = some user ∧
      marker.n < TwoFactor.totpMaxAttempts ∧
      env.now - marker.iat ≤ TwoFactor.totpPendingMaxAge ∧
      user.isActive = true ∧ user.isTotpEnabled = true ∧ user.Accepts env.now factor ∧
      db.loginMerchant marker.u = some merchantId := by
  unfold completeTotpLogin at h
  cases hu : db.users marker.u with
  | none =>
    rw [hu] at h
    cases h
  | some user =>
    simp only [hu] at h
    have heffect := TwoFactor.completeTotpLogin_effect h
    unfold TwoFactor.completeTotpLogin at h
    obtain ⟨hn, h⟩ := TwoFactor.raiseIf_bind.mp h
    obtain ⟨hage, h⟩ := TwoFactor.raiseIf_bind.mp h
    obtain ⟨hmember, h⟩ := TwoFactor.raiseIf_bind.mp h
    obtain ⟨huser, h⟩ := TwoFactor.raiseIf_bind.mp h
    obtain ⟨⟨factor, mid⟩, hv, hk⟩ := Exceptions.bind_eq_ok.mp h
    have hfactor : ∃ factor, user.Accepts env.now factor := by
      rcases TwoFactor.verifySecondFactor_cases hv with ⟨rfl, rfl⟩ | ⟨f, rfl, ha, -⟩
      · cases hk
      · exact ⟨f, ha⟩
    obtain ⟨factor, haccepts⟩ := hfactor
    obtain ⟨merchantId, hmerchant⟩ : ∃ merchantId, db.loginMerchant marker.u = some merchantId := by
      rw [← Option.isSome_iff_exists]
      simp only [not_or, Bool.not_eq_false, Bool.and_eq_true] at hmember
      exact hmember.2.1
    simp only [not_or, Bool.not_eq_false] at huser
    refine ⟨user, factor, merchantId, rfl, not_le.mp hn, ?_, huser.1, huser.2, haccepts, hmerchant⟩
    simpa [Env.now] using hage

theorem verifyStaffAdminLogin_eq_ok {lib : Library} {otpCode : Str} {tx : TwoFactor.Env}
    {user user' : User} {factor : Factor}
    (h : TwoFactor.verifyStaffAdminLogin lib otpCode tx user = .ok (some factor, user')) :
    user.isActive = true ∧ user.isStaff = true ∧ user.isTotpEnabled = true ∧
      user.Accepts tx.now factor := by
  have haccepts := (TwoFactor.verifyStaffAdminLogin_effect h).accepts
  unfold TwoFactor.verifyStaffAdminLogin at h
  split at h
  · cases h
  · split at h
    · cases h
    case isFalse hstaff =>
      simp only [TwoFactor.isActiveStaff, not_or, Bool.not_eq_false, Bool.and_eq_true] at hstaff
      exact ⟨hstaff.1.1, hstaff.1.2, hstaff.2, haccepts⟩

variable {l : Label} {data' : Data}

theorem login_traced {email password : Str} (hsigns : settings.SignsIn)
    (h : Traced settings s₀ ls data)
    (hl : Handles (.login email password) data env (run (System.step settings) s₀ ls) l)
    (hd : (login settings email password env (run (System.step settings) s₀ ls).db data).data =
      some data') : Traced settings s₀ (ls ++ [l]) data' := by
  unfold login at hd
  split at hd
  · cases hd
  case h_2 u hu =>
    split at hd
    · cases hd
    case h_2 merchantId hm =>
      split at hd
      case isTrue henrolled =>
        have hstep : Earlier (System.step settings) s₀ (ls ++ [l]) (PasswordStep u env.now) :=
          .last ⟨email, password, data, env, hl, hu, henrolled, rfl⟩
        cases hd
        constructor
        · simp
        · simp
        · rintro marker ⟨⟩
          exact ⟨by simp [TwoFactor.totpMaxAttempts], hstep⟩
        · simp
        · simp
        · exact fun pending hp => (h.shopifyPending pending hp).append [l]
      case isFalse henrolled =>
        have hentered : Entered settings s₀ (ls ++ [l]) u merchantId :=
          .inl (.last ⟨email, password, data, env, hl, hu, by simpa using henrolled, hm⟩)
        obtain ⟨base, hbase, hauth, htraced⟩ :=
          (h.append [l]).signIn hsigns env (fun data => { data with merchantId := some merchantId })
            (.inl ⟨merchantId, hentered⟩)
        rw [hbase] at hd
        cases hd
        exact htraced.enter hauth hentered

theorem failed_traced {marker : Marker} (h : Traced settings s₀ ls data)
    (hm : data.pendingTotp = some marker) :
    Traced settings s₀ ls { data with pendingTotp := recordFailedTotpAttempt marker } := by
  refine { h with pendingTotp := fun marker' hmarker => ?_ }
  simp only [recordFailedTotpAttempt] at hmarker
  split at hmarker
  · cases hmarker
  case isFalse hn =>
    cases hmarker
    exact ⟨not_le.mp hn, (h.pendingTotp marker hm).2⟩

theorem loginTotp_traced {code : Str} (hsigns : settings.SignsIn)
    (h : Traced settings s₀ ls data)
    (hl : Handles (.loginTotp code) data env (run (System.step settings) s₀ ls) l)
    (hd : (loginTotp settings code env (run (System.step settings) s₀ ls).db data).2.data =
      some data') : Traced settings s₀ (ls ++ [l]) data' := by
  unfold loginTotp at hd
  split at hd
  · cases hd
  case h_2 marker hmarker =>
    split at hd
    · cases hd
      exact (failed_traced h hmarker).append [l]
    · cases hd
    case h_3 result user' hok =>
      split at hd
      · obtain ⟨user, factor, merchantId, hu, hn, hage, hactive, henrolled, haccepts, hm⟩ :=
          completeTotpLogin_eq_ok hok
        have hentered : Entered settings s₀ (ls ++ [l]) marker.u merchantId :=
          .inr ⟨ls, l, [], marker, rfl, rfl, ⟨code, data, env, user, factor, hl, hmarker, hn, hage,
            hu, hactive, henrolled, haccepts, hm⟩, (h.pendingTotp marker hmarker).2⟩
        obtain ⟨base, hbase, hauth, htraced⟩ := (h.unmark.append [l]).signIn hsigns env
          (fun data => { data with merchantId :=
            (run (System.step settings) s₀ ls).db.loginMerchant marker.u })
          (.inl ⟨merchantId, hentered⟩)
        rw [hbase] at hd
        cases hd
        rw [hm]
        exact htraced.enter hauth hentered
      · cases hd

theorem adminLogin_traced {username password otpCode : Str} (hsigns : settings.SignsIn)
    (h : Traced settings s₀ ls data)
    (hl : Handles (.adminLogin username password otpCode) data env
      (run (System.step settings) s₀ ls) l)
    (hd : (adminLogin settings username password otpCode env
      (run (System.step settings) s₀ ls).db data).2.data = some data') :
    Traced settings s₀ (ls ++ [l]) data' := by
  unfold adminLogin at hd
  split at hd
  · cases hd
  case h_2 u hu =>
    split at hd
    · cases hd
    case h_2 user huser =>
      split at hd
      · cases hd
      · split at hd
        case h_1 factor user' hok _ =>
          obtain ⟨hactive, hstaff, henrolled, haccepts⟩ := verifyStaffAdminLogin_eq_ok hok
          have hlogin : Earlier (System.step settings) s₀ (ls ++ [l]) (StaffLogin u) :=
            .last ⟨username, password, otpCode, data, env, user, factor, hl, hu, huser, hactive,
              hstaff, henrolled, haccepts⟩
          obtain ⟨base, hbase, hauth, htraced⟩ := (h.append [l]).signIn hsigns env
            (fun data => { data with admin2faUserId := some u }) (.inr hlogin)
          rw [hbase] at hd
          cases hd
          refine { htraced with admin2faUserId := fun u' hu' => ?_ }
          cases hu'
          exact ⟨hauth, hlogin⟩
        · cases hd

theorem install_traced {shop : Str} {loaded : Data} (h : Traced settings s₀ ls data)
    (hl : Handles (.shopifyInstall shop) loaded env (run (System.step settings) s₀ ls) l)
    (hd : (beginShopifyInstall shop env data).data = some data') :
    Traced settings s₀ (ls ++ [l]) data' := by
  unfold beginShopifyInstall at hd
  split at hd
  case isTrue hshop =>
    cases hd
    refine { h.append [l] with shopifyOauth := fun nonce hnonce => ?_ }
    cases hnonce
    exact .last ⟨loaded, env, hl, hshop, rfl, rfl⟩
  · cases hd

theorem compareDigest_eq_true {a b : Str} (h : compareDigest a b = some true) : a = b := by
  unfold compareDigest at h
  split at h
  · exact beq_iff_eq.mp (Option.some.inj h)
  · cases h

theorem callback_traced {query : Query} (h : Traced settings s₀ ls data)
    (hl : Handles (.shopifyCallback query) data env (run (System.step settings) s₀ ls) l)
    (hd : (completeShopifyOauth settings query env data).data = some data') :
    Traced settings s₀ (ls ++ [l]) data' := by
  have hpopped := h.popNonce.append [l]
  unfold completeShopifyOauth at hd
  split at hd
  case h_1 nonce hverified hnonce =>
    dsimp only at hd
    split at hd
    · cases hd
      exact hpopped
    case isFalse hage =>
      split at hd
      · cases hd
      · cases hd
        exact hpopped
      case h_3 hstate =>
        split at hd
        · cases hd
          exact hpopped
        case isFalse hshop =>
          split at hd
          · cases hd
          · cases hd
          case h_3 scope credentials hexchange =>
            split at hd
            · cases hd
              refine { hpopped with shopifyPending := fun pending hpending => ?_ }
              cases hpending
              rw [not_or, not_not] at hshop
              exact ⟨ls, l, [], nonce, rfl, ⟨query, data, env, hl, hnonce, hverified,
                compareDigest_eq_true hstate, hshop.1, not_lt.mp hage, hshop.1.symm, rfl⟩,
                h.shopifyOauth nonce hnonce⟩
            · cases hd
              exact hpopped
  · cases hd

theorem link_traced (h : Traced settings s₀ ls data)
    (hd : (shopifyLink env db data).2.data = some data') : Traced settings s₀ ls data' := by
  unfold shopifyLink at hd
  split at hd
  · split at hd
    · cases hd
    · split at hd
      · cases hd
        exact h.popInstallation
      · split at hd
        · cases hd
        · cases hd
          exact h.popInstallation
        · cases hd
          exact h.popInstallation
  · cases hd

theorem view_allowed {request : Request}
    (hd : (request.view settings env db data).2.data = some data') : env.allowed = true := by
  unfold Request.view at hd
  split at hd
  case isTrue h => exact h
  case isFalse => cases hd

theorem view_traced {request : Request} (hsigns : settings.SignsIn)
    (h : Traced settings s₀ ls data)
    (hl : Handles request data env (run (System.step settings) s₀ ls) l)
    (hd : (request.view settings env (run (System.step settings) s₀ ls).db data).2.data =
      some data') : Traced settings s₀ (ls ++ [l]) data' := by
  have hallowed := view_allowed hd
  unfold Request.view at hd
  rw [if_pos hallowed] at hd
  cases request with
  | login email password => exact login_traced hsigns h hl hd
  | loginTotp code => exact loginTotp_traced hsigns h hl hd
  | logout =>
    simp only [logout] at hd
    split at hd <;> cases hd
  | adminLogin username password otpCode => exact adminLogin_traced hsigns h hl hd
  | shopifyInstall shop => exact install_traced h hl hd
  | shopifyCallback query => exact callback_traced h hl hd
  | shopifyLink => exact (link_traced h hd).append [l]

/-- Of the requests that read their user, only the start of an installation writes to a new
session. -/
theorem flushed_traced {request : Request} (hflushes : request.flushes env db data = true)
    (hl : Handles request data env (run (System.step settings) s₀ ls) l)
    (hd : (request.view settings env db {}).2.data = some data') :
    Traced settings s₀ (ls ++ [l]) data' := by
  have hallowed := view_allowed hd
  unfold Request.view at hd
  rw [if_pos hallowed] at hd
  cases request with
  | login email password => cases hflushes
  | loginTotp code => cases hflushes
  | logout => cases hd
  | adminLogin username password otpCode => cases hflushes
  | shopifyInstall shop => exact install_traced traced_empty hl hd
  | shopifyCallback query => simp [completeShopifyOauth, Change.data] at hd
  | shopifyLink => cases hd

theorem handle_traced {request : Request} {n : ℕ} {key : Option ℕ} (hsigns : settings.SignsIn)
    (h : Traced settings s₀ ls data)
    (hn : (run (System.step settings) s₀ ls).requests[n]? = some (.loaded request ⟨key, data⟩))
    (hd : (request.handle settings env (run (System.step settings) s₀ ls).db data).2.data =
      some data') : Traced settings s₀ (ls ++ [.handle n env]) data' := by
  unfold Request.handle at hd
  split at hd
  case isTrue hflushes =>
    have hview : (request.view settings env (run (System.step settings) s₀ ls).db {}).2.data =
        some data' := (Change.flushed_data _).symm.trans hd
    exact flushed_traced hflushes ⟨n, key, rfl, hn, view_allowed hview⟩ hview
  case isFalse => exact view_traced hsigns h ⟨n, key, rfl, hn, view_allowed hd⟩ hd

end Handled

section Run

structure Sound (settings : Settings σ) (s₀ : System σ) (ls : List Label) (s : System σ) :
    Prop where
  stored : ∀ key data, settings.sessions.stored s.store key = some data → Traced settings s₀ ls data
  loaded : ∀ (n : ℕ) request (session : Copy Data),
    s.requests[n]? = some (.loaded request session) → Traced settings s₀ ls session.data
  handled : ∀ (n : ℕ) key (change : Change Data) data,
    s.requests[n]? = some (.handled key change) → change.data = some data →
      Traced settings s₀ ls data

theorem Sound.append (h : Sound settings s₀ ls s) (ls' : List Label) :
    Sound settings s₀ (ls ++ ls') s where
  stored key data hk := (h.stored key data hk).append ls'
  loaded n request session hn := (h.loaded n request session hn).append ls'
  handled n key change data hn hd := (h.handled n key change data hn hd).append ls'

theorem Sound.put {n : ℕ} {stage : Stage} {db : Database} (h : Sound settings s₀ ls s)
    (hstage : ∀ key change data, stage = .handled key change → change.data = some data →
      Traced settings s₀ ls data)
    (hnew : ∀ request session, stage ≠ .loaded request session) :
    Sound settings s₀ ls { s with db := db, requests := s.requests.set n stage } where
  stored := h.stored
  loaded i request session hi := by
    rcases getElem?_set_cases hi with ⟨-, heq⟩ | ⟨-, hi⟩
    · exact absurd heq.symm (hnew request session)
    · exact h.loaded i request session hi
  handled i key change data hi hd := by
    rcases getElem?_set_cases hi with ⟨-, heq⟩ | ⟨-, hi⟩
    · exact hstage key change data heq.symm hd
    · exact h.handled i key change data hi hd

theorem step_sound (hsigns : settings.SignsIn) (hkeeps : settings.sessions.Keeps {})
    (h : Sound settings s₀ ls (run (System.step settings) s₀ ls)) (l : Label) :
    Sound settings s₀ (ls ++ [l]) ((run (System.step settings) s₀ ls).step settings l) := by
  have happ := h.append [l]
  cases l with
  | arrive request cookie =>
    refine ⟨happ.stored, fun n request' session hn => ?_, fun n key change data hn hd => ?_⟩
    · rcases getElem?_append_singleton hn with hn | heq
      · exact happ.loaded n request' session hn
      · cases heq
        rcases hkeeps.load (run (System.step settings) s₀ ls).store cookie with hempty | ⟨k, hk⟩
        · rw [hempty]
          exact traced_empty
        · exact happ.stored k _ hk
    · rcases getElem?_append_singleton hn with hn | heq
      · exact happ.handled n key change data hn hd
      · cases heq
  | handle n env =>
    simp only [System.step]
    split
    case h_1 request session hn =>
      refine happ.put (fun key change data heq hd => ?_) (by simp)
      cases heq
      exact handle_traced hsigns (h.loaded n request session hn) hn hd
    · exact happ
  | settle n =>
    simp only [System.step]
    split
    case h_1 key change hn =>
      have hput : Sound settings s₀ (ls ++ [.settle n]) { run (System.step settings) s₀ ls with
          requests := (run (System.step settings) s₀ ls).requests.set n .answered } :=
        happ.put (by simp) (by simp)
      refine ⟨fun k data hk => ?_, hput.loaded, hput.handled⟩
      rcases hkeeps.settle _ _ _ _ _ hk with hk | hd
      · exact happ.stored k data hk
      · exact happ.handled n key change data hn hd
    · exact happ
  | others users passwords loginMerchant managers =>
    exact ⟨happ.stored, happ.loaded, happ.handled⟩

theorem run_sound (hsigns : settings.SignsIn) (hkeeps : settings.sessions.Keeps {})
    (hs₀ : Sound settings s₀ [] s₀) (ls : List Label) :
    Sound settings s₀ ls (run (System.step settings) s₀ ls) := by
  have hrun : run (System.step settings) s₀ ls = run (System.step settings) s₀ ls ∧
      Sound settings s₀ ls (run (System.step settings) s₀ ls) := by
    apply run_history
      (P := fun h s => s = run (System.step settings) s₀ h ∧ Sound settings s₀ h s)
    · exact ⟨rfl, hs₀⟩
    · rintro h s l ⟨rfl, hs⟩
      exact ⟨(run_snoc _ _ _ _).symm, step_sound hsigns hkeeps hs l⟩
  exact hrun.2

end Run

end ReviewFlow.Sessions
