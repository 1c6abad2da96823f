import ReviewFlow.Sessions.Provenance

/-!
# What a stored session and a linked shop tell of the run

A session that says who a user is was written by a login of that user, and a shop that is linked was
installed by Shopify and linked from a session of one of the merchant's managers.
-/

namespace ReviewFlow.Sessions

open Python Interleaving SessionStore RowLocks
open TwoFactor (User Library)
open Integrations.Callback (Query)

variable {σ : Type} {settings : Settings σ} {s₀ s : System σ} {ls : List Label}
  {u merchantId : Uuid} {data : Data} {env : Env} {shop : Str}

theorem start_sound (hkeeps : settings.sessions.Keeps {}) (users : Uuid → Option User)
    (passwords : Str → Str → Option Uuid) (loginMerchant : Uuid → Option Uuid)
    (managers : Uuid → Uuid → Bool) :
    Sound settings (.start settings users passwords loginMerchant managers) []
      (.start settings users passwords loginMerchant managers) := by
  constructor <;> simp [System.start, hkeeps.empty]

/-- However the requests interleave, each field of each stored session comes from the steps that
may write it: a user from a password, and from a second factor on a marker of that password where
the user is enrolled, and the administration from a password with a second factor. -/
theorem sessions_traced (settings : Settings σ) (hsigns : settings.SignsIn)
    (hkeeps : settings.sessions.Keeps {}) (users : Uuid → Option User)
    (passwords : Str → Str → Option Uuid) (loginMerchant : Uuid → Option Uuid)
    (managers : Uuid → Uuid → Bool) (ls : List Label) (key : ℕ) (data : Data)
    (h : settings.sessions.stored (run (System.step settings)
      (.start settings users passwords loginMerchant managers) ls).store key = some data) :
    Traced settings (.start settings users passwords loginMerchant managers) ls data :=
  (run_sound hsigns hkeeps (start_sound hkeeps users passwords loginMerchant managers) ls).stored
    key data h

section Example

def plainSignIn (sameHash : Bool) (data : Data) (u : Uuid) : Bool × Data :=
  match data.authUser with
  | none => (true, { data with authUser := some u })
  | some other =>
    if other = u ∧ sameHash = true then (false, data) else (true, { authUser := some u })

def oneTimeSettings : Settings (Rows Data) where
  lib := ⟨fun _ _ => text "123456", fun code => code, fun code => code⟩
  hmac _ _ := text "00"
  shopify := ⟨text "secret", []⟩
  sessions := Rows.backend {}
  signIn := plainSignIn

theorem oneTimeSettings_signsIn : oneTimeSettings.SignsIn where
  anonymous sameHash data u h := by simp [oneTimeSettings, plainSignIn, h]
  same sameHash data u h := by cases sameHash <;> simp [oneTimeSettings, plainSignIn, h]
  another sameHash data u other h hne := by simp [oneTimeSettings, plainSignIn, h, hne]

def enrolledUser : User where
  isActive := true
  isStaff := false
  totpSecret := some (text "SECRET")
  totpConfirmedAt := some 0
  totpLastUsedStep := none
  totpRecoveryCodeHashes := []

def envAt (now : Time) : Env where
  allowed := true
  sameHash := true
  totp := ⟨now, now, [], [], fun _ => true, true, true, true⟩
  raced := false
  state := text "state"
  exchange := .bundle (text "read_orders") (text "credentials")
  later := now
  link := .linked

def shopName : Str := text "a.myshopify.com"

def callbackQuery : Query where
  items := [(text "hmac", text "00"), (text "shop", shopName), (text "state", text "state")]
  nodup := by decide

/-- A shop is installed in an anonymous session, and an enrolled user logs in to it. -/
def installedLogin : List Label :=
  [.arrive (.shopifyInstall shopName) none, .handle 0 (envAt 10), .settle 0,
    .arrive (.shopifyCallback callbackQuery) (some 0), .handle 1 (envAt 20), .settle 1,
    .arrive (.login (text "a@b.c") (text "password")) (some 0), .handle 2 (envAt 30), .settle 2,
    .arrive (.loginTotp (text "123456")) (some 1), .handle 3 (envAt (seconds 45)), .settle 3]

theorem sessions_traced_twoSteps :
    ∃ data : Data, data.authUser = some 3 ∧ data.merchantId = some 7 ∧
      data.shopifyPending = some ⟨shopName, text "credentials", 20⟩ ∧
      Traced oneTimeSettings (.start oneTimeSettings (fun _ => some enrolledUser)
        (fun _ _ => some 3) (fun _ => some 7) fun _ _ => true) installedLogin data :=
  ⟨{ authUser := some 3, merchantId := some 7,
     shopifyPending := some ⟨shopName, text "credentials", 20⟩ }, rfl, rfl, rfl,
    sessions_traced oneTimeSettings oneTimeSettings_signsIn (Rows.backend_keeps _)
      (fun _ => some enrolledUser) (fun _ _ => some 3) (fun _ => some 7) (fun _ _ => true)
      installedLogin 2 _ rfl⟩

end Example

section Links

/-- A request of a session that holds an installation of the shop, and in which a manager of the
merchant is logged in to it, links the shop. -/
def Linked (settings : Settings σ) (s₀ : System σ) (ls : List Label) (merchantId : Uuid)
    (shop : Str) : Prop :=
  ∃ ls₁ l ls₂ u data env pending, ls = ls₁ ++ l :: ls₂ ∧
    Handles .shopifyLink data env (run (System.step settings) s₀ ls₁) l ∧
    data.authUser = some u ∧ data.merchantId = some merchantId ∧
    (run (System.step settings) s₀ ls₁).db.managers u merchantId = true ∧
    data.shopifyPending = some pending ∧ pending.shop = shop ∧
    env.now - pending.issuedAt ≤ pendingMaxAge ∧
    Entered settings s₀ ls₁ u merchantId ∧ Installed settings s₀ ls₁ pending

theorem Linked.append (h : Linked settings s₀ ls merchantId shop) (ls' : List Label) :
    Linked settings s₀ (ls ++ ls') merchantId shop := by
  obtain ⟨ls₁, l, ls₂, u, data, env, pending, rfl, h⟩ := h
  exact ⟨ls₁, l, ls₂ ++ ls', u, data, env, pending, by simp, h⟩

/-- What a request adds to the integrations, and where. -/
def Adds (request : Request) (env : Env) (db : Database) (data : Data) (db' : Database) : Prop :=
  db'.integrations = db.integrations ∨
    ∃ u merchantId pending, request = .shopifyLink ∧ env.allowed = true ∧
      db.requestUser data = some u ∧ data.merchantId = some merchantId ∧
      db.managers u merchantId = true ∧ data.shopifyPending = some pending ∧
      env.now - pending.issuedAt ≤ pendingMaxAge ∧
      db'.integrations = db.integrations ++ [(merchantId, pending.shop)]

theorem view_adds (settings : Settings σ) (env : Env) (db : Database) (data : Data)
    (request : Request) : Adds request env db data (request.view settings env db data).1 := by
  unfold Request.view
  split
  case isFalse => exact .inl rfl
  case isTrue hallowed =>
    cases request with
    | login email password => exact .inl rfl
    | loginTotp code =>
      left
      simp only [loginTotp]
      split
      · rfl
      · split
        · rfl
        · rfl
        · split <;> rfl
    | logout => exact .inl rfl
    | adminLogin username password otpCode =>
      left
      simp only [adminLogin]
      split
      · rfl
      · split
        · rfl
        · split
          · rfl
          · split <;> rfl
    | shopifyInstall shop => exact .inl rfl
    | shopifyCallback query => exact .inl rfl
    | shopifyLink =>
      simp only [shopifyLink]
      split
      case h_1 u merchantId pending hu hm hp =>
        split
        · exact .inl rfl
        case isFalse hmanages =>
          split
          · exact .inl rfl
          case isFalse hage =>
            split
            · exact .inl rfl
            · exact .inl rfl
            · exact .inr ⟨u, merchantId, pending, rfl, hallowed, hu, hm, by simpa using hmanages,
                hp, not_lt.mp hage, rfl⟩
      · exact .inl rfl

theorem handle_adds (settings : Settings σ) (env : Env) (db : Database) (data : Data)
    (request : Request) : Adds request env db data (request.handle settings env db data).1 := by
  unfold Request.handle
  split
  · rcases view_adds settings env db {} request with hsame | ⟨u, -, -, -, -, hu, -⟩
    · exact .inl hsame
    · cases hu
  · exact view_adds settings env db data request

theorem step_linked (hsound : Sound settings s₀ ls (run (System.step settings) s₀ ls))
    (h : ∀ p ∈ (run (System.step settings) s₀ ls).db.integrations, Linked settings s₀ ls p.1 p.2)
    (l : Label) : ∀ p ∈ ((run (System.step settings) s₀ ls).step settings l).db.integrations,
      Linked settings s₀ (ls ++ [l]) p.1 p.2 := by
  have happ : ∀ p ∈ (run (System.step settings) s₀ ls).db.integrations,
      Linked settings s₀ (ls ++ [l]) p.1 p.2 := fun p hp => (h p hp).append [l]
  cases l with
  | arrive request cookie => exact happ
  | handle n env =>
    simp only [System.step]
    split
    case h_1 request session hn =>
      intro p hp
      rcases handle_adds settings env (run (System.step settings) s₀ ls).db session.data
        request with heq | ⟨u, merchantId, pending, rfl, hallowed, hu, hm, hmanages, hp', hage, heq⟩
      · exact happ p (heq ▸ hp)
      · rw [heq] at hp
        rcases List.mem_append.mp hp with hp | hp
        · exact happ p hp
        · rw [List.mem_singleton.mp hp]
          have htraced := hsound.loaded n _ session hn
          have hauth : session.data.authUser = some u := (Option.filter_eq_some_iff.mp hu).1
          obtain ⟨u', hu', hentered⟩ := htraced.merchantId merchantId hm
          obtain rfl : u' = u := Option.some.inj (hu'.symm.trans hauth)
          exact ⟨ls, _, [], u', session.data, env, pending, rfl,
            ⟨n, session.key, rfl, hn, hallowed⟩, hauth, hm, hmanages, hp', rfl, hage, hentered,
            htraced.shopifyPending pending hp'⟩
    · exact happ
  | settle n =>
    simp only [System.step]
    split <;> exact happ
  | others users passwords loginMerchant managers => exact happ

/-- Each shop that is linked to a merchant was installed, with a callback that Shopify signed and
the state that was given out for it, and was linked in time from a session that holds the
installation, by a manager of the merchant who had logged in to it. -/
theorem links_traced (settings : Settings σ) (hsigns : settings.SignsIn)
    (hkeeps : settings.sessions.Keeps {}) (users : Uuid → Option User)
    (passwords : Str → Str → Option Uuid) (loginMerchant : Uuid → Option Uuid)
    (managers : Uuid → Uuid → Bool) (ls : List Label) :
    ∀ p ∈ (run (System.step settings) (.start settings users passwords loginMerchant managers)
      ls).db.integrations,
      Linked settings (.start settings users passwords loginMerchant managers) ls p.1 p.2 := by
  let s₀ : System σ := .start settings users passwords loginMerchant managers
  have hrun : run (System.step settings) s₀ ls = run (System.step settings) s₀ ls ∧
      ∀ p ∈ (run (System.step settings) s₀ ls).db.integrations, Linked settings s₀ ls p.1 p.2 := by
    apply run_history (P := fun h s => s = run (System.step settings) s₀ h ∧
      ∀ p ∈ s.db.integrations, Linked settings s₀ h p.1 p.2)
    · exact ⟨rfl, by simp [s₀, System.start]⟩
    · rintro h s l ⟨rfl, hs⟩
      have hsound := run_sound hsigns hkeeps
        (start_sound hkeeps users passwords loginMerchant managers) h
      exact ⟨(run_snoc _ _ _ _).symm, step_linked hsound hs l⟩
  exact hrun.2

def installedLink : List Label :=
  installedLogin ++ [.arrive .shopifyLink (some 2), .handle 4 (envAt (seconds 60)), .settle 4]

theorem links_traced_shop :
    Linked oneTimeSettings (.start oneTimeSettings (fun _ => some enrolledUser)
      (fun _ _ => some 3) (fun _ => some 7) fun _ _ => true) installedLink 7 shopName :=
  links_traced oneTimeSettings oneTimeSettings_signsIn (Rows.backend_keeps _)
    (fun _ => some enrolledUser) (fun _ _ => some 3) (fun _ => some 7) (fun _ _ => true)
    installedLink (7, shopName) (List.mem_singleton_self _)

end Links

end ReviewFlow.Sessions
