import ReviewFlow.Exceptions
import ReviewFlow.GoogleReviews.BusinessProfile
import ReviewFlow.Integrations.Escapes

/-!
# What Google's answers can raise

The callers of the provider catch its four errors. Which answers, and which arguments, make it raise
something else.
-/

namespace ReviewFlow.Integrations.Google

open Python
open Exceptions (Only bind_eq_ok)

/-- A call returns or raises one of the four errors. -/
def OnlyGoogle {α : Type} (r : Reply α) : Prop := Only (fun failure => ∃ g, failure = .google g) r

def received : Answer → Option Dict
  | .answered status (.loaded (.dict body) _) => if IsSuccess status then some body else none
  | _ => none

/-- Nothing is raised past `_call`, and no body that is nested too deeply is read. -/
def Readable (reads : ℕ → Prop) : Answer → Prop
  | .raised _ => False
  | .answered status .tooDeep => ¬ reads status
  | _ => True

def nextOf (answer : Answer) : Option Str :=
  (received answer).bind fun body => textOf (Dict.get body (text "nextPageToken"))

def ExpiryFits (rt : GoogleRuntime) (now : ℤ) (answer : Answer) : Prop :=
  ∀ body, received answer = some body →
    ∀ accessToken expiresIn, usableToken body = .ok (accessToken, expiresIn) →
    ∃ delta, timedelta rt expiresIn = .ok delta ∧ now + delta ≤ maxDatetime

def Hashable : Json → Prop
  | .list _ => False
  | .dict _ => False
  | _ => True

/-- Every review with an id has a rating that is no list and no dict, and the average rating is no
NaN. -/
def ReviewsFit (rt : GoogleRuntime) (answer : Answer) : Prop :=
  ∀ body, received answer = some body →
    (∀ item ∈ (Dict.get body (text "reviews")).items, textOf (item.field "reviewId") ≠ none →
      Hashable (item.field "starRating")) ∧
    ¬ (isNumber (Dict.get body (text "averageRating")) = true ∧
      Decimal.ofStr? (str rt.py (Dict.get body (text "averageRating"))) = some .nan)

/-- Each page that is asked for is readable, and each page token that is followed by another page
encodes. -/
def PagesFit (net : ℕ → Answer) (left n : ℕ) : Prop :=
  ∀ k < left, (∀ j < k, nextOf (net (n + j)) ≠ none) → Readable IsSuccess (net (n + k)) ∧
    (k + 1 < left → ∀ next, nextOf (net (n + k)) = some next → Encodable next)

/-- The pages from the call `n` on are complete and end before the call `m`. -/
def LastPage (net : ℕ → Answer) (left n m : ℕ) : Prop :=
  ∃ k < left, m = n + k + 1 ∧ (∀ j < k, nextOf (net (n + j)) ≠ none) ∧
    received (net (n + k)) ≠ none ∧
    nextOf (net (n + k)) = none

/-- The same for the accounts one after another. A name with a control character ends the
listing. -/
def LocationsFit (net : ℕ → Answer) : List Str → ℕ → Prop
  | [], _ => True
  | accountName :: names, n => isPath (locationsPath accountName) = true →
    PagesFit net maxLocationPages n ∧ ∀ m, LastPage net maxLocationPages n m →
      LocationsFit net names m

/-- What is read of the pages from the call `n` on and before the call `m`. -/
def pagesRead {α : Type} (read : Dict → List α) (net : ℕ → Answer) (n m : ℕ) : List α :=
  (List.range' n (m - n)).flatMap fun i => ((received (net i)).map read).getD []

def ListingFits (net : ℕ → Answer) : Prop :=
  PagesFit net maxAccountPages 0 ∧ ∀ m, LastPage net maxAccountPages 0 m →
    LocationsFit net (pagesRead readAccounts net 0 m) m

section Replies

variable {α β : Type} {x : Reply α} {f : α → Reply β}
    {path header accessToken : Str} {answer : Answer}

theorem onlyGoogle_ok (a : α) : OnlyGoogle (.ok a : Reply α) := Exceptions.only_ok a

theorem onlyGoogle_google (g : GoogleError) : OnlyGoogle (.error (.google g) : Reply α) :=
  Exceptions.only_error.mpr ⟨g, rfl⟩

theorem not_onlyGoogle (e : Escape) : ¬ OnlyGoogle (raises e : Reply α) := by
  intro h
  obtain ⟨g, hg⟩ := Exceptions.only_error.mp h
  cases hg

theorem onlyGoogle_bind : OnlyGoogle (x >>= f) ↔ OnlyGoogle x ∧ ∀ a, x = .ok a → OnlyGoogle (f a) :=
  Exceptions.only_bind

theorem onlyGoogle_raiseForStatus (status : ℕ) : OnlyGoogle (raiseForStatus status : Reply α) := by
  unfold raiseForStatus
  split
  · exact onlyGoogle_google _
  · split
    · exact onlyGoogle_google _
    · exact onlyGoogle_google _

theorem urlencode_eq_ok {value : Str} {u : Unit} : urlencode value = .ok u ↔ Encodable value := by
  unfold urlencode
  split
  case isTrue h => exact iff_of_true rfl h
  case isFalse h => exact iff_of_false (by simp [raises]) h

theorem onlyGoogle_urlencode {value : Str} : OnlyGoogle (urlencode value) ↔ Encodable value := by
  unfold urlencode
  split
  case isTrue h => exact iff_of_true (onlyGoogle_ok _) h
  case isFalse h => exact iff_of_false (not_onlyGoogle _) h

theorem onlyGoogle_jsonDict {raw : Body} : OnlyGoogle (jsonDict raw) ↔ raw ≠ .tooDeep := by
  cases raw with
  | unreadable => exact iff_of_true (onlyGoogle_google _) nofun
  | tooDeep => exact iff_of_false (not_onlyGoogle _) (fun h => h rfl)
  | loaded v hv =>
    refine iff_of_true ?_ nofun
    cases v with
    | dict body => exact onlyGoogle_ok _
    | _ => exact onlyGoogle_google _

theorem onlyGoogle_errorCode {raw : Body} : OnlyGoogle (errorCode raw) ↔ raw ≠ .tooDeep := by
  cases raw with
  | unreadable => exact iff_of_true (onlyGoogle_ok _) nofun
  | tooDeep => exact iff_of_false (not_onlyGoogle _) (fun h => h rfl)
  | loaded v hv => exact iff_of_true (onlyGoogle_ok _) nofun

theorem readable_answered {reads : ℕ → Prop} {status : ℕ} {raw : Body} :
    Readable reads (.answered status raw) ↔ (reads status → raw ≠ .tooDeep) := by
  cases raw with
  | tooDeep => simp [Readable]
  | _ => simp [Readable]

theorem readable_received {body : Dict} (h : received answer = some body) :
    Readable IsSuccess answer := by
  cases answer with
  | failed => trivial
  | raised e => cases h
  | answered status raw =>
    cases raw with
    | tooDeep => cases h
    | _ => trivial

theorem isHeaderValue_bearer (accessToken : Str) :
    isHeaderValue (text "Bearer " ++ accessToken) = isHeaderValue accessToken := by
  have hbearer : text "Bearer " = [66, 101, 97, 114, 101, 114, 32] := by decide
  simp [hbearer, isHeaderValue]

theorem call_answered {status : ℕ} {body : Body}
    (hpath : isPath path = true)
    (hheader : isHeaderValue header = true) :
    call path header (.answered status body) =
      .ok (if IsSuccess status then 200 else status, body) := by
  simp [call, hpath, hheader]

/-- What is done with the answer to a request that can be sent, by what its success is used for. -/
theorem onlyGoogle_called {reads : ℕ → Prop} {Fits : Prop} (refused : ℕ → Body → Reply α)
    (used : Body → Reply α) (hpath : isPath path = true) (hheader : isHeaderValue header = true)
    (hrefused : ∀ status raw, answer = .answered status raw → ¬ IsSuccess status →
      (OnlyGoogle (refused status raw) ↔ Readable reads answer) ∧ Fits)
    (hused : ∀ status raw, answer = .answered status raw → IsSuccess status →
      (OnlyGoogle (used raw) ↔ Readable reads answer ∧ Fits))
    (hfailed : answer = .failed → Fits) :
    OnlyGoogle (call path header answer >>= fun called =>
      if called.1 ≠ 200 then refused called.1 called.2 else used called.2) ↔
    Readable reads answer ∧ Fits := by
  cases answer with
  | failed =>
    have hcall : call path header .failed = transient "Google is unavailable." := by
      simp [call, hpath, hheader]
    rw [hcall]
    exact iff_of_true (onlyGoogle_google _) ⟨trivial, hfailed rfl⟩
  | raised e =>
    have hcall : call path header (.raised e) = raises e := by
      simp [call, hpath, hheader]
    rw [hcall]
    exact iff_of_false (not_onlyGoogle e) fun h => h.1
  | answered status raw =>
    rw [call_answered hpath hheader]
    by_cases hstatus : IsSuccess status
    · rw [if_pos hstatus]
      exact hused status raw rfl hstatus
    · obtain ⟨hrefuses, hfits⟩ := hrefused status raw rfl hstatus
      rw [if_neg hstatus, and_iff_left hfits, ← hrefuses]
      change OnlyGoogle (if status ≠ 200 then refused status raw else used raw) ↔ _
      rw [if_pos fun h => hstatus (by omega)]

theorem raiseForStatus_ne_ok {status : ℕ} {a : α} : raiseForStatus status ≠ .ok a := by
  unfold raiseForStatus
  split
  · nofun
  · split <;> nofun

theorem jsonDict_received {status : ℕ} {raw : Body} {body : Dict} (h : IsSuccess status) :
    jsonDict raw = .ok body ↔ received (.answered status raw) = some body := by
  cases raw with
  | unreadable => simp [jsonDict, received, transient]
  | tooDeep => simp [jsonDict, received, raises]
  | loaded v hv =>
    cases v with
    | dict items => simp only [jsonDict, received, if_pos h, Except.ok.injEq, Option.some.injEq]
    | _ => simp [jsonDict, received, transient]

theorem received_refused {status : ℕ} (raw : Body) (h : ¬ IsSuccess status) :
    received (.answered status raw) = none := by
  cases raw with
  | loaded v hv => cases v <;> simp [received, h]
  | _ => rfl

theorem onlyGoogle_getJson : OnlyGoogle (getJson path accessToken answer) ↔
    (isPath path = true → isHeaderValue accessToken = true ∧ Readable IsSuccess answer) := by
  have hbearer := isHeaderValue_bearer accessToken
  cases hpath : isPath path with
  | false =>
    have hcall : call path (text "Bearer " ++ accessToken) answer =
        transient "Google is unavailable." := by
      simp [call, hpath]
    rw [getJson, hcall]
    exact iff_of_true (onlyGoogle_google _) nofun
  | true =>
    cases hheader : isHeaderValue accessToken with
    | false =>
      have hcall : call path (text "Bearer " ++ accessToken) answer = raises .valueError := by
        simp [call, hpath, hbearer, hheader]
      rw [getJson, hcall]
      exact iff_of_false (not_onlyGoogle _) (by simp)
    | true =>
      rw [forall_prop_of_true rfl, and_iff_right rfl, ← and_true (Readable IsSuccess answer)]
      refine onlyGoogle_called (fun status _ => raiseForStatus status) jsonDict hpath
        (hbearer.trans hheader) (fun status raw hanswer hstatus => ?_)
        (fun status raw hanswer hstatus => ?_) fun _ => trivial
      · rw [hanswer, readable_answered, and_iff_left trivial]
        exact iff_of_true (onlyGoogle_raiseForStatus status) fun h => absurd h hstatus
      · rw [hanswer, readable_answered, and_iff_left trivial, onlyGoogle_jsonDict]
        exact ⟨fun h _ => h, fun h => h hstatus⟩

theorem getJson_eq_ok {body : Dict} : getJson path accessToken answer = .ok body ↔
    isPath path = true ∧ isHeaderValue accessToken = true ∧ received answer = some body := by
  cases hpath : isPath path with
  | false => simp [getJson, call, hpath, transient, bind, Except.bind]
  | true =>
    have hbearer := isHeaderValue_bearer accessToken
    cases hheader : isHeaderValue accessToken with
    | false =>
      rw [hheader] at hbearer
      simp [getJson, call, hpath, hbearer, raises, bind, Except.bind]
    | true =>
      rw [hheader] at hbearer
      cases answer with
      | failed => simp [getJson, call, hpath, hbearer, received, transient, bind, Except.bind]
      | raised e => simp [getJson, call, hpath, hbearer, received, raises, bind, Except.bind]
      | answered status raw =>
        rw [getJson, call_answered hpath hbearer]
        simp only [bind, Except.bind, true_and]
        by_cases hstatus : IsSuccess status
        · simp only [if_pos hstatus, ne_eq, not_true_eq_false, if_false]
          exact jsonDict_received hstatus
        · have hrefused : ¬ status = 200 := fun h => hstatus (by omega)
          simp only [if_neg hstatus, ne_eq, hrefused, not_false_eq_true, if_true,
            received_refused raw hstatus]
          exact iff_of_false raiseForStatus_ne_ok nofun

end Replies

section Tokens

variable {rt : GoogleRuntime} {now : ℤ} {answer : Answer} {form : Str}

theorem onlyGoogle_expiresAt {expiresIn : Json} : OnlyGoogle (expiresAt rt now expiresIn) ↔
    ∃ delta, timedelta rt expiresIn = .ok delta ∧ now + delta ≤ maxDatetime := by
  unfold expiresAt
  cases timedelta rt expiresIn with
  | error e => exact iff_of_false (not_onlyGoogle e) (by simp)
  | ok delta =>
    by_cases h : now + delta ≤ maxDatetime
    · simp [h, onlyGoogle_ok]
    · simp [h, not_onlyGoogle]

theorem onlyGoogle_usableToken (body : Dict) : OnlyGoogle (usableToken body) := by
  unfold usableToken
  dsimp only
  split
  · exact onlyGoogle_google _
  · split
    · exact onlyGoogle_google _
    · exact onlyGoogle_ok _

theorem tokenRequest_encodes (h : Encodable form) :
    tokenRequest form answer = call (text "/token") (text "application/json") answer := by
  rw [tokenRequest, urlencode, if_pos h]
  rfl

theorem tokenRequest_raises (h : ¬ Encodable form) :
    tokenRequest form answer = raises .unicodeEncodeError := by
  rw [tokenRequest, urlencode, if_neg h]
  rfl

theorem onlyGoogle_body {α : Type} {result : Dict → Str → ℤ → α}
    {raw : Body} :
    OnlyGoogle (do
      let body ← jsonDict raw
      let (accessToken, expiresIn) ← usableToken body
      let expires ← expiresAt rt now expiresIn
      return result body accessToken expires) ↔
    raw ≠ .tooDeep ∧ ∀ body, jsonDict raw = .ok body →
      ∀ accessToken expiresIn, usableToken body = .ok (accessToken, expiresIn) →
      ∃ delta, timedelta rt expiresIn = .ok delta ∧ now + delta ≤ maxDatetime := by
  rw [onlyGoogle_bind, onlyGoogle_jsonDict]
  refine and_congr_right fun _ => forall₂_congr fun body _ => ?_
  rw [onlyGoogle_bind, and_iff_right (onlyGoogle_usableToken body)]
  constructor
  · intro h accessToken expiresIn husable
    exact onlyGoogle_expiresAt.mp (onlyGoogle_bind.mp (h (accessToken, expiresIn) husable)).1
  · rintro h ⟨accessToken, expiresIn⟩ husable
    exact onlyGoogle_bind.mpr
      ⟨onlyGoogle_expiresAt.mpr (h accessToken expiresIn husable), fun _ _ => onlyGoogle_ok _⟩

theorem onlyGoogle_token {α : Type} {reads : ℕ → Prop} (refused : ℕ → Body → Reply α)
    (result : Dict → Str → ℤ → α) (hreads : ∀ status, IsSuccess status → reads status)
    (hrefused : ∀ status raw, ¬ IsSuccess status →
      (OnlyGoogle (refused status raw) ↔ (reads status → raw ≠ .tooDeep))) :
    OnlyGoogle (do
      let (status, raw) ← tokenRequest form answer
      if status ≠ 200 then refused status raw
      else do
        let body ← jsonDict raw
        let (accessToken, expiresIn) ← usableToken body
        let expires ← expiresAt rt now expiresIn
        return result body accessToken expires) ↔
    Encodable form ∧ Readable reads answer ∧ ExpiryFits rt now answer := by
  by_cases hform : Encodable form
  · have hpath : isPath (text "/token") = true := by decide
    have hheader : isHeaderValue (text "application/json") = true := by decide
    rw [tokenRequest_encodes hform, and_iff_right hform]
    let used (raw : Body) : Reply α := do
      let body ← jsonDict raw
      let (accessToken, expiresIn) ← usableToken body
      let expires ← expiresAt rt now expiresIn
      return result body accessToken expires
    refine onlyGoogle_called refused used hpath hheader (fun status raw hanswer hstatus => ?_)
      (fun status raw hanswer hstatus => ?_) fun hanswer => ?_
    · subst hanswer
      rw [readable_answered, hrefused status raw hstatus, ExpiryFits, received_refused raw hstatus]
      exact ⟨Iff.rfl, nofun⟩
    · subst hanswer
      rw [readable_answered, onlyGoogle_body, forall_prop_of_true (hreads status hstatus)]
      simp only [ExpiryFits, ← jsonDict_received hstatus]
    · subst hanswer
      exact nofun
  · rw [tokenRequest_raises hform]
    exact iff_of_false (not_onlyGoogle _) fun h => hform h.1

theorem onlyGoogle_exchangeCode : OnlyGoogle (exchangeCode rt now form answer) ↔
    Encodable form ∧ Readable IsSuccess answer ∧ ExpiryFits rt now answer :=
  onlyGoogle_token (fun status _ => raiseForStatus status) exchangeResult (fun _ h => h)
    fun status _ hstatus =>
      iff_of_true (onlyGoogle_raiseForStatus status) fun h => absurd h hstatus

theorem onlyGoogle_raiseForRefresh {α : Type} {status : ℕ} {raw : Body} :
    OnlyGoogle (raiseForRefresh status raw : Reply α) ↔ (status = 400 → raw ≠ .tooDeep) := by
  unfold raiseForRefresh
  split
  case isTrue h =>
    rw [forall_prop_of_true h, onlyGoogle_bind, onlyGoogle_errorCode, and_iff_left]
    intro error _
    cases error with
    | none => exact onlyGoogle_raiseForStatus status
    | some error =>
      dsimp only
      split
      · exact onlyGoogle_google _
      · exact onlyGoogle_raiseForStatus status
  case isFalse h => exact iff_of_true (onlyGoogle_raiseForStatus status) fun h' => absurd h' h

theorem onlyGoogle_refresh : OnlyGoogle (refresh rt now form answer) ↔
    Encodable form ∧ Readable (fun status => IsSuccess status ∨ status = 400) answer ∧
      ExpiryFits rt now answer := by
  refine onlyGoogle_token raiseForRefresh tokenSet (fun _ => .inl) fun status raw hstatus => ?_
  rw [onlyGoogle_raiseForRefresh, or_iff_right hstatus]

end Tokens

def alone (rt : GoogleRuntime) (item : Json) : List ProviderReview :=
  match parseReview rt item with
  | .ok review => review.toList
  | .error _ => []

section Reviews

variable {rt : GoogleRuntime} {answer : Answer} {accessToken : Str}

theorem onlyGoogle_starRating {value : Json} : OnlyGoogle (starRating value) ↔ Hashable value := by
  cases value with
  | list items => exact iff_of_false (not_onlyGoogle _) id
  | dict items => exact iff_of_false (not_onlyGoogle _) id
  | _ => exact iff_of_true (onlyGoogle_ok _) trivial

theorem starRating_hashable {value : Json} (h : Hashable value) :
    ∃ rating, starRating value = .ok rating := by
  cases value with
  | list items => exact h.elim
  | dict items => exact h.elim
  | _ => exact ⟨_, rfl⟩

theorem parseReview_cases (item : Json) :
    (OnlyGoogle (parseReview rt item) ↔
      (textOf (item.field "reviewId") ≠ none → Hashable (item.field "starRating"))) ∧
    (OnlyGoogle (parseReview rt item) → ∃ review, parseReview rt item = .ok review) := by
  unfold parseReview
  cases textOf (item.field "reviewId") with
  | none => exact ⟨iff_of_true (onlyGoogle_ok _) (by simp), fun _ => ⟨none, rfl⟩⟩
  | some reviewId =>
    dsimp only
    rw [onlyGoogle_bind, onlyGoogle_starRating]
    refine ⟨⟨fun h _ => h.1, fun h => ⟨h nofun, fun _ _ => onlyGoogle_ok _⟩⟩, fun h => ?_⟩
    obtain ⟨rating, hrating⟩ := starRating_hashable h.1
    rw [hrating]
    exact ⟨_, rfl⟩

theorem onlyGoogle_parseReviews {items : List Json} : OnlyGoogle (parseReviews rt items) ↔
    ∀ item ∈ items, textOf (item.field "reviewId") ≠ none → Hashable (item.field "starRating") := by
  induction items with
  | nil => exact iff_of_true (onlyGoogle_ok _) (by simp)
  | cons item items ih =>
    rw [parseReviews, onlyGoogle_bind, List.forall_mem_cons, ← (parseReview_cases item).1, ← ih]
    constructor
    · rintro ⟨hitem, hrest⟩
      obtain ⟨review, hreview⟩ := (parseReview_cases item).2 hitem
      exact ⟨hitem, (onlyGoogle_bind.mp (hrest review hreview)).1⟩
    · rintro ⟨hitem, hrest⟩
      exact ⟨hitem, fun review _ => onlyGoogle_bind.mpr ⟨hrest, fun _ _ => onlyGoogle_ok _⟩⟩

theorem parseReviews_ok {items : List Json}
    (h : ∀ item ∈ items, textOf (item.field "reviewId") ≠ none →
      Hashable (item.field "starRating")) :
    ∃ reviews, parseReviews rt items = .ok reviews := by
  induction items with
  | nil => exact ⟨[], rfl⟩
  | cons item items ih =>
    obtain ⟨hitem, hitems⟩ := List.forall_mem_cons.mp h
    obtain ⟨review, hreview⟩ := (parseReview_cases item).2 ((parseReview_cases item).1.mpr hitem)
    obtain ⟨reviews, hreviews⟩ := ih hitems
    exact ⟨review.toList ++ reviews, by rw [parseReviews, hreview, hreviews]; rfl⟩

theorem parseReviews_alone {items : List Json} {reviews : List ProviderReview}
    (h : parseReviews rt items = .ok reviews) : reviews = items.flatMap (alone rt) := by
  induction items generalizing reviews with
  | nil =>
    cases h
    rfl
  | cons item items ih =>
    obtain ⟨review, hreview, h⟩ := bind_eq_ok.mp h
    obtain ⟨rest, hrest, h⟩ := bind_eq_ok.mp h
    cases h
    rw [List.flatMap_cons, ← ih hrest, alone, hreview]

theorem quantizeTenths_finite (negative : Bool) (coefficient : ℕ) (exponent : ℤ) :
    quantizeTenths (.finite negative coefficient exponent) = none ∨
      ∃ tenths, quantizeTenths (.finite negative coefficient exponent) =
        some (.finite negative tenths (-1)) := by
  simp only [quantizeTenths]
  generalize (if -1 ≤ exponent then coefficient * 10 ^ (exponent + 1).toNat
    else roundedQuotient coefficient (10 ^ (-1 - exponent).toNat)) = tenths
  split
  · exact .inr ⟨tenths, rfl⟩
  · exact .inl rfl

theorem onlyGoogle_averageRating {value : Json} : OnlyGoogle (averageRating rt value) ↔
    ¬ (isNumber value = true ∧ Decimal.ofStr? (str rt.py value) = some .nan) := by
  unfold averageRating
  cases isNumber value with
  | false => exact iff_of_true (onlyGoogle_ok _) (by simp)
  | true =>
    cases hread : Decimal.ofStr? (str rt.py value) with
    | none => exact iff_of_true (onlyGoogle_ok _) (by simp)
    | some d =>
      cases d with
      | nan => exact iff_of_false (not_onlyGoogle _) (by simp)
      | infinity negative => exact iff_of_true (onlyGoogle_ok _) (by simp)
      | finite negative coefficient exponent =>
        refine iff_of_true ?_ (by simp)
        rw [Option.bind_some]
        rcases quantizeTenths_finite negative coefficient exponent with hnone | ⟨tenths, htenths⟩
        · rw [hnone]
          exact onlyGoogle_ok _
        · rw [htenths]
          exact onlyGoogle_ok _

theorem isName_path {s : Str} (h : isName s = true) : isPath s = true := by
  rw [isName, Bool.and_eq_true] at h
  refine List.all_eq_true.mpr fun c hc => ?_
  have hchar := List.all_eq_true.mp h.2 c hc
  simp only [isNameChar, isAsciiDigit, Bool.or_eq_true, Bool.and_eq_true, decide_eq_true_eq,
    beq_iff_eq] at hchar
  simp only [Bool.and_eq_true, decide_eq_true_eq, bne_iff_ne]
  omega

theorem isPath_append {s t : Str} : isPath (s ++ t) = (isPath s && isPath t) := List.all_append

theorem reviewsPath_isPath {name : Str} {parent : Str × Str}
    (h : fullLocation? name = some parent) :
    isPath (reviewsPath parent) = true := by
  unfold fullLocation? at h
  split at h
  case h_1 first account second location _ =>
    split at h
    case isTrue hnames =>
      cases h
      simp only [reviewsPath, isPath_append, isName_path hnames.2.1, isName_path hnames.2.2.2]
      decide
    case isFalse => cases h
  case h_2 => cases h

theorem listReviews_alone {name : Str} {pageToken : Option Str} {page : ReviewPage}
    (h : listReviews rt accessToken name pageToken answer = .ok page) :
    ∃ body, received answer = some body ∧
      page.reviews = (Dict.get body (text "reviews")).items.flatMap (alone rt) := by
  unfold listReviews at h
  split at h
  case h_1 => cases h
  case h_2 parent _ =>
    obtain ⟨_, -, h⟩ := bind_eq_ok.mp h
    obtain ⟨body, hbody, h⟩ := bind_eq_ok.mp h
    obtain ⟨reviews, hreviews, h⟩ := bind_eq_ok.mp h
    obtain ⟨average, -, h⟩ := bind_eq_ok.mp h
    cases h
    exact ⟨body, (getJson_eq_ok.mp hbody).2.2, parseReviews_alone hreviews⟩

theorem onlyGoogle_listReviews {name : Str} {pageToken : Option Str} :
    OnlyGoogle (listReviews rt accessToken name pageToken answer) ↔
      (fullLocation? name ≠ none →
        Encodable (pageToken.getD []) ∧ isHeaderValue accessToken = true ∧
        Readable IsSuccess answer ∧ ReviewsFit rt answer) := by
  unfold listReviews
  cases hname : fullLocation? name with
  | none => exact iff_of_true (onlyGoogle_google _) (by simp)
  | some parent =>
    have hpath := reviewsPath_isPath hname
    dsimp only
    rw [onlyGoogle_bind, onlyGoogle_urlencode]
    constructor
    · rintro ⟨htoken, h⟩ -
      have hbody := onlyGoogle_bind.mp (h () (urlencode_eq_ok.mpr htoken))
      obtain ⟨hheader, hreadable⟩ := onlyGoogle_getJson.mp hbody.1 hpath
      refine ⟨htoken, hheader, hreadable, fun body hreceived => ?_⟩
      have hreviews :=
        onlyGoogle_bind.mp (hbody.2 body (getJson_eq_ok.mpr ⟨hpath, hheader, hreceived⟩))
      have hratings := onlyGoogle_parseReviews.mp hreviews.1
      obtain ⟨reviews, hparsed⟩ := parseReviews_ok hratings
      exact ⟨hratings,
        onlyGoogle_averageRating.mp (onlyGoogle_bind.mp (hreviews.2 reviews hparsed)).1⟩
    · intro h
      obtain ⟨htoken, hheader, hreadable, hfit⟩ := h nofun
      refine ⟨htoken, fun _ _ => onlyGoogle_bind.mpr
        ⟨onlyGoogle_getJson.mpr fun _ => ⟨hheader, hreadable⟩, fun body hbody => ?_⟩⟩
      obtain ⟨hratings, haverage⟩ := hfit body (getJson_eq_ok.mp hbody).2.2
      refine onlyGoogle_bind.mpr ⟨onlyGoogle_parseReviews.mpr hratings, fun reviews _ => ?_⟩
      exact onlyGoogle_bind.mpr ⟨onlyGoogle_averageRating.mpr haverage, fun _ _ => onlyGoogle_ok _⟩

end Reviews

section Listing

variable {α : Type} {path accessToken : Str} {tooMany : String} {read : Dict → List α}
  {net : ℕ → Answer} {left n m : ℕ} {token : Option Str} {next : Str}

theorem next_index (n k : ℕ) : n + 1 + k = n + (k + 1) := by omega

theorem pagesFit_last (h : nextOf (net n) = none) :
    PagesFit net (left + 1) n ↔ Readable IsSuccess (net n) := by
  constructor
  · intro hfit
    exact (hfit 0 left.succ_pos nofun).1
  · intro hread k _ hpages
    cases k with
    | zero => exact ⟨hread, fun _ next hnext => by simp [h] at hnext⟩
    | succ k => exact absurd h (hpages 0 k.succ_pos)

theorem pagesFit_next (h : nextOf (net n) = some next) :
    PagesFit net (left + 1) n ↔
      Readable IsSuccess (net n) ∧ (0 < left → Encodable next) ∧ PagesFit net left (n + 1) := by
  constructor
  · intro hfit
    obtain ⟨hread, hencodes⟩ := hfit 0 left.succ_pos nofun
    refine ⟨hread, fun hleft => hencodes (by omega) next h, fun k hk hpages => ?_⟩
    rw [next_index]
    have hpage := hfit (k + 1) (by omega) fun j hj => ?_
    · exact ⟨hpage.1, fun hlast => hpage.2 (by omega)⟩
    · cases j with
      | zero => simp [h]
      | succ j =>
        rw [← next_index]
        exact hpages j (by omega)
  · rintro ⟨hread, hfirst, hfit⟩ k hk hpages
    cases k with
    | zero =>
      refine ⟨hread, fun hleft t ht => ?_⟩
      obtain rfl : next = t := Option.some.inj (h.symm.trans ht)
      exact hfirst (by omega)
    | succ k =>
      rw [← next_index]
      have hpage := hfit k (by omega) fun j hj => ?_
      · exact ⟨hpage.1, fun hlast => hpage.2 (by omega)⟩
      · rw [next_index]
        exact hpages (j + 1) (by omega)

theorem lastPage_unread (h : received (net n) = none) : ¬ LastPage net left n m := by
  rintro ⟨k, -, -, hpages, hread, -⟩
  cases k with
  | zero => exact hread h
  | succ k => exact hpages 0 k.succ_pos (by simp [nextOf, h])

theorem lastPage_last (h : nextOf (net n) = none) (hread : received (net n) ≠ none) :
    LastPage net (left + 1) n m ↔ m = n + 1 := by
  constructor
  · rintro ⟨k, -, rfl, hpages, -⟩
    cases k with
    | zero => rfl
    | succ k => exact absurd h (hpages 0 k.succ_pos)
  · rintro rfl
    exact ⟨0, left.succ_pos, rfl, nofun, hread, h⟩

theorem lastPage_next (h : nextOf (net n) = some next) :
    LastPage net (left + 1) n m ↔ LastPage net left (n + 1) m := by
  constructor
  · rintro ⟨k, hk, rfl, hpages, hread, hlast⟩
    cases k with
    | zero => simp [h] at hlast
    | succ k =>
      rw [← next_index] at hread hlast
      refine ⟨k, by omega, by omega, fun j hj => ?_, hread, hlast⟩
      rw [next_index]
      exact hpages (j + 1) (by omega)
  · rintro ⟨k, hk, rfl, hpages, hread, hlast⟩
    rw [next_index] at hread hlast
    refine ⟨k + 1, by omega, by omega, fun j hj => ?_, hread, hlast⟩
    cases j with
    | zero => simp [h]
    | succ j =>
      rw [← next_index]
      exact hpages j (by omega)

theorem LastPage.lt (h : LastPage net left n m) : n < m := by
  obtain ⟨k, -, rfl, -⟩ := h
  omega

theorem getJson_sent (answer : Answer) (hpath : isPath path = true)
    (hheader : isHeaderValue accessToken = true) :
    (received answer = none ∧ ∃ failure, getJson path accessToken answer = .error failure ∧
        (Readable IsSuccess answer ↔ ∃ g, failure = .google g)) ∨
      ∃ body, received answer = some body ∧ getJson path accessToken answer = .ok body := by
  cases hjson : getJson path accessToken answer with
  | ok body => exact .inr ⟨body, (getJson_eq_ok.mp hjson).2.2, rfl⟩
  | error failure =>
    refine .inl ⟨?_, failure, rfl, ?_⟩
    · cases hreceived : received answer with
      | none => rfl
      | some body => simp [getJson_eq_ok.mpr ⟨hpath, hheader, hreceived⟩] at hjson
    · have honly : OnlyGoogle (getJson path accessToken answer) ↔ _ := onlyGoogle_getJson
      rw [hjson, forall_prop_of_true hpath, and_iff_right hheader] at honly
      exact honly.symm.trans Exceptions.only_error

/-- One turn of the loop over the pages, for a path and a token that can be sent. -/
theorem pages_turn (tooMany : String) (read : Dict → List α) (left : ℕ)
    (hpath : isPath path = true) (hheader : isHeaderValue accessToken = true)
    (htoken : Encodable (token.getD [])) :
    (received (net n) = none ∧
      ∃ failure, pages path accessToken tooMany read net (left + 1) n token = .error failure ∧
        (Readable IsSuccess (net n) ↔ ∃ g, failure = .google g)) ∨
    ∃ body, received (net n) = some body ∧ ((nextOf (net n) = none ∧
        pages path accessToken tooMany read net (left + 1) n token = .ok (read body, n + 1)) ∨
      ∃ next, nextOf (net n) = some next ∧
      pages path accessToken tooMany read net (left + 1) n token = (do
        let (more, last) ← pages path accessToken tooMany read net left (n + 1) (some next)
        return (read body ++ more, last))) := by
  have hsent : urlencode (token.getD []) = .ok () := urlencode_eq_ok.mpr htoken
  rw [pages, hsent]
  rcases getJson_sent (net n) hpath hheader with
    ⟨hnone, failure, hjson, hread⟩ | ⟨body, hbody, hjson⟩
  · exact .inl ⟨hnone, failure, by rw [hjson]; rfl, hread⟩
  · refine .inr ⟨body, hbody, ?_⟩
    have hnext : nextOf (net n) = textOf (Dict.get body (text "nextPageToken")) := by
      rw [nextOf, hbody, Option.bind_some]
    rw [hnext, hjson]
    cases htext : textOf (Dict.get body (text "nextPageToken")) with
    | none => exact .inl ⟨rfl, by simp only [bind, Except.bind, htext]; rfl⟩
    | some next => exact .inr ⟨next, rfl, by simp only [bind, Except.bind, htext]⟩

theorem pages_raises (htoken : ¬ Encodable (token.getD [])) :
    pages path accessToken tooMany read net (left + 1) n token = raises .unicodeEncodeError := by
  rw [pages, urlencode, if_neg htoken]
  rfl

theorem onlyGoogle_pages (hpath : isPath path = true) (hheader : isHeaderValue accessToken = true)
    (htoken : Encodable (token.getD [])) :
    OnlyGoogle (pages path accessToken tooMany read net left n token) ↔ PagesFit net left n := by
  induction left generalizing n token with
  | zero => exact iff_of_true (onlyGoogle_google _) fun k hk => by omega
  | succ left ih =>
    rcases pages_turn tooMany read left hpath hheader htoken with
      ⟨hnone, failure, hpages, hread⟩ | ⟨body, hbody, ⟨hlast, hpages⟩ | ⟨next, hnext, hpages⟩⟩
    · rw [hpages, pagesFit_last (by rw [nextOf, hnone]; rfl), hread]
      exact Exceptions.only_error
    · rw [hpages, pagesFit_last hlast]
      exact iff_of_true (onlyGoogle_ok _) (readable_received hbody)
    · rw [hpages]
      refine (Exceptions.only_map fun _ => ⟨(_, _), rfl⟩).trans ?_
      rw [pagesFit_next hnext, and_iff_right (readable_received hbody)]
      cases left with
      | zero => exact iff_of_true (onlyGoogle_google _) ⟨nofun, fun k hk => by omega⟩
      | succ left =>
        by_cases hencodes : Encodable ((some next).getD [])
        · exact (ih hencodes).trans (and_iff_right fun _ => hencodes).symm
        · rw [pages_raises hencodes]
          exact iff_of_false (not_onlyGoogle _) fun h => hencodes (h.1 left.succ_pos)

theorem pagesRead_last {body : Dict} (hbody : received (net n) = some body) :
    pagesRead read net n (n + 1) = read body := by
  have hone : n + 1 - n = 1 := by omega
  simp [pagesRead, hone, hbody]

theorem pagesRead_next {body : Dict} (hbody : received (net n) = some body) (hlt : n + 1 < m) :
    pagesRead read net n m = read body ++ pagesRead read net (n + 1) m := by
  have hlength : m - n = (m - (n + 1)) + 1 := by omega
  simp [pagesRead, hlength, List.range'_succ, hbody]

theorem pages_eq_ok {found : List α} (hpath : isPath path = true)
    (hheader : isHeaderValue accessToken = true)
    (htoken : Encodable (token.getD [])) (hfit : PagesFit net left n) :
    pages path accessToken tooMany read net left n token = .ok (found, m) ↔
      LastPage net left n m ∧ found = pagesRead read net n m := by
  induction left generalizing n token found with
  | zero =>
    refine iff_of_false nofun ?_
    rintro ⟨⟨k, hk, -⟩, -⟩
    omega
  | succ left ih =>
    rcases pages_turn tooMany read left hpath hheader htoken with
      ⟨hnone, failure, hpages, -⟩ | ⟨body, hbody, ⟨hlast, hpages⟩ | ⟨next, hnext, hpages⟩⟩
    · rw [hpages]
      exact iff_of_false nofun fun h => lastPage_unread hnone h.1
    · rw [hpages, lastPage_last hlast (by simp [hbody])]
      constructor
      · intro h
        cases h
        exact ⟨rfl, (pagesRead_last hbody).symm⟩
      · rintro ⟨rfl, rfl⟩
        rw [pagesRead_last hbody]
    · obtain ⟨-, hencodes, hrest⟩ := (pagesFit_next hnext).mp hfit
      rw [hpages, lastPage_next hnext]
      cases left with
      | zero =>
        refine iff_of_false nofun ?_
        rintro ⟨⟨k, hk, -⟩, -⟩
        omega
      | succ left =>
        have hsome : Encodable ((some next).getD []) := hencodes left.succ_pos
        constructor
        · intro h
          obtain ⟨⟨more, last⟩, hmore, h⟩ := bind_eq_ok.mp h
          cases h
          obtain ⟨hpage, rfl⟩ := (ih hsome hrest).mp hmore
          exact ⟨hpage, (pagesRead_next hbody hpage.lt).symm⟩
        · rintro ⟨hpage, rfl⟩
          rw [(ih hsome hrest).mpr ⟨hpage, rfl⟩, pagesRead_next hbody hpage.lt]
          rfl

theorem encodable_none : Encodable ((none : Option Str).getD []) := by decide

theorem pages_noPath (hpath : isPath path = false) :
    pages path accessToken tooMany read net (left + 1) n none =
      transient "Google is unavailable." := by
  have hcall : call path (text "Bearer " ++ accessToken) (net n) =
      transient "Google is unavailable." := by
    simp [call, hpath]
  rw [pages, getJson, hcall]
  rfl

theorem pages_noHeader (hpath : isPath path = true) (hheader : isHeaderValue accessToken = false) :
    pages path accessToken tooMany read net (left + 1) n none = raises .valueError := by
  have hcall : call path (text "Bearer " ++ accessToken) (net n) = raises .valueError := by
    simp [call, hpath, isHeaderValue_bearer, hheader]
  rw [pages, getJson, hcall]
  rfl

theorem onlyGoogle_locationsFrom {names : List Str} (hheader : isHeaderValue accessToken = true) :
    OnlyGoogle (locationsFrom accessToken net names n) ↔ LocationsFit net names n := by
  induction names generalizing n with
  | nil => exact iff_of_true (onlyGoogle_ok _) trivial
  | cons accountName names ih =>
    rw [locationsFrom, LocationsFit, locationsOf]
    cases hpath : isPath (locationsPath accountName) with
    | false =>
      rw [maxLocationPages, pages_noPath hpath]
      exact iff_of_true (onlyGoogle_google _) nofun
    | true =>
      rw [onlyGoogle_bind, onlyGoogle_pages hpath hheader encodable_none]
      constructor
      · rintro ⟨hfit, hrest⟩ -
        refine ⟨hfit, fun m hlast => ?_⟩
        have hfound :=
          hrest (_, m) ((pages_eq_ok hpath hheader encodable_none hfit).mpr ⟨hlast, rfl⟩)
        exact ih.mp (onlyGoogle_bind.mp hfound).1
      · intro h
        obtain ⟨hfit, hrest⟩ := h rfl
        refine ⟨hfit, ?_⟩
        rintro ⟨found, m⟩ hfound
        have hlast := ((pages_eq_ok hpath hheader encodable_none hfit).mp hfound).1
        exact onlyGoogle_bind.mpr ⟨ih.mpr (hrest m hlast), fun _ _ => onlyGoogle_ok _⟩

theorem onlyGoogle_listLocations :
    OnlyGoogle (listLocations accessToken net) ↔
      isHeaderValue accessToken = true ∧ ListingFits net := by
  have hpath : isPath (text "/v1/accounts") = true := by decide
  rw [listLocations, accountNames]
  cases hheader : isHeaderValue accessToken with
  | false =>
    rw [maxAccountPages, pages_noHeader hpath hheader]
    exact iff_of_false (not_onlyGoogle _) (by simp)
  | true =>
    rw [onlyGoogle_bind, onlyGoogle_pages hpath hheader encodable_none, and_iff_right rfl]
    constructor
    · rintro ⟨hfit, hrest⟩
      refine ⟨hfit, fun m hlast => ?_⟩
      have hnames := hrest (_, m) ((pages_eq_ok hpath hheader encodable_none hfit).mpr ⟨hlast, rfl⟩)
      exact (onlyGoogle_locationsFrom hheader).mp hnames
    · rintro ⟨hfit, hrest⟩
      refine ⟨hfit, ?_⟩
      rintro ⟨names, m⟩ hnames
      obtain ⟨hlast, rfl⟩ := (pages_eq_ok hpath hheader encodable_none hfit).mp hnames
      exact (onlyGoogle_locationsFrom hheader).mpr (hrest m hlast)

end Listing

/-- The calls raise nothing but the four errors, and every review is read as if it were alone,
exactly for the answers and arguments that fit. -/
theorem google_answers (rt : GoogleRuntime) :
    (∀ now code answer, OnlyGoogle (exchangeCode rt now code answer) ↔
      Encodable code ∧ Readable IsSuccess answer ∧ ExpiryFits rt now answer) ∧
    (∀ now refreshToken answer,
      OnlyGoogle (refresh rt now refreshToken answer) ↔
        Encodable refreshToken ∧ Readable (fun status => IsSuccess status ∨ status = 400) answer ∧
          ExpiryFits rt now answer) ∧
    (∀ accessToken net, OnlyGoogle (listLocations accessToken net) ↔
      isHeaderValue accessToken = true ∧ ListingFits net) ∧
    ∀ accessToken name pageToken answer,
      (OnlyGoogle (listReviews rt accessToken name pageToken answer) ∧
        ∀ page, listReviews rt accessToken name pageToken answer = .ok page →
        ∃ body, received answer = some body ∧
          page.reviews = (Dict.get body (text "reviews")).items.flatMap (alone rt)) ↔
      (fullLocation? name ≠ none →
        Encodable (pageToken.getD []) ∧ isHeaderValue accessToken = true ∧
        Readable IsSuccess answer ∧ ReviewsFit rt answer) :=
  ⟨fun _ _ _ => onlyGoogle_exchangeCode, fun _ _ _ => onlyGoogle_refresh,
    fun _ _ => onlyGoogle_listLocations,
    fun _ _ _ _ => (and_iff_left fun _ => listReviews_alone).trans onlyGoogle_listReviews⟩

section Example

def nan : Float64 := ⟨text "nan", by decide⟩

def nanRuntime : GoogleRuntime where
  py := plainRuntime
  timedelta _ := .error .valueError

theorem nan_loaded : (Json.float nan).Loaded := by
  intro n hn
  cases hn

def tokenBody : Json :=
  .dict [(text "access_token", .str (text "a")), (text "expires_in", .float nan)]

theorem tokenBody_loaded : tokenBody.Loaded :=
  loaded_dict (by simpa using ⟨loaded_str _, nan_loaded⟩)

def reviewsBody : Json := .dict [(text "reviews", .list
  [.dict [(text "reviewId", .str (text "r1")), (text "starRating", .list [])],
    .dict [(text "reviewId", .str (text "r2")), (text "starRating", .str (text "FIVE"))]])]

theorem reviewsBody_loaded : reviewsBody.Loaded := by
  have hbad : (Json.dict
      [(text "reviewId", .str (text "r1")), (text "starRating", .list [])]).Loaded :=
    loaded_dict (by simpa using ⟨loaded_str _, loaded_list nofun⟩)
  have hgood : (Json.dict
      [(text "reviewId", .str (text "r2")), (text "starRating", .str (text "FIVE"))]).Loaded :=
    loaded_dict (by simpa using ⟨loaded_str _, loaded_str _⟩)
  exact loaded_dict (by simpa using loaded_list (by simpa using ⟨hbad, hgood⟩))

/-- A NaN for `expires_in` is not at most 0 and makes no timedelta, and a list has no hash. -/
theorem unusable_answers_escape :
    ¬ (∀ rt now code answer, OnlyGoogle (exchangeCode rt now code answer)) ∧
    ¬ (∀ rt now refreshToken answer, OnlyGoogle (refresh rt now refreshToken answer)) ∧
    ¬ ∀ rt accessToken name pageToken answer,
    OnlyGoogle (listReviews rt accessToken name pageToken answer) := by
  refine ⟨fun h => ?_, fun h => ?_, fun h => ?_⟩
  · exact not_onlyGoogle .valueError
      (h nanRuntime 0 (text "c") (.answered 200 (.loaded tokenBody tokenBody_loaded)))
  · exact not_onlyGoogle .valueError
      (h nanRuntime 0 (text "r") (.answered 200 (.loaded tokenBody tokenBody_loaded)))
  · exact not_onlyGoogle .typeError (h nanRuntime (text "a") (text "accounts/1/locations/2") none
      (.answered 200 (.loaded reviewsBody reviewsBody_loaded)))

end Example

end ReviewFlow.Integrations.Google
