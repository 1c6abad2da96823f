import ReviewFlow.Interleaving
import ReviewFlow.Placeholders
import ReviewFlow.Python.Text

/-!
# The bodies of templates

What `create_template` accepts, what Meta is told of a stored body when it is submitted, and what
is sent with it. A body is text with placeholders, each a variable in two pairs of braces. The
class `\w` of the regular expression is given: it has no brace, and among the ASCII characters the
letters, the digits and the underscore.
-/

namespace ReviewFlow.TemplateBodies

open Python Placeholders Interleaving

def isAsciiLetter (c : ℕ) : Bool := (65 ≤ c && c ≤ 90) || (97 ≤ c && c ≤ 122)

/-- `\w` for a `str`. -/
structure WordClass where
  isWord : ℕ → Bool
  ascii : ∀ c < 128, isWord c = (isAsciiLetter c || isAsciiDigit c || c == 95)

variable (py : WordClass)

def placeholder : Marks ℕ where
  left := 123
  right := 125
  word := py.isWord
  left_word := (py.ascii 123 (by decide)).trans (by decide)
  right_word := (py.ascii 125 (by decide)).trans (by decide)

/-- `_PLACEHOLDER.findall(body)`. -/
def findall (body : Str) : List Str := holes ((placeholder py).scan body)

/-- `_PLACEHOLDER.sub("", body)`. -/
def withoutPlaceholders (body : Str) : Str := texts ((placeholder py).scan body)

/-- `STANDARD_VARIABLES`, sorted. -/
def standardVariables : List Str :=
  [text "business_name", text "customer_name", text "location_name", text "review_link"]

structure Settings where
  /-- `WHATSAPP_TEMPLATE_LANGUAGES`. -/
  languages : List Str
  /-- `WHATSAPP_TEMPLATE_BODY_MAX`. -/
  bodyMax : ℕ

def nameMax : ℕ := 255

abbrev Errors := List (String × List Str)

def bodyErrors (settings : Settings) (shared : Bool) (body : Str) : List Str :=
  if strip body = [] then [text "Required."]
  else if settings.bodyMax < body.length then
    [text "At most " ++ text (toString settings.bodyMax) ++ text " characters."]
  else
    let used := findall py body
    let rest := withoutPlaceholders py body
    (if used.all standardVariables.contains then []
      else [text "Unknown placeholder: only " ++
        (text ", ").intercalate standardVariables ++ text " are allowed."]) ++
    (if [123, 123] <:+: rest ∨ [125, 125] <:+: rest then [text "Malformed placeholder."] else []) ++
    (if shared && !used.contains (text "business_name") then
      [text "Must include \x7b\x7bbusiness_name\x7d\x7d."] else [])

def validateTemplate (settings : Settings) (name language body : Str) (shared : Bool) : Errors :=
  (if strip name = [] ∨ nameMax < name.length then
    [("name", [text "Required, at most 255 characters."])] else []) ++
  (if !settings.languages.contains language then
    [("language", [text "Unsupported language."])] else []) ++
  (if bodyErrors py settings shared body ≠ [] then [("body", bodyErrors py settings shared body)]
    else [])

/-- What a row stores of a template of the shared account. -/
structure Template where
  merchant : ℕ
  name : Str
  language : Str
  body : Str
  deriving DecidableEq

/-- `whatsapp_template_shared_name_lang_uniq`. -/
def Template.Clash (a b : Template) : Prop :=
  a.merchant = b.merchant ∧ a.name = b.name ∧ a.language = b.language

instance (a b : Template) : Decidable (a.Clash b) := inferInstanceAs (Decidable (_ ∧ _ ∧ _))

structure Request where
  merchant : ℕ
  name : Str
  language : Str
  body : Str
  /-- `whatsapp_account_id` is not None. -/
  ownAccount : Bool
  /-- The token is set, and the shared account is active. -/
  configured : Bool

inductive Error where
  | validationError (errors : Errors)
  | whatsAppNotConfigured
  | templateConflict

def Request.template (r : Request) : Template := ⟨r.merchant, strip r.name, r.language, r.body⟩

def createTemplate (settings : Settings) (rows : List Template) (r : Request) :
    Except Error Template × List Template :=
  if r.ownAccount then
    (.error (.validationError [("whatsapp_account_id", [text "not yet available"])]), rows)
  else if validateTemplate py settings r.name r.language r.body true ≠ [] then
    (.error (.validationError (validateTemplate py settings r.name r.language r.body true)), rows)
  else if r.configured = false then (.error .whatsAppNotConfigured, rows)
  else if ∃ row ∈ rows, row.Clash r.template then (.error .templateConflict, rows)
  else (.ok r.template, rows ++ [r.template])

/-- The names after some that were seen, with their examples. -/
def namedExamplesFrom (seen : List Str) : List Str → List (Str × Str)
  | [] => []
  | name :: names =>
    if seen.contains name then namedExamplesFrom seen names
    else (name, text "example_" ++ name) :: namedExamplesFrom (seen ++ [name]) names

/-- What Meta is told of the placeholders of a body when it is submitted. -/
def namedExamples (body : Str) : List (Str × Str) := namedExamplesFrom [] (findall py body)

/-- `dict.fromkeys`, as the list of its keys. -/
def dictFromkeys (names : List Str) : List Str :=
  names.foldl (fun keys name => if keys.contains name then keys else keys ++ [name]) []

/-- The parameters of `send`, none for a `KeyError`. -/
def sendParameters (body : Str) (values : Str → Option Str) : Option (List (Str × Str)) :=
  (dictFromkeys (findall py body)).mapM fun name => (values name).map fun value => (name, value)

/-- The body read as text and placeholders: each placeholder is a standard variable, and the text
between them has no pair of braces. -/
structure Reads (body : Str) (ts : List (Token ℕ)) : Prop where
  render : (placeholder py).render ts = body
  standard : ∀ name ∈ holes ts, name ∈ standardVariables
  opening : ¬ [123, 123] <:+: texts ts
  closing : ¬ [125, 125] <:+: texts ts

section Bodies

variable {py} {settings : Settings} {name language body : Str} {shared : Bool}
  {ts : List (Token ℕ)}

theorem standardVariables_ascii : ∀ name ∈ standardVariables, name ≠ [] ∧
    ∀ c ∈ name, c < 128 ∧ (isAsciiLetter c || isAsciiDigit c || c == 95) = true := by decide

theorem isName_standard (h : name ∈ standardVariables) : (placeholder py).IsName name := by
  obtain ⟨hne, hascii⟩ := standardVariables_ascii name h
  refine ⟨hne, fun c hc => ?_⟩
  obtain ⟨hlt, hword⟩ := hascii c hc
  exact (py.ascii c hlt).trans hword

/-- A body can only be read as it is scanned. -/
theorem reads_iff : Reads py body ts ↔ ts = (placeholder py).scan body ∧
    (∀ name ∈ findall py body, name ∈ standardVariables) ∧
    ¬ ([123, 123] <:+: withoutPlaceholders py body ∨
      [125, 125] <:+: withoutPlaceholders py body) := by
  constructor
  · intro h
    have hplain : (placeholder py).Plain ts :=
      ⟨fun name hname => isName_standard (h.standard name hname), h.opening⟩
    obtain ⟨rfl, -⟩ := Marks.plain_iff.mp ⟨hplain, h.render⟩
    exact ⟨rfl, h.standard, not_or.mpr ⟨h.opening, h.closing⟩⟩
  · rintro ⟨rfl, hstandard, hmarks⟩
    obtain ⟨hopening, hclosing⟩ := not_or.mp hmarks
    exact ⟨Marks.render_scan body, hstandard, hopening, hclosing⟩

theorem bodyErrors_nil_iff : bodyErrors py settings shared body = [] ↔
    strip body ≠ [] ∧ body.length ≤ settings.bodyMax ∧
      ∃! ts, Reads py body ts ∧ (shared = true → text "business_name" ∈ holes ts) := by
  have hread : (∃! ts, Reads py body ts ∧ (shared = true → text "business_name" ∈ holes ts)) ↔
      (∀ name ∈ findall py body, name ∈ standardVariables) ∧
      ¬ ([123, 123] <:+: withoutPlaceholders py body ∨
        [125, 125] <:+: withoutPlaceholders py body) ∧
      (shared = true → text "business_name" ∈ findall py body) := by
    constructor
    · rintro ⟨ts, ⟨hreads, hshared⟩, -⟩
      obtain ⟨rfl, hstandard, hmarks⟩ := reads_iff.mp hreads
      exact ⟨hstandard, hmarks, hshared⟩
    · rintro ⟨hstandard, hmarks, hshared⟩
      refine ⟨_, ⟨reads_iff.mpr ⟨rfl, hstandard, hmarks⟩, hshared⟩, ?_⟩
      rintro ts ⟨hreads, -⟩
      exact (reads_iff.mp hreads).1
  rw [hread]
  by_cases hblank : strip body = []
  · simp [bodyErrors, hblank]
  · by_cases hlong : settings.bodyMax < body.length
    · have hno : ¬ body.length ≤ settings.bodyMax := by omega
      simp [bodyErrors, hblank, hlong, hno]
    · have hlength : body.length ≤ settings.bodyMax := by omega
      rw [bodyErrors, if_neg hblank, if_neg hlong]
      have hused : (findall py body).all standardVariables.contains = true ↔
          ∀ name ∈ findall py body, name ∈ standardVariables := by simp
      have hbusiness : ¬ (shared && !(findall py body).contains (text "business_name")) = true ↔
          (shared = true → text "business_name" ∈ findall py body) := by simp
      simp only [List.append_eq_nil_iff, ite_eq_left_iff, ite_eq_right_iff, List.cons_ne_nil,
        imp_false, not_not, ne_eq, hblank, hlength, true_and, not_false_eq_true, and_assoc, hused,
        hbusiness]

/-- `validate_template` returns exactly for a name, a language and a body that can be read in one
way, with no placeholder but the standard variables. -/
theorem validateTemplate_nil_iff : validateTemplate py settings name language body shared = [] ↔
    (strip name ≠ [] ∧ name.length ≤ nameMax) ∧ language ∈ settings.languages ∧
      strip body ≠ [] ∧ body.length ≤ settings.bodyMax ∧
      ∃! ts, Reads py body ts ∧ (shared = true → text "business_name" ∈ holes ts) := by
  rw [← bodyErrors_nil_iff]
  have hlanguage : ¬ (!settings.languages.contains language) = true ↔
      language ∈ settings.languages := by simp
  simp only [validateTemplate, List.append_eq_nil_iff, ite_eq_right_iff, List.cons_ne_nil,
    imp_false, not_not, not_or, not_lt, and_assoc, ne_eq, hlanguage]

end Bodies

section Names

variable {seen names : List Str} {name : Str} {values : Str → Option Str}

theorem namedExamplesFrom_seen (h : name ∈ seen) :
    namedExamplesFrom seen (name :: names) = namedExamplesFrom seen names := by
  rw [namedExamplesFrom, if_pos (List.contains_iff_mem.mpr h)]

theorem namedExamplesFrom_new (h : name ∉ seen) : namedExamplesFrom seen (name :: names) =
    (name, text "example_" ++ name) :: namedExamplesFrom (seen ++ [name]) names := by
  rw [namedExamplesFrom, if_neg (mt List.contains_iff_mem.mp h)]

theorem mem_namedExamplesFrom : name ∈ (namedExamplesFrom seen names).map Prod.fst ↔
    name ∈ names ∧ name ∉ seen := by
  induction names generalizing seen with
  | nil => simp [namedExamplesFrom]
  | cons first names ih =>
    by_cases hseen : first ∈ seen
    · rw [namedExamplesFrom_seen hseen, ih, List.mem_cons]
      constructor
      · exact fun h => ⟨.inr h.1, h.2⟩
      · rintro ⟨rfl | h, hno⟩
        · exact absurd hseen hno
        · exact ⟨h, hno⟩
    · rw [namedExamplesFrom_new hseen, List.map_cons, List.mem_cons, ih, List.mem_cons]
      by_cases heq : name = first
      · subst heq
        simp [hseen]
      · simp [heq]

theorem namedExamplesFrom_nodup : ((namedExamplesFrom seen names).map Prod.fst).Nodup := by
  induction names generalizing seen with
  | nil => exact List.nodup_nil
  | cons first names ih =>
    by_cases hseen : first ∈ seen
    · rw [namedExamplesFrom_seen hseen]
      exact ih
    · rw [namedExamplesFrom_new hseen, List.map_cons, List.nodup_cons, mem_namedExamplesFrom]
      exact ⟨fun h => h.2 (by simp), ih⟩

/-- A message has a parameter for the names that Meta has examples of. -/
theorem dictFromkeys_eq : dictFromkeys names = (namedExamplesFrom [] names).map Prod.fst := by
  have hfrom : ∀ seen, names.foldl
      (fun keys name => if keys.contains name then keys else keys ++ [name]) seen =
        seen ++ (namedExamplesFrom seen names).map Prod.fst := by
    induction names with
    | nil => simp [namedExamplesFrom]
    | cons first names ih =>
      intro seen
      by_cases hseen : first ∈ seen
      · rw [List.foldl_cons, if_pos (List.contains_iff_mem.mpr hseen), ih,
          namedExamplesFrom_seen hseen]
      · rw [List.foldl_cons, if_neg (mt List.contains_iff_mem.mp hseen), ih,
          namedExamplesFrom_new hseen]
        simp
  exact hfrom []

theorem mapM_values (h : ∀ name ∈ names, (values name).isSome = true) :
    ∃ parameters, names.mapM (fun name => (values name).map fun value => (name, value)) =
      some parameters ∧ parameters.map Prod.fst = names ∧
      ∀ p ∈ parameters, values p.1 = some p.2 := by
  induction names with
  | nil => exact ⟨[], rfl, rfl, by simp⟩
  | cons first names ih =>
    obtain ⟨parameters, hmap, hnames, hvalues⟩ := ih fun n hn => h n (List.mem_cons_of_mem _ hn)
    obtain ⟨value, hvalue⟩ := Option.isSome_iff_exists.mp (h first List.mem_cons_self)
    refine ⟨(first, value) :: parameters, ?_, by rw [List.map_cons, hnames], ?_⟩
    · simp [List.mapM_cons, hvalue, hmap]
    · intro p hp
      rcases List.mem_cons.mp hp with rfl | hp
      · exact hvalue
      · exact hvalues p hp

end Names

section Runs

variable (settings : Settings)

def step (rows : List Template) (r : Request) : List Template :=
  (createTemplate py settings rows r).2

/-- What the name, the language and the length of the body of an accepted request are. -/
structure Usable (r : Request) : Prop where
  name : strip r.name ≠ [] ∧ r.name.length ≤ nameMax
  language : r.language ∈ settings.languages
  body : strip r.body ≠ [] ∧ r.body.length ≤ settings.bodyMax

/-- Its readings are this one, which names the business. -/
structure ReadsOnly (body : Str) (ts : List (Token ℕ)) : Prop where
  reads : Reads py body ts
  only : ∀ ts', Reads py body ts' → ts' = ts
  business : text "business_name" ∈ holes ts

/-- The parameters of a message are these names, each once, with their values. -/
def SendsOf (body : Str) (names : List Str) : Prop :=
  ∀ values, (∀ name ∈ standardVariables, (values name).isSome = true) →
    ∃ parameters, sendParameters py body values = some parameters ∧
      (parameters.map Prod.fst).Nodup ∧
      (∀ name, name ∈ parameters.map Prod.fst ↔ name ∈ names) ∧
      ∀ p ∈ parameters, values p.1 = some p.2

/-- The row is that of an accepted request, and Meta is told of its body, and sent with it, what its
one reading says. -/
structure Stored (requests : List Request) (row : Template) : Prop where
  created : ∃ earlier r later, requests = earlier ++ r :: later ∧ row = r.template ∧
    r.ownAccount = false ∧ r.configured = true ∧ Usable settings r
  read : ∃ ts, ReadsOnly py row.body ts ∧
    ((namedExamples py row.body).map Prod.fst).Nodup ∧
    (∀ name, name ∈ (namedExamples py row.body).map Prod.fst ↔ name ∈ holes ts) ∧
    SendsOf py row.body (holes ts)

variable {py} {settings} {rows : List Template} {requests : List Request} {row : Template}
  {r : Request} {ts : List (Token ℕ)}

theorem readsOnly_iff : (∃ ts, ReadsOnly py r.body ts) ↔
    ∃! ts, Reads py r.body ts ∧ (true = true → text "business_name" ∈ holes ts) := by
  constructor
  · rintro ⟨ts, h⟩
    exact ⟨ts, ⟨h.reads, fun _ => h.business⟩, fun ts' h' => h.only ts' h'.1⟩
  · rintro ⟨ts, ⟨hreads, hbusiness⟩, -⟩
    refine ⟨ts, hreads, fun ts' h' => ?_, hbusiness rfl⟩
    exact (reads_iff.mp h').1.trans (reads_iff.mp hreads).1.symm

/-- Exactly when a request creates a row. -/
theorem createTemplate_ok_iff : (createTemplate py settings rows r).1 = .ok r.template ↔
    r.ownAccount = false ∧ (Usable settings r ∧ ∃ ts, ReadsOnly py r.body ts) ∧
      r.configured = true ∧ ∀ row ∈ rows, ¬ row.Clash r.template := by
  have hvalid : validateTemplate py settings r.name r.language r.body true = [] ↔
      Usable settings r ∧ ∃ ts, ReadsOnly py r.body ts := by
    rw [validateTemplate_nil_iff, readsOnly_iff]
    constructor
    · rintro ⟨hname, hlanguage, hbody, hlength, hread⟩
      exact ⟨⟨hname, hlanguage, hbody, hlength⟩, hread⟩
    · rintro ⟨⟨hname, hlanguage, hbody, hlength⟩, hread⟩
      exact ⟨hname, hlanguage, hbody, hlength, hread⟩
  rw [← hvalid]
  unfold createTemplate
  split
  case isTrue hown => simp [hown]
  case isFalse hown =>
    split
    case isTrue herrors => simp [herrors]
    case isFalse hnone =>
      split
      case isTrue hconfigured => simp [hconfigured]
      case isFalse hconfigured =>
        split
        case isTrue hclash =>
          obtain ⟨row, hrow, hclash⟩ := hclash
          simp only [reduceCtorEq, false_iff]
          exact fun h => h.2.2.2 row hrow hclash
        case isFalse hfree =>
          simp only [not_exists, not_and] at hfree
          simp_all

/-- A request leaves the rows, or adds its own after those it may stand beside. -/
theorem step_cases : step py settings rows r = rows ∨
    ((createTemplate py settings rows r).1 = .ok r.template ∧
      step py settings rows r = rows ++ [r.template]) := by
  unfold step createTemplate
  split
  · exact .inl rfl
  · split
    · exact .inl rfl
    · split
      · exact .inl rfl
      · split
        · exact .inl rfl
        · exact .inr ⟨rfl, rfl⟩

theorem ReadsOnly.submits {body : Str} (h : ReadsOnly py body ts) :
    (∀ name, name ∈ (namedExamples py body).map Prod.fst ↔ name ∈ holes ts) ∧
      SendsOf py body (holes ts) := by
  have hscan : findall py body = holes ts := by rw [(reads_iff.mp h.reads).1, findall]
  have hnames : ∀ name, name ∈ (namedExamples py body).map Prod.fst ↔ name ∈ holes ts := by
    intro name
    rw [namedExamples, mem_namedExamplesFrom, hscan]
    simp
  refine ⟨hnames, fun values hvalues => ?_⟩
  have hkeys : dictFromkeys (findall py body) = (namedExamples py body).map Prod.fst :=
    dictFromkeys_eq
  have hdefined : ∀ name ∈ dictFromkeys (findall py body), (values name).isSome = true :=
    fun name hname => hvalues name (h.reads.standard name ((hnames name).mp (hkeys ▸ hname)))
  obtain ⟨parameters, hmap, hfst, hparameters⟩ := mapM_values hdefined
  refine ⟨parameters, hmap, ?_, fun name => ?_, hparameters⟩
  · rw [hfst, hkeys]
    exact namedExamplesFrom_nodup
  · rw [hfst, hkeys]
    exact hnames name

theorem Stored.append (h : Stored py settings requests row) (later : List Request) :
    Stored py settings (requests ++ later) row := by
  obtain ⟨⟨earlier, r, between, rfl, hrow⟩, hread⟩ := h
  exact ⟨⟨earlier, r, between ++ later, by simp, hrow⟩, hread⟩

theorem stored_created (h : (createTemplate py settings rows r).1 = .ok r.template) :
    Stored py settings (requests ++ [r]) r.template := by
  obtain ⟨hown, ⟨husable, ts, hreads⟩, hconfigured, -⟩ := createTemplate_ok_iff.mp h
  obtain ⟨hnames, hsends⟩ := hreads.submits
  exact ⟨⟨requests, r, [], rfl, rfl, hown, hconfigured, husable⟩, ts, hreads,
    namedExamplesFrom_nodup, hnames, hsends⟩

/-- The rows that a run of requests stores: no two of a merchant have one name and language, and
each is of an accepted request and has a body with one reading, of which Meta is told. A request is
accepted exactly where its body can be read so and no row is in its way. -/
theorem stored_templates (py : WordClass) (settings : Settings) (requests : List Request) :
    let rows := run (step py settings) [] requests
    (rows.Pairwise fun a b => ¬ a.Clash b) ∧ (∀ row ∈ rows, Stored py settings requests row) ∧
      ∀ r : Request, (createTemplate py settings rows r).1 = .ok r.template ↔
        r.ownAccount = false ∧ (Usable settings r ∧ ∃ ts, ReadsOnly py r.body ts) ∧
          r.configured = true ∧ ∀ row ∈ rows, ¬ row.Clash r.template := by
  have hrun : ((run (step py settings) [] requests).Pairwise fun a b => ¬ a.Clash b) ∧
      ∀ row ∈ run (step py settings) [] requests, Stored py settings requests row := by
    apply run_history (P := fun (requests : List Request) (rows : List Template) =>
      (rows.Pairwise fun a b => ¬ a.Clash b) ∧
      ∀ row ∈ rows, Stored py settings requests row)
    · exact ⟨List.Pairwise.nil, by simp⟩
    · rintro requests rows r ⟨hfree, hstored⟩
      have happ : ∀ row ∈ rows, Stored py settings (requests ++ [r]) row :=
        fun row hrow => (hstored row hrow).append [r]
      have hstep : step py settings rows r = rows ∨
          ((createTemplate py settings rows r).1 = .ok r.template ∧
            step py settings rows r = rows ++ [r.template]) := step_cases
      rcases hstep with hsame | ⟨hok, hadded⟩
      · rw [hsame]
        exact ⟨hfree, happ⟩
      · obtain ⟨-, -, -, hclash⟩ := createTemplate_ok_iff.mp hok
        rw [hadded]
        refine ⟨List.pairwise_append.mpr ⟨hfree, List.pairwise_singleton _ _, ?_⟩, ?_⟩
        · intro row hrow new hnew
          obtain rfl := List.mem_singleton.mp hnew
          exact hclash row hrow
        · intro row hrow
          rcases List.mem_append.mp hrow with hrow | hrow
          · exact happ row hrow
          · obtain rfl := List.mem_singleton.mp hrow
            exact stored_created hok
  exact ⟨hrun.1, hrun.2, fun r => createTemplate_ok_iff⟩

end Runs

end ReviewFlow.TemplateBodies
