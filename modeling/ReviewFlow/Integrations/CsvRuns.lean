import ReviewFlow.Events.Receipts
import ReviewFlow.FirstWins
import ReviewFlow.Integrations.Escapes

/-!
# The import of a CSV file

`start_csv_import` checks a file and stages it, and each run of `import_csv_rows` records its rows
from the first on. A run may be killed before any row or before it deletes the object, and a later
one starts again at the first row.
-/

namespace ReviewFlow.Integrations.CsvRuns

open Python Events.Receipts Tables FirstWins
open Events (Uuid)

/-- A row of `csv.DictReader`, with the values under its key None if the row has more than the
header. -/
structure FileRow where
  fields : CsvImport.Row
  rest : Option (List String)

abbrev Bytes := List UInt8

/-- What `csv.DictReader` gives of a text whose header it can read: the rows, and whether it raises
`csv.Error` after them. -/
structure Reading where
  fieldnames : List String
  rows : List FileRow
  broken : Bool

/-- What the model takes from Python as it is: the decoding of UTF-8 with an optional byte order
mark, whose UnicodeDecodeError is none, and the reader of CSV, whose `csv.Error` at the header is
none. -/
structure FileReader where
  decode : Bytes → Option String
  dictReader : String → Option Reading

inductive Refusal where
  | validation (errors : List (String × List String))
  | csvError
  | adapter (e : Error)

def maxBytes : ℕ := 5 * 1024 * 1024
def maxRows : ℕ := 10000

def requiredColumns : List String :=
  ["external_transaction_id", "amount", "currency", "occurred_at"]

variable (py : Runtime) (files : FileReader)

/-- The errors of the rows from the `idx`th on: the first 50, by row. Only a PayloadValidationError
is caught. -/
def rowErrors (idx : ℕ) (found : List (String × List String)) :
    List FileRow → Except Refusal (List (String × List String))
  | [] => .ok found
  | row :: rows =>
    match CsvImport.normalize py (CsvImport.parse row.fields) with
    | .ok _ => rowErrors (idx + 1) found rows
    | .error (.payloadValidation code) =>
      rowErrors (idx + 1)
      (if found.length < 50 then found ++ [("row_" ++ toString idx, [code])] else found) rows
    | .error e => .error (.adapter e)

def refuse {α : Type} (field message : String) : Except Refusal α :=
  .error (.validation [(field, [message])])

def startCsvImport (isCsv : Bool) (integration : Connection) (file : Option Bytes) :
    Except Refusal ℕ :=
  if !isCsv || integration.status != .connected then
    refuse "integration" "This integration cannot accept a CSV import."
  else match file with
  | none => refuse "file" "A file is required."
  | some raw =>
    if raw = [] then refuse "file" "The file is empty."
    else if maxBytes < raw.length then refuse "file" "The file is too large."
    else match files.decode raw with
    | none => refuse "file" "The file must be UTF-8 encoded."
    | some text => match files.dictReader text with
    | none => .error .csvError
    | some reading =>
      let missing := requiredColumns.filter fun c => !reading.fieldnames.contains c
      if missing ≠ [] then
        refuse "file" ("Missing required column(s): " ++ String.intercalate ", " missing ++ ".")
      else if reading.broken then .error .csvError
      else if reading.rows = [] then refuse "file" "The file has no data rows."
      else if maxRows < reading.rows.length then refuse "file" "The file has too many rows."
      else match rowErrors py 1 [] reading.rows with
        | .error e => .error e
        | .ok [] => .ok reading.rows.length
        | .ok errors => .error (.validation errors)

structure Store where
  events : Inbox Str FileRow
  object : Option Bytes

/-- One run: what it is given, the ids that its inserts draw, whether it can read the object and the
integration, and the number of rows before which it is killed, if it is. -/
structure Run where
  tenant : Option Uuid
  integration : Connection
  ids : ℕ → Uuid
  readable : Bool
  killed : Option ℕ

def Run.call (run : Run) (i : ℕ) (key : Str) (row : FileRow) : Call Str FileRow :=
  ⟨run.tenant, run.integration, run.ids i, key, row⟩

inductive Outcome where
  | finished
  | disconnected
  | stopped
  deriving DecidableEq

/-- The loop, from the `i`th row on. -/
def Run.recordRows (run : Run) (broken : Bool) (i : ℕ) (events : Inbox Str FileRow) :
    List FileRow → Inbox Str FileRow × Outcome
  | [] => (events, if run.killed = some i ∨ broken then .stopped else .finished)
  | row :: rows =>
    if run.killed = some i then (events, .stopped)
    else match CsvImport.getExternalEventId py row.fields with
      | .error _ => (events, .stopped)
      | .ok key => match recordEvent events (run.call i key row) with
        | .ok (_, events') => run.recordRows broken (i + 1) events' rows
        | .error .integrationDisconnected => (events, .disconnected)
        | .error _ => (events, .stopped)

def importCsvRows (run : Run) (s : Store) : Store :=
  if !run.readable then s
  else match s.object with
    | none => s
    | some raw => match files.decode raw with
      | none => s
      | some text => match files.dictReader text with
        | none => s
        | some reading => match run.recordRows py reading.broken 0 s.events reading.rows with
          | (events, .stopped) => { s with events := events }
          | (events, _) => ⟨events, none⟩

def importRuns (runs : List Run) (s : Store) : Store :=
  runs.foldl (fun s run => importCsvRows py files run s) s

def receiptKey (row : FileRow) : Option Str := (CsvImport.getExternalEventId py row.fields).toOption

def keyed (rows : List FileRow) : List (Str × FileRow) :=
  rows.filterMap fun row => (receiptKey py row).map fun key => (key, row)

def keysOf (integrationId : Uuid) (events : Inbox Str FileRow) : List Str :=
  (events.rows.filter fun e => e.integrationId == integrationId).map Event.externalEventId

def content (e : Event Str FileRow) : Str × FileRow := (e.externalEventId, e.payload)

/-- The events after some of the rows are recorded: those that were there and the first row of each
new key. -/
def Recorded (connection : Connection) (before : Inbox Str FileRow) (rows : List FileRow)
    (after : Inbox Str FileRow) : Prop :=
  ∃ new, after.rows = before.rows ++ new ∧
    (∀ e ∈ new, e.integrationId = connection.id ∧ e.merchantId = connection.merchantId) ∧
    new.map content = firsts (keysOf connection.id before) (keyed py rows)

def rowsOf (raw : Bytes) : List FileRow :=
  ((files.decode raw).bind files.dictReader).elim [] Reading.rows

/-- A run of the task for the integration, which is not disconnected when it is read. -/
def Run.Of (connection : Connection) (run : Run) : Prop :=
  run.tenant = some connection.merchantId ∧ run.integration.merchantId = connection.merchantId ∧
    run.integration.id = connection.id ∧ run.integration.status ≠ .disconnected

section Loop

variable {py : Runtime} {files : FileReader} {connection : Connection} {run : Run}
    {rows more : List FileRow}
  {row : FileRow} {key : Str} {events before mid after : Inbox Str FileRow}

theorem keyed_append : keyed py (rows ++ more) = keyed py rows ++ keyed py more :=
  List.filterMap_append

theorem find_keyed : (keyed py rows).find? (fun entry => decide (entry.1 = key)) = some (key, row) ↔
    rows.find? (fun row => decide (receiptKey py row = some key)) = some row := by
  induction rows with
  | nil => simp [keyed]
  | cons first rows ih =>
    cases hkey : receiptKey py first with
    | none =>
      have hkeyed : keyed py (first :: rows) = keyed py rows :=
        List.filterMap_cons_none (by simp [hkey])
      simp [hkeyed, hkey, ih]
    | some k =>
      have hkeyed : keyed py (first :: rows) = (k, first) :: keyed py rows :=
        List.filterMap_cons_some (by simp [hkey])
      by_cases hk : k = key
      · simp [hkeyed, hkey, hk]
      · simp [hkeyed, hkey, hk, ih]

theorem keysOf_append {new : List (Event Str FileRow)} (hrows : after.rows = before.rows ++ new)
    (hnew : ∀ e ∈ new, e.integrationId = connection.id) :
    keysOf connection.id after = keysOf connection.id before ++ (new.map content).map Prod.fst := by
  have hall : new.filter (fun e => e.integrationId == connection.id) = new :=
    List.filter_eq_self.mpr fun e he => beq_iff_eq.mpr (hnew e he)
  simp only [keysOf, hrows, List.filter_append, hall, List.map_append, List.map_map]
  rfl

theorem Recorded.refl : Recorded py connection events [] events :=
  ⟨[], by simp, by simp, by simp [keyed, firsts]⟩

theorem Recorded.keys (h : Recorded py connection before rows after) : keysOf connection.id after =
    keysOf connection.id before ++
      (firsts (keysOf connection.id before) (keyed py rows)).map Prod.fst := by
  obtain ⟨new, hrows, hnew, hcontent⟩ := h
  rw [keysOf_append hrows fun e he => (hnew e he).1, hcontent]

theorem Recorded.comp {taken : List FileRow} (h : Recorded py connection before rows mid)
    (h' : Recorded py connection mid more after)
    (htaken : firsts (keysOf connection.id before) (keyed py rows) ++
      firsts (keysOf connection.id before ++
        (firsts (keysOf connection.id before) (keyed py rows)).map Prod.fst)
        (keyed py more) = firsts (keysOf connection.id before) (keyed py taken)) :
    Recorded py connection before taken after := by
  have hkeys := h.keys
  obtain ⟨new, hrows, hnew, hcontent⟩ := h
  obtain ⟨new', hrows', hnew', hcontent'⟩ := h'
  refine ⟨new ++ new', by rw [hrows', hrows, List.append_assoc], fun e he => ?_, ?_⟩
  · rcases List.mem_append.mp he with he | he
    · exact hnew e he
    · exact hnew' e he
  · rw [List.map_append, hcontent, hcontent', hkeys, htaken]

theorem Recorded.trans (h : Recorded py connection before rows mid)
    (h' : Recorded py connection mid more after) :
    Recorded py connection before (rows ++ more) after :=
  h.comp h' (by rw [keyed_append, firsts_append])

theorem Recorded.resume (h : Recorded py connection before rows mid)
    (h' : Recorded py connection mid (rows ++ more) after) :
    Recorded py connection before (rows ++ more) after :=
  h.comp h' (by rw [keyed_append, firsts_resume])

theorem Recorded.again (h : Recorded py connection before (rows ++ more) mid)
    (h' : Recorded py connection mid rows after) :
    Recorded py connection before (rows ++ more) after :=
  h.comp h' (by rw [keyed_append, firsts_again, List.append_nil])

theorem recorded_row {i : ℕ} {result : Event Str FileRow × Bool} (hrun : run.Of connection)
    (hkey : CsvImport.getExternalEventId py row.fields = .ok key)
    (h : recordEvent before (run.call i key row) = .ok (result, after)) :
    Recorded py connection before [row] after := by
  obtain ⟨-, hmerchant, hid, -⟩ := hrun
  have hkeyed : keyed py [row] = [(key, row)] := by simp [keyed, receiptKey, hkey, Except.toOption]
  rcases recordEvent_cases h with ⟨-, -, hinsert⟩ | ⟨-, hfound, rfl⟩
  · obtain ⟨hclash, hrows⟩ := Table.insert?_eq_some.mp hinsert
    have hnew : key ∉ keysOf connection.id before := by
      intro hmem
      obtain ⟨e, he, rfl⟩ := List.mem_map.mp hmem
      obtain ⟨he, hintegration⟩ := List.mem_filter.mp he
      exact hclash e he (.inr ⟨(beq_iff_eq.mp hintegration).trans hid.symm, rfl⟩)
    refine ⟨[(run.call i key row).event], hrows, ?_, ?_⟩
    · intro e he
      rw [List.mem_singleton.mp he]
      exact ⟨hid, hmerchant⟩
    · rw [hkeyed, firsts, if_neg hnew]
      rfl
  · obtain ⟨hmem, hintegration, hsame⟩ := existing_eq_some hfound
    have hknown : key ∈ keysOf connection.id after :=
      List.mem_map.mpr
        ⟨_, List.mem_filter.mpr ⟨hmem, beq_iff_eq.mpr (hintegration.trans hid)⟩, hsame⟩
    refine ⟨[], (List.append_nil _).symm, by simp, ?_⟩
    rw [hkeyed, firsts, if_pos hknown]
    rfl

theorem recordEvent_disconnected {c : Call Str FileRow}
    (h : recordEvent before c = .error .integrationDisconnected) :
    c.integration.status = .disconnected := by
  simp only [recordEvent] at h
  split at h
  case isTrue => cases h
  case isFalse =>
    split at h
    case isTrue hstatus => exact hstatus
    case isFalse =>
      split at h
      case h_1 => cases h
      case h_2 =>
        split at h
        case h_1 => cases h
        case h_2 => cases h

theorem recordRows_recorded {broken : Bool} {i : ℕ} {outcome : Outcome} (hrun : run.Of connection)
    (h : run.recordRows py broken i before rows = (after, outcome)) :
    outcome ≠ .disconnected ∧ ∃ done rest, rows = done ++ rest ∧
    Recorded py connection before done after ∧
      (outcome = .finished → rest = []) := by
  induction rows generalizing i before with
  | nil =>
    simp only [Run.recordRows, Prod.mk.injEq] at h
    obtain ⟨rfl, rfl⟩ := h
    refine ⟨by split <;> simp, [], [], rfl, .refl, fun _ => rfl⟩
  | cons row rows ih =>
    simp only [Run.recordRows] at h
    split at h
    case isTrue =>
      cases h
      exact ⟨by simp, [], row :: rows, rfl, .refl, by simp⟩
    case isFalse =>
      split at h
      case h_1 =>
        cases h
        exact ⟨by simp, [], row :: rows, rfl, .refl, by simp⟩
      case h_2 key hkey =>
        split at h
        case h_1 result events' hrecord =>
          obtain ⟨houtcome, done, rest, rfl, hdone, hrest⟩ := ih h
          exact ⟨houtcome, row :: done, rest, rfl,
            (recorded_row hrun hkey hrecord).trans hdone, hrest⟩
        case h_2 hrecord => exact absurd (recordEvent_disconnected hrecord) hrun.2.2.2
        case h_3 =>
          cases h
          exact ⟨by simp, [], row :: rows, rfl, .refl, by simp⟩

theorem recordEvent_returns {i : ℕ} (hrun : run.Of connection) (hids : run.ids.Injective)
    (hfresh : ∀ e ∈ before, ∀ j, i ≤ j → e.id ≠ run.ids j) :
    ∃ result events', recordEvent before (run.call i key row) = .ok (result, events') ∧
      ∀ e ∈ events', ∀ j, i + 1 ≤ j → e.id ≠ run.ids j := by
  obtain ⟨htenant, hmerchant, -, hstatus⟩ := hrun
  have hcontext : ¬ (run.call i key row).tenant ≠
      some (run.call i key row).integration.merchantId :=
    not_ne_iff.mpr (htenant.trans (congrArg some hmerchant.symm))
  have hconnected : ¬ (run.call i key row).integration.status = .disconnected := hstatus
  cases hinsert : before.insert? (run.call i key row).event with
  | some events' =>
    have hreturns : recordEvent before (run.call i key row) =
        .ok (((run.call i key row).event, true), events') := by
      rw [recordEvent, if_neg hcontext, if_neg hconnected, hinsert]
    refine ⟨_, events', hreturns, fun e he j hj => ?_⟩
    rcases (Table.mem_insert? hinsert).mp he with he | rfl
    · exact hfresh e he j (by omega)
    · intro hid
      have hij : i = j := hids hid
      omega
  | none =>
    obtain ⟨e, he, hclash⟩ := Table.insert?_eq_none.mp hinsert
    have hsame := hclash.resolve_left (hfresh e he i le_rfl)
    cases hfound : existing before (run.call i key row) with
    | none =>
      have hno := Table.find?_eq_none.mp hfound e he
      simp only [Bool.and_eq_false_iff, beq_eq_false_iff_ne] at hno
      exact absurd hsame.2 (hno.resolve_left fun h => h hsame.1)
    | some e' =>
      have hreturns : recordEvent before (run.call i key row) = .ok ((e', false), before) := by
        rw [recordEvent, if_neg hcontext, if_neg hconnected, hinsert, hfound]
      exact ⟨_, before, hreturns, fun e he j hj => hfresh e he j (by omega)⟩

theorem recordRows_finished {i : ℕ} (hrun : run.Of connection) (hkilled : run.killed = none)
    (hkeys : ∀ row ∈ rows, ∃ key, CsvImport.getExternalEventId py row.fields = .ok key)
    (hids : run.ids.Injective) (hfresh : ∀ e ∈ before, ∀ j, i ≤ j → e.id ≠ run.ids j) :
    (run.recordRows py false i before rows).2 = .finished := by
  induction rows generalizing i before with
  | nil => simp [Run.recordRows, hkilled]
  | cons row rows ih =>
    obtain ⟨key, hkey⟩ := hkeys row List.mem_cons_self
    have hrest := fun r hr => hkeys r (List.mem_cons_of_mem row hr)
    have hreturns : ∃ result events', recordEvent before (run.call i key row) =
      .ok (result, events') ∧
        ∀ e ∈ events', ∀ j, i + 1 ≤ j → e.id ≠ run.ids j := recordEvent_returns hrun hids hfresh
    obtain ⟨result, events', hrecord, hlater⟩ := hreturns
    simp only [Run.recordRows, hkilled, hkey, hrecord]
    exact ih hrest hlater

end Loop

section Accepted

variable {py : Runtime} {files : FileReader} {connection : Connection} {isCsv : Bool}
    {raw : Bytes} {n : ℕ}

theorem rowErrors_eq_nil {idx : ℕ} {found : List (String × List String)} {rows : List FileRow}
    (h : rowErrors py idx found rows = .ok []) :
    found = [] ∧ ∀ row ∈ rows, ∃ s,
    CsvImport.normalize py (CsvImport.parse row.fields) = .ok s := by
  induction rows generalizing idx found with
  | nil => exact ⟨by simpa [rowErrors] using h, by simp⟩
  | cons row rows ih =>
    simp only [rowErrors] at h
    split at h
    case h_1 s hs =>
      obtain ⟨hfound, hrows⟩ := ih h
      refine ⟨hfound, fun r hr => ?_⟩
      rcases List.mem_cons.mp hr with rfl | hr
      · exact ⟨s, hs⟩
      · exact hrows r hr
    case h_2 code _ =>
      obtain ⟨hfound, -⟩ := ih h
      split at hfound
      case isTrue => simp at hfound
      case isFalse hmany => simp [hfound] at hmany
    case h_3 => cases h

theorem row_has_key {row : CsvImport.Row} {s : SaleCreated}
    (h : CsvImport.normalize py (CsvImport.parse row) = .ok s) :
    ∃ key, CsvImport.getExternalEventId py row = .ok key := by
  cases htxn : row.get "external_transaction_id" with
  | none =>
    simp [CsvImport.normalize, CsvImport.parse, htxn, Json.ofOption, Json.isNull,
      invalidTransactionId, invalid] at h
  | some txnId =>
    cases hkey : CsvImport.getExternalEventId py row with
    | ok key => exact ⟨key, rfl⟩
    | error e =>
      obtain ⟨code, rfl⟩ := csv_id row e hkey
      simp only [CsvImport.getExternalEventId, htxn, saleEventKey] at hkey
      split at hkey
      · cases hkey
      · cases hkey

structure Accepted (py : Runtime) (files : FileReader) (raw : Bytes) : Prop where
  read : ∃ text reading, files.decode raw = some text ∧ files.dictReader text = some reading ∧
    reading.broken = false ∧ reading.rows = rowsOf files raw
  keys : ∀ row ∈ rowsOf files raw, ∃ key, CsvImport.getExternalEventId py row.fields = .ok key

theorem startCsvImport_accepted (h : startCsvImport py files isCsv connection (some raw) = .ok n) :
    Accepted py files raw := by
  simp only [startCsvImport, refuse] at h
  split at h
  case isTrue => cases h
  split at h
  case isTrue => cases h
  split at h
  case isTrue => cases h
  split at h
  case h_1 => cases h
  case h_2 text htext =>
    split at h
    case h_1 => cases h
    case h_2 reading hreading =>
      split at h
      case isTrue => cases h
      split at h
      case isTrue => cases h
      case isFalse hbroken =>
        split at h
        case isTrue => cases h
        split at h
        case isTrue => cases h
        split at h
        case h_1 => cases h
        case h_2 herrors =>
          have hrows : rowsOf files raw = reading.rows := by simp [rowsOf, htext, hreading]
          refine ⟨⟨text, reading, htext, hreading, Bool.eq_false_iff.mpr hbroken, hrows.symm⟩,
            fun row hrow => ?_⟩
          obtain ⟨s, hs⟩ := (rowErrors_eq_nil herrors).2 row (hrows ▸ hrow)
          exact row_has_key hs
        case h_3 => cases h

end Accepted

/-- After some runs, some of the rows are recorded from the first on, and all of them if the object
is gone. -/
def Replayed (py : Runtime) (connection : Connection) (before : Inbox Str FileRow) (raw : Bytes)
    (rows : List FileRow)
    (s : Store) : Prop :=
  ∃ done rest, rows = done ++ rest ∧ Recorded py connection before done s.events ∧
    (s.object = some raw ∨ s.object = none ∧ rest = [])

section Runs

variable {py : Runtime} {files : FileReader} {connection : Connection} {raw : Bytes}
    {rows : List FileRow}
  {before events : Inbox Str FileRow} {run : Run} {s : Store}

/-- A further recording from the first row on goes beyond what is recorded or stays within it. -/
theorem recorded_again {done rest done' rest' : List FileRow} {after : Inbox Str FileRow}
    (hrows : rows = done ++ rest)
    (hrows' : rows = done' ++ rest') (h : Recorded py connection before done events)
    (h' : Recorded py connection events done' after) :
    (rest' = [] → Recorded py connection before rows after) ∧
      ∃ longer shorter, rows = longer ++ shorter ∧ Recorded py connection before longer after := by
  rcases List.prefix_or_prefix_of_prefix (hrows ▸ List.prefix_append done rest)
    (hrows' ▸ List.prefix_append done' rest') with ⟨more, rfl⟩ | ⟨more, rfl⟩
  · have hlonger := h.resume h'
    refine ⟨?_, _, rest', hrows', hlonger⟩
    rintro rfl
    rwa [hrows', List.append_nil]
  · have hlonger := h.again h'
    refine ⟨?_, _, rest, hrows, hlonger⟩
    rintro rfl
    have hnone : more ++ rest = [] := by simpa using hrows.symm.trans hrows'
    obtain ⟨rfl, rfl⟩ := List.append_eq_nil_iff.mp hnone
    rw [hrows']
    exact hlonger

theorem importCsvRows_replayed (ha : Accepted py files raw) (hrun : run.Of connection)
    (h : Replayed py connection before raw (rowsOf files raw) s) :
    Replayed py connection before raw (rowsOf files raw) (importCsvRows py files run s) := by
  have hstays := h
  obtain ⟨done, rest, hrows, hdone, hobject⟩ := h
  obtain ⟨⟨text, reading, htext, hreading, -, hread⟩, -⟩ := ha
  rcases hobject with hobject | ⟨hobject, -⟩
  · simp only [importCsvRows, hobject, htext, hreading]
    split
    case isTrue => exact hstays
    case isFalse =>
      obtain ⟨houtcome, done', rest', hrows', hdone', hrest'⟩ := recordRows_recorded hrun
        (Prod.mk.eta (p := run.recordRows py reading.broken 0 s.events reading.rows)).symm
      rw [hread] at hrows'
      obtain ⟨hall, longer, shorter, hlonger, hrecorded⟩ := recorded_again hrows hrows' hdone hdone'
      split
      case h_1 events hstopped =>
        rw [hstopped] at hrecorded
        exact ⟨longer, shorter, hlonger, hrecorded, .inl rfl⟩
      case h_2 events outcome hno hended =>
        rw [hended] at hall houtcome hrest'
        have hfinished : outcome = .finished := by
          cases outcome with
          | finished => rfl
          | disconnected => exact absurd rfl houtcome
          | stopped => exact absurd rfl hno
        exact ⟨rowsOf files raw, [], (List.append_nil _).symm,
          hall (hrest' hfinished), .inr ⟨rfl, rfl⟩⟩
  · simp only [importCsvRows, hobject]
    split <;> exact hstays

theorem runs_replayed (ha : Accepted py files raw) (runs : List Run)
    (hruns : ∀ run ∈ runs, run.Of connection)
    (h : Replayed py connection before raw (rowsOf files raw) s) :
    Replayed py connection before raw (rowsOf files raw) (importRuns py files runs s) := by
  induction runs generalizing s with
  | nil => exact h
  | cons run runs ih =>
    exact ih (fun r hr => hruns r (List.mem_cons_of_mem run hr))
      (importCsvRows_replayed ha (hruns run List.mem_cons_self) h)

theorem Replayed.all (h : Replayed py connection before raw rows s) (hgone : s.object = none) :
    Recorded py connection before rows s.events := by
  obtain ⟨done, rest, hrows, hdone, hobject⟩ := h
  rcases hobject with hobject | ⟨-, rfl⟩
  · rw [hobject] at hgone
    cases hgone
  · rwa [hrows, List.append_nil]

/-- The events that recording adds: one for each new key, of the first row with it. -/
theorem Recorded.mem (h : Recorded py connection before rows events) :
    ∃ new, events.rows = before.rows ++ new ∧
    (∀ e ∈ new, e.integrationId = connection.id ∧ e.merchantId = connection.merchantId) ∧
    (new.map Event.externalEventId).Nodup ∧
    ∀ key row, (key, row) ∈ new.map content ↔
      key ∉ keysOf connection.id before ∧
      rows.find? (fun row => decide (receiptKey py row = some key)) = some row := by
  obtain ⟨new, hrows, hnew, hcontent⟩ := h
  have hkeys : new.map Event.externalEventId = (new.map content).map Prod.fst := by
    rw [List.map_map]
    rfl
  refine ⟨new, hrows, hnew, ?_, fun key row => ?_⟩
  · rw [hkeys, hcontent]
    exact firsts_nodup
  · rw [hcontent, mem_firsts, find_keyed]

theorem Recorded.keyed_known (h : Recorded py connection before rows events)
    {row : FileRow} {key : Str}
    (hrow : row ∈ rows) (hkey : receiptKey py row = some key) :
    key ∈ keysOf connection.id events := by
  rw [h.keys]
  have hentry : (key, row) ∈ keyed py rows := List.mem_filterMap.mpr ⟨row, hrow, by simp [hkey]⟩
  exact known_after hentry

theorem staged_replayed : Replayed py connection before raw rows ⟨before, some raw⟩ :=
  ⟨[], rows, rfl, .refl, .inl rfl⟩

theorem importCsvRows_completes (ha : Accepted py files raw) (hrun : run.Of connection)
    (h : Replayed py connection before raw (rowsOf files raw) s) (hreadable : run.readable = true)
    (hkilled : run.killed = none) (hids : run.ids.Injective)
    (hfresh : ∀ e ∈ s.events, ∀ i, e.id ≠ run.ids i) :
    (importCsvRows py files run s).object = none := by
  obtain ⟨done, rest, -, -, hobject⟩ := h
  obtain ⟨⟨text, reading, htext, hreading, hbroken, hread⟩, hkeys⟩ := ha
  have hfinished :=
    recordRows_finished hrun hkilled (hread ▸ hkeys) hids (i := 0) fun e he j _ => hfresh e he j
  rcases hobject with hobject | ⟨hobject, -⟩
  · simp only [importCsvRows, hreadable, hobject, htext, hreading, hbroken]
    split
    case isTrue hno => simp at hno
    case isFalse =>
      split
      case h_1 events hstopped =>
        rw [hstopped] at hfinished
        cases hfinished
      case h_2 => rfl
  · simp [importCsvRows, hobject]

end Runs

/-- Once a run has deleted the object the events are those that were there and one for each other
key of the rows, of the first row with it: what one run would have recorded. -/
theorem csv_runs (py : Runtime) (files : FileReader) (isCsv : Bool) (connection : Connection)
    (raw : Bytes) (n : ℕ)
    (haccepted : startCsvImport py files isCsv connection (some raw) = .ok n)
    (before : Inbox Str FileRow)
    (runs : List Run) (hruns : ∀ run ∈ runs, run.Of connection) :
    let s := importRuns py files runs ⟨before, some raw⟩
    (s.object = none →
      (∃ new, s.events.rows = before.rows ++ new ∧
        (∀ e ∈ new, e.integrationId = connection.id ∧ e.merchantId = connection.merchantId) ∧
        (new.map Event.externalEventId).Nodup ∧
        (∀ key row, (key, row) ∈ new.map content ↔ key ∉ keysOf connection.id before ∧
          (rowsOf files raw).find? (fun row => decide (receiptKey py row = some key)) = some row) ∧
        ∀ run : Run, run.Of connection →
          (importCsvRows py files run ⟨before, some raw⟩).object = none →
          ∃ new', (importCsvRows py files run ⟨before, some raw⟩).events.rows =
          before.rows ++ new' ∧
            new'.map content = new.map content) ∧
      ∀ row ∈ rowsOf files raw, ∃ key, receiptKey py row = some key ∧
        key ∈ keysOf connection.id s.events) ∧
    ∀ run : Run, run.Of connection → run.readable = true → run.killed = none → run.ids.Injective →
      (∀ e ∈ s.events, ∀ i, e.id ≠ run.ids i) → (importCsvRows py files run s).object = none := by
  intro s
  have ha := startCsvImport_accepted haccepted
  have hs : Replayed py connection before raw (rowsOf files raw) s :=
    runs_replayed ha runs hruns staged_replayed
  refine ⟨fun hgone => ⟨?_, fun row hrow => ?_⟩, fun run hrun => importCsvRows_completes ha hrun hs⟩
  · have hall := hs.all hgone
    obtain ⟨new, hrows, hnew, hnodup, hmem⟩ := hall.mem
    refine ⟨new, hrows, hnew, hnodup, hmem, fun run hrun hdone => ?_⟩
    obtain ⟨new', hrows', -, hcontent'⟩ :=
      (importCsvRows_replayed ha hrun staged_replayed).all hdone
    obtain ⟨taken, htaken, -, hcontent⟩ := hall
    obtain rfl : taken = new := List.append_cancel_left (htaken.symm.trans hrows)
    exact ⟨new', hrows', hcontent'.trans hcontent.symm⟩
  · obtain ⟨key, hkey⟩ := ha.keys row hrow
    have hreceipt : receiptKey py row = some key := by simp [receiptKey, hkey, Except.toOption]
    exact ⟨key, hreceipt, (hs.all hgone).keyed_known hrow hreceipt⟩

section Example

def importColumns : List String := ["external_transaction_id", "amount", "currency", "occurred_at"]

def importText : String :=
  "external_transaction_id,amount,currency,occurred_at\nt1,1,USD,2026-10-01T12:00:00Z\n" ++
    "t1,2,USD,2026-10-01T12:00:00Z\nt2,5,USD,2026-10-01T12:00:00Z\n"

def importRaw : Bytes := importText.toList.map fun c => c.toNat.toUInt8

def importRow (id amount : String) : FileRow :=
  ⟨[("external_transaction_id", some id), ("amount", some amount), ("currency", some "USD"),
    ("occurred_at", some "2026-10-01T12:00:00Z")], none⟩

def importedRows : List FileRow := [importRow "t1" "1", importRow "t1" "2", importRow "t2" "5"]

def importFile : FileReader where
  decode raw := if raw = importRaw then some importText else none
  dictReader text :=
    if text = importText then some ⟨importColumns, importedRows, false⟩ else none

def importConnection : Connection := { id := 1, status := .connected, merchantId := 2 }

def importRun (first : Uuid) (killed : Option ℕ) : Run :=
  ⟨some 2, importConnection, fun i => i + first, true, killed⟩

def earlierEvents : Inbox Str FileRow :=
  ⟨[⟨7, 2, 1, 0x1f :: text "t1", importRow "t1" "2"⟩], List.pairwise_singleton _ _⟩

theorem importFile_decode : importFile.decode importRaw = some importText := by simp [importFile]

theorem importFile_read :
    importFile.dictReader importText = some ⟨importColumns, importedRows, false⟩ := by
  simp [importFile]

set_option maxRecDepth 2000 in
theorem importRaw_length : importRaw.length = 142 := by decide

theorem importFile_accepted :
    startCsvImport plainRuntime importFile true importConnection (some importRaw) = .ok 3 := by
  have hempty : ¬ importRaw = [] := List.ne_nil_of_length_pos (importRaw_length ▸ Nat.succ_pos 141)
  have hbytes : ¬ maxBytes < importRaw.length := by
    rw [importRaw_length]
    decide
  simp only [startCsvImport, if_neg hempty, if_neg hbytes, importFile_decode, importFile_read]
  rfl

theorem importRun_of (first : Uuid) (killed : Option ℕ) :
    (importRun first killed).Of importConnection :=
  ⟨rfl, rfl, rfl, nofun⟩

theorem importRun_ids (first : Uuid) (killed : Option ℕ) : (importRun first killed).ids.Injective :=
  add_left_injective first

theorem importFile_rows : rowsOf importFile importRaw = importedRows := by
  simp [rowsOf, importFile_decode, importFile_read]

theorem importRow_key {id : String} (amount : String) (h : id = "t1" ∨ id = "t2") :
    CsvImport.getExternalEventId plainRuntime (importRow id amount).fields =
      .ok (0x1f :: text id) := by
  rcases h with rfl | rfl <;> rfl

theorem importRow_keys :
    CsvImport.getExternalEventId plainRuntime (importRow "t1" "1").fields =
        .ok (0x1f :: text "t1") ∧
      CsvImport.getExternalEventId plainRuntime (importRow "t1" "2").fields =
        .ok (0x1f :: text "t1") ∧
      CsvImport.getExternalEventId plainRuntime (importRow "t2" "5").fields =
        .ok (0x1f :: text "t2") :=
  ⟨importRow_key _ (.inl rfl), importRow_key _ (.inl rfl), importRow_key _ (.inr rfl)⟩

theorem importRow_first : (rowsOf importFile importRaw).find?
    (fun row => decide (receiptKey plainRuntime row = some (0x1f :: text "t1"))) = some
    (importRow "t1" "1") := by
  simp [importFile_rows, importedRows, receiptKey, importRow_keys, Except.toOption]

theorem importRow_last : (rowsOf importFile importRaw).find?
    (fun row => decide (receiptKey plainRuntime row = some (0x1f :: text "t2"))) = some
    (importRow "t2" "5") := by
  have hne : text "t1" ≠ text "t2" := by decide
  simp [importFile_rows, importedRows, receiptKey, importRow_keys, Except.toOption, hne]

theorem killedRun_events : (importCsvRows plainRuntime importFile (importRun 10 (some 1))
    ⟨Table.empty, some importRaw⟩).events.rows =
      [⟨10, 2, 1, 0x1f :: text "t1", importRow "t1" "1"⟩] := by
  simp only [importCsvRows, importFile_decode, importFile_read, importedRows, Run.recordRows,
    importRow_keys]
  rfl

/-- A run that is killed after the first row, and then one that is not. -/
theorem csv_runs_twice : ∃ new, (importCsvRows plainRuntime importFile (importRun 20 none)
    (importCsvRows plainRuntime importFile (importRun 10 (some 1))
    ⟨Table.empty, some importRaw⟩)).events.rows = new ∧
    (new.map Event.externalEventId).Nodup ∧
    (0x1f :: text "t1", importRow "t1" "1") ∈ new.map content ∧
    (0x1f :: text "t2", importRow "t2" "5") ∈ new.map content := by
  have hruns : ∀ run ∈ [importRun 10 (some 1), importRun 20 none], run.Of importConnection := by
    simp [importRun_of]
  have hfresh : ∀ e ∈ (importRuns plainRuntime importFile [importRun 10 (some 1)]
      ⟨Table.empty, some importRaw⟩).events, ∀ i, e.id ≠ (importRun 20 none).ids i := by
    intro e he i
    simp only [importRuns, List.foldl_cons, List.foldl_nil] at he
    obtain rfl : e = ⟨10, 2, 1, 0x1f :: text "t1", importRow "t1" "1"⟩ :=
      List.mem_singleton.mp (killedRun_events ▸ he)
    show 10 ≠ i + 20
    omega
  have hdone : (importRuns plainRuntime importFile [importRun 10 (some 1), importRun 20 none]
      ⟨Table.empty, some importRaw⟩).object = none := by
    have hlast := (csv_runs plainRuntime importFile true importConnection importRaw 3
      importFile_accepted Table.empty [importRun 10 (some 1)] (by simp [importRun_of])).2
      (importRun 20 none) (importRun_of 20 none) rfl rfl (importRun_ids 20 none) hfresh
    simpa only [importRuns, List.foldl_cons, List.foldl_nil] using hlast
  obtain ⟨⟨new, hrows, -, hnodup, hmem, -⟩, -⟩ :=
    (csv_runs plainRuntime importFile true importConnection importRaw 3
    importFile_accepted Table.empty [importRun 10 (some 1), importRun 20 none] hruns).1 hdone
  simp only [importRuns, List.foldl_cons, List.foldl_nil] at hrows
  exact ⟨new, hrows.trans (List.nil_append new), hnodup,
    (hmem _ _).mpr ⟨by simp [keysOf, Table.empty], importRow_first⟩,
    (hmem _ _).mpr ⟨by simp [keysOf, Table.empty], importRow_last⟩⟩

/-- An event of another payload under the key stays. -/
theorem earlier_event_stays :
    ¬ ∀ (py : Runtime) (files : FileReader) (isCsv : Bool) (connection : Connection)
    (raw : Bytes) (n : ℕ), startCsvImport py files isCsv connection (some raw) = .ok n →
    ∀ (before : Inbox Str FileRow) (runs : List Run), (∀ run ∈ runs, run.Of connection) →
    let s := importRuns py files runs ⟨before, some raw⟩
    s.object = none → ∀ key row,
      (rowsOf files raw).find? (fun row => decide (receiptKey py row = some key)) = some row →
      ∃ e ∈ s.events, e.integrationId = connection.id ∧ e.externalEventId = key ∧
      e.payload = row := by
  intro h
  have hruns : ∀ run ∈ [importRun 20 none], run.Of importConnection := by simp [importRun_of]
  have ha := startCsvImport_accepted importFile_accepted
  have hrun := importRun_of 20 none
  have hfresh : ∀ e ∈ earlierEvents, ∀ i, e.id ≠ (importRun 20 none).ids i := by
    intro e he i
    obtain rfl : e = ⟨7, 2, 1, 0x1f :: text "t1", importRow "t1" "2"⟩ := List.mem_singleton.mp he
    show 7 ≠ i + 20
    omega
  have hdone : (importCsvRows plainRuntime importFile (importRun 20 none)
      ⟨earlierEvents, some importRaw⟩).object = none :=
    importCsvRows_completes ha hrun staged_replayed rfl rfl (importRun_ids 20 none) hfresh
  obtain ⟨e, he, hof, hkey, hpayload⟩ := h plainRuntime importFile true importConnection importRaw 3
    importFile_accepted earlierEvents [importRun 20 none] hruns
    (by simpa only [importRuns, List.foldl_cons, List.foldl_nil] using hdone) (0x1f :: text "t1")
    (importRow "t1" "1") importRow_first
  simp only [importRuns, List.foldl_cons, List.foldl_nil] at he
  obtain ⟨new, hrows, -, -, hmem⟩ :=
    ((importCsvRows_replayed ha hrun staged_replayed).all hdone).mem
  have he : e ∈ earlierEvents.rows ++ new := hrows ▸ he
  rcases List.mem_append.mp he with hearlier | hnew
  · obtain rfl : e = ⟨7, 2, 1, 0x1f :: text "t1", importRow "t1" "2"⟩ :=
      List.mem_singleton.mp hearlier
    simp [importRow] at hpayload
  · have hcontent : (0x1f :: text "t1", e.payload) ∈ new.map content :=
      List.mem_map.mpr ⟨e, hnew, by rw [content, hkey]⟩
    exact ((hmem _ _).mp hcontent).1 (by simp [keysOf, earlierEvents, importConnection])

end Example

end ReviewFlow.Integrations.CsvRuns
