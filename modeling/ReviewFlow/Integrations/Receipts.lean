import ReviewFlow.Events.Receipts
import ReviewFlow.Integrations.WellFormed
import ReviewFlow.Separators

/-!
# The receipt key of a sale

The webhook, csv and api adapters make the `external_event_id` of a delivery from the ids that
`parse` and `normalize` give to its sale. The text that is hashed joins the two ids with a
character that they may hold themselves.
-/

namespace ReviewFlow.Integrations

open Python Events.Receipts
open Separators (Unambiguous)

variable (py : Runtime)

namespace CsvImport

def blankToNone (value : Json) : Option Str :=
  if value.isNull ∨ strip (str py value) = [] then none else some (strip (str py value))

def parsePayload (payload : Dict) : Parsed :=
  { externalTransactionId := .ofOption (blankToNone py
    (payload.get (text "external_transaction_id")))
    amount := .ofOption (blankToNone py (payload.get (text "amount")))
    currency := .ofOption (blankToNone py (payload.get (text "currency")))
    occurredAt := .ofOption (blankToNone py (payload.get (text "occurred_at")))
    customerPhone := .ofOption (blankToNone py (payload.get (text "customer_phone")))
    customerName := .ofOption (blankToNone py (payload.get (text "customer_name")))
    paymentMethod := .ofOption (blankToNone py (payload.get (text "payment_method")))
    externalLocationId := .ofOption (blankToNone py (payload.get (text "external_location_id"))) }

def payloadEventId (payload : Dict) : Result Str :=
  match blankToNone py (payload.get (text "external_transaction_id")) with
  | some txnId => saleEventKey py (blankToNone py (payload.get (text "external_location_id"))) txnId
  | none => invalidTransactionId

def Row.payload (row : Row) : Dict := row.map fun p => (text p.1, .ofOption (p.2.map text))

theorem text_inj {a b : String} : text a = text b ↔ a = b := by
  refine ⟨fun h => ?_, congrArg text⟩
  have hchars : a.toList = b.toList :=
    List.map_injective_iff.mpr (fun _ _ hc => Char.toNat_inj.mp hc) h
  exact String.toList_inj.mp hchars

theorem payload_get (row : Row) (key : String) :
    row.payload.get (text key) = .ofOption ((row.lookup key).join.map text) := by
  induction row with
  | nil => rfl
  | cons p row ih =>
    by_cases hkey : p.1 = key
    · have hfound : (text p.1 == text key) = true := beq_iff_eq.mpr (congrArg text hkey)
      obtain ⟨k, v⟩ := p
      obtain rfl : k = key := hkey
      simp [Row.payload, Dict.get]
    · have hnot : (text p.1 == text key) = false := beq_eq_false_iff_ne.mpr fun h =>
        hkey (text_inj.mp h)
      have hlookup : (key == p.1) = false := beq_eq_false_iff_ne.mpr (Ne.symm hkey)
      obtain ⟨k, v⟩ := p
      simp only [Row.payload, Dict.get, List.map_cons, List.find?_cons,
        List.lookup_cons] at ih hnot hlookup ⊢
      rw [hnot, hlookup]
      exact ih

theorem blankToNone_payload (row : Row) (key : String) :
    blankToNone py (row.payload.get (text key)) = row.get key := by
  rw [payload_get, Row.get]
  cases (row.lookup key).join with
  | none => rfl
  | some value => simp [blankToNone, Json.ofOption, Json.isNull, str]

theorem parsePayload_row (row : Row) : parsePayload py row.payload = parse row := by
  simp only [parsePayload, blankToNone_payload, parse]

theorem payloadEventId_row
    (row : Row) : payloadEventId py row.payload = getExternalEventId py row := by
  cases h : row.get "external_transaction_id" with
  | none => simp [payloadEventId, getExternalEventId, blankToNone_payload, h]
  | some txnId => simp [payloadEventId, getExternalEventId, blankToNone_payload, h]

end CsvImport

inductive Keyed where
  | api (payload : Dict)
  | webhook (config : Webhook.Config) (payload : Dict)
  | csv (payload : Dict)

def Keyed.payload : Keyed → Dict
  | .api payload => payload
  | .webhook _ payload => payload
  | .csv payload => payload

/-- `normalize(parse(payload))`. -/
def Keyed.sale : Keyed → Result SaleCreated
  | .api payload => Api.normalize py (Api.parse payload)
  | .webhook config payload => Webhook.normalize py (Webhook.parse config payload)
  | .csv payload => CsvImport.normalize py (CsvImport.parsePayload py payload)

def Keyed.externalEventId : Keyed → Result Str
  | .api payload => Api.getExternalEventId py payload
  | .webhook config payload => Webhook.getExternalEventId py config payload
  | .csv payload => CsvImport.payloadEventId py payload

/-- The ids that `get_external_event_id` passes to `sale_event_key`, if it comes to that. -/
def Keyed.ids : Keyed → Option (Option Str × Str)
  | .api payload => match Api.blankToNone (payload.get (text "external_transaction_id")) with
    | .str txnId => some (str? py (Api.blankToNone (payload.get (text "external_location_id"))),
      txnId)
    | _ => none
  | .webhook config payload =>
    let txnId := resolvePath (.dict payload) ((config.path? "external_transaction_id").getD [])
    if txnId.isNull ∨ str py txnId = [] then none
    else some (str? py (Webhook.resolved config payload "external_location_id"), str py txnId)
  | .csv payload =>
    (CsvImport.blankToNone py (payload.get (text "external_transaction_id"))).map fun txnId =>
      (CsvImport.blankToNone py (payload.get (text "external_location_id")), txnId)

def locationAndTransaction (ids : Option Str × Str) : Str × Str := (ids.1.getD [], ids.2)

def SaleCreated.ids (s : SaleCreated) : Option Str × Str :=
  (str? py s.externalLocationId, s.externalTransactionId)

/-- The text that `sale_event_key` hashes. -/
def receiptText (ids : Option Str × Str) : Str := ids.1.getD [] ++ 0x1f :: ids.2

section Keys

variable {py : Runtime} {d d' : Keyed} {ids ids' : Option Str × Str} {key key' : Str}
    {s s' : SaleCreated}

theorem saleEventKey_eq_ok :
    saleEventKey py ids.1 ids.2 = .ok key ↔ Encodable (receiptText ids) ∧
    py.sha256 (receiptText ids) = key := by
  simp only [saleEventKey, receiptText]
  split
  case isTrue h => simp [h]
  case isFalse h => simp [h]

theorem externalEventId_eq_ok (h : d.externalEventId py = .ok key) :
    ∃ ids, d.ids py = some ids ∧ saleEventKey py ids.1 ids.2 = .ok key := by
  cases d with
  | api payload =>
    simp only [Keyed.externalEventId, Api.getExternalEventId] at h
    split at h
    case h_1 txnId htxn => exact ⟨_, by simp only [Keyed.ids, htxn]; rfl, h⟩
    case h_2 => cases h
  | webhook config payload =>
    simp only [Keyed.externalEventId, Webhook.getExternalEventId] at h
    split at h
    case isTrue => cases h
    case isFalse htxn => exact ⟨_, if_neg htxn, h⟩
  | csv payload =>
    simp only [Keyed.externalEventId, CsvImport.payloadEventId] at h
    split at h
    case h_1 txnId htxn => exact ⟨_, by simp only [Keyed.ids, htxn]; rfl, h⟩
    case h_2 => cases h

theorem externalEventId_of_ids
    (h : d.ids py = some ids) : d.externalEventId py = saleEventKey py ids.1 ids.2 := by
  cases d with
  | api payload =>
    simp only [Keyed.ids] at h
    split at h
    case h_1 txnId htxn =>
      cases h
      simp only [Keyed.externalEventId, Api.getExternalEventId, htxn]
    case h_2 => cases h
  | webhook config payload =>
    simp only [Keyed.ids] at h
    split at h
    case isTrue => cases h
    case isFalse htxn =>
      cases h
      exact if_neg htxn
  | csv payload =>
    obtain ⟨txnId, htxn, rfl⟩ := Option.map_eq_some_iff.mp h
    simp only [Keyed.externalEventId, CsvImport.payloadEventId, htxn]

theorem str?_ofOption (o : Option Str) : str? py (.ofOption o) = o := by
  cases o <;> rfl

theorem ids_of_postInit (h : s.postInit = .ok s') : s'.ids py = s.ids py := by
  rw [(checked_of_postInit h).result]
  rfl

theorem ids_of_sale (hids : d.ids py = some ids) (hsale : d.sale py = .ok s) : s.ids py = ids := by
  cases d with
  | api payload =>
    simp only [Keyed.ids] at hids
    split at hids
    case h_2 => cases hids
    case h_1 txnId htxn =>
      cases hids
      obtain ⟨-, hsale⟩ := ok_of_guard hsale
      obtain ⟨amount, occurredAt, hpost⟩ := sale_arguments hsale
      rw [ids_of_postInit hpost]
      have hparsed : (Api.parse payload).externalTransactionId = .str txnId := htxn
      simp only [SaleCreated.ids, Api.saleCreated, hparsed]
      rfl
  | webhook config payload =>
    simp only [Keyed.ids] at hids
    split at hids
    case isTrue => cases hids
    case isFalse =>
      cases hids
      obtain ⟨-, hsale⟩ := ok_of_guard hsale
      obtain ⟨amount, occurredAt, hpost⟩ := sale_arguments hsale
      rw [ids_of_postInit hpost, webhook_path]
      simp only [SaleCreated.ids, Webhook.saleCreated, str?_ofOption]
      rfl
  | csv payload =>
    obtain ⟨txnId, htxn, rfl⟩ := Option.map_eq_some_iff.mp hids
    obtain ⟨-, hsale⟩ := ok_of_guard hsale
    obtain ⟨amount, occurredAt, hpost⟩ := sale_arguments hsale
    rw [ids_of_postInit hpost]
    simp only [SaleCreated.ids, CsvImport.saleCreated, CsvImport.parsePayload, str?_ofOption, htxn]
    rfl

theorem saleEventKey_congr (h : locationAndTransaction ids = locationAndTransaction ids') :
    saleEventKey py ids.1 ids.2 = saleEventKey py ids'.1 ids'.2 := by
  obtain ⟨hloc, htxn⟩ := Prod.ext_iff.mp h
  dsimp only [locationAndTransaction] at hloc htxn
  simp only [saleEventKey, hloc, htxn]

theorem ids_nonempty (h : d.ids py = some ids) : ids.2 ≠ [] := by
  cases d with
  | api payload =>
    simp only [Keyed.ids] at h
    split at h
    case h_2 => cases h
    case h_1 txnId htxn =>
      cases h
      rw [Api.blankToNone.eq_def] at htxn
      split at htxn
      case h_1 s =>
        split at htxn
        case isTrue => cases htxn
        case isFalse hs =>
          cases htxn
          exact hs
      case h_2 hno => exact absurd htxn (hno txnId)
  | webhook config payload =>
    simp only [Keyed.ids] at h
    split at h
    case isTrue => cases h
    case isFalse htxn =>
      cases h
      exact (not_or.mp htxn).2
  | csv payload =>
    obtain ⟨txnId, htxn, rfl⟩ := Option.map_eq_some_iff.mp h
    rw [CsvImport.blankToNone] at htxn
    split at htxn
    case isTrue => cases htxn
    case isFalse hs =>
      cases htxn
      exact (not_or.mp hs).2

end Keys

def storeConfig : Webhook.Config where
  fieldMap := [(text "external_transaction_id", text "id"), (text "amount", text "total"),
    (text "occurred_at", text "at"), (text "external_location_id", text "store")]
  defaultCurrency := some (text "USD")
  paths := by decide
  required := by decide
  currency := .inr ⟨_, rfl, by decide⟩

def storeSale (location transaction : Str) : Dict :=
  [(text "id", .str transaction), (text "store", .str location),
    (text "total", .str (text "12.50")),
   (text "at", .str (text "2026-10-01T12:00:00Z"))]

theorem ids_storeSale (location : Str) {transaction : Str} (h : transaction ≠ []) :
    (Keyed.webhook storeConfig (storeSale location transaction)).ids py =
      some (some location, transaction) :=
  if_neg (not_or.mpr ⟨Bool.false_ne_true, h⟩)

section Recorded

/-- The call of `record_event` for a delivery. -/
def Keyed.Records (d : Keyed) (c : Call Str Dict) : Prop :=
  d.externalEventId py = .ok c.externalEventId ∧ c.payload = d.payload

/-- Two deliveries to one integration get the events `e` and `e'`, with other calls between them. -/
def RecordedInTurn (d d' : Keyed) (e e' : Event Str Dict) (new' : Bool) : Prop :=
  ∃ (inbox inbox₁ inbox₂ : Inbox Str Dict) (c c' : Call Str Dict)
    (later : List (Call Str Dict)) (new : Bool),
    d.Records py c ∧ d'.Records py c' ∧ c.integration.id = c'.integration.id ∧
      recordEvent inbox c = .ok ((e, new), inbox₁) ∧
      recordEvent (later.foldl afterCall inbox₁) c' = .ok ((e', new'), inbox₂)

def KeysCollide (ids ids' : Option Str × Str) : Prop :=
  locationAndTransaction ids' ≠ locationAndTransaction ids ∧
    saleEventKey py ids'.1 ids'.2 = saleEventKey py ids.1 ids.2

variable {py : Runtime} {d d' : Keyed} {ids ids' : Option Str × Str} {s s' : SaleCreated}
  {e e' : Event Str Dict} {new' : Bool}

theorem RecordedInTurn.same_iff (h : RecordedInTurn py d d' e e' new') :
    e' = e ↔ d'.externalEventId py = d.externalEventId py := by
  obtain ⟨inbox, inbox₁, inbox₂, c, c', later, new, ⟨hkey, -⟩, ⟨hkey', -⟩, hintegration, hfirst,
    hsecond⟩ := h
  rw [recordEvent_same hfirst hsecond hintegration, hkey, hkey', Except.ok.injEq]

theorem RecordedInTurn.passed (h : RecordedInTurn py d d' e e' new') :
    ∃ ids ids', d.ids py = some ids ∧ d'.ids py = some ids' := by
  obtain ⟨inbox, inbox₁, inbox₂, c, c', later, new, ⟨hkey, -⟩, ⟨hkey', -⟩, -⟩ := h
  obtain ⟨ids, hids, -⟩ := externalEventId_eq_ok hkey
  obtain ⟨ids', hids', -⟩ := externalEventId_eq_ok hkey'
  exact ⟨ids, ids', hids, hids'⟩

/-- The receipt key of a sale is the key of its ids, and two sales of one integration get one event
if and only if their ids are the same, or collide. -/
theorem receipt_key_of_sale (py : Runtime) :
    (∀ (d : Keyed) (key : Str) (s : SaleCreated), d.externalEventId py =
      .ok key → d.sale py = .ok s →
      saleEventKey py (str? py s.externalLocationId) s.externalTransactionId = .ok key) ∧
    ∀ (d d' : Keyed) (s s' : SaleCreated) (e e' : Event Str Dict) (new' : Bool),
      RecordedInTurn py d d' e e' new' → d.sale py = .ok s → d'.sale py = .ok s' →
        (e' = e ↔ locationAndTransaction (s'.ids py) = locationAndTransaction (s.ids py) ∨
          KeysCollide py (s.ids py) (s'.ids py)) := by
  constructor
  · intro d key s hkey hsale
    obtain ⟨ids, hids, hof⟩ := externalEventId_eq_ok hkey
    obtain rfl := ids_of_sale hids hsale
    exact hof
  · intro d d' s s' e e' new' hturn hsale hsale'
    obtain ⟨ids, ids', hids, hids'⟩ := hturn.passed
    rw [hturn.same_iff, externalEventId_of_ids hids,
      externalEventId_of_ids hids', ids_of_sale hids hsale,
      ids_of_sale hids' hsale']
    constructor
    · intro hkeys
      by_cases hsame : locationAndTransaction ids' = locationAndTransaction ids
      · exact .inl hsame
      · exact .inr ⟨hsame, hkeys⟩
    · intro h
      rcases h with hsame | ⟨-, hkeys⟩
      · exact saleEventKey_congr hsame
      · exact hkeys

def saleAt (location : Json) : Dict :=
  (text "external_location_id", location) :: saleOfAmount "12.50"

def callOf (id : Events.Uuid) (externalEventId : Str) (payload : Dict) : Call Str Dict :=
  { tenant := some 1, integration := ⟨⟨1, .connected⟩, 1⟩, id, externalEventId, payload }

def inboxOf (c : Call Str Dict) : Inbox Str Dict := ⟨[c.event], List.pairwise_singleton _ _⟩

theorem recordedInTurn_of_key {d d' : Keyed} {key : Str}
    (hkey : d.externalEventId plainRuntime = .ok key)
    (hkey' : d'.externalEventId plainRuntime = .ok key) :
    RecordedInTurn plainRuntime d d' (callOf 1 key d.payload).event
    (callOf 1 key d.payload).event false := by
  refine ⟨Tables.Table.empty, inboxOf (callOf 1 key d.payload), inboxOf (callOf 1 key d.payload),
    callOf 1 key d.payload, callOf 2 key d'.payload, [], true, ⟨hkey, rfl⟩,
      ⟨hkey', rfl⟩, rfl, rfl, ?_⟩
  simp [recordEvent, callOf, inboxOf, existing, Tables.Table.insert?, Tables.Table.find?,
    Call.event, Event.Clash]

/-- A number and a padded text are one location. -/
theorem receipt_key_of_numbered_location :
    ∃ s s', (Keyed.api (saleAt (.int 5))).sale plainRuntime = .ok s ∧
    (Keyed.api (saleAt (.str (text " 5 ")))).sale plainRuntime = .ok s' ∧
    saleEventKey plainRuntime (str? plainRuntime s.externalLocationId) s.externalTransactionId =
      .ok (text "5" ++ 0x1f :: text "t1") ∧
    (locationAndTransaction (s'.ids plainRuntime) = locationAndTransaction (s.ids plainRuntime) ∨
      KeysCollide plainRuntime (s.ids plainRuntime) (s'.ids plainRuntime)) := by
  obtain ⟨hkey, hsame⟩ := receipt_key_of_sale plainRuntime
  refine ⟨_, _, rfl, rfl, ?_, ?_⟩
  · exact hkey (.api (saleAt (.int 5))) _ _ (by rfl) (by rfl)
  · exact (hsame (.api (saleAt (.int 5))) (.api (saleAt (.str (text " 5 ")))) _ _ _ _ _
      (recordedInTurn_of_key rfl rfl) rfl rfl).mp rfl

/-- The text of these ids belongs to no other ids that an adapter passes, and an integration
records no sale with other ids as a duplicate of this one, or this one of it. -/
def Separated (py : Runtime) (d : Keyed) (ids : Option Str × Str) : Prop :=
  ∀ (d' : Keyed) (ids' : Option Str × Str), d'.ids py = some ids' →
    locationAndTransaction ids' ≠ locationAndTransaction ids →
      receiptText ids' ≠ receiptText ids ∧
        ∀ e e' new', RecordedInTurn py d d' e e' new' ∨ RecordedInTurn py d' d e e' new' → e' ≠ e

theorem text_ne_of_unambiguous
    (h : Unambiguous 0x1f (ids.1.getD []) ids.2) (hids' : d'.ids py = some ids')
    (hne : locationAndTransaction ids' ≠ locationAndTransaction ids) : receiptText ids' ≠
      receiptText ids := by
  intro htext
  obtain ⟨hloc, htxn⟩ := h.unique (ids_nonempty hids') htext
  exact hne (Prod.ext hloc htxn)

theorem keys_ne (hinj : Function.Injective py.sha256)
    (hids : d.ids py = some ids) (hids' : d'.ids py = some ids')
    (hne : receiptText ids' ≠ receiptText ids) {key : Str} (hkey : d.externalEventId py = .ok key) :
    d'.externalEventId py ≠ .ok key := by
  intro hkey'
  rw [externalEventId_of_ids hids] at hkey
  rw [externalEventId_of_ids hids'] at hkey'
  obtain ⟨-, hsha⟩ := saleEventKey_eq_ok.mp hkey
  obtain ⟨-, hsha'⟩ := saleEventKey_eq_ok.mp hkey'
  exact hne (hinj (hsha'.trans hsha.symm))

theorem RecordedInTurn.ne (h : RecordedInTurn py d d' e e' new')
    (hkeys : ∀ key, d.externalEventId py = .ok key → d'.externalEventId py ≠ .ok key) : e' ≠ e := by
  intro heq
  have hsame := h.same_iff.mp heq
  obtain ⟨-, -, -, c, -, -, -, ⟨hkey, -⟩, -⟩ := h
  exact hkeys _ hkey (hsame.trans hkey)

/-- With a collision-free hash a sale is kept apart from all others if and only if its location id
has no unit separator and its transaction id has none before its last character. -/
theorem separated_iff (py : Runtime) (hinj : Function.Injective py.sha256)
    (d : Keyed) (ids : Option Str × Str)
    (hids : d.ids py = some ids) : Separated py d ids ↔ Unambiguous 0x1f (ids.1.getD []) ids.2 := by
  constructor
  · intro h
    by_contra hno
    obtain ⟨location, transaction, hne, htext, hloc⟩ := Separators.exists_other hno
      (ids_nonempty hids)
    have hpassed := ids_storeSale py location hne
    exact (h _ _ hpassed (fun heq => hloc (congrArg Prod.fst heq))).1 htext
  · intro h d' ids' hids' hne
    have htext := text_ne_of_unambiguous h hids' hne
    refine ⟨htext, fun e e' new' hturn => ?_⟩
    rcases hturn with hturn | hturn
    · exact hturn.ne fun key hkey => keys_ne hinj hids hids' htext hkey
    · exact hturn.ne fun key hkey => keys_ne hinj hids' hids htext.symm hkey

theorem separated_store :
    Separated plainRuntime (.webhook storeConfig (storeSale (text "s1") (text "t1")))
    (some (text "s1"), text "t1") :=
  (separated_iff plainRuntime (fun _ _ h => h) _
    _ (ids_storeSale plainRuntime (text "s1") (by decide))).mpr
    ⟨by decide, by decide⟩

/-- The sale of `b␟c` at the location `a` is dropped as the sale of `c` at the location `a␟b`. -/
theorem separator_collides :
    (¬ ∀ (py : Runtime), Function.Injective py.sha256 → ∀ (d : Keyed) (ids : Option Str × Str),
      d.ids py = some ids → Separated py d ids) ∧
    (∀ py, (Keyed.webhook storeConfig (storeSale [97, 31, 98] [99])).externalEventId py =
      (Keyed.webhook storeConfig (storeSale [97] [98, 31, 99])).externalEventId py) ∧
    ∃ s s' e, (Keyed.webhook storeConfig (storeSale [97, 31, 98] [99])).sale plainRuntime = .ok s ∧
      (Keyed.webhook storeConfig (storeSale [97] [98, 31, 99])).sale plainRuntime = .ok s' ∧
      locationAndTransaction (s'.ids plainRuntime) ≠ locationAndTransaction (s.ids plainRuntime) ∧
      RecordedInTurn plainRuntime (.webhook storeConfig (storeSale [97, 31, 98] [99]))
        (.webhook storeConfig (storeSale [97] [98, 31, 99])) e e false := by
  refine ⟨fun h => ?_, fun _ => rfl, _, _, _, rfl, rfl, by decide, recordedInTurn_of_key rfl rfl⟩
  have hsep := h plainRuntime
    (fun _ _ h => h) (.webhook storeConfig (storeSale [97, 31, 98] [99])) _
    (ids_storeSale plainRuntime [97, 31, 98] (by decide))
  exact (hsep _ _ (ids_storeSale plainRuntime [97] (by decide : [98, 31, 99] ≠ []))
    (by decide)).1 rfl

end Recorded

end ReviewFlow.Integrations
