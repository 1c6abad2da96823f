import ReviewFlow.Integrations.Schemas

/-!
# The adapters

`parse`, `normalize` and `get_external_event_id` of the api, webhook, shopify and csv adapters,
and `parse_inbound_opt_outs` where it makes a phone.
-/

namespace ReviewFlow.Integrations

open Python

variable (py : Runtime)

def invalidTransactionId {α : Type} : Result α := invalid "INVALID_EXTERNAL_TRANSACTION_ID"

/-- The fields that `parse` of the api, webhook and csv adapters returns. -/
structure Parsed where
  externalTransactionId : Json
  amount : Json
  currency : Json
  occurredAt : Json
  customerPhone : Json
  customerName : Json
  paymentMethod : Json
  externalLocationId : Json

def strOrEmpty (value : Json) : Str := str py (value.orElse (.str []))

/-- `str(value) if value is not None else None`. -/
def str? (value : Json) : Option Str := if value.isNull then none else some (str py value)

namespace Api

def blankToNone : Json → Json
  | .str s => if strip s = [] then .null else .str (strip s)
  | v => v

def parse (payload : Dict) : Parsed :=
  let customer : Dict := match (payload.get (text "customer")).orElse (.dict []) with
    | .dict items => items
    | _ => []
  { externalTransactionId := blankToNone (payload.get (text "external_transaction_id"))
    amount := payload.get (text "amount")
    currency := payload.get (text "currency")
    occurredAt := payload.get (text "occurred_at")
    customerPhone := blankToNone (customer.get (text "phone"))
    customerName := blankToNone (customer.get (text "name"))
    paymentMethod := blankToNone (payload.get (text "payment_method"))
    externalLocationId := blankToNone (payload.get (text "external_location_id")) }

def saleCreated (parsed : Parsed) (amount : Decimal) (currency : Str)
    (occurredAt : DateTime) : SaleCreated :=
  { source := "api"
    externalTransactionId := str py parsed.externalTransactionId
    amount, currency, occurredAt
    customerPhone := parsed.customerPhone
    customerName := parsed.customerName
    paymentMethod := parsed.paymentMethod
    externalLocationId := parsed.externalLocationId }

def normalize (parsed : Parsed) : Result SaleCreated :=
  if !parsed.externalTransactionId.truthy then invalidTransactionId
  else do
    let amount ← parseAmount py parsed.amount
    let currency ← validateCurrency (strOrEmpty py parsed.currency)
    let occurredAt ← parseOccurredAt py parsed.occurredAt
    (saleCreated py parsed amount currency occurredAt).postInit

def getExternalEventId (payload : Dict) : Result Str :=
  match blankToNone (payload.get (text "external_transaction_id")) with
  | .str txnId =>
    saleEventKey py (str? py (blankToNone (payload.get (text "external_location_id")))) txnId
  | _ => invalidTransactionId

end Api

namespace Webhook

def requiredFields : List String := ["external_transaction_id", "amount", "occurred_at"]

/-- A `config_json` that `validate_connection` takes. -/
structure Config where
  fieldMap : List (Str × Str)
  defaultCurrency : Option Str
  paths : ∀ p ∈ fieldMap, p.2 ≠ []
  required : ∀ key ∈ requiredFields, text key ∈ fieldMap.map Prod.fst
  currency : text "currency" ∈ fieldMap.map Prod.fst ∨ ∃ c, defaultCurrency = some c ∧ c ≠ []

def Config.path? (c : Config) (key : String) : Option Str := c.fieldMap.lookup (text key)

def resolved (config : Config) (payload : Dict) (key : String) : Json :=
  match config.path? key with
  | some path => resolvePath (.dict payload) path
  | none => .null

def getExternalEventId (config : Config) (payload : Dict) : Result Str :=
  let txnId := resolvePath (.dict payload) ((config.path? "external_transaction_id").getD [])
  if txnId.isNull ∨ str py txnId = [] then invalidTransactionId
  else saleEventKey py (str? py (resolved config payload "external_location_id")) (str py txnId)

def parse (config : Config) (payload : Dict) : Parsed :=
  let currency := resolved config payload "currency"
  { externalTransactionId := resolved config payload "external_transaction_id"
    amount := resolved config payload "amount"
    currency := if currency.isNull then .ofOption config.defaultCurrency else currency
    occurredAt := resolved config payload "occurred_at"
    customerPhone := resolved config payload "customer_phone"
    customerName := resolved config payload "customer_name"
    paymentMethod := resolved config payload "payment_method"
    externalLocationId := resolved config payload "external_location_id" }

def saleCreated (parsed : Parsed) (amount : Decimal) (currency : Str)
    (occurredAt : DateTime) : SaleCreated :=
  { source := "webhook"
    externalTransactionId := str py parsed.externalTransactionId
    amount, currency, occurredAt
    customerPhone := .ofOption (str? py parsed.customerPhone)
    customerName := .ofOption (str? py parsed.customerName)
    paymentMethod := .ofOption (str? py parsed.paymentMethod)
    externalLocationId := .ofOption (str? py parsed.externalLocationId) }

def normalize (parsed : Parsed) : Result SaleCreated :=
  if parsed.externalTransactionId.isNull ∨
    str py parsed.externalTransactionId = [] then invalidTransactionId
  else do
    let amount ← parseAmount py parsed.amount
    let currency ← validateCurrency (strOrEmpty py parsed.currency)
    let occurredAt ← parseOccurredAt py parsed.occurredAt
    (saleCreated py parsed amount currency occurredAt).postInit

end Webhook

namespace Shopify

structure Order where
  id : Json
  totalPrice : Json
  currency : Json
  processedAt : Json
  createdAt : Json
  phone : Option Str
  customerPhone : Option Str
  customerName : Option Str
  paymentMethod : Option Str
  externalLocationId : Option Str

/-- `value.get(key)` of what should be a dict. -/
def getAttribute (value : Json) (key : Str) : Result Json :=
  match value with
  | .dict items => .ok (Dict.get items key)
  | _ => .error .attributeError

/-- `(value or "").strip()`. -/
def stripped (value : Json) : Result Str :=
  match value.orElse (.str []) with
  | .str s => .ok (strip s)
  | _ => .error .attributeError

def noneIfEmpty (s : Str) : Option Str := if s = [] then none else some s

/-- `str(gateways[0])[:32] if gateways else None`. -/
def firstGateway (gateways : Json) : Result (Option Str) :=
  if !gateways.truthy then .ok none
  else match gateways with
    | .str s => .ok (some (s.take 1))
    | .list items => .ok (some ((str py (items.headD .null)).take 32))
    | .dict _ => .error .keyError
    | _ => .error .typeError

def parse (payload : Dict) : Result Order := do
  let customer := (payload.get (text "customer")).orElse (.dict [])
  let firstName ← getAttribute customer (text "first_name") >>= stripped
  let lastName ← getAttribute customer (text "last_name") >>= stripped
  let gateways := (payload.get (text "payment_gateway_names")).orElse (.list [])
  let phone ← stripped (payload.get (text "phone"))
  let customerPhone ← getAttribute customer (text "phone") >>= stripped
  let paymentMethod ← firstGateway py gateways
  return {
    id := payload.get (text "id")
    totalPrice := payload.get (text "total_price")
    currency := payload.get (text "currency")
    processedAt := payload.get (text "processed_at")
    createdAt := payload.get (text "created_at")
    phone := noneIfEmpty phone
    customerPhone := noneIfEmpty customerPhone
    customerName := noneIfEmpty (strip (firstName ++ 32 :: lastName))
    paymentMethod
    externalLocationId := str? py (payload.get (text "location_id")) }

def saleCreated (order : Order) (amount : Decimal) (occurredAt : DateTime) : SaleCreated :=
  { source := "shopify"
    externalTransactionId := str py order.id
    amount
    currency := strOrEmpty py order.currency
    occurredAt
    customerPhone := .ofOption (order.phone.or order.customerPhone)
    customerName := .ofOption order.customerName
    paymentMethod := .ofOption order.paymentMethod
    externalLocationId := .ofOption order.externalLocationId }

def normalize (order : Order) : Result SaleCreated :=
  if order.id.isNull ∨ str py order.id = [] then invalidTransactionId
  else do
    let amount ← parseAmount py order.totalPrice
    let occurredAt ←
      parseOccurredAt py (if order.processedAt.isNull then order.createdAt else order.processedAt)
    (saleCreated py order amount occurredAt).postInit

def getExternalEventId (webhookId : Str) : Result Str :=
  if webhookId = [] then .error .webhookRejected else .ok webhookId

end Shopify

namespace CsvImport

/-- A row of `csv.DictReader` over a decoded file: a short row has None for its last columns. -/
abbrev Row := List (String × Option String)

/-- `_blank_to_none(row.get(key))`. -/
def Row.get (row : Row) (key : String) : Option Str :=
  ((row.lookup key).join).bind fun value => if strip (text value) = [] then none
  else some (strip (text value))

def parse (row : Row) : Parsed :=
  { externalTransactionId := .ofOption (row.get "external_transaction_id")
    amount := .ofOption (row.get "amount")
    currency := .ofOption (row.get "currency")
    occurredAt := .ofOption (row.get "occurred_at")
    customerPhone := .ofOption (row.get "customer_phone")
    customerName := .ofOption (row.get "customer_name")
    paymentMethod := .ofOption (row.get "payment_method")
    externalLocationId := .ofOption (row.get "external_location_id") }

def saleCreated (parsed : Parsed) (amount : Decimal) (currency : Str)
    (occurredAt : DateTime) : SaleCreated :=
  { source := "csv"
    externalTransactionId := str py parsed.externalTransactionId
    amount, currency, occurredAt
    customerPhone := parsed.customerPhone
    customerName := parsed.customerName
    paymentMethod := parsed.paymentMethod
    externalLocationId := parsed.externalLocationId }

def normalize (parsed : Parsed) : Result SaleCreated :=
  if parsed.externalTransactionId.isNull then invalidTransactionId
  else do
    let amount ← parseAmount py parsed.amount
    let currency ← validateCurrency (strOrEmpty py parsed.currency)
    let occurredAt ← parseOccurredAt py parsed.occurredAt
    (saleCreated py parsed amount currency occurredAt).postInit

def getExternalEventId (row : Row) : Result Str :=
  match row.get "external_transaction_id" with
  | some txnId => saleEventKey py (row.get "external_location_id") txnId
  | none => invalidTransactionId

end CsvImport

inductive Delivery where
  | api (payload : Dict)
  | webhook (config : Webhook.Config) (payload : Dict)
  | shopify (webhookId : Str) (payload : Dict)
  | csv (row : CsvImport.Row)

/-- `normalize(parse(payload))`. -/
def Delivery.sale : Delivery → Result SaleCreated
  | .api payload => Api.normalize py (Api.parse payload)
  | .webhook config payload => Webhook.normalize py (Webhook.parse config payload)
  | .shopify _ payload => Shopify.parse py payload >>= Shopify.normalize py
  | .csv row => CsvImport.normalize py (CsvImport.parse row)

def Delivery.externalEventId : Delivery → Result Str
  | .api payload => Api.getExternalEventId py payload
  | .webhook config payload => Webhook.getExternalEventId py config payload
  | .shopify webhookId _ => Shopify.getExternalEventId webhookId
  | .csv row => CsvImport.getExternalEventId py row

/-- The phone that `parse_inbound_opt_outs` makes of the sender of a message. -/
def inboundPhone (fromPhone : Str) : Option Str :=
  let phone := 43 :: lstripChar 43 fromPhone
  if matchesE164 phone then some phone else none

end ReviewFlow.Integrations
