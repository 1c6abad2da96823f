import ReviewFlow.Python.Decimal

/-!
# The checks of a sale

The payload checks that the adapters share and `SaleCreated`. The fields of an event hold what
an adapter puts into them, of any type, and each check does to it what Python does.
-/

namespace ReviewFlow.Integrations

open Python

/-- A float by its `repr`, which is ASCII. -/
structure Float64 where
  repr : Str
  ascii : ∀ c ∈ repr, c < 128

inductive Json where
  | null
  | bool (b : Bool)
  | int (n : ℤ)
  | float (x : Float64)
  | str (s : Str)
  | list (items : List Json)
  | dict (items : List (Str × Json))

abbrev Dict := List (Str × Json)

def Dict.get (d : Dict) (key : Str) : Json :=
  ((d.find? fun p => p.1 == key).map Prod.snd).getD .null

def Json.isNull : Json → Bool
  | null => true
  | _ => false

def Json.truthy : Json → Bool
  | null => false
  | bool b => b
  | int n => n != 0
  | float x => x.repr != text "0.0" && x.repr != text "-0.0"
  | str s => s != []
  | list items => !items.isEmpty
  | dict items => !items.isEmpty

/-- `self or other`. -/
def Json.orElse (v w : Json) : Json := if v.truthy then v else w

def Json.ofOption (s : Option Str) : Json := (s.map .str).getD .null

structure DateTime where
  naive : ℤ
  /-- The offset from UTC. -/
  tzinfo : Option ℤ

/-- What the model takes from Python as it is: the `repr` of a list or a dict, which escapes what is
not printable, `datetime.fromisoformat`, whose ValueError is none, and the SHA-256 digest. -/
structure Runtime where
  repr : Json → Str
  encodable : ∀ v, Encodable (repr v)
  fromisoformat : Str → Option DateTime
  sha256 : Str → Str

inductive Error where
  | payloadValidation (code : String)
  | webhookRejected
  | attributeError
  | typeError
  | keyError
  | invalidOperation
  | unicodeEncodeError
  deriving DecidableEq

abbrev Result := Except Error

def invalid {α : Type} (code : String) : Result α := .error (.payloadValidation code)

def reject (p : Prop) [Decidable p] (code : String) : Result Unit :=
  if p then invalid code else .ok ()

variable (py : Runtime)

def str : Json → Str
  | .null => text "None"
  | .bool b => text (if b then "True" else "False")
  | .int n => text (toString n)
  | .float x => x.repr
  | .str s => s
  | v => py.repr v

def matchesE164 (phone : Str) : Bool :=
  match beforeEnd phone with
  | 43 :: first :: rest =>
    49 ≤ first && first ≤ 57 && 7 ≤ rest.length && rest.length ≤ 14 && rest.all isDecimal
  | _ => false

def matchesCurrency (code : Str) : Bool :=
  (beforeEnd code).length == 3 && (beforeEnd code).all fun c => 65 ≤ c && c ≤ 90

def validateE164 (phone : Str) : Result Str :=
  if matchesE164 phone then .ok phone else invalid "INVALID_PHONE"

def validateCurrency (code : Str) : Result Str :=
  if matchesCurrency code then .ok code else invalid "INVALID_CURRENCY"

def Json.isBlank : Json → Bool
  | .null => true
  | .str s => strip s == []
  | _ => false

def parseAmount (value : Json) : Result Decimal :=
  if value.isBlank then invalid "INVALID_AMOUNT"
  else match Decimal.ofStr? (str py value) with
    | some amount => .ok amount
    | none => invalid "INVALID_AMOUNT"

def utcSuffix (s : Str) : Str := if s.getLast? = some 90 then s.dropLast ++ text "+00:00" else s

def parseOccurredAt (value : Json) : Result DateTime :=
  if value.isNull then invalid "INVALID_OCCURRED_AT"
  else match py.fromisoformat (utcSuffix (str py value)) with
    | some t => .ok t
    | none => invalid "INVALID_OCCURRED_AT"

def saleEventKey (externalLocationId : Option Str) (externalTransactionId : Str) : Result Str :=
  let raw := externalLocationId.getD [] ++ 0x1f :: externalTransactionId
  if Encodable raw then .ok (py.sha256 raw) else .error .unicodeEncodeError

def resolveSegment (current : Json) (segment : Str) : Json :=
  match current with
  | .dict items => Dict.get items segment
  | .list items => match int? segment with
    | some idx => if 0 ≤ idx then (items[idx.toNat]?).getD .null else .null
    | none => .null
  | _ => .null

def resolvePath (obj : Json) (dottedPath : Str) : Json :=
  (dottedPath.splitOn 46).foldl resolveSegment obj

def maxDigits : ℕ := 12
def decimalPlaces : ℕ := 2
def maxExternalIdLen : ℕ := 255
def maxNameLen : ℕ := 255
def maxPaymentMethodLen : ℕ := 32

/-- The exponent of an infinity or a NaN is a letter, which does not compare with 0. -/
def fitsDecimal (value : Decimal) : Result Bool :=
  match value with
  | .finite _ coefficient exponent =>
    let intDigits : ℤ :=
      if 0 < exponent then numDigits coefficient + exponent
      else max (numDigits coefficient + exponent) 1
    let fracDigits : ℤ := if 0 < exponent then 0 else -exponent
    .ok (decide (¬ decimalPlaces < fracDigits ∧ intDigits ≤ maxDigits - decimalPlaces))
  | _ => .error .typeError

def len : Json → Result ℕ
  | .str s => .ok s.length
  | .list items => .ok items.length
  | .dict items => .ok items.length
  | _ => .error .typeError

structure SaleCreated where
  source : String
  externalTransactionId : Str
  amount : Decimal
  currency : Str
  occurredAt : DateTime
  customerPhone : Json
  customerName : Json
  paymentMethod : Json
  externalLocationId : Json

def checkedPhone : Json → Result Json
  | .null => .ok .null
  | .str phone => if strip phone = [] then .ok .null else (validateE164 phone).map .str
  | _ => .error .attributeError

def checkLen (value : Json) (limit : ℕ) : Result Unit :=
  if value.isNull then .ok ()
  else do
    let n ← len value
    reject (limit < n) "PAYLOAD_INVALID"

def checkAmount (amount : Decimal) : Result Unit :=
  match amount.ltZero? with
  | none => .error .invalidOperation
  | some true => invalid "INVALID_AMOUNT"
  | some false => do
    let fits ← fitsDecimal amount
    reject (fits = false) "PAYLOAD_INVALID"

def SaleCreated.postInit (s : SaleCreated) : Result SaleCreated := do
  reject (s.externalTransactionId = [] ∨ maxExternalIdLen < s.externalTransactionId.length)
    "INVALID_EXTERNAL_TRANSACTION_ID"
  let phone ← checkedPhone s.customerPhone
  checkLen s.customerName maxNameLen
  checkLen s.paymentMethod maxPaymentMethodLen
  checkAmount s.amount
  let _ ← validateCurrency s.currency
  reject (s.occurredAt.tzinfo = none) "INVALID_OCCURRED_AT"
  .ok { s with customerPhone := phone }

end ReviewFlow.Integrations
