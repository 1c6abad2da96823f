import ReviewFlow.Billing.System

/-!
# The deliveries of the provider, to all merchants

The receiver checks the signature, the event id and the body of a delivery before it reads a row.
The merchant is that of the row that holds the reference. What the other merchants' tables hold is
what the unique indexes refuse to the tables of one merchant.
-/

namespace ReviewFlow.Billing

structure Delivery where
  body : List UInt8
  /-- `X-Razorpay-Signature`. -/
  signature : Option String
  /-- `x-razorpay-event-id`. -/
  eventId : Option String

structure Receiver where
  /-- `RAZORPAY_WEBHOOK_SECRET`. -/
  secret : String
  /-- The hex HMAC-SHA256 of a body under a key. -/
  hmac : String → List UInt8 → String
  /-- `json.loads`, none where it raises. -/
  loads : List UInt8 → Option Json

variable (r : Receiver)

def Receiver.verifyWebhookSignature (d : Delivery) : Bool :=
  r.secret != "" && d.signature.any fun s => s != "" && r.hmac r.secret d.body == s

def isEventIdChar (c : Char) : Bool := 0x21 ≤ c.toNat && c.toNat ≤ 0x7e

/-- `event_id_failure`, of a header: a text, where it is there. -/
def eventIdFailure : Option String → Option String
  | none => some "missing"
  | some value =>
    if value = "" then some "empty"
    else if 64 < value.toList.length then some "too_long"
    else if value.toList.all isEventIdChar = false then some "invalid_characters"
    else none

def eventTypeMaxLength : ℕ := 64

/-- The object at `payload`, `subscription`, `entity`. -/
def subscriptionEntity (payload : Dict) : Option Dict := do
  let outer ← (payload.get "payload").dict?
  let subscription ← (outer.get "subscription").dict?
  (subscription.get "entity").dict?

/-- `_parse_event`: the event type and the id of the subscription, where there is one. -/
def Receiver.parseEvent (body : List UInt8) : Option (String × Option Json) := do
  let payload ← (r.loads body).bind Json.dict?
  let eventType ← (payload.get "event").str?
  if 1 ≤ eventType.toList.length ∧ eventType.toList.length ≤ eventTypeMaxLength then
    some (eventType, (subscriptionEntity payload).bind fun entity => entity.lookup "id")
  else none

/-- What `receive_webhook` makes of a delivery before the lookup. -/
inductive Received where
  | webhookRejected
  | invalidWebhookPayload
  | ignored
  | event (ref : Ref) (eventId eventType : String)

def Receiver.receive (d : Delivery) : Received :=
  if r.verifyWebhookSignature d = false then .webhookRejected
  else match d.eventId with
    | none => .webhookRejected
    | some eventId =>
      if (eventIdFailure (some eventId)).isSome then .webhookRejected
      else match r.parseEvent d.body with
        | none => .invalidWebhookPayload
        | some (eventType, id) => match id.bind Ref.ofJson? with
          | none => .ignored
          | some ref => .event ref eventId eventType

structure Platform where
  merchants : List System

def Platform.others (p : Platform) (m : ℕ) : Others :=
  let tables := (p.merchants.eraseIdx m).map (·.db)
  { paymentRefs := tables.filterMap fun db => db.sub?.bind (·.paymentProviderRef)
    replacementRefs := tables.filterMap fun db => db.sub?.bind (·.replacementProviderRef)
    retiredRefs := tables.filterMap fun db => db.sub?.bind (·.retiredProviderRef)
    paymentIds := tables.flatMap fun db => db.payments.map (·.providerAttemptId)
    eventIds := tables.flatMap fun db => db.events.map (·.providerEventId) }

def System.finds (sys : System) (ref : Ref) : Bool := sys.db.sub?.any fun sub => resolves sub ref

def Platform.forLookupRef (p : Platform) (ref : Ref) : Option ℕ :=
  p.merchants.findIdx? fun sys => sys.finds ref

def Choice.among (others : Others) : Choice → Choice
  | .advance i env => .advance i { env with others := others }
  | .request asked env commits => .request asked { env with others := others } commits
  | .spawn job => .spawn job
  | .crash i => .crash i

def Choice.startsWebhook : Choice → Bool
  | .spawn (.webhook _ _ _) => true
  | _ => false

inductive Step where
  | deliver (delivery : Delivery)
  | act (merchant : ℕ) (choice : Choice)

def Platform.update (p : Platform) (m : ℕ) (f : System → System) : Platform :=
  ⟨p.merchants.modify m f⟩

def System.receives (ref : Ref) (eventId eventType : String) (sys : System) : System :=
  { sys with
    threads := sys.threads ++ [⟨[.webhookInsert ref eventId eventType], Journal.empty⟩] }

/-- `receive_webhook` up to its second transaction. -/
def Platform.deliver (p : Platform) (d : Delivery) : Platform :=
  match r.receive d with
  | .event ref eventId eventType => match p.forLookupRef ref with
    | some m => p.update m (System.receives ref eventId eventType)
    | none => p
  | .webhookRejected | .invalidWebhookPayload | .ignored => p

def Platform.step (p : Platform) : Step → Platform
  | .deliver d => p.deliver r d
  | .act m choice =>
    if choice.startsWebhook then p
    else p.update m fun sys => sys.step (choice.among (p.others m))

def Platform.start (n : ℕ) : Platform := ⟨List.replicate n ⟨rowless, []⟩⟩

end ReviewFlow.Billing
