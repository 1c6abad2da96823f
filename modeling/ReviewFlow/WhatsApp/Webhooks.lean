import ReviewFlow.Exceptions
import ReviewFlow.Integrations.Adapters
import ReviewFlow.Integrations.JsonTree

/-!
# Inbound webhooks

`parse_inbound_webhook`, `parse_status_webhook` and `parse_inbound_opt_outs`. A signed body is any
JSON: at each level an item of the wrong type is skipped, and what is read of the others is as if it
were not there.
-/

namespace ReviewFlow.Integrations.Inbound

open Python
open Exceptions (foldlM_append)

inductive Error where
  | valueError
  | webhookSignatureInvalid
  deriving DecidableEq

/-- What the model takes from Python as it is: `int` of a float, whose ValueError and OverflowError
are none, and `str.casefold`. -/
structure Interpreter where
  trunc : Float64 → Option ℤ
  casefold : Str → Str

structure InboundMessage where
  phoneNumberId : Str
  fromPhone : Str
  text : Option Str
  deriving DecidableEq

structure StatusUpdate where
  providerMessageId : Str
  status : String
  /-- In seconds. -/
  occurredAt : Option ℤ
  errorCode : Option ℤ
  deriving DecidableEq

def values (payload : Dict) : List Dict :=
  (Dict.get payload (text "entry")).items.flatMap fun entry =>
    (entry.field "changes").items.flatMap fun change =>
      match change.field "value" with
      | .dict value => [value]
      | _ => []

def strOfInt (n : ℤ) : Except Error Str :=
  if n.natAbs < 10 ^ intMaxStrDigits then .ok (text (toString n)) else .error .valueError

def idText : Json → Except Error (Option Str)
  | .int n => some <$> strOfInt n
  | .str s => .ok (if s = [] then none else some s)
  | _ => .ok none

def integer? : Json → Option ℤ
  | .int n => some n
  | _ => none

def messageText (message : Json) : Option Str :=
  if Json.string? (message.field "type") =
    some (text "text") then Json.string? ((message.field "text").field "body")
  else none

def appendMessage (phoneNumberId : Str) (out : List InboundMessage) (message : Json) :
    Except Error (List InboundMessage) := do
  match ← idText (message.field "from") with
  | none => return out
  | some sender => return out ++ [⟨phoneNumberId, sender, messageText message⟩]

def appendMessages (out : List InboundMessage) (value : Dict) :
    Except Error (List InboundMessage) := do
  match ← idText ((Dict.get value (text "metadata")).field "phone_number_id") with
  | none => return out
  | some phoneNumberId =>
    (Dict.get value (text "messages")).items.foldlM (appendMessage phoneNumberId) out

def parseInboundWebhook (payload : Dict) : Except Error (List InboundMessage) :=
  (values payload).foldlM appendMessages []

def statusMap : List (String × String) :=
  [("sent", "SENT"), ("delivered", "DELIVERED"), ("read", "READ"), ("failed", "FAILED")]

/-- `_STATUS_MAP.get(name) if isinstance(name, str) else None`. -/
def mappedStatus (name : Json) : Option String :=
  (Json.string? name).bind fun name => (statusMap.find? fun p => text p.1 == name).map Prod.snd

/-- `int(value)`. Its TypeError, ValueError and OverflowError are none. -/
def int (py : Interpreter) : Json → Option ℤ
  | .bool b => some (if b then 1 else 0)
  | .int n => some n
  | .float x => py.trunc x
  | .str s => int? s
  | _ => none

/-- `datetime.fromtimestamp(seconds, tz=UTC)`: the years 1 to 9999. -/
def fromTimestamp (seconds : ℤ) : Option ℤ :=
  if -62135596800 ≤ seconds ∧ seconds ≤ 253402300799 then some seconds else none

def occurredAt (py : Interpreter) (status : Json) : Option ℤ :=
  (int py (status.field "timestamp")).bind fromTimestamp

def errorCode (status : Json) : Option ℤ :=
  integer? (((status.field "errors").items.headD .null).field "code")

def appendStatus (py : Interpreter) (out : List StatusUpdate) (status : Json) :
    Except Error (List StatusUpdate) := do
  let mapped := mappedStatus (status.field "status")
  let messageId ← idText (status.field "id")
  match mapped, messageId with
  | some mapped, some messageId =>
    return out ++ [⟨messageId, mapped, occurredAt py status, errorCode status⟩]
  | _, _ => return out

def appendStatuses (py : Interpreter) (out : List StatusUpdate) (value : Dict) :
    Except Error (List StatusUpdate) :=
  (Dict.get value (text "statuses")).items.foldlM (appendStatus py) out

def parseStatusWebhook (py : Interpreter) (payload : Dict) : Except Error (List StatusUpdate) :=
  (values payload).foldlM (appendStatuses py) []

def optOutKeywords : List String := ["STOP", "UNSUBSCRIBE"]

def keywords (py : Interpreter) : List Str := optOutKeywords.map fun k => py.casefold (text k)

def setPair (pairs : List (Str × Str)) (pair : Str × Str) : List (Str × Str) :=
  if pair ∈ pairs then pairs else pairs ++ [pair]

def addOptOut (py : Interpreter) (pairs : List (Str × Str)) (message : InboundMessage) :
    List (Str × Str) :=
  match message.text with
  | none => pairs
  | some body =>
    if (keywords py).contains (py.casefold (strip body)) then
      match inboundPhone message.fromPhone with
      | some phone => setPair pairs (message.phoneNumberId, phone)
      | none => pairs
    else pairs

/-- Of the answer of `verify_signature` and of what `json.loads` makes of the body, none for its
ValueError. -/
def parseInboundOptOuts (py : Interpreter) (signed : Bool) (loaded : Option Json) :
    Except Error (List (Str × Str)) :=
  if !signed then .error .webhookSignatureInvalid
  else match loaded with
    | some (.dict payload) => do return (← parseInboundWebhook payload).foldl (addOptOut py) []
    | _ => .ok []

def usableId : Json → Option Str
  | .int n => some (text (toString n))
  | .str s => if s = [] then none else some s
  | _ => none

/-- What is read of the values of a webhook: the list in a value that it stands in, and which of its
items are read. -/
structure Feed (α : Type) where
  name : String
  Usable : Json → Prop
  read : Json → List α

def entryPlace : Place := [.key (text "entry"), .item]

def changePlace : Place := entryPlace ++ [.key (text "changes"), .item]

def valuePlace : Place := changePlace ++ [.key (text "value")]

def itemPlace (name : String) : Place := valuePlace ++ [.key (text name), .item]

def errorPlace : Place := itemPlace "statuses" ++ [.key (text "errors"), .item]

namespace Feed

variable {α : Type} (f : Feed α)

def ofChange (change : Json) : List α := f.read (change.field "value")

def ofEntry (entry : Json) : List α := (entry.field "changes").items.flatMap f.ofChange

def ofPayload (payload : Json) : List α := (payload.field "entry").items.flatMap f.ofEntry

def Contains (place : Place) (x : Json) : Prop :=
  (place = entryPlace ∧ f.ofEntry x ≠ []) ∨ (place = changePlace ∧ f.ofChange x ≠ []) ∨
    (place = itemPlace f.name ∧ f.Usable x)

end Feed

def messageOf (phoneNumberId : Str) (message : Json) : Option InboundMessage :=
  (usableId (message.field "from")).map fun sender => ⟨phoneNumberId, sender, messageText message⟩

/-- The messages with a usable sender, if the value has a usable phone number id. -/
def messages : Feed InboundMessage where
  name := "messages"
  Usable message := usableId (message.field "from") ≠ none
  read value := match usableId ((value.field "metadata").field "phone_number_id") with
    | some phoneNumberId =>
      (value.field "messages").items.flatMap fun m => (messageOf phoneNumberId m).toList
    | none => []

def statusOf (py : Interpreter) (status : Json) : Option StatusUpdate :=
  match mappedStatus (status.field "status"), usableId (status.field "id") with
  | some mapped, some messageId => some ⟨messageId, mapped, occurredAt py status, errorCode status⟩
  | _, _ => none

def statuses (py : Interpreter) : Feed StatusUpdate where
  name := "statuses"
  Usable status := mappedStatus (status.field "status") ≠ none ∧ usableId (status.field "id") ≠ none
  read value := (value.field "statuses").items.flatMap fun s => (statusOf py s).toList

def SkippedMessage (place : Place) (_before : List Json) (x : Json) : Prop :=
  ¬ messages.Contains place x

def SkippedStatus (py : Interpreter) (place : Place) (_before : List Json) (x : Json) : Prop :=
  ¬ (statuses py).Contains place x

def SkippedBeside (py : Interpreter) (place : Place) (before : List Json) (x : Json) : Prop :=
  SkippedStatus py place before x ∧ (place = errorPlace → before ≠ [])

def OptsOut (py : Interpreter) (message : InboundMessage) (pair : Str × Str) : Prop :=
  (∃ body, message.text = some body ∧ py.casefold (strip body) ∈ keywords py) ∧
    pair = (message.phoneNumberId, 43 :: lstripChar 43 message.fromPhone) ∧
    matchesE164 pair.2 = true

section Reading

variable {α : Type} {xs : List Json} {v : Json} {d : Dict} {message : InboundMessage}
    {pairs : List (Str × Str)}
  (py : Interpreter)

theorem idText_loaded (h : v.Loaded) : idText v = .ok (usableId v) := by
  cases v with
  | int n =>
    have hn := h n .self
    simp only [idText, strOfInt, if_pos hn]
    rfl
  | _ => rfl

theorem appendMessage_loaded (phoneNumberId : Str) (h : v.Loaded) (out : List InboundMessage) :
    appendMessage phoneNumberId out v = .ok (out ++ (messageOf phoneNumberId v).toList) := by
  have hsender := idText_loaded (h.field "from")
  cases hid : usableId (v.field "from") with
  | none => simp [appendMessage, messageOf, hsender, hid, bind, Except.bind, pure, Except.pure]
  | some sender =>
    simp [appendMessage, messageOf, hsender, hid, bind, Except.bind, pure, Except.pure]

theorem appendMessages_loaded (h : (Json.dict d).Loaded) (out : List InboundMessage) :
    appendMessages out d = .ok (out ++ messages.read (.dict d)) := by
  have hphone : idText ((d.get (text "metadata")).field "phone_number_id") = .ok (usableId _) :=
    idText_loaded ((h.field "metadata").field "phone_number_id")
  have hread : messages.read (.dict d) =
    match usableId ((d.get (text "metadata")).field "phone_number_id") with
    | some phoneNumberId =>
      (d.get (text "messages")).items.flatMap fun m => (messageOf phoneNumberId m).toList
    | none => [] := rfl
  cases hid : usableId ((d.get (text "metadata")).field "phone_number_id") with
  | none => simp [appendMessages, hphone, hread, hid, bind, Except.bind, pure, Except.pure]
  | some phoneNumberId =>
    have hloop := foldlM_append
      (fun m hm => appendMessage_loaded phoneNumberId ((h.field "messages").items m hm)) out
    simp only [appendMessages, hphone, hread, hid, bind, Except.bind]
    exact hloop

theorem appendStatus_loaded (h : v.Loaded) (out : List StatusUpdate) :
    appendStatus py out v = .ok (out ++ (statusOf py v).toList) := by
  have hid := idText_loaded (h.field "id")
  cases hmapped : mappedStatus (v.field "status") <;> cases hused : usableId (v.field "id") <;>
    simp [appendStatus, statusOf, hid, hmapped, hused, bind, Except.bind, pure, Except.pure]

theorem appendStatuses_loaded (h : (Json.dict d).Loaded) (out : List StatusUpdate) :
    appendStatuses py out d = .ok (out ++ (statuses py).read (.dict d)) :=
  foldlM_append (fun s hs => appendStatus_loaded py ((h.field "statuses").items s hs)) out

theorem values_loaded (h : (Json.dict d).Loaded) :
    ∀ value ∈ values d, (Json.dict value).Loaded := by
  intro value hvalue
  obtain ⟨entry, hentry, hvalue⟩ := List.mem_flatMap.mp hvalue
  obtain ⟨change, hchange, hvalue⟩ := List.mem_flatMap.mp hvalue
  have hloaded : (change.field "value").Loaded :=
    (((h.field "entry").items entry hentry).field "changes").items change hchange |>.field "value"
  split at hvalue
  case h_1 v hv =>
    obtain rfl := List.mem_singleton.mp hvalue
    rw [← hv]
    exact hloaded
  case h_2 => cases hvalue

theorem ofPayload_values (f : Feed α) (hf : ∀ v, (∀ d, v ≠ .dict d) → f.read v = []) :
    f.ofPayload (.dict d) = (values d).flatMap fun value => f.read (.dict value) := by
  have hchange : ∀ change, f.ofChange change = ((match change.field "value" with
      | .dict value => [value]
      | _ => []) : List Dict).flatMap fun value => f.read (.dict value) := by
    intro change
    rw [Feed.ofChange]
    split
    case h_1 value hv => simp [hv]
    case h_2 hno => exact hf _ hno
  simp only [values, List.flatMap_assoc, ← hchange]
  rfl

theorem parseInboundWebhook_loaded (h : (Json.dict d).Loaded) :
    parseInboundWebhook d = .ok (messages.ofPayload (.dict d)) := by
  have hnone : ∀ v, (∀ d, v ≠ .dict d) → messages.read v = [] := by
    intro v hv
    simp only [messages, field_of_no_dict hv]
    rfl
  rw [ofPayload_values messages hnone]
  exact foldlM_append (fun value hvalue => appendMessages_loaded (values_loaded h value hvalue)) []

theorem parseStatusWebhook_loaded (h : (Json.dict d).Loaded) :
    parseStatusWebhook py d = .ok ((statuses py).ofPayload (.dict d)) := by
  have hnone : ∀ v, (∀ d, v ≠ .dict d) → (statuses py).read v = [] := by
    intro v hv
    simp only [statuses, field_of_no_dict hv]
    rfl
  rw [ofPayload_values (statuses py) hnone]
  exact foldlM_append
    (fun value hvalue => appendStatuses_loaded py (values_loaded h value hvalue)) []

end Reading

section Locality

variable {α : Type} {f : Feed α} {allowed : Place → List Json → Json → Prop}
    {place : Place} {v w : Json}
  (py : Interpreter)

/-- A feed whose reading of a value stays as the value grows reads the same of the payload. -/
theorem ofPayload_kept (hallowed : ∀ place before x, allowed place before x → ¬ f.Contains place x)
    (hread : ∀ v w, v.Kept allowed valuePlace w → f.read v = f.read w) (h : v.Kept allowed [] w) :
    f.ofPayload v = f.ofPayload w := by
  have hchange : ∀ x y, x.Kept allowed changePlace y → f.ofChange x = f.ofChange y :=
    fun x y hxy => hread _ _ (hxy.field "value")
  have hentry : ∀ x y, x.Kept allowed entryPlace y → f.ofEntry x = f.ofEntry y := by
    intro x y hxy
    refine (hxy.field "changes").flatMap_items (fun before z hz => ?_) hchange
    by_contra hne
    exact hallowed _ before z hz (.inr (.inl ⟨rfl, hne⟩))
  refine (h.field "entry").flatMap_items (fun before z hz => ?_) hentry
  by_contra hne
  exact hallowed _ before z hz (.inl ⟨rfl, hne⟩)

theorem usableId_kept (h : v.Kept allowed place w) : usableId v = usableId w :=
  h.opaque_eq (fun _ _ => rfl) (fun _ _ => rfl)

theorem string?_kept (h : v.Kept allowed place w) : v.string? = w.string? :=
  h.opaque_eq (fun _ _ => rfl) (fun _ _ => rfl)

theorem messageOf_kept (phoneNumberId : Str) (h : v.Kept allowed place w) :
    messageOf phoneNumberId v = messageOf phoneNumberId w := by
  have hsender := usableId_kept (h.field "from")
  have hkind := string?_kept (h.field "type")
  have hbody := string?_kept ((h.field "text").field "body")
  simp only [messageOf, messageText, hsender, hkind, hbody]

theorem messages_kept
    (hallowed : ∀ place before x, allowed place before x → ¬ messages.Contains place x)
    (h : v.Kept allowed valuePlace w) : messages.read v = messages.read w := by
  have hphone := usableId_kept ((h.field "metadata").field "phone_number_id")
  have hitems : ∀ phoneNumberId,
    (v.field "messages").items.flatMap (fun m => (messageOf phoneNumberId m).toList) =
      (w.field "messages").items.flatMap fun m => (messageOf phoneNumberId m).toList := by
    intro phoneNumberId
    refine (h.field "messages").flatMap_items (fun before z hz => ?_) fun x y hxy => ?_
    · have hunused : usableId (z.field "from") = none := by
        by_contra hused
        exact hallowed _ before z hz (.inr (.inr ⟨rfl, hused⟩))
      simp [messageOf, hunused]
    · rw [messageOf_kept phoneNumberId hxy]
  simp only [messages, hphone, hitems]

theorem errorCode_kept (h : v.Kept allowed (itemPlace "statuses") w)
    (hfirst : ∀ before x, allowed errorPlace before x → before ≠ []) :
    errorCode v = errorCode w := by
  have herrors := h.field "errors"
  have hcode : ∀ x y, Json.Kept allowed errorPlace x y →
      integer? (x.field "code") = integer? (y.field "code") :=
    fun x y hxy => (hxy.field "code").opaque_eq (fun _ _ => rfl) (fun _ _ => rfl)
  simp only [errorCode]
  generalize v.field "errors" = a, w.field "errors" = b at herrors
  rcases herrors with rfl | herrors
  · rfl
  cases herrors with
  | @insert _ before after x fits =>
    cases before with
    | nil => exact absurd rfl (hfirst [] x fits)
    | cons e before => rfl
  | @item _ before after x y inside =>
    cases before with
    | nil => exact hcode x y (.inr inside)
    | cons e before => rfl
  | field => rfl

theorem statusOf_kept (h : v.Kept allowed (itemPlace "statuses") w)
    (hfirst : ∀ before x, allowed errorPlace before x → before ≠ []) :
    statusOf py v = statusOf py w := by
  have hname := string?_kept (h.field "status")
  have hid := usableId_kept (h.field "id")
  have htime : int py (v.field "timestamp") = int py (w.field "timestamp") :=
    (h.field "timestamp").opaque_eq (fun _ _ => rfl) (fun _ _ => rfl)
  simp only [statusOf, mappedStatus, occurredAt, hname, hid, htime, errorCode_kept h hfirst]

theorem statuses_kept
    (hallowed : ∀ place before x, allowed place before x → ¬ (statuses py).Contains place x)
    (hfirst : ∀ before x, allowed errorPlace before x → before ≠ [])
    (h : v.Kept allowed valuePlace w) :
    (statuses py).read v = (statuses py).read w := by
  refine (h.field "statuses").flatMap_items (fun before z hz => ?_) fun x y hxy => ?_
  · have hunused : ¬ (statuses py).Usable z :=
      fun hused => hallowed _ before z hz (.inr (.inr ⟨rfl, hused⟩))
    cases hmapped : mappedStatus (z.field "status") with
    | none => simp [statusOf, hmapped]
    | some mapped =>
      cases hid : usableId (z.field "id") with
      | none => simp [statusOf, hmapped, hid]
      | some messageId => exact absurd ⟨by simp [hmapped], by simp [hid]⟩ hunused
  · rw [statusOf_kept py hxy hfirst]

theorem messages_grown (h : Relation.ReflTransGen (Json.Grown SkippedMessage []) v w) :
    messages.ofPayload w = messages.ofPayload v := by
  induction h with
  | refl => rfl
  | tail _ hstep ih =>
    have hallowed : ∀ place before x, SkippedMessage place before x → ¬ messages.Contains place x :=
      fun _ _ _ hx => hx
    rw [← ih, ofPayload_kept hallowed (fun _ _ hvw => messages_kept hallowed hvw) (.inr hstep)]

theorem statuses_grown (h : Relation.ReflTransGen (Json.Grown (SkippedBeside py) []) v w) :
    (statuses py).ofPayload w = (statuses py).ofPayload v := by
  induction h with
  | refl => rfl
  | tail _ hstep ih =>
    have hallowed : ∀ place before x, SkippedBeside py place before x →
        ¬ (statuses py).Contains place x :=
      fun _ _ _ hx => hx.1
    have hfirst : ∀ before x, SkippedBeside py errorPlace before x → before ≠ [] :=
      fun _ _ hx => hx.2 rfl
    rw [← ih, ofPayload_kept hallowed
      (fun _ _ hvw => statuses_kept py hallowed hfirst hvw) (.inr hstep)]

end Locality

section OptOuts

variable {message : InboundMessage} {pairs : List (Str × Str)} {pair : Str × Str} (py : Interpreter)

theorem mem_setPair {new : Str × Str} : pair ∈ setPair pairs new ↔ pair ∈ pairs ∨ pair = new := by
  rw [setPair]
  split
  case isTrue hold =>
    refine ⟨Or.inl, ?_⟩
    rintro (h | rfl)
    · exact h
    · exact hold
  case isFalse => simp

theorem nodup_setPair {new : Str × Str} (h : pairs.Nodup) : (setPair pairs new).Nodup := by
  rw [setPair]
  split
  case isTrue => exact h
  case isFalse hnew => exact List.nodup_append.mpr ⟨h, List.nodup_singleton new, by
      intro a ha b hb hab
      rw [List.mem_singleton.mp hb] at hab
      exact hnew (hab ▸ ha)⟩

theorem addOptOut_eq (pairs : List (Str × Str)) :
    (addOptOut py pairs message = pairs ∧ ∀ pair, ¬ OptsOut py message pair) ∨
    ∃ new, addOptOut py pairs message = setPair pairs new ∧
    ∀ pair, OptsOut py message pair ↔ pair = new := by
  cases htext : message.text with
  | none => exact .inl ⟨by simp [addOptOut, htext], by simp [OptsOut, htext]⟩
  | some body =>
    by_cases hkeyword : py.casefold (strip body) ∈ keywords py
    · cases hphone : matchesE164 (43 :: lstripChar 43 message.fromPhone) with
      | true =>
        refine .inr ⟨(message.phoneNumberId, 43 :: lstripChar 43 message.fromPhone),
          ?_, fun pair => ?_⟩
        · simp [addOptOut, htext, hkeyword, inboundPhone, hphone]
        · refine ⟨fun h => h.2.1, ?_⟩
          rintro rfl
          exact ⟨⟨body, htext, hkeyword⟩, rfl, hphone⟩
      | false =>
        refine .inl ⟨by simp [addOptOut, htext, hkeyword, inboundPhone, hphone], ?_⟩
        rintro pair ⟨-, rfl, hmatches⟩
        rw [hphone] at hmatches
        cases hmatches
    · exact .inl ⟨by simp [addOptOut, htext, hkeyword], by simp [OptsOut, htext, hkeyword]⟩

theorem mem_addOptOut :
    pair ∈ addOptOut py pairs message ↔ pair ∈ pairs ∨ OptsOut py message pair := by
  rcases addOptOut_eq py pairs with ⟨heq, hnone⟩ | ⟨new, heq, hnew⟩
  · rw [heq]
    exact ⟨Or.inl, Or.rec id fun h => absurd h (hnone pair)⟩
  · rw [heq, mem_setPair, hnew]

theorem nodup_addOptOut (h : pairs.Nodup) : (addOptOut py pairs message).Nodup := by
  rcases addOptOut_eq py pairs with ⟨heq, -⟩ | ⟨new, heq, -⟩
  · rwa [heq]
  · rw [heq]
    exact nodup_setPair h

theorem mem_addOptOuts (inbound : List InboundMessage) :
    pair ∈ inbound.foldl (addOptOut py) pairs ↔
      pair ∈ pairs ∨ ∃ m ∈ inbound, OptsOut py m pair := by
  induction inbound generalizing pairs with
  | nil => simp
  | cons m inbound ih =>
    simp only [List.foldl_cons, ih, mem_addOptOut, List.exists_mem_cons_iff, or_assoc]

theorem nodup_addOptOuts (inbound : List InboundMessage) (h : pairs.Nodup) :
    (inbound.foldl (addOptOut py) pairs).Nodup := by
  induction inbound generalizing pairs with
  | nil => exact h
  | cons m inbound ih => exact ih (nodup_addOptOut py h)

theorem parseInboundOptOuts_loaded {payload : Dict} (h : (Json.dict payload).Loaded) :
    parseInboundOptOuts py true (some (.dict payload)) =
      .ok ((messages.ofPayload (.dict payload)).foldl (addOptOut py) []) := by
  simp only [parseInboundOptOuts, parseInboundWebhook_loaded h]
  rfl

end OptOuts

/-- A delivery is read item by item, whatever else it holds. -/
theorem deliveries_read (py : Interpreter) (payload : Dict) (h : (Json.dict payload).Loaded) :
    parseInboundWebhook payload = .ok (messages.ofPayload (.dict payload)) ∧
      parseStatusWebhook py payload = .ok ((statuses py).ofPayload (.dict payload)) ∧
      (∀ grown : Dict, (Json.dict grown).Loaded →
        Relation.ReflTransGen (Json.Grown SkippedMessage []) (.dict payload) (.dict grown) →
        parseInboundWebhook grown = parseInboundWebhook payload) ∧
      (∀ grown : Dict, (Json.dict grown).Loaded →
        Relation.ReflTransGen (Json.Grown (SkippedBeside py) []) (.dict payload) (.dict grown) →
        parseStatusWebhook py grown = parseStatusWebhook py payload) ∧
      ∃ pairs, parseInboundOptOuts py true (some (.dict payload)) = .ok pairs ∧ pairs.Nodup ∧
        ∀ pair, pair ∈ pairs ↔ ∃ m ∈ messages.ofPayload (.dict payload), OptsOut py m pair := by
  refine ⟨parseInboundWebhook_loaded h, parseStatusWebhook_loaded py h,
    fun grown hgrown hsteps => ?_,
    fun grown hgrown hsteps => ?_, _, parseInboundOptOuts_loaded py h,
    nodup_addOptOuts py _ List.nodup_nil,
    fun pair => ?_⟩
  · rw [parseInboundWebhook_loaded h, parseInboundWebhook_loaded hgrown, messages_grown hsteps]
  · rw [parseStatusWebhook_loaded py h, parseStatusWebhook_loaded py hgrown,
      statuses_grown py hsteps]
  · simp [mem_addOptOuts]

def plainInterpreter : Interpreter where
  trunc _ := none
  casefold s := s.map fun c => if 65 ≤ c ∧ c ≤ 90 then c + 32 else c

def delivery (value : Dict) : Dict :=
  [(text "entry", .list [.dict [(text "changes", .list [.dict [(text "value", .dict value)]])]])]

def stopValue : Dict :=
  [(text "metadata", .dict [(text "phone_number_id", .str (text "7"))]),
    (text "messages", .list [.bool true, .dict [(text "from", .str (text "919876543210")),
      (text "type", .str (text "text")),
        (text "text", .dict [(text "body", .str (text " Stop "))])]])]

def failedValue (errors : List Json) : Dict :=
  [(text "statuses",
    .list [.dict [(text "id", .str (text "m")), (text "status", .str (text "failed")),
    (text "errors", .list errors)]])]

theorem delivery_loaded {value : Dict} (h : ∀ p ∈ value, p.2.Loaded) :
    (Json.dict (delivery value)).Loaded := by
  have hvalue : (Json.dict [(text "value", .dict value)]).Loaded :=
    loaded_dict (by simpa using loaded_dict h)
  have hchanges :
      (Json.dict [(text "changes", .list [.dict [(text "value", .dict value)]])]).Loaded :=
    loaded_dict (by simpa using loaded_list (by simpa using hvalue))
  exact loaded_dict (by simpa [delivery] using loaded_list (by simpa using hchanges))

theorem failedValue_loaded {errors : List Json} (h : ∀ x ∈ errors, x.Loaded) :
    (Json.dict (delivery (failedValue errors))).Loaded := by
  apply delivery_loaded
  have hstatus : (Json.dict [(text "id", .str (text "m")), (text "status", .str (text "failed")),
      (text "errors", .list errors)]).Loaded :=
    loaded_dict (by simpa using ⟨loaded_str _, loaded_str _, loaded_list h⟩)
  simpa [failedValue] using loaded_list (by simpa using hstatus)

theorem stop_read :
    parseInboundWebhook (delivery stopValue) =
      .ok (messages.ofPayload (.dict (delivery stopValue))) ∧
    parseStatusWebhook plainInterpreter (delivery stopValue) =
      .ok ((statuses plainInterpreter).ofPayload (.dict (delivery stopValue))) ∧
    ∃ m ∈ messages.ofPayload (.dict (delivery stopValue)),
      OptsOut plainInterpreter m (text "7", text "+919876543210") := by
  have hmessage :
    (Json.dict [(text "from", .str (text "919876543210")), (text "type", .str (text "text")),
      (text "text", .dict [(text "body", .str (text " Stop "))])]).Loaded :=
    loaded_dict (by simpa using
      ⟨loaded_str _, loaded_str _, loaded_dict (by simpa using loaded_str _)⟩)
  have hloaded : (Json.dict (delivery stopValue)).Loaded := by
    have hmetadata : (Json.dict [(text "phone_number_id", .str (text "7"))]).Loaded :=
      loaded_dict (by simpa using loaded_str _)
    apply delivery_loaded
    simpa [stopValue] using ⟨hmetadata, loaded_list (by simpa using ⟨loaded_bool _, hmessage⟩)⟩
  obtain ⟨hinbound, hstatuses, -, -, pairs, hpairs, -, hmem⟩ :=
    deliveries_read plainInterpreter (delivery stopValue) hloaded
  have hread : parseInboundOptOuts plainInterpreter true (some (.dict (delivery stopValue))) =
      .ok [(text "7", text "+919876543210")] := rfl
  obtain rfl := Except.ok.inj (hpairs.symm.trans hread)
  exact ⟨hinbound, hstatuses, (hmem _).mp (List.mem_singleton_self _)⟩

/-- An item before the first of the errors takes the code of a status away. -/
theorem first_error_counts :
    ¬ ∀ (py : Interpreter) (payload grown : Dict), (Json.dict payload).Loaded →
    (Json.dict grown).Loaded → (Json.dict payload).Grown (SkippedStatus py) [] (.dict grown) →
    parseStatusWebhook py grown = parseStatusWebhook py payload := by
  intro h
  have herror : (Json.dict [(text "code", .int 5)]).Loaded :=
    loaded_dict (by simpa using loaded_int (by decide))
  have hskipped : SkippedStatus plainInterpreter errorPlace [] .null := by
    rintro (⟨hplace, -⟩ | ⟨hplace, -⟩ | ⟨hplace, -⟩)
    · exact absurd (congrArg List.length hplace) (by decide)
    · exact absurd (congrArg List.length hplace) (by decide)
    · exact absurd (congrArg List.length hplace) (by decide)
  have hsame := h plainInterpreter (delivery (failedValue [.dict [(text "code", .int 5)]]))
    (delivery (failedValue [.null, .dict [(text "code", .int 5)]]))
    (failedValue_loaded (by simpa using herror))
      (failedValue_loaded (by simpa using ⟨loaded_null, herror⟩))
    (@Json.Grown.field _ _ [] _ _ _ _
      (@Json.Grown.item _ _ [] _ _ _ (@Json.Grown.field _ _ [] _ _ _ _
      (@Json.Grown.item _ _ [] _ _ _
        (@Json.Grown.field _ _ [] _ _ _ _ (@Json.Grown.field _ _ [] _ _ _ _
        (@Json.Grown.item _ _ [] _ _ _ (@Json.Grown.field _ _ [_, _] [] _ _ _
          (@Json.Grown.insert _ _ [] _ _ hskipped)))))))))
  exact absurd hsame (by decide)

end ReviewFlow.Integrations.Inbound
