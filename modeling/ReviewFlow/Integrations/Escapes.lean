import ReviewFlow.Exceptions
import ReviewFlow.Integrations.Adapters

/-!
# The exceptions that an adapter lets out

Each check of a field answers or fails with a payload error, or it is given a value that it
cannot take. A sale answers if and only if the checks that run are all given values that they
can take.
-/

namespace ReviewFlow.Integrations

open Python

variable {py : Runtime} {α β : Type}

def Answers (r : Result α) : Prop := ∀ e, r = .error e → ∃ code, e = .payloadValidation code

/-- The adapter's two functions answer, the id of a Shopify delivery perhaps by WebhookRejected. -/
def Delivery.Answers (py : Runtime) (d : Delivery) : Prop :=
  Integrations.Answers (d.sale py) ∧
    ∀ e, d.externalEventId py = .error e → (∃ code, e = .payloadValidation code) ∨
      (e = .webhookRejected ∧ ∃ webhookId payload, d = .shopify webhookId payload)

section Conditions

def Json.IsText (v : Json) : Prop := v = .null ∨ ∃ s, v = .str s

/-- It is None or `len` takes it. -/
def Json.HasLen (v : Json) : Prop := v.isNull = true ∨ ∃ n, len v = .ok n

def Json.Encodes (v : Json) : Prop := ∀ s, v = .str s → Encodable s

def Json.OrText (v : Json) : Prop := ∃ s, v.orElse (.str []) = .str s

def Comparable (amount : Decimal) : Prop := amount ≠ .nan ∧ amount ≠ .infinity false

def PhoneFits (v : Json) : Prop :=
  ∀ phone, v = .str phone → strip phone ≠ [] → matchesE164 phone = true

def FitsLen (v : Json) (limit : ℕ) : Prop := ∀ n, v.isNull = false → len v = .ok n → n ≤ limit

/-- As long as the fields before it pass, each field is a value that its check can take. -/
def SaleCreated.Usable (s : SaleCreated) : Prop :=
  s.externalTransactionId ≠ [] → s.externalTransactionId.length ≤ maxExternalIdLen →
    s.customerPhone.IsText ∧ (PhoneFits s.customerPhone →
      s.customerName.HasLen ∧ (FitsLen s.customerName maxNameLen →
        s.paymentMethod.HasLen ∧
          (FitsLen s.paymentMethod maxPaymentMethodLen → Comparable s.amount)))

def Api.Usable (py : Runtime) (payload : Dict) : Prop :=
  (∀ amount occurredAt, (parse payload).externalTransactionId.truthy = true →
    parseAmount py (parse payload).amount = .ok amount →
    matchesCurrency (strOrEmpty py (parse payload).currency) = true →
    parseOccurredAt py (parse payload).occurredAt = .ok occurredAt →
    (saleCreated py (parse payload) amount (strOrEmpty py (parse payload).currency)
    occurredAt).Usable) ∧
  ∀ txnId, (parse payload).externalTransactionId = .str txnId →
    Encodable txnId ∧ (parse payload).externalLocationId.Encodes

def Webhook.Usable (py : Runtime) (config : Config) (payload : Dict) : Prop :=
  (∀ amount occurredAt, (parse config payload).externalTransactionId.isNull = false →
    str py (parse config payload).externalTransactionId ≠ [] →
    parseAmount py (parse config payload).amount = .ok amount →
    matchesCurrency (strOrEmpty py (parse config payload).currency) = true →
    parseOccurredAt py (parse config payload).occurredAt = .ok occurredAt →
    (saleCreated py (parse config payload) amount (strOrEmpty py (parse config payload).currency)
      occurredAt).Usable) ∧
  ((parse config payload).externalTransactionId.isNull = false →
    str py (parse config payload).externalTransactionId ≠ [] →
    (parse config payload).externalTransactionId.Encodes ∧
      (parse config payload).externalLocationId.Encodes)

def Gateways (v : Json) : Prop := v.truthy = true → (∃ s, v = .str s) ∨ ∃ items, v = .list items

def Shopify.Usable (py : Runtime) (payload : Dict) : Prop :=
  (∃ customer, (payload.get (text "customer")).orElse (.dict []) = .dict customer ∧
    (Dict.get customer (text "first_name")).OrText ∧ (Dict.get customer (text "last_name")).OrText ∧
    (Dict.get customer (text "phone")).OrText) ∧
  (payload.get (text "phone")).OrText ∧ Gateways (payload.get (text "payment_gateway_names")) ∧
  ∀ order amount occurredAt, parse py payload = .ok order → order.id.isNull = false →
    str py order.id ≠ [] →
    parseAmount py order.totalPrice = .ok amount →
    parseOccurredAt py (if order.processedAt.isNull then order.createdAt else order.processedAt) =
      .ok occurredAt →
    (saleCreated py order amount occurredAt).Usable

def CsvImport.Usable (py : Runtime) (row : Row) : Prop :=
  ∀ amount occurredAt, (parse row).externalTransactionId.isNull = false →
    parseAmount py (parse row).amount = .ok amount →
    matchesCurrency (strOrEmpty py (parse row).currency) = true →
    parseOccurredAt py (parse row).occurredAt = .ok occurredAt →
    (saleCreated py (parse row) amount (strOrEmpty py (parse row).currency) occurredAt).Usable

def Delivery.Usable (py : Runtime) : Delivery → Prop
  | .api payload => Api.Usable py payload
  | .webhook config payload => Webhook.Usable py config payload
  | .shopify _ payload => Shopify.Usable py payload
  | .csv row => CsvImport.Usable py row

end Conditions

section Answering

variable {x : Result α} {f : α → Result β}

theorem answers_ok (a : α) : Answers (.ok a : Result α) := nofun

theorem answers_invalid (code : String) : Answers (invalid code : Result α) := by
  rintro e h
  cases h
  exact ⟨code, rfl⟩

theorem not_answers {e : Error} (h : ∀ code, e ≠ .payloadValidation code) :
    ¬ Answers (.error e : Result α) := by
  intro ha
  obtain ⟨code, rfl⟩ := ha e rfl
  exact h code rfl

theorem answers_bind : Answers (x >>= f) ↔ Answers x ∧ ∀ a, x = .ok a → Answers (f a) :=
  Exceptions.only_bind

theorem answers_bind_of (hx : Answers x) : Answers (x >>= f) ↔ ∀ a, x = .ok a → Answers (f a) := by
  rw [answers_bind]
  exact and_iff_right hx

theorem answers_guard {p : Prop} [Decidable p] {code : String} {r : Result α} :
    Answers (if p then invalid code else r) ↔ (¬ p → Answers r) := by
  split
  case isTrue hp => exact iff_of_true (answers_invalid code) (absurd hp)
  case isFalse hp => exact ⟨fun h _ => h, fun h => h hp⟩

theorem answers_parseAmount (v : Json) : Answers (parseAmount py v) := by
  unfold parseAmount
  rw [answers_guard]
  intro _
  split
  · exact answers_ok _
  · exact answers_invalid _

theorem answers_validateCurrency (code : Str) : Answers (validateCurrency code) := by
  unfold validateCurrency
  split
  · exact answers_ok _
  · exact answers_invalid _

theorem validateCurrency_eq_ok {code currency : Str} :
    validateCurrency code = .ok currency ↔ matchesCurrency code = true ∧ currency = code := by
  unfold validateCurrency
  split
  case isTrue h =>
    rw [and_iff_right h]
    exact ⟨fun h => (Except.ok.inj h).symm, fun h => by rw [h]⟩
  case isFalse h => exact iff_of_false (fun h => nomatch h) (fun hm => h hm.1)

theorem answers_parseOccurredAt (v : Json) : Answers (parseOccurredAt py v) := by
  unfold parseOccurredAt
  rw [answers_guard]
  intro _
  split
  · exact answers_ok _
  · exact answers_invalid _

theorem answers_reject {p : Prop} [Decidable p] {code : String} : Answers (reject p code) :=
  answers_guard.mpr fun _ => answers_ok ()

theorem reject_eq_ok {p : Prop} [Decidable p] {code : String} {u : Unit} :
    reject p code = .ok u ↔ ¬ p := by
  unfold reject
  split
  case isTrue h => exact iff_of_false (fun h => nomatch h) (not_not_intro h)
  case isFalse h => exact iff_of_true rfl h

end Answering

section Fields

variable {v : Json} {n : ℕ} {amount : Decimal} {s : SaleCreated}

theorem checkedPhone_str (phone : Str) : checkedPhone (.str phone) =
    if strip phone = [] then .ok .null else if matchesE164 phone then .ok (.str phone)
    else invalid "INVALID_PHONE" := by
  rw [checkedPhone, validateE164]
  split
  · rfl
  · split <;> rfl

theorem answers_checkedPhone : Answers (checkedPhone v) ↔ v.IsText := by
  cases v with
  | null => exact iff_of_true (answers_ok _) (.inl rfl)
  | str phone =>
    apply iff_of_true _ (.inr ⟨phone, rfl⟩)
    rw [checkedPhone_str]
    split
    · exact answers_ok _
    · split
      · exact answers_ok _
      · exact answers_invalid _
  | _ =>
    apply iff_of_false
    · exact not_answers (fun _ h => nomatch h)
    · rintro (h | ⟨_, h⟩) <;> cases h

theorem checkedPhone_ok (h : v.IsText) : (∃ w, checkedPhone v = .ok w) ↔ PhoneFits v := by
  rcases h with rfl | ⟨phone, rfl⟩
  · exact iff_of_true ⟨_, rfl⟩ (fun _ h => nomatch h)
  · rw [PhoneFits, checkedPhone_str]
    split
    case isTrue hblank =>
      refine iff_of_true ⟨_, rfl⟩ ?_
      rintro p hp hne
      cases hp
      exact absurd hblank hne
    case isFalse hblank =>
      constructor
      · rintro ⟨w, hw⟩ p hp -
        cases hp
        by_contra hno
        rw [if_neg hno] at hw
        cases hw
      · intro hfits
        exact ⟨.str phone, by rw [if_pos (hfits phone rfl hblank)]⟩

theorem answers_checkLen : Answers (checkLen v n) ↔ v.HasLen := by
  unfold checkLen Json.HasLen
  split
  case isTrue h => exact iff_of_true (answers_ok ()) (.inl h)
  case isFalse h =>
    rw [answers_bind, or_iff_right h]
    constructor
    · rintro ⟨hlen, -⟩
      cases hl : len v with
      | ok n => exact ⟨n, rfl⟩
      | error e =>
        obtain ⟨code, rfl⟩ := hlen e hl
        cases v <;> cases hl
    · rintro ⟨k, hk⟩
      rw [hk]
      exact ⟨answers_ok k, fun _ _ => answers_reject⟩

theorem checkLen_eq_ok {u : Unit} (h : v.HasLen) : checkLen v n = .ok u ↔ FitsLen v n := by
  unfold checkLen FitsLen
  split
  case isTrue hnull => exact iff_of_true rfl (fun k hk => by rw [hnull] at hk; cases hk)
  case isFalse hnull =>
    obtain ⟨k, hk⟩ := h.resolve_left hnull
    rw [hk]
    have hreject : (Except.ok k >>= fun n' => reject (n < n') "PAYLOAD_INVALID") = .ok u ↔
      ¬ n < k := reject_eq_ok
    rw [hreject]
    constructor
    · rintro hle k' - hk'
      cases hk'
      exact Nat.not_lt.mp hle
    · exact fun hfits => Nat.not_lt.mpr (hfits k (Bool.eq_false_iff.mpr hnull) rfl)

theorem answers_checkAmount : Answers (checkAmount amount) ↔ Comparable amount := by
  unfold checkAmount Comparable
  cases amount with
  | nan => exact iff_of_false (not_answers fun _ h => nomatch h) (fun h => h.1 rfl)
  | infinity negative =>
    cases negative with
    | true => exact iff_of_true (answers_invalid _) ⟨nofun, nofun⟩
    | false => exact iff_of_false (not_answers fun _ h => nomatch h) (fun h => h.2 rfl)
  | finite negative coefficient exponent =>
    refine iff_of_true ?_ ⟨nofun, nofun⟩
    cases hz : Decimal.ltZero? (.finite negative coefficient exponent) with
    | none => cases hz
    | some b =>
      cases b with
      | true => exact answers_invalid _
      | false => exact (answers_bind_of (answers_ok _)).mpr fun _ _ => answers_reject

theorem answers_postInit : Answers s.postInit ↔ s.Usable := by
  unfold SaleCreated.postInit SaleCreated.Usable
  rw [answers_bind_of answers_reject]
  constructor
  · intro h hid hlen
    have h := h () (reject_eq_ok.mpr (not_or.mpr ⟨hid, Nat.not_lt.mpr hlen⟩))
    rw [answers_bind, answers_checkedPhone] at h
    refine ⟨h.1, fun hphone => ?_⟩
    obtain ⟨w, hw⟩ := (checkedPhone_ok h.1).mpr hphone
    have h := h.2 w hw
    rw [answers_bind, answers_checkLen] at h
    refine ⟨h.1, fun hname => ?_⟩
    have h := h.2 () ((checkLen_eq_ok h.1).mpr hname)
    rw [answers_bind, answers_checkLen] at h
    refine ⟨h.1, fun hmethod => ?_⟩
    have h := h.2 () ((checkLen_eq_ok h.1).mpr hmethod)
    rw [answers_bind, answers_checkAmount] at h
    exact h.1
  · rintro h u hid
    obtain ⟨hid, hlen⟩ := not_or.mp (reject_eq_ok.mp hid)
    obtain ⟨hphone, h⟩ := h hid (Nat.not_lt.mp hlen)
    rw [answers_bind, answers_checkedPhone]
    refine ⟨hphone, fun w hw => ?_⟩
    obtain ⟨hname, h⟩ := h ((checkedPhone_ok hphone).mp ⟨w, hw⟩)
    rw [answers_bind, answers_checkLen]
    refine ⟨hname, fun _ hw => ?_⟩
    obtain ⟨hmethod, h⟩ := h ((checkLen_eq_ok hname).mp hw)
    rw [answers_bind, answers_checkLen]
    refine ⟨hmethod, fun _ hw => ?_⟩
    rw [answers_bind, answers_checkAmount]
    refine ⟨h ((checkLen_eq_ok hmethod).mp hw), fun _ _ => ?_⟩
    rw [answers_bind_of (answers_validateCurrency _)]
    intro _ _
    rw [answers_bind_of answers_reject]
    exact fun _ _ => answers_ok _

end Fields

section Keys

variable {v : Json}

theorem encodable_str : Encodable (str py v) ↔ v.Encodes := by
  cases v with
  | str s => exact ⟨fun h s' hs => by cases hs; exact h, fun h => h s rfl⟩
  | null => exact iff_of_true (encodable_text _) (fun _ h => nomatch h)
  | bool b => exact iff_of_true (encodable_text _) (fun _ h => nomatch h)
  | int n => exact iff_of_true (encodable_text _) (fun _ h => nomatch h)
  | float x =>
    refine iff_of_true (fun c hc => ?_) (fun _ h => nomatch h)
    have := x.ascii c hc
    omega
  | list items => exact iff_of_true (py.encodable _) (fun _ h => nomatch h)
  | dict items => exact iff_of_true (py.encodable _) (fun _ h => nomatch h)

theorem answers_saleEventKey {location : Option Str} {txnId : Str} :
    Answers (saleEventKey py location txnId) ↔
      Encodable txnId ∧ ∀ l, location = some l → Encodable l := by
  have hraw : Encodable (location.getD [] ++ 0x1f :: txnId) ↔
      Encodable txnId ∧ ∀ l, location = some l → Encodable l := by
    have hsep : Encodable [0x1f] := by decide
    rw [← List.singleton_append, encodable_append, encodable_append, and_iff_right hsep, and_comm]
    apply and_congr_right
    intro _
    cases location with
    | none => exact iff_of_true (by decide) nofun
    | some l => exact ⟨fun h l' hl => by cases hl; exact h, fun h => h l rfl⟩
  rw [← hraw, saleEventKey]
  split
  case isTrue h => exact iff_of_true (answers_ok _) h
  case isFalse h => exact iff_of_false (not_answers fun _ h => nomatch h) h

theorem str?_encodable : (∀ l, str? py v = some l → Encodable l) ↔ v.Encodes := by
  unfold str?
  cases hv : v.isNull with
  | true =>
    cases v <;> cases hv
    exact iff_of_true nofun (fun _ h => nomatch h)
  | false =>
    have hstr : Encodable (str py v) ↔ v.Encodes := encodable_str
    rw [if_neg Bool.false_ne_true, ← hstr]
    exact ⟨fun h => h _ rfl, fun h l hl => by cases hl; exact h⟩

end Keys

section Adapters

theorem answers_arguments {parsed : Parsed} {sale : Decimal → Str → DateTime → SaleCreated} :
    Answers (do
      let amount ← parseAmount py parsed.amount
      let currency ← validateCurrency (strOrEmpty py parsed.currency)
      let occurredAt ← parseOccurredAt py parsed.occurredAt
      (sale amount currency occurredAt).postInit) ↔
    ∀ amount occurredAt, parseAmount py parsed.amount = .ok amount →
      matchesCurrency (strOrEmpty py parsed.currency) = true →
      parseOccurredAt py parsed.occurredAt = .ok occurredAt →
      (sale amount (strOrEmpty py parsed.currency) occurredAt).Usable := by
  rw [answers_bind_of (answers_parseAmount _)]
  simp only [answers_bind_of (answers_validateCurrency _),
    answers_bind_of (answers_parseOccurredAt _),
    answers_postInit, validateCurrency_eq_ok]
  constructor
  · intro h amount occurredAt ha hc ho
    exact h amount ha _ ⟨hc, rfl⟩ occurredAt ho
  · rintro h amount ha _ ⟨hc, rfl⟩ occurredAt ho
    exact h amount occurredAt ha hc ho

theorem api_sale (payload : Dict) : Answers (Api.normalize py (Api.parse payload)) ↔
    ∀ amount occurredAt, (Api.parse payload).externalTransactionId.truthy = true →
      parseAmount py (Api.parse payload).amount = .ok amount →
      matchesCurrency (strOrEmpty py (Api.parse payload).currency) = true →
      parseOccurredAt py (Api.parse payload).occurredAt = .ok occurredAt →
      (Api.saleCreated py (Api.parse payload) amount (strOrEmpty py (Api.parse payload).currency)
        occurredAt).Usable := by
  rw [Api.normalize, invalidTransactionId, answers_guard, answers_arguments]
  simp only [Bool.not_eq_true', Bool.not_eq_false]
  exact ⟨fun h a o ht => h ht a o, fun h ht a o => h a o ht⟩

theorem csv_sale (row : CsvImport.Row) :
    Answers (CsvImport.normalize py (CsvImport.parse row)) ↔ CsvImport.Usable py row := by
  rw [CsvImport.normalize, invalidTransactionId, answers_guard, answers_arguments]
  simp only [Bool.not_eq_true]
  exact ⟨fun h a o ht => h ht a o, fun h ht a o => h a o ht⟩

theorem webhook_sale (config : Webhook.Config) (payload : Dict) :
    Answers (Webhook.normalize py (Webhook.parse config payload)) ↔
      ∀ amount occurredAt, (Webhook.parse config payload).externalTransactionId.isNull = false →
        str py (Webhook.parse config payload).externalTransactionId ≠ [] →
        parseAmount py (Webhook.parse config payload).amount = .ok amount →
        matchesCurrency (strOrEmpty py (Webhook.parse config payload).currency) = true →
        parseOccurredAt py (Webhook.parse config payload).occurredAt = .ok occurredAt →
        (Webhook.saleCreated py (Webhook.parse config payload) amount
          (strOrEmpty py (Webhook.parse config payload).currency) occurredAt).Usable := by
  rw [Webhook.normalize, invalidTransactionId, answers_guard, answers_arguments,
    not_or, Bool.not_eq_true]
  exact ⟨fun h a o hn he => h ⟨hn, he⟩ a o, fun h hn a o => h a o hn.1 hn.2⟩

theorem api_id (payload : Dict) : Answers (Api.getExternalEventId py payload) ↔
    ∀ txnId, (Api.parse payload).externalTransactionId = .str txnId →
      Encodable txnId ∧ (Api.parse payload).externalLocationId.Encodes := by
  have hparse : (Api.parse payload).externalTransactionId =
    Api.blankToNone (payload.get (text "external_transaction_id")) := rfl
  rw [Api.getExternalEventId, hparse]
  split
  case h_1 txnId htxn =>
    rw [htxn, answers_saleEventKey, str?_encodable]
    exact ⟨fun h t ht => by cases ht; exact h, fun h => h txnId rfl⟩
  case h_2 hno => exact iff_of_true (answers_invalid _) (fun txnId h => absurd h (hno txnId))

theorem webhook_path (config : Webhook.Config) (payload : Dict) :
    resolvePath (.dict payload) ((config.path? "external_transaction_id").getD []) =
      Webhook.resolved config payload "external_transaction_id" := by
  have hmem := config.required "external_transaction_id" List.mem_cons_self
  have hsome : ∃ path, config.path? "external_transaction_id" = some path := by
    obtain ⟨p, hp, hkey⟩ := List.mem_map.mp hmem
    rw [Webhook.Config.path?, ← Option.isSome_iff_exists, List.lookup_isSome_iff]
    exact ⟨p, hp, beq_iff_eq.mpr hkey.symm⟩
  obtain ⟨path, hpath⟩ := hsome
  rw [Webhook.resolved, hpath, Option.getD_some]

theorem webhook_id (config : Webhook.Config) (payload : Dict) :
    Answers (Webhook.getExternalEventId py config payload) ↔
      ((Webhook.parse config payload).externalTransactionId.isNull = false →
        str py (Webhook.parse config payload).externalTransactionId ≠ [] →
        (Webhook.parse config payload).externalTransactionId.Encodes ∧
          (Webhook.parse config payload).externalLocationId.Encodes) := by
  rw [Webhook.getExternalEventId, webhook_path, invalidTransactionId, answers_guard,
    answers_saleEventKey,
    str?_encodable, encodable_str, not_or, Bool.not_eq_true]
  exact ⟨fun h hn he => h ⟨hn, he⟩, fun h hn => h hn.1 hn.2⟩

theorem csv_encodable {row : CsvImport.Row} {key : String} {s : Str}
    (h : row.get key = some s) : Encodable s := by
  obtain ⟨value, -, h⟩ := Option.bind_eq_some_iff.mp h
  split at h
  · cases h
  · cases h
    exact encodable_strip (encodable_text value)

theorem csv_id (row : CsvImport.Row) : Answers (CsvImport.getExternalEventId py row) := by
  rw [CsvImport.getExternalEventId]
  split
  case h_1 txnId htxn => exact
    answers_saleEventKey.mpr ⟨csv_encodable htxn, fun _ hl => csv_encodable hl⟩
  case h_2 => exact answers_invalid _

end Adapters

section Orders

variable {x : Result α} {f : α → Result β} {P : Prop} {v : Json}

/-- A step that answers with a value only, before steps that do not depend on the value. -/
theorem answers_bind_total (hx : Answers x → ∃ a, x = .ok a) (hf : ∀ a, Answers (f a) ↔ P) :
    Answers (x >>= f) ↔ Answers x ∧ P := by
  rw [answers_bind]
  apply and_congr_right
  intro ha
  obtain ⟨a, ha⟩ := hx ha
  exact ⟨fun h => (hf a).mp (h a ha), fun h b _ => (hf b).mpr h⟩

theorem stripped_total : (Answers (Shopify.stripped v) ↔ v.OrText) ∧
    (Answers (Shopify.stripped v) → ∃ s, Shopify.stripped v = .ok s) := by
  unfold Shopify.stripped Json.OrText
  split
  case h_1 s hs => exact ⟨iff_of_true (answers_ok _) ⟨s, hs⟩, fun _ => ⟨_, rfl⟩⟩
  case h_2 hno =>
    have hnot : ¬ Answers (.error .attributeError : Result Str) := not_answers fun _ h => nomatch h
    exact ⟨iff_of_false hnot (fun ⟨s, hs⟩ => hno s hs), fun h => absurd h hnot⟩

theorem firstGateway_total :
    (Answers (Shopify.firstGateway py (v.orElse (.list []))) ↔ Gateways v) ∧
    (Answers (Shopify.firstGateway py (v.orElse (.list []))) →
      ∃ m, Shopify.firstGateway py (v.orElse (.list [])) = .ok m) := by
  unfold Gateways
  cases hv : v.truthy with
  | false =>
    have hnone : Shopify.firstGateway py (v.orElse (.list [])) = .ok none := by
      rw [Json.orElse, if_neg (Bool.eq_false_iff.mp hv)]
      rfl
    rw [hnone]
    exact ⟨iff_of_true (answers_ok _) nofun, fun _ => ⟨none, rfl⟩⟩
  | true =>
    rw [Json.orElse, if_pos hv]
    have unusable : ∀ e, (∀ code, e ≠ .payloadValidation code) →
      Shopify.firstGateway py v = .error e →
        ((∃ s, v = .str s) ∨ ∃ items, v = .list items) = False →
        (Answers (Shopify.firstGateway py v) ↔
          (true = true → (∃ s, v = .str s) ∨ ∃ items, v = .list items)) ∧
          (Answers (Shopify.firstGateway py v) → ∃ m, Shopify.firstGateway py v = .ok m) := by
      intro e he hfirst hv
      rw [hfirst, hv]
      exact ⟨iff_of_false (not_answers he) (fun h => h rfl), fun h => absurd h (not_answers he)⟩
    cases v with
    | str s =>
      have hfirst : Shopify.firstGateway py (.str s) = .ok (some (s.take 1)) := by
        rw [Shopify.firstGateway, hv]; rfl
      rw [hfirst]
      exact ⟨iff_of_true (answers_ok _) fun _ => .inl ⟨s, rfl⟩, fun _ => ⟨_, rfl⟩⟩
    | list items =>
      have hfirst : Shopify.firstGateway py (.list items) =
          .ok (some ((str py (items.headD .null)).take 32)) := by
        rw [Shopify.firstGateway, hv]; rfl
      rw [hfirst]
      exact ⟨iff_of_true (answers_ok _) fun _ => .inr ⟨items, rfl⟩, fun _ => ⟨_, rfl⟩⟩
    | dict items =>
      apply unusable .keyError (fun _ h => nomatch h)
      · rw [Shopify.firstGateway, hv]; rfl
      · simp
    | null => cases hv
    | bool _ | int _ | float _ =>
      apply unusable .typeError (fun _ h => nomatch h)
      · rw [Shopify.firstGateway, hv]; rfl
        all_goals exact fun _ h => nomatch h
      · simp

theorem shopify_parse (payload : Dict) : Answers (Shopify.parse py payload) ↔
    (∃ customer, (payload.get (text "customer")).orElse (.dict []) = .dict customer ∧
      (Dict.get customer (text "first_name")).OrText ∧
      (Dict.get customer (text "last_name")).OrText ∧
      (Dict.get customer (text "phone")).OrText) ∧
    (payload.get (text "phone")).OrText ∧ Gateways
    (payload.get (text "payment_gateway_names")) := by
  cases hc : (payload.get (text "customer")).orElse (.dict []) with
  | dict items =>
    have hparse : Answers (Shopify.parse py payload) ↔
        (Dict.get items (text "first_name")).OrText ∧ (Dict.get items (text "last_name")).OrText ∧
        (payload.get (text "phone")).OrText ∧ (Dict.get items (text "phone")).OrText ∧
        Gateways (payload.get (text "payment_gateway_names")) ∧ True := by
      rw [Shopify.parse, hc]
      have hstripped : ∀ v, v.OrText ↔ Answers (Shopify.stripped v) :=
        fun v => stripped_total.1.symm
      have hgateways : ∀ v, Gateways v ↔ Answers (Shopify.firstGateway py (v.orElse (.list []))) :=
        fun v => firstGateway_total.1.symm
      simp only [hstripped, hgateways]
      refine answers_bind_total stripped_total.2 fun first => ?_
      refine answers_bind_total stripped_total.2 fun last => ?_
      refine answers_bind_total stripped_total.2 fun phone => ?_
      refine answers_bind_total stripped_total.2 fun customerPhone => ?_
      refine answers_bind_total firstGateway_total.2 fun method => ?_
      exact iff_of_true (answers_ok _) trivial
    rw [hparse]
    constructor
    · rintro ⟨hfirst, hlast, hphone, hcustomer, hgateways, -⟩
      exact ⟨⟨items, rfl, hfirst, hlast, hcustomer⟩, hphone, hgateways⟩
    · rintro ⟨⟨_, h, hfirst, hlast, hcustomer⟩, hphone, hgateways⟩
      cases h
      exact ⟨hfirst, hlast, hphone, hcustomer, hgateways, trivial⟩
  | _ =>
    apply iff_of_false
    · rw [Shopify.parse, hc]
      exact not_answers (α := Shopify.Order) fun _ h => nomatch h
    · rintro ⟨⟨_, h, -⟩, -⟩
      cases h

theorem shopify_normalize (order : Shopify.Order) : Answers (Shopify.normalize py order) ↔
    ∀ amount occurredAt, order.id.isNull = false → str py order.id ≠ [] →
      parseAmount py order.totalPrice = .ok amount →
      parseOccurredAt py (if order.processedAt.isNull then order.createdAt else order.processedAt) =
        .ok occurredAt →
      (Shopify.saleCreated py order amount occurredAt).Usable := by
  rw [Shopify.normalize, invalidTransactionId, answers_guard,
    answers_bind_of (answers_parseAmount _), not_or,
    Bool.not_eq_true]
  simp only [answers_bind_of (answers_parseOccurredAt _), answers_postInit]
  constructor
  · intro h amount occurredAt hn he ha ho
    exact h ⟨hn, he⟩ amount ha occurredAt ho
  · rintro h ⟨hn, he⟩ amount ha occurredAt ho
    exact h amount occurredAt hn he ha ho

theorem shopify_sale (webhookId : Str) (payload : Dict) :
    Answers ((Delivery.shopify webhookId payload).sale py) ↔ Shopify.Usable py payload := by
  rw [Delivery.sale, answers_bind, shopify_parse, Shopify.Usable]
  constructor
  · rintro ⟨⟨hcustomer, hphone, hgateways⟩, h⟩
    refine ⟨hcustomer, hphone, hgateways, fun order amount occurredAt horder => ?_⟩
    exact (shopify_normalize order).mp (h order horder) amount occurredAt
  · rintro ⟨hcustomer, hphone, hgateways, h⟩
    exact ⟨⟨hcustomer, hphone, hgateways⟩,
      fun order horder => (shopify_normalize order).mpr fun a o => h order a o horder⟩

end Orders

section Deliveries

theorem answers_unless_shopify {d : Delivery}
    (h : ∀ webhookId payload, d ≠ .shopify webhookId payload) :
    d.Answers py ↔ Answers (d.sale py) ∧ Answers (d.externalEventId py) := by
  apply and_congr_right
  intro _
  constructor
  · intro hid e he
    rcases hid e he with hcode | ⟨-, webhookId, payload, hd⟩
    · exact hcode
    · exact absurd hd (h webhookId payload)
  · exact fun hid e he => .inl (hid e he)

/-- An adapter answers a delivery if and only if the checks that run are given values that they
can take. -/
theorem adapters_answer (py : Runtime) (d : Delivery) : d.Answers py ↔ d.Usable py := by
  cases d with
  | api payload =>
    rw [answers_unless_shopify (by rintro _ _ h; cases h)]
    exact and_congr (api_sale payload) (api_id payload)
  | webhook config payload =>
    rw [answers_unless_shopify (by rintro _ _ h; cases h)]
    exact and_congr (webhook_sale config payload) (webhook_id config payload)
  | csv row =>
    rw [answers_unless_shopify (by rintro _ _ h; cases h)]
    exact (and_iff_left (csv_id row)).trans (csv_sale row)
  | shopify webhookId payload =>
    refine Iff.trans (and_iff_left ?_) (shopify_sale webhookId payload)
    intro e he
    rw [Delivery.externalEventId, Shopify.getExternalEventId] at he
    split at he
    · cases he
      exact .inr ⟨rfl, webhookId, payload, rfl⟩
    · cases he

def plainRuntime : Runtime where
  repr _ := text "[]"
  encodable _ := encodable_text _
  fromisoformat s := if s = text "2026-10-01T12:00:00+00:00" then some ⟨0, some 0⟩ else none
  sha256 s := s

/-- The body of `POST /sales` with an amount. -/
def saleOfAmount (amount : String) : Dict :=
  [(text "external_transaction_id", .str (text "t1")), (text "amount", .str (text amount)),
   (text "currency", .str (text "USD")), (text "occurred_at", .str (text "2026-10-01T12:00:00Z"))]

/-- A NaN does not compare with 0, and infinity has no digits to count. -/
theorem nan_escapes : ¬ (∀ py d, Delivery.Answers py d) ∧
    (Delivery.api (saleOfAmount "NaN")).sale plainRuntime = .error .invalidOperation ∧
    (Delivery.api (saleOfAmount "Infinity")).sale plainRuntime = .error .typeError := by
  have hnan : (Delivery.api (saleOfAmount "NaN")).sale plainRuntime =
    .error .invalidOperation := by rfl
  refine ⟨fun h => ?_, hnan, by rfl⟩
  obtain ⟨code, hcode⟩ := (h plainRuntime (.api (saleOfAmount "NaN"))).1 .invalidOperation hnan
  cases hcode

end Deliveries

end ReviewFlow.Integrations
