import Mathlib.Data.Rat.Cast.Order
import Mathlib.Tactic.FieldSimp
import Mathlib.Tactic.Ring
import ReviewFlow.Integrations.Escapes

/-!
# What an accepted sale holds

The patterns of a phone and of a currency end in `$`, which lets one newline follow, and `\d`
takes the digits of every script. Where the input has neither, an accepted sale is well formed,
and a STOP from the number of its phone finds the phone as it is stored.
-/

namespace ReviewFlow.Integrations

open Python
open Exceptions (bind_eq_ok)

variable {py : Runtime}

def IsPhone (p : Str) : Prop :=
  ∃ d ds, p = 43 :: d :: ds ∧ (49 ≤ d ∧ d ≤ 57) ∧ (7 ≤ ds.length ∧ ds.length ≤ 14) ∧
    ∀ c ∈ ds, isAsciiDigit c = true

def IsCurrency (code : Str) : Prop := code.length = 3 ∧ ∀ c ∈ code, 65 ≤ c ∧ c ≤ 90

def IsAmount (amount : Decimal) : Prop :=
  ∃ cents : ℕ, amount.value = some ((cents : ℚ) / 100) ∧ cents < 10 ^ 12

def FitsColumn (v : Json) (limit : ℕ) : Prop := v = .null ∨ ∃ s, v = .str s ∧ s.length ≤ limit

def numberOf (phone : Str) : Str := (phone.filterMap decimal?).map (48 + ·)

structure SaleCreated.WellFormed (s : SaleCreated) : Prop where
  phone : s.customerPhone = .null ∨
    ∃ p, s.customerPhone = .str p ∧ IsPhone p ∧ inboundPhone (numberOf p) = some p
  currency : IsCurrency s.currency
  amount : IsAmount s.amount
  occurredAt : ∃ offset, s.occurredAt.tzinfo = some offset
  transactionId : s.externalTransactionId ≠ [] ∧ s.externalTransactionId.length ≤ maxExternalIdLen
  name : FitsColumn s.customerName maxNameLen
  method : FitsColumn s.paymentMethod maxPaymentMethodLen

def AsciiDigits (s : Str) : Prop := ∀ c ∈ s, isDecimal c = true → c < 128

def NoNewlineEnd (s : Str) : Prop := s.getLast? ≠ some 10

section Conditions

/-- The digits of the phone are ASCII, and it does not end in a newline. -/
def PlainPhone (v : Json) : Prop := ∀ p, v = .str p → strip p ≠ [] → AsciiDigits p ∧ NoNewlineEnd p

/-- The phone has ASCII digits, and where the field is not stripped no newline at its end. -/
def Delivery.Plain (py : Runtime) : Delivery → Prop
  | .api payload => (∀ p, (Api.parse payload).customerPhone = .str p → AsciiDigits p) ∧
    NoNewlineEnd (strOrEmpty py (Api.parse payload).currency) ∧
    (Api.parse payload).customerName.IsText ∧ (Api.parse payload).paymentMethod.IsText
  | .webhook config payload =>
    PlainPhone (.ofOption (str? py (Webhook.parse config payload).customerPhone)) ∧
    NoNewlineEnd (strOrEmpty py (Webhook.parse config payload).currency)
  | .shopify _ payload => ∀ order, Shopify.parse py payload = .ok order →
    (∀ p, order.phone.or order.customerPhone = some p → AsciiDigits p) ∧ NoNewlineEnd
    (strOrEmpty py order.currency)
  | .csv row => ∀ p, row.get "customer_phone" = some p → AsciiDigits p

end Conditions

section Patterns

variable {s : Str}

theorem asciiDigit_ne {c : ℕ} (h : isAsciiDigit c = true) : c ≠ 10 ∧ c < 128 := by
  obtain ⟨d, hd, rfl⟩ := isAsciiDigit_iff.mp h
  omega

theorem noNewlineEnd_of_all (h : ∀ c ∈ s, c ≠ 10) : NoNewlineEnd s := by
  intro hlast
  exact h 10 (List.mem_of_getLast? hlast) rfl

theorem IsPhone.chars (h : IsPhone s) : ∀ c ∈ s, c ≠ 10 ∧ c < 128 := by
  obtain ⟨d, ds, rfl, ⟨hlo, hhi⟩, -, hds⟩ := h
  intro c hc
  rcases List.mem_cons.mp hc with rfl | hc
  · omega
  · rcases List.mem_cons.mp hc with rfl | hc
    · omega
    · exact asciiDigit_ne (hds c hc)

theorem isPhone_iff (h : matchesE164 s = true) : IsPhone s ↔ AsciiDigits s ∧ NoNewlineEnd s := by
  constructor
  · intro hphone
    exact ⟨fun c hc _ => (hphone.chars c hc).2,
      noNewlineEnd_of_all fun c hc => (hphone.chars c hc).1⟩
  · rintro ⟨hascii, hend⟩
    rw [matchesE164, beforeEnd_eq_self hend] at h
    split at h
    case h_1 first rest =>
      simp only [Bool.and_eq_true, decide_eq_true_eq, List.all_eq_true] at h
      obtain ⟨⟨⟨⟨hlo, hhi⟩, hmin⟩, hmax⟩, hall⟩ := h
      refine ⟨first, rest, rfl, ⟨hlo, hhi⟩, ⟨hmin, hmax⟩, fun c hc => ?_⟩
      have hmem : c ∈ 43 :: first :: rest := List.mem_cons_of_mem _ (List.mem_cons_of_mem _ hc)
      exact isAsciiDigit_of_decimal (hall c hc) (hascii c hmem (hall c hc))
    case h_2 => cases h

theorem IsPhone.matches (h : IsPhone s) : matchesE164 s = true := by
  have hend : NoNewlineEnd s := noNewlineEnd_of_all fun c hc => (h.chars c hc).1
  rw [matchesE164, beforeEnd_eq_self hend]
  obtain ⟨d, ds, rfl, ⟨hlo, hhi⟩, ⟨hmin, hmax⟩, hds⟩ := h
  simp only [Bool.and_eq_true, decide_eq_true_eq, List.all_eq_true]
  exact ⟨⟨⟨⟨hlo, hhi⟩, hmin⟩, hmax⟩, fun c hc => isDecimal_of_ascii (hds c hc)⟩

theorem numberOf_digits (h : ∀ c ∈ s, isAsciiDigit c = true) : numberOf s = s := by
  induction s with
  | nil => rfl
  | cons c s ih =>
    obtain ⟨d, hd, rfl⟩ := isAsciiDigit_iff.mp (h c List.mem_cons_self)
    have ih := ih fun c hc => h c (List.mem_cons_of_mem _ hc)
    rw [numberOf] at ih ⊢
    rw [List.filterMap_cons_some (decimal?_ascii hd), List.map_cons, ih]

theorem IsPhone.inbound (h : IsPhone s) : inboundPhone (numberOf s) = some s := by
  obtain ⟨d, ds, rfl, ⟨hlo, hhi⟩, hlen, hds⟩ := h
  have hd : isAsciiDigit d = true := isAsciiDigit_iff.mpr ⟨d - 48, by omega, by omega⟩
  have hnumber : numberOf (43 :: d :: ds) = d :: ds := by
    have hplus : decimal? 43 = none := by decide
    rw [numberOf, List.filterMap_cons_none hplus]
    exact numberOf_digits (List.forall_mem_cons.mpr ⟨hd, hds⟩)
  have hstrip : lstripChar 43 (d :: ds) = d :: ds := by
    rw [lstripChar, List.dropWhile_cons_of_neg]
    rw [beq_iff_eq]
    omega
  have hmatch : matchesE164 (43 :: d :: ds) = true :=
    IsPhone.matches ⟨d, ds, rfl, ⟨hlo, hhi⟩, hlen, hds⟩
  rw [inboundPhone, hnumber, hstrip, if_pos hmatch]

theorem isCurrency_iff (h : matchesCurrency s = true) : IsCurrency s ↔ NoNewlineEnd s := by
  constructor
  · rintro ⟨-, hall⟩
    apply noNewlineEnd_of_all
    intro c hc
    have := hall c hc
    omega
  · intro hend
    rw [matchesCurrency, beforeEnd_eq_self hend] at h
    simp only [Bool.and_eq_true, beq_iff_eq, List.all_eq_true, decide_eq_true_eq] at h
    exact h

end Patterns

section Amounts

variable {amount : Decimal}

theorem fitsDecimal_bounds {negative : Bool} {coefficient : ℕ} {exponent : ℤ}
    (h : fitsDecimal (.finite negative coefficient exponent) = .ok true) :
    -2 ≤ exponent ∧ numDigits coefficient + exponent ≤ 10 := by
  have h := of_decide_eq_true (Except.ok.inj h)
  simp only [maxDigits, decimalPlaces] at h
  split at h <;> omega

theorem isAmount_of_check (h : checkAmount amount = .ok ()) : IsAmount amount := by
  cases amount with
  | nan => cases h
  | infinity negative => cases negative <;> cases h
  | finite negative coefficient exponent =>
    have hsign : (if negative then (-1 : ℚ) else 1) * coefficient = coefficient ∧
        ∃ b, fitsDecimal (.finite negative coefficient exponent) = .ok b ∧ b = true := by
      unfold checkAmount at h
      cases hz : Decimal.ltZero? (.finite negative coefficient exponent) with
      | none => cases hz
      | some b =>
        cases b with
        | true =>
          rw [hz] at h
          cases h
        | false =>
          rw [hz] at h
          cases hf : fitsDecimal (.finite negative coefficient exponent) with
          | error e =>
            rw [hf] at h
            cases h
          | ok fits =>
            rw [hf] at h
            have hfits : ¬ fits = false := reject_eq_ok.mp h
            refine ⟨?_, fits, rfl, Bool.not_eq_false _ ▸ hfits⟩
            have hz : (negative && coefficient != 0) = false := Option.some.inj hz
            cases negative with
            | false => simp
            | true =>
              have hzero : coefficient = 0 := by simpa using hz
              simp [hzero]
    obtain ⟨hsign, b, hfits, rfl⟩ := hsign
    obtain ⟨hlow, hhigh⟩ := fitsDecimal_bounds hfits
    obtain ⟨k, hk⟩ : ∃ k : ℕ, exponent = k - 2 := ⟨(exponent + 2).toNat, by omega⟩
    refine ⟨coefficient * 10 ^ k, ?_, ?_⟩
    · have hpow : (10 : ℚ) ^ exponent = 10 ^ k / 100 := by
        rw [hk, zpow_sub₀ (by norm_num), zpow_natCast]
        norm_num
      rw [Decimal.value, hsign, hpow]
      push_cast
      ring_nf
    · have hdigits : numDigits coefficient + k ≤ 12 := by omega
      calc coefficient * 10 ^ k < 10 ^ numDigits coefficient * 10 ^ k :=
            Nat.mul_lt_mul_of_pos_right (lt_pow_numDigits coefficient) (by positivity)
        _ = 10 ^ (numDigits coefficient + k) := (pow_add 10 _ _).symm
        _ ≤ 10 ^ 12 := Nat.pow_le_pow_right (by norm_num) hdigits

end Amounts

section Accepted

variable {α β : Type} {s r : SaleCreated} {v w : Json} {n : ℕ}

theorem ok_of_guard {p : Prop} [Decidable p] {code : String} {x : Result α} {a : α}
    (h : (if p then invalid code else x) = .ok a) : ¬ p ∧ x = .ok a := by
  split at h
  case isTrue => cases h
  case isFalse hp => exact ⟨hp, h⟩

structure SaleCreated.Checked (s r : SaleCreated) : Prop where
  transactionId : s.externalTransactionId ≠ [] ∧ s.externalTransactionId.length ≤ maxExternalIdLen
  phone : checkedPhone s.customerPhone = .ok r.customerPhone
  name : checkLen s.customerName maxNameLen = .ok ()
  method : checkLen s.paymentMethod maxPaymentMethodLen = .ok ()
  amount : checkAmount s.amount = .ok ()
  currency : matchesCurrency s.currency = true
  occurredAt : s.occurredAt.tzinfo ≠ none
  result : r = { s with customerPhone := r.customerPhone }

theorem checked_of_postInit (h : s.postInit = .ok r) : s.Checked r := by
  obtain ⟨_, hid, h⟩ := bind_eq_ok.mp h
  obtain ⟨phone, hphone, h⟩ := bind_eq_ok.mp h
  obtain ⟨_, hname, h⟩ := bind_eq_ok.mp h
  obtain ⟨_, hmethod, h⟩ := bind_eq_ok.mp h
  obtain ⟨_, hamount, h⟩ := bind_eq_ok.mp h
  obtain ⟨_, hcurrency, h⟩ := bind_eq_ok.mp h
  obtain ⟨_, hoccurred, h⟩ := bind_eq_ok.mp h
  obtain ⟨hne, hlen⟩ := not_or.mp (reject_eq_ok.mp hid)
  cases h
  exact
    { transactionId := ⟨hne, Nat.not_lt.mp hlen⟩
      phone := hphone
      name := hname
      method := hmethod
      amount := hamount
      currency := (validateCurrency_eq_ok.mp hcurrency).1
      occurredAt := reject_eq_ok.mp hoccurred
      result := rfl }

theorem checkedPhone_cases (h : checkedPhone v = .ok w) :
    (w = .null ∧ ∀ p, v = .str p → strip p = []) ∨
      ∃ p, v = .str p ∧ w = .str p ∧ strip p ≠ [] ∧ matchesE164 p = true := by
  cases v with
  | null => exact .inl ⟨(Except.ok.inj h).symm, fun _ h => nomatch h⟩
  | str p =>
    rw [checkedPhone_str] at h
    split at h
    case isTrue hblank => exact .inl ⟨(Except.ok.inj h).symm, fun _ hp => by cases hp; exact hblank⟩
    case isFalse hblank =>
      split at h
      case isTrue hmatch => exact .inr ⟨p, rfl, (Except.ok.inj h).symm, hblank, hmatch⟩
      case isFalse => cases h
  | _ => cases h

theorem phone_iff (h : checkedPhone v = .ok w) :
    (w = .null ∨ ∃ p, w = .str p ∧ IsPhone p ∧ inboundPhone (numberOf p) = some p) ↔
      PlainPhone v := by
  rcases checkedPhone_cases h with ⟨rfl, hblank⟩ | ⟨p, rfl, rfl, hne, hmatch⟩
  · exact iff_of_true (.inl rfl) fun p hp hne => absurd (hblank p hp) hne
  · constructor
    · rintro (hnull | ⟨q, hq, hphone, -⟩) p' hp' -
      · cases hnull
      · cases hq
        cases hp'
        exact (isPhone_iff hmatch).mp hphone
    · intro hplain
      have hphone := (isPhone_iff hmatch).mpr (hplain p rfl hne)
      exact .inr ⟨p, rfl, hphone, hphone.inbound⟩

theorem fitsColumn_iff (h : checkLen v n = .ok ()) : FitsColumn v n ↔ v.IsText := by
  constructor
  · rintro (hnull | ⟨s, hs, -⟩)
    · exact .inl hnull
    · exact .inr ⟨s, hs⟩
  · rintro (hnull | ⟨s, rfl⟩)
    · exact .inl hnull
    · have hlen : (Json.str s).HasLen := .inr ⟨s.length, rfl⟩
      exact .inr ⟨s, rfl, (checkLen_eq_ok hlen).mp h s.length rfl rfl⟩

theorem wellFormed_iff (h : s.postInit = .ok r) : r.WellFormed ↔
    PlainPhone s.customerPhone ∧ NoNewlineEnd s.currency ∧ s.customerName.IsText ∧
    s.paymentMethod.IsText := by
  have hc := checked_of_postInit h
  have hr := hc.result
  rw [← phone_iff hc.phone, ← isCurrency_iff hc.currency, ← fitsColumn_iff hc.name,
    ← fitsColumn_iff hc.method]
  constructor
  · intro hw
    have hcurrency := hw.currency
    have hname := hw.name
    have hmethod := hw.method
    rw [hr] at hcurrency hname hmethod
    exact ⟨hw.phone, hcurrency, hname, hmethod⟩
  · rintro ⟨hphone, hcurrency, hname, hmethod⟩
    rw [hr]
    exact
      { phone := hphone
        currency := hcurrency
        amount := isAmount_of_check hc.amount
        occurredAt := Option.ne_none_iff_exists'.mp hc.occurredAt
        transactionId := hc.transactionId
        name := hname
        method := hmethod }

end Accepted

section Deliveries

variable {s : SaleCreated} {p : Str}

theorem noNewlineEnd_strip (s : Str) : NoNewlineEnd (strip s) := fun h => by
  have hspace := strip_getLast? h
  cases hspace

theorem asciiDigits_blank (h : strip p = []) : AsciiDigits p := by
  intro c hc hdec
  have hmem := mem_strip hc (isSpace_of_decimal hdec)
  rw [h] at hmem
  cases hmem

theorem plainPhone_stripped {v : Json} (h : ∀ p, v = .str p → NoNewlineEnd p) :
    PlainPhone v ↔ ∀ p, v = .str p → AsciiDigits p := by
  constructor
  · intro hv p hp
    by_cases hblank : strip p = []
    · exact asciiDigits_blank hblank
    · exact (hv p hp hblank).1
  · exact fun hv p hp _ => ⟨hv p hp, h p hp⟩

theorem ofOption_isText (o : Option Str) : (Json.ofOption o).IsText := by
  cases o with
  | none => exact .inl rfl
  | some s => exact .inr ⟨s, rfl⟩

theorem ofOption_eq_str {o : Option Str} : Json.ofOption o = .str p ↔ o = some p := by
  cases o with
  | none => exact iff_of_false (fun h => nomatch h) nofun
  | some q => exact ⟨fun h => by cases h; rfl, fun h => by cases h; rfl⟩

theorem sale_arguments {parsed : Parsed} {sale : Decimal → Str → DateTime → SaleCreated}
    (h : (do
      let amount ← parseAmount py parsed.amount
      let currency ← validateCurrency (strOrEmpty py parsed.currency)
      let occurredAt ← parseOccurredAt py parsed.occurredAt
      (sale amount currency occurredAt).postInit) = .ok s) :
    ∃ amount occurredAt,
    (sale amount (strOrEmpty py parsed.currency) occurredAt).postInit = .ok s := by
  obtain ⟨amount, -, h⟩ := bind_eq_ok.mp h
  obtain ⟨currency, hcurrency, h⟩ := bind_eq_ok.mp h
  obtain ⟨occurredAt, -, h⟩ := bind_eq_ok.mp h
  obtain ⟨-, rfl⟩ := validateCurrency_eq_ok.mp hcurrency
  exact ⟨amount, occurredAt, h⟩

theorem blankToNone_stripped {v : Json} (h : Api.blankToNone v = .str p) : NoNewlineEnd p := by
  cases v with
  | str s =>
    rw [Api.blankToNone] at h
    split at h
    · cases h
    · cases h
      exact noNewlineEnd_strip s
  | _ => cases h

theorem csv_stripped {row : CsvImport.Row} {key : String} (h : row.get key = some p) :
    NoNewlineEnd p := by
  obtain ⟨value, -, h⟩ := Option.bind_eq_some_iff.mp h
  split at h
  · cases h
  · cases h
    exact noNewlineEnd_strip _

theorem csv_currency (row : CsvImport.Row) :
    NoNewlineEnd (strOrEmpty py (CsvImport.parse row).currency) := by
  have hcurrency : (CsvImport.parse row).currency = .ofOption (row.get "currency") := rfl
  rw [hcurrency]
  cases hrow : row.get "currency" with
  | none =>
    intro h
    cases h
  | some code =>
    rw [strOrEmpty, Json.orElse]
    by_cases ht : (Json.ofOption (some code)).truthy = true
    · rw [if_pos ht]
      exact csv_stripped hrow
    · rw [if_neg ht]
      intro h
      cases h

theorem stripped_ok {v : Json} {t : Str} (h : Shopify.stripped v = .ok t) : NoNewlineEnd t := by
  rw [Shopify.stripped] at h
  split at h
  case h_1 u _ => exact Except.ok.inj h ▸ noNewlineEnd_strip u
  case h_2 => cases h

theorem noneIfEmpty_eq_some {t : Str} (h : Shopify.noneIfEmpty t = some p) : p = t := by
  rw [Shopify.noneIfEmpty] at h
  split at h
  · cases h
  · exact (Option.some.inj h).symm

theorem shopify_phone {payload : Dict} {order : Shopify.Order}
    (h : Shopify.parse py payload = .ok order)
    (hp : order.phone.or order.customerPhone = some p) : NoNewlineEnd p := by
  obtain ⟨_, -, h⟩ := bind_eq_ok.mp h
  obtain ⟨_, -, h⟩ := bind_eq_ok.mp h
  obtain ⟨phone, hphone, h⟩ := bind_eq_ok.mp h
  obtain ⟨customerPhone, hcustomer, h⟩ := bind_eq_ok.mp h
  obtain ⟨_, -, h⟩ := bind_eq_ok.mp h
  obtain ⟨_, -, hcustomer⟩ := bind_eq_ok.mp hcustomer
  cases h
  rcases Option.or_eq_some_iff.mp hp with hp | ⟨-, hp⟩
  · exact noneIfEmpty_eq_some hp ▸ stripped_ok hphone
  · exact noneIfEmpty_eq_some hp ▸ stripped_ok hcustomer

/-- An accepted sale is well formed, and a STOP finds its phone, if and only if its phone has ASCII
digits, its phone and currency do not end in a newline, and its name and method are text. -/
theorem accepted_wellFormed (py : Runtime) (d : Delivery) (s : SaleCreated)
    (h : d.sale py = .ok s) :
    s.WellFormed ↔ d.Plain py := by
  cases d with
  | api payload =>
    obtain ⟨-, h⟩ := ok_of_guard h
    obtain ⟨amount, occurredAt, h⟩ := sale_arguments h
    rw [wellFormed_iff h]
    exact and_congr_left' (plainPhone_stripped fun p hp => blankToNone_stripped hp)
  | webhook config payload =>
    obtain ⟨-, h⟩ := ok_of_guard h
    obtain ⟨amount, occurredAt, h⟩ := sale_arguments h
    rw [wellFormed_iff h]
    exact and_congr_right' (and_iff_left ⟨ofOption_isText _, ofOption_isText _⟩)
  | csv row =>
    obtain ⟨-, h⟩ := ok_of_guard h
    obtain ⟨amount, occurredAt, h⟩ := sale_arguments h
    rw [wellFormed_iff h]
    have hphone : PlainPhone (.ofOption (row.get "customer_phone")) ↔
        ∀ p, row.get "customer_phone" = some p → AsciiDigits p := by
      rw [plainPhone_stripped fun p hp => csv_stripped (ofOption_eq_str.mp hp)]
      exact forall_congr' fun p => imp_congr_left ofOption_eq_str
    exact (and_iff_left ⟨csv_currency row, ofOption_isText _, ofOption_isText _⟩).trans hphone
  | shopify webhookId payload =>
    obtain ⟨order, hparse, h⟩ := bind_eq_ok.mp h
    obtain ⟨-, h⟩ := ok_of_guard h
    obtain ⟨amount, -, h⟩ := bind_eq_ok.mp h
    obtain ⟨occurredAt, -, h⟩ := bind_eq_ok.mp h
    rw [wellFormed_iff h]
    have hphone : PlainPhone (.ofOption (order.phone.or order.customerPhone)) ↔
        ∀ p, order.phone.or order.customerPhone = some p → AsciiDigits p := by
      rw [plainPhone_stripped fun p hp => shopify_phone hparse (ofOption_eq_str.mp hp)]
      exact forall_congr' fun p => imp_congr_left ofOption_eq_str
    have hplain : Delivery.Plain py (.shopify webhookId payload) ↔
        (∀ p, order.phone.or order.customerPhone = some p → AsciiDigits p) ∧
        NoNewlineEnd (strOrEmpty py order.currency) :=
      ⟨fun h => h order hparse, fun h order' h' => by cases hparse.symm.trans h'; exact h⟩
    rw [hplain]
    exact and_congr hphone (and_iff_left ⟨ofOption_isText _, ofOption_isText _⟩)

def saleTo (phone : String) : Dict :=
  (text "customer", .dict [(text "phone", .str (text phone))]) :: saleOfAmount "12.50"

theorem accepted_wellFormed_plain :
    ∃ s, (Delivery.api (saleTo "+14155550100")).sale plainRuntime = .ok s ∧
      s.customerPhone = .str (text "+14155550100") ∧ s.WellFormed := by
  have haccepted : ∃ s, (Delivery.api (saleTo "+14155550100")).sale plainRuntime = .ok s ∧
      s.customerPhone = .str (text "+14155550100") := ⟨_, rfl, rfl⟩
  obtain ⟨s, hs, hphone⟩ := haccepted
  refine ⟨s, hs, hphone, (accepted_wellFormed plainRuntime _ s hs).mpr ⟨?_, ?_, .inl rfl, .inl rfl⟩⟩
  · intro p hp
    cases hp
    exact fun c hc _ => (by decide : ∀ c ∈ text "+14155550100", c < 128) c hc
  · exact fun h => absurd h (by decide)

def arabicPhone : Dict := saleTo "+1٤١٥٥٥٥٠١٠٠"

/-- The phone is stored as it was written, and no STOP is from it. -/
theorem arabic_phone_accepted : ∃ s, (Delivery.api arabicPhone).sale plainRuntime = .ok s ∧
    s.customerPhone = .str (text "+1٤١٥٥٥٥٠١٠٠") ∧ ¬ s.WellFormed ∧
    inboundPhone (numberOf (text "+1٤١٥٥٥٥٠١٠٠")) = some (text "+14155550100") := by
  refine ⟨_, rfl, rfl, ?_, by decide⟩
  rintro ⟨hnull | ⟨p, hp, hphone, -⟩, -⟩
  · cases hnull
  · cases hp
    exact absurd (hphone.chars 0x664 (by decide)).2 (by decide)

end Deliveries

end ReviewFlow.Integrations
