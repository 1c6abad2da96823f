import Mathlib.Data.List.Lex
import Mathlib.Data.List.Sort
import Mathlib.Data.Prod.Lex
import ReviewFlow.Integrations.Schemas
import ReviewFlow.Separators

/-!
# The signature of the Shopify callback

`verify_shopify_query_hmac` over HMAC-SHA256 as a function of the secret and the message. It signs
the sorted parameters as they are joined, and these are read back from the text where no name
and no value has a separator in it that would be read as such.
-/

namespace ReviewFlow.Integrations.Callback

open Python Separators

/-- `request.GET.dict()`. -/
structure Query where
  items : List (Str × Str)
  nodup : (items.map Prod.fst).Nodup

structure Settings where
  shopifyClientSecret : Str
  shopifyClientSecretPrevious : Str

def Query.get? (q : Query) (key : Str) : Option Str := q.items.lookup key

def Query.get (q : Query) (key : Str) : Str := (q.get? key).getD []

def hmacKey : Str := text "hmac"

def Query.provided (q : Query) : Str := q.get hmacKey

def Query.signed (q : Query) : List (Str × Str) := q.items.filter fun p => p.1 != hmacKey

def PairLe (a b : Str × Str) : Prop := toLex a ≤ toLex b

instance : DecidableRel PairLe := fun a b => inferInstanceAs (Decidable (toLex a ≤ toLex b))

def Query.pairs (q : Query) : List (Str × Str) := q.signed.insertionSort PairLe

/-- `"&".join(f"{k}={v}" for k, v in pairs)`. -/
def Query.message (q : Query) : Str := joinPairs 38 61 q.pairs

def isAscii (s : Str) : Bool := s.all (· < 128)

/-- `hmac.compare_digest`, with none for the TypeError of a text that is not ASCII. -/
def compareDigest (a b : Str) : Option Bool :=
  if isAscii a && isAscii b then some (a == b) else none

section Verify

-- the hex digest of HMAC-SHA256 over the UTF-8 encodings of a secret and a message
variable (hmac : Str → Str → Str)

def signer (message provided : Str) : List Str → Result (Option Str)
  | [] => .ok none
  | secret :: secrets =>
    if secret = [] then signer message provided secrets
    else if ¬ Encodable secret then .error .unicodeEncodeError
    else if compareDigest (hmac secret message) provided = some true then .ok (some secret)
    else signer message provided secrets

def Query.signer (settings : Settings) (q : Query) : Result (Option Str) :=
  if q.provided = [] then .ok none
  else if ¬ Encodable q.message then .error .unicodeEncodeError
  else Callback.signer hmac q.message q.provided
    [settings.shopifyClientSecret, settings.shopifyClientSecretPrevious]

def verifyShopifyQueryHmac (settings : Settings) (q : Query) : Result Bool :=
  (q.signer hmac settings).map Option.isSome

def Accepted (settings : Settings) (secret : Str) (q : Query) : Prop :=
  q.signer hmac settings = .ok (some secret)

theorem verifyShopifyQueryHmac_iff {settings : Settings} {q : Query} :
    verifyShopifyQueryHmac hmac settings q = .ok true ↔
      ∃ secret, Accepted hmac settings secret q := by
  unfold verifyShopifyQueryHmac Accepted
  cases q.signer hmac settings with
  | error e => simp [Except.map]
  | ok found => simp [Except.map, Option.isSome_iff_exists]

end Verify

section Maps

variable {q q' : Query} {key value : Str}

theorem lookup_eq_some_iff {items : List (Str × Str)} (h : (items.map Prod.fst).Nodup) :
    items.lookup key = some value ↔ (key, value) ∈ items := by
  induction items with
  | nil => simp
  | cons p items ih =>
    obtain ⟨hp, hrest⟩ := List.nodup_cons.mp h
    rw [List.lookup_cons, List.mem_cons]
    by_cases hkey : key = p.1
    · have habsent : (key, value) ∉ items := fun hm => hp (hkey ▸ List.mem_map_of_mem hm)
      simp [hkey, Prod.ext_iff, hkey ▸ habsent, eq_comm]
    · have hne : (key, value) ≠ p := fun h => hkey (congrArg Prod.fst h)
      simp [beq_eq_false_iff_ne.mpr hkey, hne, ih hrest]

theorem Query.get?_eq_some : q.get? key = some value ↔ (key, value) ∈ q.items :=
  lookup_eq_some_iff q.nodup

theorem Query.mem_items : (key, value) ∈ q.items ↔
    (key, value) ∈ q.signed ∨ (key = hmacKey ∧ q.get? hmacKey = some value) := by
  rw [Query.get?_eq_some, Query.signed, List.mem_filter]
  by_cases hkey : key = hmacKey
  · simp [hkey]
  · simp [hkey]

theorem get?_eq_of_signed (hperm : q.signed.Perm q'.signed)
    (hsame : q.get? hmacKey = q'.get? hmacKey) (key : Str) :
    q.get? key = q'.get? key := by
  apply Option.ext
  intro value
  rw [Query.get?_eq_some, Query.get?_eq_some, Query.mem_items, Query.mem_items,
    hperm.mem_iff, hsame]

theorem Query.pairs_perm (q : Query) : q.pairs.Perm q.signed :=
  List.perm_insertionSort PairLe q.signed

theorem Query.get?_provided (h : q.provided ≠ []) : q.get? hmacKey = some q.provided := by
  rw [Query.provided, Query.get] at h ⊢
  cases hget : q.get? hmacKey with
  | none => rw [hget] at h; exact absurd rfl h
  | some value => rfl

end Maps

section Signature

variable {hmac : Str → Str → Str} {settings : Settings}
    {secret message provided : Str} {q q' : Query}

theorem compareDigest_true {a b : Str} (h : compareDigest a b = some true) : a = b := by
  rw [compareDigest] at h
  split at h
  · simpa using h
  · cases h

theorem digest_of_signer {secrets : List Str}
    (h : signer hmac message provided secrets = .ok (some secret)) :
    hmac secret message = provided := by
  induction secrets with
  | nil => cases h
  | cons s secrets ih =>
    rw [signer] at h
    split at h
    · exact ih h
    · split at h
      · cases h
      · split at h
        case isTrue hdigest =>
          cases h
          exact compareDigest_true hdigest
        case isFalse => exact ih h

theorem Accepted.digest (h : Accepted hmac settings secret q) :
    q.provided ≠ [] ∧ hmac secret q.message = q.provided := by
  rw [Accepted, Query.signer] at h
  split at h
  case isTrue => cases h
  case isFalse hprovided =>
    split at h
    case isTrue => cases h
    case isFalse => exact ⟨hprovided, digest_of_signer h⟩

theorem Accepted.of_message (h : Accepted hmac settings secret q)
    (hmessage : q'.message = q.message)
    (hsame : q'.provided = q.provided) : Accepted hmac settings secret q' := by
  rw [Accepted, Query.signer, hmessage, hsame]
  exact h

/-- No name has a separator in it, and no value one between two pairs. -/
def Query.Plain (q : Query) : Prop := ∀ p ∈ q.signed, Separators.Plain 38 61 p

theorem signed_perm_of_message (hq : q.Plain) (hq' : q'.Plain) (h : q.message = q'.message) :
    q.signed.Perm q'.signed := by
  have hpairs : q.pairs = q'.pairs := by
    apply joinPairs_inj (by decide) _ _ h
    · exact fun p hp => hq p (q.pairs_perm.mem_iff.mp hp)
    · exact fun p hp => hq' p (q'.pairs_perm.mem_iff.mp hp)
  have hsigned : q.pairs.Perm q'.signed := hpairs ▸ q'.pairs_perm
  exact q.pairs_perm.symm.trans hsigned

/-- With an ideal HMAC the signature of a map is one of its message: the maps that are accepted
under it are those with this message, and there is one of them whose names and values are plain. -/
theorem callback_signature (hmac : Str → Str → Str)
    (ideal : ∀ secret, Function.Injective (hmac secret))
    (settings : Settings) (secret : Str) (q q' : Query) (h : Accepted hmac settings secret q)
    (hsame : q'.provided = q.provided) :
    (Accepted hmac settings secret q' ↔ q'.message = q.message) ∧
      (Accepted hmac settings secret q' → q.Plain → q'.Plain →
        ∀ key, q'.get? key = q.get? key) := by
  obtain ⟨hprovided, hdigest⟩ := h.digest
  have hmessage : Accepted hmac settings secret q' → q'.message = q.message := by
    intro h'
    obtain ⟨-, hdigest'⟩ := h'.digest
    apply ideal secret
    rw [hdigest', hdigest, hsame]
  refine ⟨⟨hmessage, fun hm => h.of_message hm hsame⟩, fun h' hplain hplain' key => ?_⟩
  apply get?_eq_of_signed (signed_perm_of_message hplain' hplain (hmessage h'))
  rw [q.get?_provided hprovided, q'.get?_provided h'.digest.1, hsame]

def joinedDigest (secret message : Str) : Str := secret ++ 0 :: message

theorem joinedDigest_ideal (secret : Str) : Function.Injective (joinedDigest secret) := by
  intro m m' h
  exact (List.cons.inj (List.append_cancel_left h)).2

def oneSecret : Settings := ⟨text "s", []⟩

def signedBy (message : String) : Str × Str := (hmacKey, joinedDigest (text "s") (text message))

def orderedQuery : Query :=
  ⟨[(text "code", text "c"), (text "shop", text "x.myshopify.com"),
    signedBy "code=c&shop=x.myshopify.com"],
    by decide⟩

def reorderedQuery : Query :=
  ⟨[signedBy "code=c&shop=x.myshopify.com", (text "shop", text "x.myshopify.com"),
    (text "code", text "c")],
    by decide⟩

/-- The parameter `shop` within the value of `code`. -/
def mergedQuery : Query :=
  ⟨[(text "code", text "c&shop=x.myshopify.com"), signedBy "code=c&shop=x.myshopify.com"],
    by decide⟩

theorem callback_signature_reordered :
    reorderedQuery.get? (text "shop") = orderedQuery.get? (text "shop") :=
  (callback_signature joinedDigest joinedDigest_ideal oneSecret (text "s") orderedQuery
    reorderedQuery (by rfl)
    (by rfl)).2 (by rfl) (by unfold Query.Plain Plain; decide)
      (by unfold Query.Plain Plain; decide) (text "shop")

theorem merged_query_accepted :
    ¬ ∀ (hmac : Str → Str → Str), (∀ secret, Function.Injective (hmac secret)) →
      ∀ (settings : Settings) (secret : Str) (q q' : Query), Accepted hmac settings secret q →
        Accepted hmac settings secret q' → q'.provided = q.provided →
          ∀ key, q'.get? key = q.get? key := by
  intro h
  have hshop :=
    h joinedDigest joinedDigest_ideal oneSecret (text "s") orderedQuery
      mergedQuery (by rfl) (by rfl)
    (by rfl) (text "shop")
  cases hshop

end Signature

end ReviewFlow.Integrations.Callback
