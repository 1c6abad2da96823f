import ReviewFlow.Integrations.Shopify

/-!
# What a failed link leaves at Shopify

The ids that the cleanup deletes travel on the exception. They are all the subscriptions created
where the exception is the one that the registration marks, and none otherwise.
-/

namespace ReviewFlow.Shopify

open Python Savepoint
open Integrations (Json Dict)

def isDict : Json → Bool
  | .dict _ => true
  | _ => false

def field (v : Json) (key : String) : Json :=
  match v with
  | .dict items => Dict.get items (text key)
  | _ => .null

/-- A value that `or {}` keeps and that has no `get`. -/
def NotObject (v : Json) : Prop := v.truthy = true ∧ isDict v = false

instance (v : Json) : Decidable (NotObject v) := inferInstanceAs (Decidable (_ ∧ _))

def answeredField (v : Json) : Json := field (field v "data") "webhookSubscriptionCreate"

def Response.Confirms (r : Response) (id : Json) : Prop :=
  ∃ v, r = .answered 200 (some v) ∧ (field v "errors").truthy = false ∧
    (field (answeredField v) "userErrors").truthy = false ∧
    field (field (answeredField v) "webhookSubscription") "id" = id ∧ id.truthy = true

def MalformedAnswer (v : Json) : Prop :=
  isDict v = false ∨ (field v "errors").truthy = false ∧
    (NotObject (field v "data") ∨ NotObject (answeredField v) ∨
      (field (answeredField v) "userErrors").truthy = false ∧
        NotObject (field (answeredField v) "webhookSubscription"))

/-- The request ended in an exception other than `ShopifyUnavailable`, or its answer leads to
one. -/
def Response.Malformed : Response → Prop
  | .transportError => False
  | .raises _ => True
  | .answered status body => status = 200 ∧ ∃ v, body = some v ∧ MalformedAnswer v

theorem get_eq (v : Json) (key : String) :
    get v key = if isDict v = false then .error (.fault .attributeError)
    else .ok (field v key) := by
  cases v <;> rfl

theorem get_orEmpty (v : Json) (key : String) :
    get (orEmpty v) key =
      if NotObject v then .error (.fault .attributeError) else .ok (field v key) := by
  unfold orEmpty Json.orElse
  by_cases ht : v.truthy = true
  · rw [if_pos ht, get_eq]
    by_cases hd : isDict v = false
    · rw [if_pos hd, if_pos ⟨ht, hd⟩]
    · rw [if_neg hd, if_neg fun h => hd h.2]
  · rw [if_neg ht, if_neg fun h => ht h.1]
    cases v with
    | dict items =>
      have he : items = [] := by simpa [Json.truthy] using ht
      rw [he]
      rfl
    | _ => rfl

def created (r : Response) : Result Json := r.json >>= graphqlData >>= subscriptionId

theorem subscriptionId_orEmpty (v : Json) :
    subscriptionId (orEmpty v) =
      if NotObject v then .error (.fault .attributeError)
      else if NotObject (field v "webhookSubscriptionCreate") then .error (.fault .attributeError)
      else if (field (field v "webhookSubscriptionCreate") "userErrors").truthy then
        .error (.unavailable none)
      else if NotObject (field (field v "webhookSubscriptionCreate") "webhookSubscription") then
        .error (.fault .attributeError)
      else if (field
      (field (field v "webhookSubscriptionCreate") "webhookSubscription") "id").truthy then
        .ok (field (field (field v "webhookSubscriptionCreate") "webhookSubscription") "id")
      else .error (.unavailable none) := by
  unfold subscriptionId
  by_cases hv : NotObject v
  · simp [get_orEmpty, hv, bind, Except.bind]
  by_cases hc : NotObject (field v "webhookSubscriptionCreate")
  · simp [get_orEmpty, hv, hc, bind, Except.bind]
  by_cases hu : (field (field v "webhookSubscriptionCreate") "userErrors").truthy = true
  · simp [get_orEmpty, hv, hc, hu, bind, Except.bind]
  by_cases hs : NotObject (field (field v "webhookSubscriptionCreate") "webhookSubscription")
  · simp [get_orEmpty, hv, hc, hu, hs, bind, Except.bind]
  · simp [get_orEmpty, hv, hc, hu, hs, bind, Except.bind]

theorem created_answered (v : Json) :
    created (.answered 200 (some v)) =
      if isDict v = false then .error (.fault .attributeError)
      else if (field v "errors").truthy then .error (.unavailable none)
      else if NotObject (field v "data") then .error (.fault .attributeError)
      else if NotObject (answeredField v) then .error (.fault .attributeError)
      else if (field (answeredField v) "userErrors").truthy then .error (.unavailable none)
      else if NotObject (field (answeredField v) "webhookSubscription") then .error
      (.fault .attributeError)
      else if (field (field (answeredField v) "webhookSubscription") "id").truthy then
        .ok (field (field (answeredField v) "webhookSubscription") "id")
      else .error (.unavailable none) := by
  unfold answeredField
  rw [← subscriptionId_orEmpty]
  unfold created graphqlData
  by_cases hd : isDict v = false
  · simp [Response.json, get_eq, hd, bind, Except.bind]
  by_cases he : (field v "errors").truthy = true
  · simp [Response.json, get_eq, hd, he, bind, Except.bind]
  · simp [Response.json, get_eq, hd, he, bind, Except.bind]

theorem confirms_answered {v id : Json} :
    (Response.answered 200 (some v)).Confirms id ↔
      (field v "errors").truthy = false ∧ (field (answeredField v) "userErrors").truthy = false ∧
        field (field (answeredField v) "webhookSubscription") "id" = id ∧ id.truthy = true := by
  constructor
  · rintro ⟨w, hw, h⟩
    cases hw
    exact h
  · exact fun h => ⟨v, rfl, h⟩

theorem malformed_answered {v : Json} :
    (Response.answered 200 (some v)).Malformed ↔ MalformedAnswer v := by
  constructor
  · rintro ⟨_, w, hw, h⟩
    cases hw
    exact h
  · exact fun h => ⟨rfl, v, rfl, h⟩

theorem isDict_of_field {v : Json} {key : String} (h : (field v key).truthy = true) :
    isDict v = true := by
  cases v with
  | dict _ => rfl
  | _ => cases h

theorem isDict_of_isDict_field {v : Json} {key : String} (h : isDict (field v key) = true) :
    isDict v = true := by
  cases v with
  | dict _ => rfl
  | _ => cases h

theorem confirms_not_malformed {v id : Json} (h : (Response.answered 200 (some v)).Confirms id) :
    ¬ MalformedAnswer v := by
  obtain ⟨_, _, rfl, hid⟩ := confirms_answered.mp h
  have hs : isDict (field (answeredField v) "webhookSubscription") = true := isDict_of_field hid
  have hc : isDict (answeredField v) = true := isDict_of_isDict_field hs
  have hd : isDict (field v "data") = true := isDict_of_isDict_field hc
  have hv : isDict v = true := isDict_of_isDict_field hd
  simp [MalformedAnswer, NotObject, hs, hc, hd, hv]

inductive Registered (r : Response) : Prop where
  | confirmed (id : Json) (one : ∀ id', r.Confirms id' ↔ id' = id) (sound : ¬ r.Malformed)
      (result : created r = .ok id)
  | malformed (fault : Fault) (none : ∀ id, ¬ r.Confirms id) (broken : r.Malformed)
      (result : created r = .error (.fault fault))
  | unavailable (none : ∀ id, ¬ r.Confirms id) (sound : ¬ r.Malformed)
      (result : created r = .error (.unavailable .none))

theorem registered_answered (v : Json) : Registered (.answered 200 (some v)) := by
  have hbroken : MalformedAnswer v →
    created (.answered 200 (some v)) = .error (.fault .attributeError) →
      Registered (.answered 200 (some v)) := fun hm hr =>
    .malformed .attributeError (fun _ hc => confirms_not_malformed hc hm)
      (malformed_answered.mpr hm) hr
  have hc := created_answered v
  by_cases hd : isDict v = false
  · exact hbroken (.inl hd) (hc.trans (if_pos hd))
  rw [if_neg hd] at hc
  by_cases he : (field v "errors").truthy = true
  · refine .unavailable (fun id h => ?_) (fun h => ?_) (hc.trans (if_pos he))
    · simp [he, confirms_answered] at h
    · simp [he, hd, malformed_answered, MalformedAnswer] at h
  rw [if_neg he] at hc
  have he' : (field v "errors").truthy = false := by simpa using he
  by_cases hdata : NotObject (field v "data")
  · exact hbroken (.inr ⟨he', .inl hdata⟩) (hc.trans (if_pos hdata))
  rw [if_neg hdata] at hc
  by_cases hans : NotObject (answeredField v)
  · exact hbroken (.inr ⟨he', .inr (.inl hans)⟩) (hc.trans (if_pos hans))
  rw [if_neg hans] at hc
  by_cases hu : (field (answeredField v) "userErrors").truthy = true
  · refine .unavailable (fun id h => ?_) (fun h => ?_) (hc.trans (if_pos hu))
    · simp [hu, confirms_answered] at h
    · simp [hu, hd, hdata, hans, malformed_answered, MalformedAnswer] at h
  rw [if_neg hu] at hc
  have hu' : (field (answeredField v) "userErrors").truthy = false := by simpa using hu
  by_cases hsub : NotObject (field (answeredField v) "webhookSubscription")
  · exact hbroken (.inr ⟨he', .inr (.inr ⟨hu', hsub⟩)⟩) (hc.trans (if_pos hsub))
  rw [if_neg hsub] at hc
  have hsound : ¬ (Response.answered 200 (some v)).Malformed := by
    simp [malformed_answered, MalformedAnswer, hd, hdata, hans, hsub]
  by_cases hid : (field (field (answeredField v) "webhookSubscription") "id").truthy = true
  · refine .confirmed _ (fun id' => ?_) hsound (hc.trans (if_pos hid))
    rw [confirms_answered]
    exact ⟨fun h => h.2.2.1.symm, fun h => ⟨he', hu', h.symm, h ▸ hid⟩⟩
  · refine .unavailable (fun id h => ?_) hsound (hc.trans (if_neg hid))
    obtain ⟨_, _, rfl, h⟩ := confirms_answered.mp h
    exact hid h

theorem registered (r : Response) : Registered r := by
  have hnone : (∀ v, r ≠ .answered 200 (some v)) → ∀ id, ¬ r.Confirms id := by
    rintro h id ⟨v, hv, _⟩
    exact h v hv
  cases r with
  | transportError => exact .unavailable (hnone (by simp)) (fun h => h) rfl
  | raises fault => exact .malformed fault (hnone (by simp)) trivial rfl
  | answered status body =>
    by_cases hs : status = 200
    · subst hs
      cases body with
      | some v => exact registered_answered v
      | none => exact .unavailable (hnone (by simp)) (by rintro ⟨_, v, hv, _⟩; cases hv) rfl
    · refine .unavailable (hnone (by simp [hs])) (fun h => hs h.1) ?_
      simp [created, Response.json, hs, bind, Except.bind]

section Calls

variable {α : Type} {env : Env} {s : State} {Q : α → State → Prop} {E : Error → State → Prop}

theorem wp_attempt {r : Result α} :
    Program.wp env (attempt r) Q E s ↔ (∀ a, r = .ok a → Q a s) ∧ ∀ e, r = .error e → E e s :=
  Program.wp_query _

theorem wp_shopifyPost {request : Request} {Q : Json → State → Prop} :
    Program.wp env (shopifyPost request) Q E s ↔
      (∀ v, (env.shopify s.journal.calls.length request).json = .ok v →
        Q v (State.called s ⟨request, env.shopify s.journal.calls.length request⟩)) ∧
      ∀ e, (env.shopify s.journal.calls.length request).json = .error e →
        E e (State.called s ⟨request, env.shopify s.journal.calls.length request⟩) := by
  unfold Program.wp shopifyPost
  rcases h : (env.shopify s.journal.calls.length request).json with _ | _ <;> simp [h]

theorem wp_graphql {request : Request} {f : Json → Result α} :
    Program.wp env (graphql request >>= fun data => attempt (f data)) Q E s ↔
      (∀ v, (env.shopify s.journal.calls.length request).json >>= graphqlData >>= f = .ok v →
        Q v (State.called s ⟨request, env.shopify s.journal.calls.length request⟩)) ∧
      ∀ e, (env.shopify s.journal.calls.length request).json >>= graphqlData >>= f = .error e →
        E e (State.called s ⟨request, env.shopify s.journal.calls.length request⟩) := by
  unfold graphql
  simp only [Program.wp_bind, wp_shopifyPost, wp_attempt]
  generalize env.shopify s.journal.calls.length request = r
  cases hj : r.json with
  | error e => simp [bind, Except.bind]
  | ok v =>
    cases hd : graphqlData v with
    | error e => simp [hd, bind, Except.bind]
    | ok data => simp [hd, bind, Except.bind]

/-- What the loop of `register_webhooks` lets out of one response. -/
def marked (createdIds : List Json) : Result Json → Result Json
  | .ok id => .ok id
  | .error (.unavailable _) => .error (.unavailable (some createdIds))
  | .error e => .error e

theorem wp_registerWebhook {shop uri topic : Str} {accessToken : Json} {createdIds : List Json}
    {request : Request} {r : Response} {result : Result Json} {Q : Json → State → Prop}
    (hq : request = ⟨shop, accessToken, .webhookSubscriptionCreate topic uri⟩)
    (hr : r = env.shopify s.journal.calls.length request)
    (hc : marked createdIds (created r) = result) :
    Program.wp env (registerWebhook shop accessToken uri topic createdIds) Q E s ↔
      (∀ id, result = .ok id → Q id (State.called s ⟨request, r⟩)) ∧
      ∀ e, result = .error e → E e (State.called s ⟨request, r⟩) := by
  subst hr hq hc
  unfold registerWebhook
  rw [Program.wp_handle, wp_graphql]
  change ((∀ v, created _ = .ok v → _) ∧ ∀ e, created _ = .error e → _) ↔ _
  generalize created _ = c
  cases c with
  | ok id => simp [marked]
  | error e => cases e <;> simp [marked]

theorem deletes (env : Env) (shop : Str) (accessToken : Json) (ids : List Json) (s : State) :
    Program.wp env (deleteWebhooks shop accessToken ids)
      (fun _ t => t.data = s.data ∧ ∃ calls, t.journal.calls = s.journal.calls ++ calls ∧
        calls.map (·.request) =
          ids.map fun id => ⟨shop, accessToken, .webhookSubscriptionDelete id⟩)
      (fun _ _ => False) s := by
  induction ids generalizing s with
  | nil => exact ⟨rfl, [], (List.append_nil _).symm, rfl⟩
  | cons id ids ih =>
    have hone : Program.wp env (deleteWebhook shop accessToken id)
        (fun _ t => ∃ r, t = State.called s ⟨⟨shop, accessToken, .webhookSubscriptionDelete id⟩, r⟩)
        (fun _ _ => False) s := by
      unfold deleteWebhook graphql
      simp only [Program.wp_handle, Program.wp_bind, wp_shopifyPost, wp_attempt, Program.wp_pure]
      exact ⟨fun _ _ =>
        ⟨fun _ _ => ⟨fun _ _ => ⟨_, rfl⟩, fun _ _ => ⟨_, rfl⟩⟩, fun _ _ => ⟨_, rfl⟩⟩,
        fun _ _ => ⟨_, rfl⟩⟩
    refine Program.wp_bind_of hone ?_ (fun _ _ h => h)
    rintro _ t ⟨r, rfl⟩
    apply Program.wp_mono (ih _)
    · rintro _ u ⟨hdata, calls, hcalls, hreq⟩
      refine ⟨hdata, ⟨⟨shop, accessToken, .webhookSubscriptionDelete id⟩, r⟩ :: calls, ?_, ?_⟩
      · rw [hcalls]
        exact List.append_assoc _ _ _
      · simp [hreq]
    · exact fun _ _ h => h

end Calls

def Call.Creates (call : Call) (id : Json) : Prop :=
  (∃ topic uri, call.request.query = .webhookSubscriptionCreate topic uri) ∧
    call.response.Confirms id

def Call.deletion (call : Call) (id : Json) : Request :=
  { call.request with query := .webhookSubscriptionDelete id }

/-- No row remains, and a delete was attempted for every subscription created. -/
structure Compensated (s t : State) : Prop where
  integrations : t.data.integrations = s.data.integrations
  auditLog : t.data.auditLog = s.data.auditLog
  deleted : ∀ calls, t.journal.calls = s.journal.calls ++ calls → ∀ call ∈ calls, ∀ id,
    call.Creates id → ∃ call' ∈ calls, call'.request = call.deletion id

section Cleanup

variable {env : Env} {s t : State} {shop : Str} {accessToken : Json}

def Made (shop : Str) (accessToken : Json) (calls : List Call) : Prop :=
  ∀ call ∈ calls, call.request.shop = shop ∧ call.request.accessToken = accessToken ∧
    ∀ id, call.request.query ≠ .webhookSubscriptionDelete id

theorem wp_cleanup (calls : List Call) {e : Error} (hi : t.data.integrations = s.data.integrations)
    (ha : t.data.auditLog = s.data.auditLog) (hc : t.journal.calls = s.journal.calls ++ calls)
    (hm : Made shop accessToken calls) :
    Program.wp env
      (do
        deleteWebhooks shop accessToken e.createdIds
        Program.raise (α := Integration) (.unavailable none))
      (fun _ _ => True) (fun _ u => Compensated s u) t ↔
    ∀ call ∈ calls, ∀ id, call.Creates id → id ∈ e.createdIds := by
  obtain ⟨_, u, hrun, hdata, dels, hdels, hreq⟩ :=
    Program.wp_total (deletes env shop accessToken e.createdIds t)
  have hcalls : u.journal.calls = s.journal.calls ++ (calls ++ dels) := by
    rw [hdels, hc, List.append_assoc]
  rw [Program.wp_bind]
  unfold Program.wp
  rw [hrun]
  change Compensated s u ↔ _
  constructor
  · intro h call hmem id hid
    obtain ⟨call', hmem', hdel⟩ := h.deleted _ hcalls call (List.mem_append_left _ hmem) id hid
    rcases List.mem_append.mp hmem' with hin | hin
    · exact absurd (congrArg Request.query hdel) ((hm call' hin).2.2 id)
    · have hin' := List.mem_map_of_mem (f := fun c : Call => c.request) hin
      rw [hreq, hdel] at hin'
      obtain ⟨id', hid', heq⟩ := List.mem_map.mp hin'
      cases heq
      exact hid'
  · refine fun h => ⟨by rw [hdata, hi], by rw [hdata, ha], fun new hnew call hmem id hid => ?_⟩
    have heq : new = calls ++ dels := List.append_cancel_left (hnew.symm.trans hcalls)
    rw [heq] at hmem ⊢
    rcases List.mem_append.mp hmem with hin | hin
    · have hdel : call.deletion id ∈ dels.map (·.request) := by
        rw [hreq, List.mem_map]
        refine ⟨id, h call hin id hid, ?_⟩
        rw [Call.deletion, (hm call hin).1, (hm call hin).2.1]
      obtain ⟨call', hin', heq'⟩ := List.mem_map.mp hdel
      exact ⟨call', List.mem_append_right _ hin', heq'⟩
    · have hin' := List.mem_map_of_mem (f := fun c : Call => c.request) hin
      rw [hreq] at hin'
      obtain ⟨id', _, heq'⟩ := List.mem_map.mp hin'
      obtain ⟨⟨topic, uri, hcreate⟩, _⟩ := hid
      rw [← heq'] at hcreate
      cases hcreate

end Cleanup

section Connect

variable {env : Env} {s : State} {actor : ℕ} {shop shopId : Str} {credentials accessToken : Json}

def Env.Stores (env : Env) (actor : ℕ) : Prop :=
  env.refused .saveConfig = none ∧ env.refused .readMembers = none ∧ actor ∈ env.members ∧
    env.refused .createAudit = none

theorem wp_statement {α : Type} {Q : α → State → Prop} {E : Error → State → Prop} {kind : Statement}
    {f : Env → Database → Result α × Database} :
    Program.wp env (statement kind f) Q E s ↔
      (env.refused kind = none →
        (∀ a, (f env s.data).1 = .ok a → Q a ⟨(f env s.data).2, s.journal⟩) ∧
        ∀ e, (f env s.data).1 = .error e → E e ⟨(f env s.data).2, s.journal⟩) ∧
      ∀ fault, env.refused kind = some fault → E (.fault fault) s := by
  unfold statement
  rw [Program.wp_query]
  cases h : env.refused kind with
  | none => simp
  | some fault => simp

theorem stored (actor : ℕ) {merchantId : ℕ} {integration : Integration}
    {action : String} {metadata : Dict}
    (hm : env.currentMerchantId = some merchantId) :
    Program.wp env
      (do
        saveConfig integration
        record action actor integration metadata
        pure integration)
      (fun _ _ => env.Stores actor)
      (fun e t => t.journal = s.journal ∧ (∃ fault, e = .fault fault) ∧ ¬ env.Stores actor) s := by
  simp only [Program.wp_bind, Program.wp_pure, saveConfig, record, Program.wp_ask, hm, wp_statement]
  refine ⟨fun hs => ⟨fun _ _ => ⟨fun hr => ⟨fun member hmem => ?_, by simp⟩, ?_⟩, by simp⟩, ?_⟩
  · rw [Program.wp_ite]
    refine ⟨fun hn => ⟨rfl, ⟨_, rfl⟩, fun h => ?_⟩, fun hin => ?_⟩
    · cases hmem
      exact absurd h.2.2.1 (by simpa using hn)
    · cases hmem
      rw [wp_statement]
      refine ⟨fun ha => ⟨fun _ _ => ⟨hs, hr, by simpa using hin, ha⟩, by simp⟩, fun fault ha => ?_⟩
      exact ⟨rfl, ⟨_, rfl⟩, fun h => by simp [h.2.2.2] at ha⟩
  · exact fun fault hr => ⟨trivial, ⟨_, rfl⟩, fun h => by simp [h.2.1] at hr⟩
  · exact fun fault hs => ⟨trivial, ⟨_, rfl⟩, fun h => by simp [h.1] at hs⟩

def registration (env : Env) (shop : Str) (accessToken : Json) (topic : Str) : Request :=
  ⟨shop, accessToken, .webhookSubscriptionCreate topic (env.uri env.newId)⟩

/-- Where the first subscription is created, the second request does not end in another exception,
and what follows a second subscription is stored. -/
def Recoverable (env : Env) (actor : ℕ) (first second : Response) : Prop :=
  (∃ id, first.Confirms id) → ¬ second.Malformed ∧ ((∃ id, second.Confirms id) → env.Stores actor)

/-- The cleanup is told every subscription that the calls created. -/
def Covered (calls : List Call) (e : Error) : Prop :=
  ∀ call ∈ calls, ∀ id, call.Creates id → id ∈ e.createdIds

theorem creates_registration {topic : Str} {r : Response} {id : Json} :
    (Call.mk (registration env shop accessToken topic) r).Creates id ↔ r.Confirms id :=
  ⟨fun h => h.2, fun h => ⟨⟨topic, env.uri env.newId, rfl⟩, h⟩⟩

theorem covered_first {topic : Str} {r : Response} {e : Error} (h : ∀ id, ¬ r.Confirms id) :
    Covered [⟨registration env shop accessToken topic, r⟩] e := by
  intro call hcall id hid
  rw [List.mem_singleton] at hcall
  subst hcall
  exact absurd (creates_registration.mp hid) (h id)

theorem not_covered {topic : Str} {r : Response} {calls : List Call} {id : Json} {fault : Fault}
    (h : r.Confirms id) :
    ¬ Covered (⟨registration env shop accessToken topic, r⟩ :: calls) (.fault fault) :=
  fun hc => List.not_mem_nil (hc _ List.mem_cons_self id (creates_registration.mpr h))

theorem made_registrations (env : Env) (shop : Str) (accessToken : Json)
    (topics : List (Str × Response)) :
    Made shop accessToken
      (topics.map fun p => ⟨registration env shop accessToken p.1, p.2⟩) := by
  intro call hcall
  obtain ⟨p, _, rfl⟩ := List.mem_map.mp hcall
  exact ⟨rfl, rfl, fun _ h => nomatch h⟩

def registrations (env : Env) (shop : Str) (accessToken : Json)
    (first second : Response) : List Call :=
  [⟨registration env shop accessToken ordersPaid, first⟩,
    ⟨registration env shop accessToken appUninstalled, second⟩]

theorem covered_second {first second : Response} {id : Json}
    (one : ∀ id', first.Confirms id' ↔ id' = id) (none : ∀ id, ¬ second.Confirms id) :
    Covered (registrations env shop accessToken first second) (.unavailable (some [id])) := by
  intro call hcall id' hid
  rcases List.mem_cons.mp hcall with rfl | hcall
  · exact List.mem_singleton.mpr ((one id').mp (creates_registration.mp hid))
  · rw [List.mem_singleton] at hcall
    subst hcall
    exact absurd (creates_registration.mp hid) (none id')

/-- A registration that fails tells the cleanup what it must delete, where the second request did
not end in another exception. -/
theorem registers (actor : ℕ) {first second : Response}
    (h₁ : first = env.shopify s.journal.calls.length (registration env shop accessToken ordersPaid))
    (h₂ : second = env.shopify (s.journal.calls.length + 1)
      (registration env shop accessToken appUninstalled)) :
    Program.wp env (registerWebhooks shop accessToken env.newId)
      (fun _ t => t.journal.calls =
        s.journal.calls ++ registrations env shop accessToken first second ∧
        (∃ id, first.Confirms id) ∧ (∃ id, second.Confirms id) ∧ ¬ second.Malformed)
      (fun e t => ∃ calls, t.journal.calls = s.journal.calls ++ calls ∧
        Made shop accessToken calls ∧
        (Covered calls e ↔ Recoverable env actor first second)) s := by
  have hlast : ∀ {c : Call}, (State.called s c).journal.calls = s.journal.calls ++ [c] := rfl
  have hboth : ∀ {c c' : Call},
      (State.called (State.called s c) c').journal.calls = s.journal.calls ++ [c, c'] :=
    List.append_assoc _ _ _
  have hfirst : ∀ e, (∀ id, ¬ first.Confirms id) →
      ∃ calls, (State.called s
      ⟨registration env shop accessToken ordersPaid, first⟩).journal.calls =
        s.journal.calls ++ calls ∧ Made shop accessToken calls ∧
          (Covered calls e ↔ Recoverable env actor first second) := by
    intro e hn
    refine ⟨_, hlast, made_registrations env shop accessToken [(ordersPaid, first)],
      iff_of_true (covered_first hn) ?_⟩
    rintro ⟨id, h⟩
    exact absurd h (hn id)
  have h₂' : ∀ c, second = env.shopify (State.called s c).journal.calls.length
      (registration env shop accessToken appUninstalled) := by
    intro c
    rw [hlast, List.length_append]
    exact h₂
  have hmade :=
    made_registrations env shop accessToken [(ordersPaid, first), (appUninstalled, second)]
  unfold registerWebhooks registerTopics registerTopics registerTopics
  simp only [Program.wp_bind, Program.wp_ask, Program.wp_pure]
  cases registered first with
  | malformed fault hn _ hresult =>
    rw [wp_registerWebhook rfl h₁ (congrArg _ hresult)]
    exact ⟨by simp [marked], fun e _ => hfirst e hn⟩
  | unavailable hn _ hresult =>
    rw [wp_registerWebhook rfl h₁ (congrArg _ hresult)]
    exact ⟨by simp [marked], fun e _ => hfirst e hn⟩
  | confirmed id hone _ hresult =>
    rw [wp_registerWebhook rfl h₁ (congrArg _ hresult)]
    refine ⟨fun _ hid => ?_, by simp [marked]⟩
    cases hid
    have hconf : first.Confirms id := (hone id).mpr rfl
    cases registered second with
    | confirmed id' hone' hsound hresult' =>
      rw [wp_registerWebhook rfl (h₂' _) (congrArg _ hresult')]
      exact ⟨fun _ _ => ⟨hboth, ⟨id, hconf⟩, ⟨id', (hone' id').mpr rfl⟩, hsound⟩, by simp [marked]⟩
    | malformed fault _ hbroken hresult' =>
      rw [wp_registerWebhook rfl (h₂' _) (congrArg _ hresult')]
      refine ⟨by simp [marked], fun e he => ?_⟩
      cases he
      exact ⟨_, hboth, hmade, iff_of_false (not_covered hconf) fun h => (h ⟨id, hconf⟩).1 hbroken⟩
    | unavailable hn hsound hresult' =>
      rw [wp_registerWebhook rfl (h₂' _) (congrArg _ hresult')]
      refine ⟨by simp [marked], fun e he => ?_⟩
      cases he
      refine ⟨_, hboth, hmade, iff_of_true (covered_second hone hn) fun _ => ⟨hsound, ?_⟩⟩
      rintro ⟨id', h⟩
      exact absurd h (hn id')

/-- From the inserted row on: a run that returns was recoverable at each point, and one that fails
tells the cleanup what it must delete where it was. -/
theorem connects (actor : ℕ) (shopId : Str) {merchantId : ℕ} {encrypted : String}
    {first second : Response}
    (hm : env.currentMerchantId = some merchantId) (he : env.encrypt credentials = .ok encrypted)
    (hr : env.refused .createIntegration = none) (hid : env.newId ∉ s.data.integrations.map (·.id))
    (h₁ : first = env.shopify s.journal.calls.length (registration env shop accessToken ordersPaid))
    (h₂ : second = env.shopify (s.journal.calls.length + 1)
      (registration env shop accessToken appUninstalled)) :
    Program.wp env (connect actor shop credentials accessToken shopId)
      (fun _ _ => Recoverable env actor first second)
      (fun e t => ∃ calls, t.journal.calls = s.journal.calls ++ calls ∧
        Made shop accessToken calls ∧
        (Covered calls e ↔ Recoverable env actor first second)) s := by
  unfold connect
  rw [Program.wp_bind, Program.wp_ask, Program.wp_bind, wp_attempt]
  refine ⟨fun enc _ => ?_, fun e h => by rw [he] at h; cases h⟩
  rw [Program.wp_bind]
  unfold createIntegration
  rw [wp_statement]
  refine ⟨fun _ => ?_, fun fault h => by rw [hr] at h; cases h⟩
  rw [hm]
  dsimp only
  rw [if_neg hid]
  refine ⟨fun integration hi => ?_, fun e h => (nomatch h)⟩
  cases hi
  refine Program.wp_bind_of (registers actor (s := ⟨_, s.journal⟩) h₁ h₂) ?_ (fun _ _ h => h)
  rintro ids t ⟨hcalls, hfirst, ⟨id', hsecond⟩, hsound⟩
  apply Program.wp_mono (stored actor hm)
  · exact fun _ _ hs _ => ⟨hsound, fun _ => hs⟩
  · rintro _ u ⟨hj, ⟨fault, rfl⟩, hs⟩
    obtain ⟨id, hconf⟩ := hfirst
    exact ⟨_, (congrArg Journal.calls hj).trans hcalls,
      made_registrations env shop accessToken [(ordersPaid, first), (appUninstalled, second)],
      iff_of_false (not_covered hconf) fun h => hs ((h ⟨id, hconf⟩).2 ⟨id', hsecond⟩)⟩

structure Insertable (env : Env) (s : State) (credentials : Json) : Prop where
  encrypted : ∃ token, env.encrypt credentials = .ok token
  tenant : ∃ merchantId, env.currentMerchantId = some merchantId
  allowed : env.refused .createIntegration = none
  fresh : env.newId ∉ s.data.integrations.map (·.id)

theorem insert_refused (h : ¬ Insertable env s credentials) :
    Program.wp env (connect actor shop credentials accessToken shopId) (fun _ _ => False)
      (fun _ t => t.journal = s.journal) s := by
  unfold connect createIntegration
  rw [Program.wp_bind, Program.wp_ask, Program.wp_bind, wp_attempt]
  refine ⟨fun token ht => ?_, fun _ _ => rfl⟩
  have henc : ∃ token, env.encrypt credentials = .ok token := by
    cases he : env.encrypt credentials with
    | ok token => exact ⟨token, rfl⟩
    | error fault =>
      rw [he] at ht
      cases ht
  rw [Program.wp_bind, wp_statement]
  refine ⟨fun hr => ?_, fun _ _ => rfl⟩
  cases hm : env.currentMerchantId with
  | none => exact ⟨fun _ h => (nomatch h), fun _ _ => rfl⟩
  | some merchantId =>
    by_cases hid : env.newId ∈ s.data.integrations.map (·.id)
    · dsimp only
      rw [if_pos hid]
      exact ⟨fun _ h => (nomatch h), fun _ _ => rfl⟩
    · exact absurd ⟨henc, ⟨merchantId, hm⟩, hr, hid⟩ h

theorem wp_connected (s₀ s : State) (call : Call) (hi : s.data.integrations = s₀.data.integrations)
    (ha : s.data.auditLog = s₀.data.auditLog) (hc : s.journal.calls = s₀.journal.calls ++ [call])
    (hq : call.request = ⟨shop, accessToken, .shopIdentity⟩) :
    Program.wp env
      (Program.handle
      (Program.savepoint (connect actor shop credentials accessToken shopId)) fun e => do
        deleteWebhooks shop accessToken e.createdIds
        Program.raise (.unavailable none))
      (fun _ _ => True) (fun _ t => Compensated s₀ t) s ↔
    (Insertable env s credentials → Recoverable env actor
      (env.shopify s.journal.calls.length (registration env shop accessToken ordersPaid))
      (env.shopify (s.journal.calls.length + 1)
      (registration env shop accessToken appUninstalled))) := by
  have hcreates : ∀ id, ¬ call.Creates id := by
    rintro id ⟨⟨topic, uri, h⟩, _⟩
    rw [hq] at h
    cases h
  have hmade : ∀ {calls}, Made shop accessToken calls → Made shop accessToken (call :: calls) := by
    intro calls h call' hcall'
    rcases List.mem_cons.mp hcall' with rfl | hin
    · rw [hq]
      exact ⟨rfl, rfl, fun _ h => nomatch h⟩
    · exact h call' hin
  have hclean : ∀ {e : Error} {t : State} (calls : List Call),
      t.journal.calls = s.journal.calls ++ calls → Made shop accessToken calls →
      (Program.wp env (do
          deleteWebhooks shop accessToken e.createdIds
          Program.raise (α := Integration) (.unavailable none))
        (fun _ _ => True) (fun _ u => Compensated s₀ u) ⟨s.data, t.journal⟩ ↔ Covered calls e) := by
    intro e t calls hcalls hm
    have hcalls' : t.journal.calls = s₀.journal.calls ++ call :: calls := by
      rw [hcalls, hc, List.append_assoc]
      rfl
    rw [wp_cleanup (t := ⟨s.data, t.journal⟩) (call :: calls) hi ha hcalls' (hmade hm)]
    constructor
    · exact fun h call' hcall' => h call' (List.mem_cons_of_mem _ hcall')
    · rintro h call' hcall' id hid
      rcases List.mem_cons.mp hcall' with rfl | hin
      · exact absurd hid (hcreates id)
      · exact h call' hin id hid
  rw [Program.wp_handle, Program.wp_savepoint]
  by_cases hins : Insertable env s credentials
  · obtain ⟨⟨token, he⟩, ⟨merchantId, hm⟩, hr, hid⟩ := id hins
    have h := connects actor shopId hm he hr hid
      (rfl : _ = env.shopify _ (registration env shop accessToken _)) rfl
    constructor
    · intro hw _
      rcases hrun : (connect actor shop credentials accessToken shopId).run env s with ⟨e | a, t⟩
      · obtain ⟨calls, hcalls, hmade', hiff⟩ := Program.wp_error h hrun
        have hcleaned := Program.wp_error hw hrun
        exact hiff.mp ((hclean calls hcalls hmade').mp hcleaned)
      · exact Program.wp_ok h hrun
    · intro hrec
      apply Program.wp_mono h (fun _ _ _ => trivial)
      rintro e t ⟨calls, hcalls, hmade', hiff⟩
      exact (hclean calls hcalls hmade').mpr (hiff.mpr (hrec hins))
  · refine iff_of_true ?_ fun h => absurd h hins
    apply Program.wp_mono (insert_refused hins) (fun _ _ h => h.elim)
    intro e t ht
    refine (hclean [] ?_ fun _ h => nomatch h).mpr fun _ h => nomatch h
    rw [ht, List.append_nil]

structure Inserted (env : Env) (s : State) (pending : Pending)
    (credentials accessToken : Json) : Prop
    extends Insertable env s credentials where
  popped : freshPending env.now s.data.shopifyPending = .ok pending
  decrypted : env.decrypt pending.credentialsFernet = .ok credentials
  token : subscript credentials "access_token" = .ok accessToken
  identity : ∃ shopId,
    (env.shopify s.journal.calls.length ⟨pending.shop, accessToken, .shopIdentity⟩).json
    >>= graphqlData >>= shopIdentity pending.shop = .ok shopId

/-- The answer to the registration of a topic, after the call that reads the shop's identity and `n`
more. -/
def Env.answer (env : Env) (s : State) (pending : Pending) (accessToken : Json)
    (n : ℕ) (topic : Str) :
    Response :=
  env.shopify (s.journal.calls.length + 1 + n) (registration env pending.shop accessToken topic)

theorem Compensated.of_none {t : State} (calls : List Call)
    (hi : t.data.integrations = s.data.integrations) (ha : t.data.auditLog = s.data.auditLog)
    (hc : t.journal.calls = s.journal.calls ++ calls)
    (hn : ∀ call ∈ calls, ∀ topic uri, call.request.query ≠ .webhookSubscriptionCreate topic uri) :
    Compensated s t := by
  refine ⟨hi, ha, fun new hnew call hcall id hid => ?_⟩
  rw [List.append_cancel_left (hnew.symm.trans hc)] at hcall
  obtain ⟨⟨topic, uri, h⟩, _⟩ := hid
  exact absurd h (hn call hcall topic uri)

theorem raised_ok {α : Type} {r : Except Fault α} {a : α} (h : raised r = .ok a) : r = .ok a := by
  cases r with
  | ok _ =>
    cases h
    rfl
  | error _ => cases h

theorem links (env : Env) (actor : ℕ) (s : State) :
    Program.wp env (linkShopifyInstallation actor) (fun _ _ => True)
    (fun _ t => Compensated s t) s ↔
      ∀ pending credentials accessToken, Inserted env s pending credentials accessToken →
        Recoverable env actor (env.answer s pending accessToken 0 ordersPaid)
          (env.answer s pending accessToken 1 appUninstalled) := by
  have hstop : ∀ {t : State}, t.data = { s.data with shopifyPending := none } →
    t.journal = s.journal →
      Compensated s t := by
    intro t hd hj
    exact .of_none [] (by rw [hd]) (by rw [hd]) (by rw [hj, List.append_nil]) fun _ h => nomatch h
  let popped : Database := { s.data with shopifyPending := none }
  let read (pending : Pending) (accessToken : Json) : Call :=
    ⟨⟨pending.shop, accessToken, .shopIdentity⟩,
      env.shopify s.journal.calls.length ⟨pending.shop, accessToken, .shopIdentity⟩⟩
  have hlen : ∀ c, (State.called ⟨popped, s.journal⟩ c).journal.calls.length =
      s.journal.calls.length + 1 :=
    fun _ => List.length_append
  unfold linkShopifyInstallation popPending
  rw [Program.wp_bind, Program.wp_ask, Program.wp_bind, Program.wp_query]
  constructor
  · intro h pending credentials accessToken hins
    obtain ⟨shopId, hshop⟩ := hins.identity
    have h := h.1 _ rfl
    rw [Program.wp_bind, wp_attempt] at h
    have h := h.1 pending hins.popped
    rw [Program.wp_bind, wp_attempt] at h
    have h := h.1 credentials (by rw [hins.decrypted]; rfl)
    rw [Program.wp_bind, wp_attempt] at h
    have h := h.1 accessToken hins.token
    rw [Program.wp_bind, fetchShopIdentity, wp_graphql] at h
    have h := h.1 shopId hshop
    have h := (wp_connected s
      (State.called ⟨popped, s.journal⟩ (read pending accessToken)) _ rfl rfl rfl
      rfl).mp h
    rw [hlen] at h
    exact h ⟨hins.encrypted, hins.tenant, hins.allowed, hins.fresh⟩
  · intro h
    refine ⟨fun _ hpop => ?_, fun _ h => (nomatch h)⟩
    cases hpop
    rw [Program.wp_bind, wp_attempt]
    refine ⟨fun pending hpending => ?_, fun _ _ => hstop rfl rfl⟩
    rw [Program.wp_bind, wp_attempt]
    refine ⟨fun credentials hcredentials => ?_, fun _ _ => hstop rfl rfl⟩
    rw [Program.wp_bind, wp_attempt]
    refine ⟨fun accessToken htoken => ?_, fun _ _ => hstop rfl rfl⟩
    rw [Program.wp_bind, fetchShopIdentity, wp_graphql]
    refine ⟨fun shopId hshop => ?_, fun _ _ => .of_none _ rfl rfl rfl ?_⟩
    · refine (wp_connected s
        (State.called ⟨popped, s.journal⟩ (read pending accessToken)) _ rfl rfl rfl
        rfl).mpr fun hins => ?_
      rw [hlen]
      apply h pending credentials accessToken
      exact ⟨⟨hins.encrypted, hins.tenant, hins.allowed, hins.fresh⟩, hpending,
        raised_ok hcredentials, htoken, shopId, hshop⟩
    · intro call hcall topic uri hq
      rw [List.mem_singleton] at hcall
      subst hcall
      cases hq

end Connect

theorem link_restores (env : Env) (actor : ℕ) (s : State) :
    Program.wp env (linkShopifyInstallation actor) (fun _ _ => True)
      (fun _ t => t.data = { s.data with shopifyPending := none }) s := by
  have hclean : ∀ {pending : Pending} {accessToken : Json} {e : Error} {t : State},
      Program.wp env
        (do
          deleteWebhooks pending.shop accessToken e.createdIds
          Program.raise (α := Integration) (.unavailable none))
        (fun _ _ => True) (fun _ u => u.data = t.data) t := by
    intro pending accessToken e t
    exact Program.wp_bind_of (deletes env pending.shop accessToken e.createdIds t)
      (fun _ _ h => h.1)
      (fun _ _ h => h.elim)
  unfold linkShopifyInstallation popPending
  rw [Program.wp_bind, Program.wp_ask, Program.wp_bind, Program.wp_query]
  refine ⟨fun _ hpop => ?_, fun _ h => (nomatch h)⟩
  cases hpop
  rw [Program.wp_bind, wp_attempt]
  refine ⟨fun pending _ => ?_, fun _ _ => rfl⟩
  rw [Program.wp_bind, wp_attempt]
  refine ⟨fun credentials _ => ?_, fun _ _ => rfl⟩
  rw [Program.wp_bind, wp_attempt]
  refine ⟨fun accessToken _ => ?_, fun _ _ => rfl⟩
  rw [Program.wp_bind, fetchShopIdentity, wp_graphql]
  refine ⟨fun shopId _ => ?_, fun _ _ => rfl⟩
  rw [Program.wp_handle]
  apply Program.wp_mono (Program.savepoint_raises _) (fun _ _ h => h)
  intro e t ht
  apply Program.wp_mono hclean (fun _ _ h => h)
  exact fun _ _ h => h.trans ht

/-- A link that fails leaves nothing behind, and asks Shopify to delete what it created, exactly
where the second registration does not end in another exception than `ShopifyUnavailable` and
nothing fails after both. -/
theorem link_compensates (env : Env) (actor : ℕ) (s : State) :
    (∀ e t, (linkShopifyInstallation actor).run env s = (.error e, t) → Compensated s t) ↔
      ∀ pending credentials accessToken, Inserted env s pending credentials accessToken →
        Recoverable env actor (env.answer s pending accessToken 0 ordersPaid)
          (env.answer s pending accessToken 1 appUninstalled) := by
  rw [← links, Program.wp_iff_run]
  exact ⟨fun h => ⟨fun _ _ _ => trivial, h⟩, fun h => h.2⟩

def object (key : String) (v : Json) : Json := .dict [(text key, v)]

/-- Shopify names the shop, then a first subscription, and answers the second request with a
list. -/
def listAnswer : ℕ → Response
  | 0 => .answered 200 (some (object "data" (object "shop"
      (.dict [(text "myshopifyDomain", .str (text "a.myshopify.com")),
        (text "id", .str (text "gid://shopify/Shop/1"))]))))
  | 1 => .answered 200 (some (object "data" (object "webhookSubscriptionCreate"
      (object "webhookSubscription" (object "id" (.str (text "s1")))))))
  | _ => .answered 200 (some (.list []))

def listEnv : Env where
  now := 60
  webhookBase := text "https://r"
  currentMerchantId := some 1
  members := [1]
  newId := text "i"
  encrypt _ := .ok "token"
  decrypt _ := .ok (object "access_token" (.str (text "t")))
  refused _ := none
  shopify n _ := listAnswer n

def pendingState : State :=
  ⟨⟨some ⟨text "a.myshopify.com", "token", 0⟩, [], []⟩, ⟨[]⟩⟩

/-- The first subscription stays at Shopify. -/
theorem link_leaves_subscription :
    ∃ e t, (linkShopifyInstallation 1).run listEnv pendingState = (.error e, t) ∧
      ¬ Compensated pendingState t := by
  refine ⟨_, _, rfl, fun h => ?_⟩
  have hcreated : (listAnswer 1).Confirms (.str (text "s1")) :=
    ⟨_, rfl, by decide, by decide, rfl, by decide⟩
  obtain ⟨call, hcall, hq⟩ := h.deleted _ rfl _ (List.mem_cons_of_mem _ List.mem_cons_self) _
    ⟨⟨_, _, rfl⟩, hcreated⟩
  rcases List.mem_cons.mp hcall with rfl | hcall
  · cases congrArg Request.query hq
  rcases List.mem_cons.mp hcall with rfl | hcall
  · cases congrArg Request.query hq
  obtain rfl := List.mem_singleton.mp hcall
  cases congrArg Request.query hq

end ReviewFlow.Shopify
