import ReviewFlow.Billing.Inboxes

/-!
# Where the events of the inboxes come from

The receiver hands on a delivery exactly if it was signed under the secret, has an event id and
names a subscription. The merchant is that of the row which holds the reference, and only such a
delivery leads to an event.
-/

namespace ReviewFlow.Billing

open Savepoint Interleaving FirstWins

variable {r : Receiver} {d : Delivery} {ref : Ref} {eventId eventType : String}

structure Names (payload : Dict) (ref : Ref) (eventType : String) : Prop where
  event : payload.get "event" = .str eventType
  typeLength : 1 ≤ eventType.toList.length ∧ eventType.toList.length ≤ 64
  id : ∃ outer subscription entity : Dict, payload.get "payload" = .obj outer ∧
    outer.get "subscription" = .obj subscription ∧ subscription.get "entity" = .obj entity ∧
    entity.lookup "id" = some (.str ref.val)

/-- The delivery was signed under the secret, under this event id, and names this
subscription. -/
structure Receiver.Verified (r : Receiver) (d : Delivery) (ref : Ref)
    (eventId eventType : String) : Prop where
  secret : r.secret ≠ ""
  signed : ∃ signature, d.signature = some signature ∧ signature ≠ "" ∧
    r.hmac r.secret d.body = signature
  header : d.eventId = some eventId
  idLength : 1 ≤ eventId.toList.length ∧ eventId.toList.length ≤ 64
  idVisible : ∀ c ∈ eventId.toList, 0x21 ≤ c.toNat ∧ c.toNat ≤ 0x7e
  body : ∃ payload, r.loads d.body = some (.obj payload) ∧ Names payload ref eventType

section Receive

theorem verifyWebhookSignature_iff : r.verifyWebhookSignature d = true ↔
    r.secret ≠ "" ∧ ∃ signature, d.signature = some signature ∧ signature ≠ "" ∧
      r.hmac r.secret d.body = signature := by
  simp only [Receiver.verifyWebhookSignature, Bool.and_eq_true, bne_iff_ne, Option.any_eq_true,
    beq_iff_eq]

theorem eventIdFailure_iff : eventIdFailure (some eventId) = none ↔
    (1 ≤ eventId.toList.length ∧ eventId.toList.length ≤ 64) ∧
      ∀ c ∈ eventId.toList, 0x21 ≤ c.toNat ∧ c.toNat ≤ 0x7e := by
  have hempty : eventId = "" ↔ eventId.toList.length = 0 := by
    rw [List.length_eq_zero_iff, String.toList_eq_nil_iff]
  by_cases h0 : eventId = ""
  · have := hempty.mp h0
    simp [eventIdFailure, h0]
  · have h1 : eventId.toList.length ≠ 0 := fun h => h0 (hempty.mpr h)
    by_cases h64 : 64 < eventId.toList.length
    · have hno : ¬ (1 ≤ eventId.toList.length ∧ eventId.toList.length ≤ 64) := by omega
      simp [eventIdFailure, h0, h64, hno]
    · have hlength : 1 ≤ eventId.toList.length ∧ eventId.toList.length ≤ 64 := by omega
      simp only [eventIdFailure, if_neg h0, if_neg h64, hlength, true_and]
      simp [isEventIdChar]

theorem dict?_eq_some {j : Json} {dict : Dict} : j.dict? = some dict ↔ j = .obj dict := by
  cases j <;> simp [Json.dict?]

theorem subscriptionEntity_eq_some {payload entity : Dict} :
    subscriptionEntity payload = some entity ↔ ∃ outer subscription : Dict,
      payload.get "payload" = .obj outer ∧ outer.get "subscription" = .obj subscription ∧
      subscription.get "entity" = .obj entity := by
  simp [subscriptionEntity, Option.bind_eq_some_iff, dict?_eq_some]

theorem parseEvent_iff {body : List UInt8} :
    (∃ id, r.parseEvent body = some (eventType, id) ∧ id.bind Ref.ofJson? = some ref) ↔
      ∃ payload, r.loads body = some (.obj payload) ∧ Names payload ref eventType := by
  constructor
  · rintro ⟨id, hparse, hid⟩
    simp only [Receiver.parseEvent, Option.bind_eq_bind, Option.bind_eq_some_iff] at hparse
    obtain ⟨payload, ⟨loaded, hloads, hdict⟩, type, htype, hlength⟩ := hparse
    split at hlength
    case isFalse => cases hlength
    case isTrue hlen =>
      cases hlength
      obtain ⟨value, hvalue, href⟩ := Option.bind_eq_some_iff.mp hid
      obtain ⟨entity, hentity, hlookup⟩ := Option.bind_eq_some_iff.mp hvalue
      obtain ⟨outer, subscription, ho, hs, he⟩ := subscriptionEntity_eq_some.mp hentity
      rw [Ref.ofJson?_eq_some.mp href] at hlookup
      exact ⟨payload, dict?_eq_some.mp hdict ▸ hloads, Json.str?_eq_some.mp htype, hlen,
        outer, subscription, entity, ho, hs, he, hlookup⟩
  · rintro ⟨payload, hloads, hevent, hlen, outer, subscription, entity, ho, hs, he, hlookup⟩
    have hentity := subscriptionEntity_eq_some.mpr ⟨outer, subscription, ho, hs, he⟩
    refine ⟨some (.str ref.val), ?_, Ref.ofJson?_eq_some.mpr rfl⟩
    have hlen' : 1 ≤ eventType.toList.length ∧ eventType.toList.length ≤ eventTypeMaxLength := hlen
    simp only [Receiver.parseEvent, hloads, Option.bind_eq_bind, Option.bind_some, Json.dict?,
      hevent, Json.str?, if_pos hlen', hentity, hlookup]

theorem receive_iff : r.receive d = .event ref eventId eventType ↔
    r.Verified d ref eventId eventType := by
  constructor
  · intro h
    unfold Receiver.receive at h
    split at h
    case isTrue => cases h
    case isFalse hverified =>
      split at h
      case h_1 => cases h
      case h_2 id hid =>
        split at h
        case isTrue => cases h
        case isFalse hvalid =>
          split at h
          case h_1 => cases h
          case h_2 type value hparse =>
            split at h
            case h_1 => cases h
            case h_2 ref' href =>
              cases h
              obtain ⟨hsecret, hsigned⟩ := verifyWebhookSignature_iff.mp (by simpa using hverified)
              obtain ⟨hlength, hvisible⟩ := eventIdFailure_iff.mp (by simpa using hvalid)
              exact ⟨hsecret, hsigned, hid, hlength, hvisible,
                parseEvent_iff.mp ⟨value, hparse, href⟩⟩
  · rintro ⟨hsecret, hsigned, hid, hlength, hvisible, hbody⟩
    have hverified := verifyWebhookSignature_iff.mpr ⟨hsecret, hsigned⟩
    have hvalid := eventIdFailure_iff.mpr ⟨hlength, hvisible⟩
    obtain ⟨value, hparse, href⟩ := parseEvent_iff.mpr hbody
    simp [Receiver.receive, hverified, hid, hvalid, hparse, href]

end Receive

/-- The step is a verified delivery, and the row of the merchant holds the reference. -/
def Delivers (r : Receiver) (m : ℕ) (ref : Ref) (eventId eventType : String)
    (t : Interleaving.Transition Platform Step) : Prop :=
  ∃ d, t.label = .deliver d ∧ r.Verified d ref eventId eventType ∧
    t.before.forLookupRef ref = some m

theorem forLookupRef_holds {p : Platform} {m : ℕ} (h : p.forLookupRef ref = some m) :
    ∃ sys, p.merchants[m]? = some sys ∧ sys.db.Holds ref := by
  obtain ⟨hm, hfinds, -⟩ := List.findIdx?_eq_some_iff_getElem.mp h
  refine ⟨_, List.getElem?_eq_getElem hm, ?_⟩
  unfold System.finds at hfinds
  cases hsub : p.merchants[m].db.sub? with
  | none => simp [hsub] at hfinds
  | some sub => exact ⟨sub, hsub, by simpa [hsub, resolves, Subscription.Holds] using hfinds⟩

section Threads

variable {sys : System} {choice : Choice} {task : Task}

theorem System.step_tasks {thread : Thread} (ht : thread ∈ (sys.step choice).threads)
    (htask : task ∈ thread.todo) :
    (∃ thread ∈ sys.threads, task ∈ thread.todo) ∨ (∃ job, choice = .spawn job ∧ task ∈ job.tasks) ∨
      ∃ thread ∈ sys.threads, ∃ task₀ ∈ thread.todo, task₀.Follows task := by
  cases choice with
  | spawn job =>
    rcases List.mem_append.mp ht with ht | ht
    · exact .inl ⟨thread, ht, htask⟩
    · obtain rfl := List.mem_singleton.mp ht
      exact .inr (.inl ⟨job, rfl, htask⟩)
  | crash i =>
    rcases List.mem_or_eq_of_mem_set ht with ht | rfl
    · exact .inl ⟨thread, ht, htask⟩
    · cases htask
  | request asked env commits => exact .inl ⟨thread, ht, htask⟩
  | advance i env =>
    cases ha : sys.advance i env with
    | none =>
      simp only [System.step, ha] at ht
      exact .inl ⟨thread, ht, htask⟩
    | some p =>
      obtain ⟨thread₀, task₀, rest, hi, htodo, hnext⟩ := System.advance_takes ha
      have hmem := List.mem_of_getElem? hi
      simp only [System.step, ha] at ht
      rcases List.mem_or_eq_of_mem_set ht with ht | rfl
      · exact .inl ⟨thread, ht, htask⟩
      · have hrest : task ∈ rest → ∃ thread ∈ sys.threads, task ∈ thread.todo := fun h =>
          ⟨thread₀, hmem, htodo ▸ List.mem_cons_of_mem _ h⟩
        rcases hnext with ⟨next, ⟨_, _, _, hi', htodo₀, hpost, _⟩, htodo'⟩ | ⟨-, htodo'⟩
        · rw [htodo'] at htask
          rcases List.mem_append.mp htask with htask | htask
          · obtain rfl := Option.mem_toList.mp htask
            exact .inr (.inr ⟨thread₀, hmem, task₀, htodo ▸ List.mem_cons_self, hpost.follows⟩)
          · exact .inl (hrest htask)
        · exact .inl (hrest (htodo' ▸ htask))

end Threads

section Platform

variable {m : ℕ} {p : Platform} {step : Step} {h : List (Interleaving.Transition Platform Step)}

def Task.Backed (r : Receiver) (h : List (Interleaving.Transition Platform Step)) (m : ℕ) :
    Task → Prop
  | .webhookInsert ref eventId eventType => ∃ t ∈ h, Delivers r m ref eventId eventType t
  | .webhookLookup _ _ _ => False
  | _ => True

def Platform.Backed (r : Receiver) (h : List (Interleaving.Transition Platform Step))
    (p : Platform) : Prop :=
  ∀ m (sys : System), p.merchants[m]? = some sys →
    ∀ thread ∈ sys.threads, ∀ task ∈ thread.todo, task.Backed r h m

theorem Task.Backed.snoc {task : Task} (hb : task.Backed r h m)
    (t : Interleaving.Transition Platform Step) : task.Backed r (h ++ [t]) m := by
  cases task with
  | webhookInsert ref eventId eventType =>
    obtain ⟨t₀, ht₀, hdelivers⟩ := hb
    exact ⟨t₀, List.mem_append_left _ ht₀, hdelivers⟩
  | webhookLookup ref eventId eventType => exact hb.elim
  | _ => trivial

theorem Task.Follows.backed {task₀ task : Task} (hf : task₀.Follows task)
    (hb : task₀.Backed r h m) : task.Backed r h m := by
  cases task with
  | webhookInsert ref eventId eventType =>
    cases task₀ with
    | webhookLookup ref' eventId' eventType' => exact hb.elim
    | _ => exact hf.elim
  | webhookLookup ref eventId eventType => cases task₀ <;> exact hf.elim
  | _ => trivial

theorem System.step_backed {sys : System} {choice : Choice} (hno : choice.startsWebhook = false)
    (hb : ∀ thread ∈ sys.threads, ∀ task ∈ thread.todo, task.Backed r h m) (others : Others) :
    ∀ thread ∈ (sys.step (choice.among others)).threads, ∀ task ∈ thread.todo,
      task.Backed r h m := by
  intro thread ht task htask
  rcases System.step_tasks ht htask with ⟨thread₀, ht₀, htask₀⟩ | ⟨job, hjob, htask₀⟩ |
    ⟨thread₀, ht₀, task₀, htask₀, hfollows⟩
  · exact hb thread₀ ht₀ task htask₀
  · cases choice with
    | spawn job' =>
      cases hjob
      cases job with
      | webhook ref eventId eventType => cases hno
      | sync =>
        simp only [Job.tasks, List.mem_cons, List.not_mem_nil, or_false] at htask₀
        rcases htask₀ with rfl | rfl | rfl <;> trivial
      | dunning =>
        obtain rfl := List.mem_singleton.mp htask₀
        trivial
    | _ => cases hjob
  · exact hfollows.backed (hb thread₀ ht₀ task₀ htask₀)

theorem Platform.update_get {f : System → System} {i : ℕ} {sys : System}
    (hsys : (p.update m f).merchants[i]? = some sys) :
    m ≠ i ∧ p.merchants[i]? = some sys ∨
      i = m ∧ ∃ sys₀, p.merchants[m]? = some sys₀ ∧ sys = f sys₀ := by
  rw [Platform.update, List.getElem?_modify] at hsys
  obtain ⟨sys₀, hsys₀, rfl⟩ := Option.map_eq_some_iff.mp hsys
  by_cases him : m = i
  · subst him
    exact .inr ⟨rfl, sys₀, hsys₀, by simp⟩
  · exact .inl ⟨him, by simpa [him] using hsys₀⟩

theorem Platform.step_backed (hb : p.Backed r h) :
    (p.step r step).Backed r (h ++ [transition (Platform.step r) p step]) := by
  have hkept : p.Backed r (h ++ [transition (Platform.step r) p step]) :=
    fun m sys hsys thread ht task htask => (hb m sys hsys thread ht task htask).snoc _
  cases step with
  | deliver d =>
    change (p.deliver r d).Backed r _
    unfold Platform.deliver
    split
    case h_1 ref eventId eventType hreceive =>
      split
      case h_1 m hfound =>
        intro i sys hsys thread ht task htask
        rcases Platform.update_get hsys with ⟨-, hsame⟩ | ⟨rfl, sys₀, hsys₀, rfl⟩
        · exact hkept i sys hsame thread ht task htask
        · rcases List.mem_append.mp ht with ht | ht
          · exact hkept i sys₀ hsys₀ thread ht task htask
          · obtain rfl := List.mem_singleton.mp ht
            obtain rfl := List.mem_singleton.mp htask
            exact ⟨transition (Platform.step r) p (.deliver d), by simp, d, rfl,
              receive_iff.mp hreceive, hfound⟩
      case h_2 => exact hkept
    all_goals exact hkept
  | act m choice =>
    by_cases hwebhook : choice.startsWebhook = true
    · rw [Platform.step, if_pos hwebhook]
      exact hkept
    · rw [Platform.step, if_neg hwebhook]
      intro i sys hsys
      rcases Platform.update_get hsys with ⟨-, hsame⟩ | ⟨rfl, sys₀, hsys₀, rfl⟩
      · exact hkept i sys hsame
      · exact System.step_backed (by simpa using hwebhook) (hkept i sys₀ hsys₀) _

theorem Platform.inserting_backed (hb : p.Backed r h)
    (hi : p.inserting step = some (eventId, m, eventType, ref)) :
    ∃ t ∈ h, Delivers r m ref eventId eventType t := by
  cases step with
  | deliver d => cases hi
  | act m' choice =>
    obtain ⟨⟨id, type, ref'⟩, hbind, hx⟩ := Option.map_eq_some_iff.mp hi
    cases hx
    obtain ⟨sys, hsys, hinsert⟩ := Option.bind_eq_some_iff.mp hbind
    obtain ⟨i, env, -, htask⟩ := System.inserting_eq_some.mp hinsert
    obtain ⟨thread, ht, hhead⟩ := Option.bind_eq_some_iff.mp htask
    exact hb m sys hsys thread (List.mem_of_getElem? ht) _ (List.mem_of_mem_head? hhead)

/-- In every run, an event in the inbox of a merchant came with an earlier delivery that was signed
under the secret, under that event id, with that type and reference. At the lookup of the
delivery the merchant's row held the reference. -/
theorem event_delivered {n : ℕ} {steps : List Step} {sys : System} {e : BillingEvent}
    (hsys : (run (Platform.step r) (Platform.start n) steps).merchants[m]? = some sys)
    (he : e ∈ sys.db.events) :
    ∃ t ∈ trace (Platform.step r) (Platform.start n) steps,
      Delivers r m e.providerRef e.providerEventId e.eventType t ∧
      ∃ sys₀, t.before.merchants[m]? = some sys₀ ∧ sys₀.db.Holds e.providerRef := by
  have hinbox : (e.providerEventId, m, e.eventType, e.providerRef) ∈
      (run (Platform.step r) (Platform.start n) steps).inbox := by
    refine List.mem_flatten.mpr ⟨contents m sys, ?_, ?_⟩
    · obtain ⟨hm, rfl⟩ := List.getElem?_eq_some_iff.mp hsys
      exact List.mem_mapIdx.mpr ⟨m, hm, rfl⟩
    · exact List.mem_map.mpr ⟨e.entry, List.mem_map_of_mem he, rfl⟩
  have hinserts := mem_of_mem_firsts ((inbox_firsts n steps).mem_iff.mp hinbox)
  obtain ⟨u, hu, hinserting⟩ := List.mem_filterMap.mp hinserts
  have hmeets : Meets (fun h t => ∀ x, t.before.inserting t.label = some x →
      ∃ u ∈ h, Delivers r x.2.1 x.2.2.2 x.1 x.2.2.1 u)
      (trace (Platform.step r) (Platform.start n) steps) := by
    refine MeetsFrom.of_invariant (P := fun h p => Platform.Backed r h p)
      (C := fun _ _ => True) ?_ ?_ (MeetsFrom.of_forall (fun _ _ => trivial) [])
    · intro m sys hsys thread ht
      have := List.mem_of_getElem? hsys
      obtain rfl := List.eq_of_mem_replicate this
      cases ht
    · intro h p step hb _
      exact ⟨Platform.step_backed hb, fun x hx => Platform.inserting_backed hb hx⟩
  obtain ⟨h₁, h₂, hsplit⟩ := List.append_of_mem hu
  rw [Meets, hsplit] at hmeets
  obtain ⟨t, ht, hdelivers⟩ := hmeets.split _ hinserting
  have hfound := hdelivers
  obtain ⟨d, -, -, hlookup⟩ := hfound
  refine ⟨t, ?_, hdelivers, forLookupRef_holds hlookup⟩
  rw [hsplit]
  exact List.mem_append_left _ ht

end Platform

def chargedBody : List UInt8 :=
  ("\x7b\"event\":\"subscription.charged\",\"payload\":\x7b\"subscription\":\x7b\"entity\":" ++
    "\x7b\"id\":\"sub_a\"\x7d\x7d\x7d\x7d").toList.map fun c => c.toNat.toUInt8

def chargedSignature : String := "643a3bddb63cfa04ef970910f7b4cb59df3ab7021d1dec02eef74164463f437d"

def charged : Delivery := ⟨chargedBody, some chargedSignature, some "evt_1"⟩

def chargedReceiver : Receiver where
  secret := "whsec"
  hmac secret body := if secret = "whsec" ∧ body = chargedBody then chargedSignature else ""
  loads body := if body = chargedBody then some (.obj [("event", .str "subscription.charged"),
    ("payload", .obj [("subscription", .obj [("entity", .obj [("id", .str "sub_a")])])])]) else none

def chargedTwice : List Step :=
  let env : Env := Answers.at {} 1600
  subscribed.map (.act 1) ++ [.deliver charged, .deliver charged, .act 1 (.advance 2 env),
    .act 1 (.advance 1 env)]

theorem event_delivered_charged : ∃ sys e,
    (run (Platform.step chargedReceiver) (Platform.start 2) chargedTwice).merchants[1]? =
      some sys ∧ sys.db.events = [e] ∧
    ∃ t ∈ trace (Platform.step chargedReceiver) (Platform.start 2) chargedTwice,
      Delivers chargedReceiver 1 e.providerRef e.providerEventId e.eventType t ∧
      ∃ sys₀, t.before.merchants[1]? = some sys₀ ∧ sys₀.db.Holds e.providerRef := by
  have hone : (run (Platform.step chargedReceiver) (Platform.start 2)
      chargedTwice).merchants[1]?.any (fun sys => sys.db.events.length == 1) = true := by
    decide +kernel
  obtain ⟨sys, hsys, hlength⟩ := (Option.any_eq_true _ _).mp hone
  obtain ⟨e, he⟩ := List.length_eq_one_iff.mp (by simpa using hlength)
  exact ⟨sys, e, hsys, he, event_delivered hsys (by simp [he])⟩

end ReviewFlow.Billing
