import ReviewFlow.FirstWins
import ReviewFlow.Billing.Deliveries
import ReviewFlow.Billing.Signals

/-!
# The inboxes of all merchants

Every billing operation keeps the events it finds, and only the second transaction of a delivery
adds one. So the inboxes of all merchants together hold the first insert of each event id, and
each insert was a delivery that the receiver verified.
-/

namespace ReviewFlow.Billing

open Savepoint Interleaving FirstWins

def BillingEvent.entry (e : BillingEvent) : String × String × Ref :=
  (e.providerEventId, e.eventType, e.providerRef)

def Database.entries (db : Database) : List (String × String × Ref) := db.events.map (·.entry)

section Entries

variable {calls : List Call} {a b : Database} {env : Env} {s t : State} {next : Option Task}

theorem Marked.map_entry {P : BillingEvent → Prop} {before after : List BillingEvent}
    (h : Marked P before after) : after.map (·.entry) = before.map (·.entry) := by
  induction h with
  | nil => rfl
  | cons hrow _ ih =>
    rw [List.map_cons, List.map_cons, ih]
    rcases hrow with rfl | ⟨-, -, stamp, rfl⟩
    · rfl
    · rfl

theorem Marked.entries {P : BillingEvent → Prop} (h : Marked P a.events b.events) :
    b.entries = a.entries :=
  h.map_entry

theorem entries_of_events (h : b.events = a.events) : b.entries = a.entries := by
  rw [Database.entries, h, Database.entries]

theorem Entitling.entries (h : Entitling calls a b) : b.entries = a.entries := by
  cases h with
  | snapshot answered invoiced done => exact done.events.entries
  | switched answered invoiced done => exact done.events.entries

theorem Tending.entries (h : Tending calls a b) : b.entries = a.entries := by
  cases h with
  | retires done => exact done.events.entries
  | committed candidate done => exact entries_of_events done.events
  | uncommitted done => exact entries_of_events done.events
  | undone before row after usage events => exact events.entries
  | retiredCleared gone done => exact done.events.entries
  | plain done => exact entries_of_events done.events

theorem Quiet.entries (h : Quiet calls a b) : b.entries = a.entries := by
  cases h with
  | tending done => exact done.entries
  | stored inactive fresh gone done => exact entries_of_events done.events
  | inserted plan absent after => exact entries_of_events (after ▸ rfl)

theorem Move.entries (h : Move calls a b) : b.entries = a.entries :=
  h.elim Entitling.entries Quiet.entries

theorem entries_along {R : Database → Database → Prop} (h : ∀ a b, R a b → b.entries = a.entries)
    (hpath : Relation.ReflTransGen R a b) : b.entries = a.entries := by
  induction hpath with
  | refl => rfl
  | tail _ hmove ih => exact (h _ _ hmove).trans ih

theorem CourseTail.entries (h : CourseTail calls a b) : b.entries = a.entries := by
  rcases h with hkeeping | ⟨-, hquiet⟩
  · exact entries_along (fun _ _ hmove => Move.entries hmove.1) hkeeping
  · exact entries_along (fun _ _ hmove => Quiet.entries hmove.1) hquiet

theorem Course.entries (h : Course calls a b) : b.entries = a.entries := by
  obtain ⟨mid, hfirst, hrest⟩ := h
  have hmid : mid.entries = a.entries := by
    rcases hfirst with rfl | hmove
    · rfl
    · exact Move.entries hmove
  rcases hrest with htail | hstarting
  · exact htail.entries.trans hmid
  · obtain ⟨-, -, -, done⟩ := hstarting
    exact (entries_of_events done.events).trans hmid

theorem SnapshotPost.entries {entity : Dict} {invoices : Option (List Json)} {started : Time}
    {result : SnapshotResult} (h : SnapshotPost env.settings entity invoices started result s t) :
    t.data.entries = s.data.entries := by
  cases h with
  | dropped sub _ _ data _ => rw [data]
  | applied sub plan status now r done _ => exact done.events.entries

theorem ReplacementPost.entries {entity : Dict} {invoices : Option (List Json)} {started : Time}
    (h : ReplacementPost env.settings entity invoices started s t) :
    t.data.entries = s.data.entries := by
  cases h with
  | kept same => exact entries_of_events same.events
  | abandoned sub sub' uncommitted done => exact done.events.entries
  | failed sub sub' entity read fails done => exact done.events.entries
  | switched sub plan status start stop done => exact done.events.entries

theorem Task.Post.entries {task : Task} (h : task.Post env s next t)
    (hno : ∀ ref eventId eventType, task ≠ .webhookInsert ref eventId eventType) :
    t.data.entries = s.data.entries := by
  have same : t.data = s.data → t.data.entries = s.data.entries := fun hsame => hsame ▸ rfl
  cases task with
  | replacementApply ref started entity invoices =>
    obtain ⟨-, result, u, hu⟩ := h
    exact hu.marks.events.entries.trans hu.post.entries
  | mainApply ref started entity invoices =>
    obtain ⟨-, result, u, hu⟩ := h
    exact hu.marks.events.entries.trans hu.post.entries
  | commitFirst =>
    obtain ⟨refs, -, hpost⟩ := h
    cases hpost with
    | kept _ same => exact entries_of_events same.events
    | abandoned sub sub' _ uncommitted done => exact done.events.entries
    | committed sub now refs result candidate hrefs done => exact entries_of_events done.events
  | commitSecond refs refused =>
    obtain ⟨-, hpost⟩ := h
    cases hpost with
    | kept same => exact entries_of_events same.events
    | confirmed sub now accepted still done => exact entries_of_events done.events
    | cleared sub refused still kept done => exact entries_of_events done.events
    | undone sub sub' refused still before row after usage events => exact events.entries
  | reissueConfirm refs =>
    obtain ⟨-, untouched | ⟨sub, now, -, done⟩⟩ := h
    · exact entries_of_events untouched.events
    · exact entries_of_events done.events
  | retiredClear ref =>
    obtain ⟨-, untouched | ⟨sub, done⟩, -⟩ := h
    · exact entries_of_events untouched.events
    · exact done.events.entries
  | dunning =>
    obtain ⟨-, untouched | ⟨sub, sub', done⟩⟩ := h
    · exact entries_of_events untouched.events
    · exact entries_of_events done.events
  | owedStore ref status =>
    obtain ⟨-, hsame | ⟨sub, status, done⟩⟩ := h
    · exact same hsame
    · exact entries_of_events done.events
  | webhookInsert ref eventId eventType => exact absurd rfl (hno ref eventId eventType)
  | _ => exact same h.1

end Entries

section Inserts

variable {sys : System} {choice : Choice} {others : Others}

theorem Database.entries_keys (db : Database) :
    db.entries.map Prod.fst = db.events.map (·.providerEventId) := by
  simp [Database.entries, BillingEvent.entry]

theorem insertEvent_entries {ref : Ref} {eventId eventType : String} {env : Env} {s : State} :
    Program.wp env (insertEvent ref eventId eventType)
      (fun _ t => t.data.entries = s.data.entries ++
        firsts (s.data.entries.map Prod.fst ++ env.others.eventIds) [(eventId, eventType, ref)])
      (fun _ _ => False) s := by
  unfold insertEvent
  rw [Program.wp_bind, wp_timezoneNow, Program.wp_query]
  split
  case isTrue hknown =>
    have hmem : eventId ∈ s.data.entries.map Prod.fst ++ env.others.eventIds := by
      rw [Database.entries_keys]
      exact List.mem_append.mpr hknown
    refine ⟨fun _ _ => ?_, by simp⟩
    simp [firsts, hmem, State.tick]
  case isFalse hnew =>
    have hmem : eventId ∉ s.data.entries.map Prod.fst ++ env.others.eventIds := by
      rw [Database.entries_keys]
      exact fun hmem => hnew (List.mem_append.mp hmem)
    refine ⟨fun _ _ => ?_, by simp⟩
    rw [firsts, if_neg hmem]
    simp [firsts, State.tick, Database.entries, BillingEvent.entry]

def System.inserting (sys : System) : Choice → Option (String × String × Ref)
  | .advance i _ => match sys.taskAt i with
    | some (.webhookInsert ref eventId eventType) => some (eventId, eventType, ref)
    | _ => none
  | _ => none

theorem System.inserting_eq_some {eventId eventType : String} {ref : Ref} :
    sys.inserting choice = some (eventId, eventType, ref) ↔
      ∃ i env, choice = .advance i env ∧
        sys.taskAt i = some (.webhookInsert ref eventId eventType) := by
  cases choice with
  | advance i env =>
    simp only [System.inserting]
    split
    case h_1 ref' eventId' eventType' htask => simp [htask, and_assoc, and_comm]
    case h_2 hno =>
      constructor
      · rintro ⟨⟩
      · rintro ⟨i, env, ⟨⟩, htask⟩
        exact (hno _ _ _ htask).elim
  | _ => simp [System.inserting]

theorem System.step_insert {i : ℕ} {env : Env} {ref : Ref} {eventId eventType : String}
    (h : sys.taskAt i = some (.webhookInsert ref eventId eventType)) :
    (sys.step (.advance i env)).db.entries = sys.db.entries ++
      firsts (sys.db.entries.map Prod.fst ++ env.others.eventIds) [(eventId, eventType, ref)] := by
  obtain ⟨thread, hi, hhead⟩ := Option.bind_eq_some_iff.mp h
  obtain ⟨rest, htodo⟩ := List.head?_eq_some_iff.mp hhead
  have hadvance : sys.advance i env = some
      (((Task.webhookInsert ref eventId eventType).step.run env ⟨sys.db, thread.journal⟩).2,
        ⟨remaining ((Task.webhookInsert ref eventId eventType).step.run env
          ⟨sys.db, thread.journal⟩).1 rest,
          ((Task.webhookInsert ref eventId eventType).step.run env
            ⟨sys.db, thread.journal⟩).2.journal⟩) := by
    simp [System.advance, hi, Thread.advance, htodo]
  simp only [System.step, hadvance]
  exact wp_state (Q := fun t => t.data.entries = sys.db.entries ++
    firsts (sys.db.entries.map Prod.fst ++ env.others.eventIds) [(eventId, eventType, ref)])
    (Program.wp_bind_of insertEvent_entries (fun _ _ hentries => hentries) fun _ _ => False.elim)

theorem System.step_entries :
    (sys.step (choice.among others)).db.entries = sys.db.entries ++
      firsts (sys.db.entries.map Prod.fst ++ others.eventIds) (sys.inserting choice).toList := by
  cases hinsert : sys.inserting choice with
  | some x =>
    obtain ⟨eventId, eventType, ref⟩ := x
    obtain ⟨i, env, rfl, htask⟩ := System.inserting_eq_some.mp hinsert
    exact System.step_insert htask
  | none =>
    suffices h : (sys.step (choice.among others)).db.entries = sys.db.entries by
      simpa [firsts] using h
    rcases sys.db_step (choice.among others) with hsame | ⟨i, env, task, next, hchoice, htakes⟩ |
      ⟨request, env, -, hdb⟩
    · rw [hsame]
    · have hat := htakes.taskAt
      obtain ⟨thread, rest, t, -, -, hpost, hdb, -⟩ := htakes
      rw [← hdb]
      refine hpost.entries ?_
      rintro ref eventId eventType rfl
      have hinserting : sys.inserting choice = some (eventId, eventType, ref) := by
        cases choice with
        | advance j env' =>
          cases hchoice
          exact System.inserting_eq_some.mpr ⟨i, env', rfl, hat⟩
        | _ => cases hchoice
      rw [hinserting] at hinsert
      cases hinsert
    · rw [hdb]
      exact (request.run_spec sys.db env).entries

end Inserts

section Platform

variable {r : Receiver} {p : Platform} {m : ℕ} {sys : System} {f : System → System}

def contents (m : ℕ) (sys : System) : List (String × ℕ × String × Ref) :=
  sys.db.entries.map fun x => (x.1, m, x.2)

def Platform.inbox (p : Platform) : List (String × ℕ × String × Ref) :=
  (p.merchants.mapIdx contents).flatten

def Platform.inserting (p : Platform) : Step → Option (String × ℕ × String × Ref)
  | .deliver _ => none
  | .act m choice =>
    (p.merchants[m]?.bind fun sys => sys.inserting choice).map fun x => (x.1, m, x.2)

def inserts (ts : List (Interleaving.Transition Platform Step)) :
    List (String × ℕ × String × Ref) :=
  ts.filterMap fun t => t.before.inserting t.label

theorem contents_keys (m : ℕ) (sys : System) :
    (contents m sys).map Prod.fst = sys.db.events.map (·.providerEventId) := by
  simp [contents, ← Database.entries_keys]

theorem Platform.update_eq (h : p.merchants[m]? = some sys) :
    ∃ before after, p.merchants = before ++ sys :: after ∧ before.length = m ∧
      (p.update m f).merchants = before ++ f sys :: after := by
  obtain ⟨hm, hsys⟩ := List.getElem?_eq_some_iff.mp h
  obtain ⟨before, found, after, hp, hlength, hmodify⟩ := List.exists_of_modify f hm
  have hfound : found = sys := by
    subst hlength
    simpa [hp] using hsys
  subst hfound
  exact ⟨before, after, hp, hlength, hmodify⟩

theorem Platform.update_none (h : p.merchants[m]? = none) : p.update m f = p := by
  have hlength : p.merchants.length ≤ m := List.getElem?_eq_none_iff.mp h
  simp [Platform.update, List.modify_eq_self hlength]

theorem Platform.update_inbox (added : List (String × String × Ref))
    (h : p.merchants[m]? = some sys) (hadded : (f sys).db.entries = sys.db.entries ++ added) :
    (p.update m f).inbox.Perm (p.inbox ++ added.map fun x => (x.1, m, x.2)) := by
  obtain ⟨before, after, hp, hlength, hupdate⟩ := Platform.update_eq (f := f) h
  have hcontents : contents m (f sys) = contents m sys ++ added.map fun x => (x.1, m, x.2) := by
    simp [contents, hadded]
  unfold Platform.inbox
  rw [hupdate, hp]
  simp only [List.mapIdx_append, List.mapIdx_cons, List.flatten_append, List.flatten_cons,
    Nat.zero_add, hlength, hcontents, List.append_assoc]
  exact (List.perm_append_comm.append_left _).append_left _

theorem Platform.known_iff (h : p.merchants[m]? = some sys) (id : String) :
    id ∈ sys.db.entries.map Prod.fst ++ (p.others m).eventIds ↔ id ∈ p.inbox.map Prod.fst := by
  obtain ⟨hm, rfl⟩ := List.getElem?_eq_some_iff.mp h
  have hkeys : p.inbox.map Prod.fst =
      p.merchants.flatMap fun sys => sys.db.events.map (·.providerEventId) := by
    have hmap : (p.merchants.mapIdx contents).map (List.map Prod.fst) =
        p.merchants.map fun sys => sys.db.events.map (·.providerEventId) := by
      apply List.ext_getElem
      · simp
      · intro i hi hi'
        simp [contents_keys]
    rw [Platform.inbox, List.map_flatten, hmap, List.flatMap_def]
  have hperm := (List.getElem_cons_eraseIdx_perm hm).flatMap_right
    fun sys => sys.db.events.map (·.providerEventId)
  rw [hkeys, ← hperm.mem_iff, List.flatMap_cons, Database.entries_keys]
  simp [Platform.others]

theorem Platform.step_inbox (step : Step) :
    (p.step r step).inbox.Perm
      (p.inbox ++ firsts (p.inbox.map Prod.fst) (p.inserting step).toList) := by
  cases step with
  | deliver d =>
    have hsame : (p.deliver r d).inbox.Perm p.inbox := by
      unfold Platform.deliver
      split
      case h_1 ref eventId eventType hreceive =>
        split
        case h_1 m hfound =>
          cases hm : p.merchants[m]? with
          | none => rw [Platform.update_none hm]
          | some sys =>
            simpa using Platform.update_inbox (f := System.receives ref eventId eventType) [] hm
              (by simp [System.receives])
        case h_2 => rfl
      all_goals rfl
    simpa [Platform.step, Platform.inserting, firsts] using hsame
  | act m choice =>
    cases hm : p.merchants[m]? with
    | none =>
      simp only [Platform.step, Platform.update_none hm, ite_self]
      simp [Platform.inserting, hm, firsts]
    | some sys =>
      have hinserting : (p.inserting (.act m choice)).toList =
          (sys.inserting choice).toList.map fun x => (x.1, m, x.2) := by
        cases hinsert : sys.inserting choice <;> simp [Platform.inserting, hm, hinsert]
      by_cases hwebhook : choice.startsWebhook = true
      · have hnone : sys.inserting choice = none := by
          cases choice with
          | spawn job => rfl
          | _ => cases hwebhook
        rw [hinserting, hnone, Platform.step, if_pos hwebhook]
        simp [firsts]
      · have hstep := Platform.update_inbox (p := p)
          (f := fun sys => sys.step (choice.among (p.others m))) _ hm System.step_entries
        rw [hinserting, firsts_map (g := fun x => (m, x)), Platform.step, if_neg hwebhook]
        rwa [firsts_congr (Platform.known_iff hm)] at hstep

/-- In every run, the inboxes of all merchants together hold the first insert of each event id. -/
theorem inbox_firsts (n : ℕ) (steps : List Step) :
    (run (Platform.step r) (Platform.start n) steps).inbox.Perm
      (firsts [] (inserts (trace (Platform.step r) (Platform.start n) steps))) := by
  have hstart : (Platform.start n).inbox = [] := by
    simp [Platform.inbox, Platform.start, contents, rowless, Database.entries]
  have hrun : (run (Platform.step r) (Platform.start n) steps).inbox.Perm
      (firsts [] (inserts ([] ++ trace (Platform.step r) (Platform.start n) steps))) := by
    refine trace_history (P := fun h (p : Platform) => p.inbox.Perm (firsts [] (inserts h)))
      (C := fun _ _ => True) (by simp [hstart, inserts, firsts]) ?_ (MeetsFrom.of_forall ?_ _)
    · intro h p step hp _
      have hnext : inserts (h ++ [transition (Platform.step r) p step]) =
          inserts h ++ (p.inserting step).toList := by
        cases hi : p.inserting step <;> simp [inserts, transition, hi]
      rw [hnext, firsts_append, List.nil_append]
      refine (Platform.step_inbox step).trans ?_
      rw [firsts_congr fun k => (hp.map Prod.fst).mem_iff]
      exact hp.append_right _
    · exact fun _ _ => trivial
  exact hrun

end Platform

end ReviewFlow.Billing
