import ReviewFlow.Billing.Cancel

/-!
# The moves of the billing tables

`Move` lists the changes the operations make to the tables of one merchant, each
with the provider's answers that it rests on. An operation's transaction is a
path of moves, and what holds of every move holds of every operation.
-/

namespace ReviewFlow.Billing

open Savepoint

def Answered (calls : List Call) (entity : Dict) : Prop :=
  ∃ request, .subscription request (.ok entity) ∈ calls

def Invoiced (calls : List Call) (invoices : Option (List Json)) : Prop :=
  ∀ list ∈ invoices, ∃ ref, .invoices ref (.ok list) ∈ calls

def Gone (calls : List Call) (ref : Ref) : Prop :=
  (∃ entity, .subscription (.fetchSubscription ref) (.ok entity) ∈ calls ∧
    readable ref entity = true ∧ statusIn terminalProviderStatuses entity = true) ∨
  ∃ entity, .subscription (.cancelSubscription ref false) (.ok entity) ∈ calls

def CreatedBy (calls : List Call) (created : Created) : Prop :=
  created.entity.get "id" = .str created.ref.val ∧
    ∃ plan startAt expireBy,
      .subscription (.createSubscription plan startAt expireBy) (.ok created.entity) ∈ calls

section Mono

variable {a b : Journal}

theorem Answered.mono {entity : Dict} (h : Answered a.calls entity) (hab : a ≤ b) :
    Answered b.calls entity :=
  h.imp fun _ hc => Journal.mem_of_le hab hc

theorem Invoiced.mono {invoices : Option (List Json)} (h : Invoiced a.calls invoices)
    (hab : a ≤ b) : Invoiced b.calls invoices :=
  fun list hl => (h list hl).imp fun _ hc => Journal.mem_of_le hab hc

theorem Gone.mono {ref : Ref} (h : Gone a.calls ref) (hab : a ≤ b) : Gone b.calls ref :=
  h.imp (fun ⟨e, hc, h⟩ => ⟨e, Journal.mem_of_le hab hc, h⟩)
    (fun ⟨e, hc⟩ => ⟨e, Journal.mem_of_le hab hc⟩)

theorem CreatedBy.mono {created : Created} (h : CreatedBy a.calls created) (hab : a ≤ b) :
    CreatedBy b.calls created :=
  ⟨h.1, let ⟨p, x, y, hc⟩ := h.2; ⟨p, x, y, Journal.mem_of_le hab hc⟩⟩

end Mono

/-- The moves that can make the row ACTIVE or open a period. -/
inductive Entitling (calls : List Call) (db db' : Database) : Prop
  | snapshot {settings : Settings} {entity : Dict} {invoices : Option (List Json)} {started : Time}
      {sub : Subscription} {plan : Plan} {status : String} {now : Time} {r : Applied}
      (answered : Answered calls entity) (invoiced : Invoiced calls invoices)
      (done : Snapshotted settings calls entity invoices started sub plan status now r db db')
  | switched {settings : Settings} {entity : Dict} {invoices : Option (List Json)} {started : Time}
      {sub : Subscription} {plan : Plan} {status : String} {start stop : Time}
      (answered : Answered calls entity) (invoiced : Invoiced calls invoices)
      (done : Switched settings entity invoices started sub plan status start stop db db')

inductive Tending (calls : List Call) (db db' : Database) : Prop
  | retires {sub sub' : Subscription} (done : Retires calls sub sub' db db')
  | committed {sub : Subscription} {now : Time} (candidate : commitCandidate sub = true)
      (done : Stored sub { sub with replacementCommittedAt := some now } db db')
  | uncommitted {sub : Subscription}
      (done : Stored sub { sub with replacementCommittedAt := none } db db')
  | undone {sub sub' : Subscription} (before : db.sub? = some sub)
      (row : Abandons calls { sub with replacementCommittedAt := none } sub')
      (after : db'.sub? = some sub') (usage : db'.usage = db.usage)
      (events : Marked (fun e => sub.replacementProviderRef = some e.providerRef) db.events
        db'.events)
  | retiredCleared {ref : Ref} {sub : Subscription} (gone : Gone calls ref)
      (done : RetiredCleared ref sub db db')
  | plain {sub sub' : Subscription} (done : Plain sub sub' db db')

inductive Quiet (calls : List Call) (db db' : Database) : Prop
  | tending (done : Tending calls db db')
  | stored {sub : Subscription} {plan : Plan} {created : Created} (inactive : sub.status ≠ .active)
      (fresh : CreatedBy calls created) (gone : ∀ ref ∈ sub.paymentProviderRef, Gone calls ref)
      (done : Stored sub (newlyStored sub plan created) db db')
  | inserted (plan : Plan) (absent : db.subscription = none)
      (after : db' = { db with subscription := some (freshRow plan) })

/-- A new replacement for an ACTIVE row. The row may hold another one: only the
operation knows. -/
inductive Starting (calls : List Call) (db db' : Database) : Prop
  | intro {sub : Subscription} {plan : Plan} {kind : ReplacementKind} {created : Created}
      {expiresAt : Time} (active : sub.status = .active) (free : sub.retiredProviderRef = none)
      (fresh : CreatedBy calls created)
      (done : Stored sub (withReplacement sub plan kind created.ref expiresAt) db db')

def Move (calls : List Call) (db db' : Database) : Prop :=
  Entitling calls db db' ∨ Quiet calls db db'

theorem Entitling.mono {a b : Journal} {db db' : Database} (h : Entitling a.calls db db')
    (hab : a ≤ b) : Entitling b.calls db db' := by
  cases h with
  | snapshot answered invoiced done =>
    exact .snapshot (answered.mono hab) (invoiced.mono hab) (done.mono hab)
  | switched answered invoiced done =>
    exact .switched (answered.mono hab) (invoiced.mono hab) done

theorem Tending.mono {a b : Journal} {db db' : Database} (h : Tending a.calls db db')
    (hab : a ≤ b) : Tending b.calls db db' := by
  cases h with
  | retires done => exact .retires { done with row := done.row.mono hab }
  | committed candidate done => exact .committed candidate done
  | uncommitted done => exact .uncommitted done
  | undone before row after usage events => exact .undone before (row.mono hab) after usage events
  | retiredCleared gone done => exact .retiredCleared (gone.mono hab) done
  | plain done => exact .plain done

theorem Quiet.mono {a b : Journal} {db db' : Database} (h : Quiet a.calls db db') (hab : a ≤ b) :
    Quiet b.calls db db' := by
  cases h with
  | tending done => exact .tending (done.mono hab)
  | stored inactive fresh gone done =>
    exact .stored inactive (fresh.mono hab) (fun ref hr => (gone ref hr).mono hab) done
  | inserted plan absent after => exact .inserted plan absent after

theorem Move.mono {a b : Journal} {db db' : Database} (h : Move a.calls db db') (hab : a ≤ b) :
    Move b.calls db db' :=
  h.imp (fun he => Entitling.mono he hab) (fun hq => Quiet.mono hq hab)

def Database.payment? (db : Database) : Option Ref := db.sub?.bind (·.paymentProviderRef)

def Database.Active (db : Database) : Prop := ∃ sub, db.sub? = some sub ∧ sub.status = .active

def Database.CommittedTo (db : Database) (ref : Ref) : Prop :=
  ∃ sub, db.sub? = some sub ∧ sub.replacementProviderRef = some ref ∧
    sub.replacementCommittedAt.isSome = true

def Steady (db db' : Database) : Prop := ∀ ref, db.CommittedTo ref → db'.CommittedTo ref

def Keeping (calls : List Call) : Database → Database → Prop :=
  Relation.ReflTransGen fun a b => Move calls a b ∧ b.payment? = a.payment? ∧ Steady a b

def QuietPath (calls : List Call) : Database → Database → Prop :=
  Relation.ReflTransGen fun a b => Quiet calls a b ∧ Steady a b

/-- The last part of a course: moves that leave the payment reference, or quiet ones from
a row that is not ACTIVE. -/
def CourseTail (calls : List Call) (mid db' : Database) : Prop :=
  Keeping calls mid db' ∨ (¬ mid.Active ∧ QuietPath calls mid db')

/-- What one operation does in one transaction: at most one move of any kind, and then a
tail or a new replacement. -/
def Course (calls : List Call) (db db' : Database) : Prop :=
  ∃ mid, (mid = db ∨ Move calls db mid) ∧ (CourseTail calls mid db' ∨ Starting calls mid db')

theorem Steady.refl (db : Database) : Steady db db := fun _ h => h

theorem Steady.trans {a b c : Database} (h : Steady a b) (h' : Steady b c) : Steady a c :=
  fun ref hr => h' ref (h ref hr)

theorem Steady.of_uncommitted {db : Database} {sub : Subscription} (db' : Database)
    (h : db.sub? = some sub) (hn : sub.replacementCommittedAt = none) : Steady db db' := by
  rintro ref ⟨x, hx, -, hc⟩
  rw [h] at hx
  cases hx
  rw [hn] at hc
  cases hc

theorem Steady.of_row {db db' : Database} {sub sub' : Subscription} (h : db.sub? = some sub)
    (h' : db'.sub? = some sub')
    (hr : sub'.replacementProviderRef = sub.replacementProviderRef)
    (hc : sub.replacementCommittedAt.isSome = true → sub'.replacementCommittedAt.isSome = true) :
    Steady db db' := by
  rintro ref ⟨x, hx, hxr, hxc⟩
  rw [h] at hx
  cases hx
  exact ⟨sub', h', hr.trans hxr, hc hxc⟩

theorem SameSlots.steady {db db' : Database} {sub sub' : Subscription} (hs : SameSlots sub sub')
    (h : db.sub? = some sub) (h' : db'.sub? = some sub') : Steady db db' :=
  .of_row h h' hs.replacement fun hc => hs.committed ▸ hc

theorem Plain.steady {db db' : Database} {sub sub' : Subscription} (h : Plain sub sub' db db') :
    Steady db db' :=
  h.slots.steady h.before h.after

theorem Snapshotted.steady {settings : Settings} {calls : List Call} {entity : Dict}
    {invoices : Option (List Json)} {started : Time} {sub : Subscription} {plan : Plan}
    {status : String} {now : Time} {r : Applied} {db db' : Database}
    (h : Snapshotted settings calls entity invoices started sub plan status now r db db') :
    Steady db db' := by
  have ho := statusOutcome_slots sub entity invoices plan status now
  rcases h.row with hr | ⟨-, -, hn, -⟩
  · exact SameSlots.steady (ho.trans ⟨by rw [← hr]; rfl, by rw [← hr]; rfl, by rw [← hr]; rfl,
      by rw [← hr]; rfl⟩) h.before h.after
  · exact .of_uncommitted db' h.before (ho.committed ▸ hn)

theorem Keeping.steady {calls : List Call} {db db' : Database} (h : Keeping calls db db') :
    Steady db db' := by
  induction h with
  | refl => exact .refl db
  | tail _ hm ih => exact ih.trans hm.2.2

theorem QuietPath.steady {calls : List Call} {db db' : Database} (h : QuietPath calls db db') :
    Steady db db' := by
  induction h with
  | refl => exact .refl db
  | tail _ hm ih => exact ih.trans hm.2

theorem Keeping.mono {a b : Journal} {db db' : Database} (h : Keeping a.calls db db')
    (hab : a ≤ b) : Keeping b.calls db db' :=
  Relation.ReflTransGen.mono (fun _ _ hm => ⟨Move.mono hm.1 hab, hm.2⟩) _ _ h

theorem QuietPath.mono {a b : Journal} {db db' : Database} (h : QuietPath a.calls db db')
    (hab : a ≤ b) : QuietPath b.calls db db' :=
  Relation.ReflTransGen.mono (fun _ _ hm => ⟨Quiet.mono hm.1 hab, hm.2⟩) _ _ h

theorem CourseTail.steady {calls : List Call} {mid db' : Database} (h : CourseTail calls mid db') :
    Steady mid db' :=
  h.elim Keeping.steady fun hq => hq.2.steady

theorem Course.of_keeping {calls : List Call} {db db' : Database} (h : Keeping calls db db') :
    Course calls db db' :=
  ⟨db, Or.inl rfl, Or.inl (Or.inl h)⟩

theorem Course.refl (calls : List Call) (db : Database) : Course calls db db :=
  .of_keeping Relation.ReflTransGen.refl

end ReviewFlow.Billing
