import ReviewFlow.Interleaving
import ReviewFlow.RowLocks

/-!
# The submission of a template

The runs of `submit_template_to_provider` for one row, each call to Meta a step of its own. Meta
is a list that only grows. A run that raises is retried as another run, and one that crashes has
ended. The names that Meta is given are derived from the row, so nobody else submits that pair.
-/

namespace ReviewFlow.Templates

open Interleaving RowLocks

inductive Status where
  | pending
  | approved
  | rejected
  deriving DecidableEq

structure MessageTemplate where
  /-- `pk.hex`. -/
  pk : String
  language : String
  status : Status
  providerTemplateId : Option String
  deriving DecidableEq

structure MetaTemplate where
  id : String
  name : String
  language : String
  deriving DecidableEq

def providerTemplateName (template : MessageTemplate) : String := "rf_" ++ template.pk

def MessageTemplate.isOn (template : MessageTemplate) (m : MetaTemplate) : Bool :=
  m.name == providerTemplateName template && m.language == template.language

inductive Error where
  | whatsAppNotConfigured
  | providerTransientError
  | providerPermanentError
  | crashed
  deriving DecidableEq

inductive Run where
  | submitting
  /-- `submit_template` raised `ProviderPermanentError`. -/
  | refused
  /-- In the loop of `find_template_id`, with the pages read and what Meta has still to list. -/
  | finding (pages : ℕ) (unlisted : List MetaTemplate)
  /-- Before the second transaction. -/
  | recording (providerTemplateId : Option String) (status : Status)
  | done (result : Except Error Unit)

def findMaxPages : ℕ := 50

structure Submission where
  template : MessageTemplate
  stored : List MetaTemplate
  runs : List Run

def MessageTemplate.unsubmitted (template : MessageTemplate) : Bool :=
  template.status == .pending && template.providerTemplateId.isNone

def beginRun (template : MessageTemplate) (configured : Bool) : Run :=
  if template.unsubmitted = false then .done (.ok ())
  else if configured then .submitting
  else .done (.error .whatsAppNotConfigured)

/-- How the call of `submit_template` goes. -/
inductive Call where
  | answered
  /-- It fails before Meta applies it. -/
  | lost
  /-- Meta applies it, and the answer is lost. -/
  | answerLost
  deriving DecidableEq

/-- Meta accepts a template if its pair is not stored and its content is acceptable. -/
def Submission.accepts (s : Submission) (acceptable : Bool) : Bool :=
  acceptable && !s.stored.any s.template.isOn

/-- `submit_template`, with the id that Meta gives. -/
def Submission.submit (s : Submission) (acceptable : Bool) (i : ℕ) (call : Call)
    (id : String) : Submission :=
  if call = .lost then { s with runs := s.runs.set i (.done (.error .providerTransientError)) }
  else if s.accepts acceptable then
    { s with
      stored := s.stored ++ [⟨id, providerTemplateName s.template, s.template.language⟩]
      runs := s.runs.set i
        (if call = .answerLost ∨ id = "" then .done (.error .providerTransientError)
          else .recording (some id) .pending) }
  else { s with
    runs := s.runs.set i
      (if call = .answerLost then .done (.error .providerTransientError) else .refused) }

/-- The answer to one page of the list. `next` and `after` say whether these are there. -/
inductive Listing where
  | page (items : List MetaTemplate) (next after : Bool)
  | transientError
  | permanentError

/-- The pages read so far, and what Meta has to list: all that it stores when the scan begins. -/
def Run.scan (stored : List MetaTemplate) : Run → Option (ℕ × List MetaTemplate)
  | .refused => some (0, stored)
  | .finding pages unlisted => some (pages, unlisted)
  | _ => none

/-- The list is complete: the last page comes when nothing is left to list. -/
def Complete (stored unlisted items : List MetaTemplate) (next : Bool) : Prop :=
  items ⊆ stored ∧ (next = false → unlisted ⊆ items)

instance (stored unlisted items : List MetaTemplate) (next : Bool) :
    Decidable (Complete stored unlisted items next) := inferInstanceAs (Decidable (_ ∧ (_ → _)))

/-- The body of the loop of `find_template_id`. -/
def findPage (template : MessageTemplate) (pages : ℕ) (unlisted items : List MetaTemplate)
    (next after : Bool) :
    Run :=
  match items.find? template.isOn with
  | some m => if m.id = "" then .done (.error .providerTransientError)
  else .recording (some m.id) .pending
  | none =>
    if next = false then .recording none .rejected
    else if after = false then .done (.error .providerTransientError)
    else if pages + 1 = findMaxPages then .done (.error .providerTransientError)
    else .finding (pages + 1) (unlisted.filter fun m => m ∉ items)

def Submission.list (s : Submission) (i : ℕ) (run : Run) (listing : Listing) : Submission :=
  match run.scan s.stored with
  | none => s
  | some (pages, unlisted) => match listing with
    | .transientError => { s with runs := s.runs.set i (.done (.error .providerTransientError)) }
    | .permanentError => { s with runs := s.runs.set i (.done (.error .providerPermanentError)) }
    | .page items next after =>
      if Complete s.stored unlisted items next then
        { s with runs := s.runs.set i (findPage s.template pages unlisted items next after) }
      else s

def Submission.record (s : Submission) (i : ℕ) (run : Run) : Submission :=
  match run with
  | .recording providerTemplateId status => { s with
      template := if s.template.unsubmitted then { s.template with
          providerTemplateId := providerTemplateId
          status := status }
        else s.template
      runs := s.runs.set i (.done (.ok ())) }
  | _ => s

def MessageTemplate.sync (template : MessageTemplate) (approved : Bool) : MessageTemplate :=
  if template.status = .pending ∧ template.providerTemplateId.isSome = true then
    { template with status := if approved then .approved else .rejected }
  else template

inductive SubmissionChoice where
  | begin (configured : Bool)
  | submit (i : ℕ) (call : Call) (id : String)
  | list (i : ℕ) (listing : Listing)
  | record (i : ℕ)
  | crash (i : ℕ)
  | sync (approved : Bool)
  /-- Meta accepts a template of another row. -/
  | other (m : MetaTemplate)

def Submission.step (acceptable : Bool) (s : Submission) : SubmissionChoice → Submission
  | .begin configured => { s with runs := s.runs ++ [beginRun s.template configured] }
  | .submit i call id => match s.runs[i]? with
    | some .submitting => s.submit acceptable i call id
    | _ => s
  | .list i listing => match s.runs[i]? with
    | some run => s.list i run listing
    | none => s
  | .record i => match s.runs[i]? with
    | some run => s.record i run
    | none => s
  | .crash i => { s with runs := s.runs.set i (.done (.error .crashed)) }
  | .sync approved => { s with template := s.template.sync approved }
  | .other m => if s.template.isOn m then s else { s with stored := s.stored ++ [m] }

def Submission.start (pk language : String) : Submission := ⟨⟨pk, language, .pending, none⟩, [], []⟩

end ReviewFlow.Templates
