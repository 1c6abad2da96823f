import ReviewFlow.WhatsApp.Templates

/-!
# An accepted template is never recorded as rejected

A run that Meta refused knows that the content is not acceptable or that the template is among
what the scan has still to list, so a scan that ends without it has found the content at fault.
-/

namespace ReviewFlow.Templates

open Interleaving RowLocks

def Run.Sound (acceptable : Bool) (template : MessageTemplate)
    (stored : List MetaTemplate) : Run → Prop
  | .refused => acceptable = false ∨ ∃ m ∈ stored, template.isOn m = true
  | .finding _ unlisted => acceptable = false ∨ ∃ m ∈ unlisted, template.isOn m = true
  | .recording (some id) status =>
    status = .pending ∧ ∃ m ∈ stored, template.isOn m = true ∧ m.id = id
  | .recording none status => status = .rejected ∧ acceptable = false
  | _ => True

structure Submission.Safe (acceptable : Bool) (s : Submission) : Prop where
  once : (s.stored.filter s.template.isOn).length ≤ 1
  content : ∀ m ∈ s.stored, s.template.isOn m = true → acceptable = true
  recorded : ∀ id, s.template.providerTemplateId = some id →
    ∃ m ∈ s.stored, s.template.isOn m = true ∧ m.id = id
  rejected : s.template.status = .rejected → s.template.providerTemplateId = none →
    acceptable = false
  runs : ∀ (i : ℕ) (run : Run), s.runs[i]? = some run → run.Sound acceptable s.template s.stored

section Steps

variable {acceptable : Bool} {s : Submission} {run new : Run} {i : ℕ}
    {template template' : MessageTemplate}
  {stored stored' items unlisted : List MetaTemplate} {m : MetaTemplate}

/-- What a run knows depends on the pair of the row only, and Meta forgets nothing. -/
theorem Run.Sound.mono (h : run.Sound acceptable template stored)
    (hon : template'.isOn = template.isOn)
    (hsub : stored ⊆ stored') : run.Sound acceptable template' stored' := by
  cases run with
  | refused => exact h.imp_right fun ⟨m, hm, hmatch⟩ => ⟨m, hsub hm, hon ▸ hmatch⟩
  | finding pages unlisted => exact h.imp_right fun ⟨m, hm, hmatch⟩ => ⟨m, hm, hon ▸ hmatch⟩
  | recording id status =>
    cases id with
    | none => exact h
    | some id =>
      obtain ⟨hstatus, m, hm, hmatch, hid⟩ := h
      exact ⟨hstatus, m, hsub hm, hon ▸ hmatch, hid⟩
  | submitting => trivial
  | done result => trivial

theorem Submission.Safe.set (h : s.Safe acceptable) (new : Run)
    (hnew : new.Sound acceptable s.template s.stored) :
    Submission.Safe acceptable { s with runs := s.runs.set i new } where
  once := h.once
  content := h.content
  recorded := h.recorded
  rejected := h.rejected
  runs j run hj := by
    rcases getElem?_set_cases hj with ⟨-, rfl⟩ | ⟨-, hj⟩
    · exact hnew
    · exact h.runs j run hj

theorem Submission.Safe.store (h : s.Safe acceptable)
    (hm : s.template.isOn m = true →
      acceptable = true ∧ ∀ x ∈ s.stored, s.template.isOn x = false) :
    Submission.Safe acceptable { s with stored := s.stored ++ [m] } where
  once := by
    rw [List.filter_append, List.length_append]
    by_cases hmatch : s.template.isOn m = true
    · have hnone : s.stored.filter s.template.isOn = [] :=
        List.filter_eq_nil_iff.mpr fun x hx => by simp [(hm hmatch).2 x hx]
      rw [hnone, List.length_nil, Nat.zero_add]
      exact List.length_filter_le _ [m]
    · have hnone : [m].filter s.template.isOn = [] := by simp [hmatch]
      rw [hnone]
      exact h.once
  content x hx hmatch := by
    rcases List.mem_append.mp hx with hx | hx
    · exact h.content x hx hmatch
    · rw [List.mem_singleton.mp hx] at hmatch
      exact (hm hmatch).1
  recorded id hid := by
    obtain ⟨x, hx, hmatch, hxid⟩ := h.recorded id hid
    exact ⟨x, List.mem_append_left _ hx, hmatch, hxid⟩
  rejected := h.rejected
  runs j run hj := (h.runs j run hj).mono rfl (List.subset_append_left _ _)

/-- A page of a complete list: the template is on it, or still to come, or it is not there. -/
theorem findPage_sound {pages : ℕ} {next after : Bool}
    (hcomplete : Complete stored unlisted items next)
    (h : acceptable = false ∨ ∃ m ∈ unlisted, template.isOn m = true) :
    (findPage template pages unlisted items next after).Sound acceptable template stored := by
  obtain ⟨hitems, hlast⟩ := hcomplete
  unfold findPage
  cases hfind : items.find? template.isOn with
  | some m =>
    dsimp only
    split
    · trivial
    · exact ⟨rfl, m, hitems (List.mem_of_find?_eq_some hfind), List.find?_some hfind, rfl⟩
  | none =>
    have habsent : ∀ m ∈ items, ¬ template.isOn m = true := List.find?_eq_none.mp hfind
    dsimp only
    split
    case isTrue hend =>
      refine ⟨rfl, h.resolve_right ?_⟩
      rintro ⟨m, hm, hmatch⟩
      exact habsent m (hlast hend hm) hmatch
    split
    · trivial
    split
    · trivial
    · refine h.imp_right ?_
      rintro ⟨m, hm, hmatch⟩
      have hleft : m ∉ items := fun hmem => habsent m hmem hmatch
      exact ⟨m, List.mem_filter.mpr ⟨hm, by simpa using hleft⟩, hmatch⟩

theorem submit_safe (h : s.Safe acceptable) (call : Call) (id : String) :
    (s.submit acceptable i call id).Safe acceptable := by
  unfold Submission.submit
  split
  · exact h.set (.done _) trivial
  split
  case isTrue haccepts =>
    simp only [Submission.accepts, Bool.and_eq_true, Bool.not_eq_true',
      List.any_eq_false] at haccepts
    obtain ⟨hacceptable, hnone⟩ := haccepts
    have hstored :=
      h.store (m := ⟨id, providerTemplateName s.template, s.template.language⟩) fun _ =>
      ⟨hacceptable, fun x hx => eq_false_of_ne_true (hnone x hx)⟩
    refine hstored.set _ ?_
    split
    · trivial
    · refine ⟨rfl, _, List.mem_append_right _ List.mem_cons_self, ?_, rfl⟩
      simp [MessageTemplate.isOn]
  case isFalse hrefuses =>
    refine h.set _ ?_
    split
    · trivial
    · change acceptable = false ∨ ∃ m ∈ s.stored, s.template.isOn m = true
      cases acceptable with
      | false => exact .inl rfl
      | true =>
        simp only [Submission.accepts, Bool.true_and, Bool.not_eq_true',
          Bool.not_eq_false] at hrefuses
        exact .inr (List.any_eq_true.mp hrefuses)

theorem list_safe (h : s.Safe acceptable) (hi : s.runs[i]? = some run) (listing : Listing) :
    (s.list i run listing).Safe acceptable := by
  have hrun := h.runs i run hi
  unfold Submission.list
  split
  · exact h
  case h_2 pages unlisted hscan =>
    have hleft : acceptable = false ∨ ∃ m ∈ unlisted, s.template.isOn m = true := by
      cases run with
      | refused =>
        cases hscan
        exact hrun
      | finding pages unlisted =>
        cases hscan
        exact hrun
      | submitting => cases hscan
      | recording id status => cases hscan
      | done result => cases hscan
    cases listing with
    | transientError => exact h.set (.done _) trivial
    | permanentError => exact h.set (.done _) trivial
    | page items next after =>
      dsimp only
      split
      case isTrue hcomplete => exact h.set _ (findPage_sound hcomplete hleft)
      · exact h

theorem record_safe (h : s.Safe acceptable) (hi : s.runs[i]? = some run) :
    (s.record i run).Safe acceptable := by
  have hrun := h.runs i run hi
  unfold Submission.record
  split
  case h_1 providerTemplateId status =>
    split
    · have hset : Submission.Safe acceptable { s with template := { s.template with
          providerTemplateId := providerTemplateId, status := status } } := by
        refine ⟨h.once, h.content, fun id hid => ?_, fun hstatus hid => ?_, fun j r hj => ?_⟩
        · obtain rfl : providerTemplateId = some id := hid
          exact hrun.2
        · obtain rfl : providerTemplateId = none := hid
          exact hrun.2
        · exact (h.runs j r hj).mono rfl (List.Subset.refl _)
      exact hset.set (.done _) trivial
    · exact h.set (.done _) trivial
  · exact h

theorem step_safe (s : Submission) (choice : SubmissionChoice) (h : s.Safe acceptable) :
    (s.step acceptable choice).Safe acceptable := by
  cases choice with
  | begin configured =>
    refine ⟨h.once, h.content, h.recorded, h.rejected, fun j run hj => ?_⟩
    rcases getElem?_append_singleton hj with hj | rfl
    · exact h.runs j run hj
    · unfold beginRun
      split
      · trivial
      · split <;> trivial
  | submit i call id =>
    rw [Submission.step]
    split
    · exact submit_safe h call id
    · exact h
  | list i listing =>
    rw [Submission.step]
    split
    case h_1 run hi => exact list_safe h hi listing
    · exact h
  | record i =>
    rw [Submission.step]
    split
    case h_1 run hi => exact record_safe h hi
    · exact h
  | crash i => exact h.set (.done _) trivial
  | sync approved =>
    rw [Submission.step]
    unfold MessageTemplate.sync
    split
    case isTrue hsync =>
      refine ⟨h.once, h.content, h.recorded, fun _ hid => ?_, fun j run hj => ?_⟩
      · have hsome := hsync.2
        rw [show s.template.providerTemplateId = none from hid] at hsome
        cases hsome
      · exact (h.runs j run hj).mono rfl (List.Subset.refl _)
    · exact h
  | other m =>
    rw [Submission.step]
    split
    · exact h
    case isFalse hother => exact h.store fun hmatch => absurd hmatch hother

theorem record_rejected (h : s.Safe acceptable) (hi : s.runs[i]? = some run)
    (hbefore : s.template.status = .pending)
    (hafter : (s.record i run).template.status = .rejected) :
    (s.record i run).template.providerTemplateId = none := by
  have hrun := h.runs i run hi
  unfold Submission.record at hafter ⊢
  split at hafter
  case h_1 providerTemplateId status =>
    dsimp only at hafter ⊢
    split at hafter
    case isTrue hun =>
      rw [if_pos hun]
      cases providerTemplateId with
      | none => rfl
      | some id =>
        rw [show status = .rejected from hafter] at hrun
        cases hrun.1
    · rw [hbefore] at hafter
      cases hafter
  · rw [hbefore] at hafter
    cases hafter

end Steps

theorem start_safe (acceptable : Bool) (pk language : String) :
    (Submission.start pk language).Safe acceptable where
  once := Nat.zero_le _
  content := fun _ hm => nomatch hm
  recorded := nofun
  rejected := nofun
  runs := fun i run hi => by simp [Submission.start] at hi

/-- Meta ends up with at most one template for the row, a recorded id is the id that it holds,
and where a run rejects the row Meta holds none and never will. -/
theorem submissions (acceptable : Bool) (pk language : String) (choices : List SubmissionChoice) :
    ∀ t ∈ trace (Submission.step acceptable) (.start pk language) choices,
      (t.after.stored.filter t.after.template.isOn).length ≤ 1 ∧
      (∀ id, t.after.template.providerTemplateId = some id →
        ∃ m ∈ t.after.stored, t.after.template.isOn m = true ∧ m.id = id) ∧
      (t.after.template.status = .rejected → t.after.template.providerTemplateId = none →
        ∀ m ∈ t.after.stored, t.after.template.isOn m = false) ∧
      ∀ i, t.label = .record i → t.before.template.status = .pending →
        t.after.template.status = .rejected →
        t.after.template.providerTemplateId = none := by
  intro t ht
  have hsafe : t.before.Safe acceptable := reachable_invariant (I := Submission.Safe acceptable)
    (start_safe acceptable pk language) step_safe t ht
  have hafter : t.after.Safe acceptable := by
    rw [trace_step ht]
    exact step_safe t.before t.label hsafe
  refine ⟨hafter.once, hafter.recorded, fun hstatus hid m hm => ?_,
    fun i hlabel hbefore hrejected => ?_⟩
  · by_contra hmatch
    rw [hafter.rejected hstatus hid] at hafter
    have hcontent := hafter.content m hm (eq_true_of_ne_false hmatch)
    cases hcontent
  · rw [trace_step ht, hlabel] at hrejected ⊢
    change (t.before.step acceptable (.record i)).template.status = .rejected at hrejected
    change (t.before.step acceptable (.record i)).template.providerTemplateId = none
    rw [Submission.step] at hrejected ⊢
    split at hrejected
    case h_1 run hi =>
      exact record_rejected hsafe hi hbefore hrejected
    · rw [hbefore] at hrejected
      cases hrejected

/-- The first answer is lost, and the second run finds the template on the second page. -/
def answerLost : List SubmissionChoice :=
  [.begin true, .submit 0 .answerLost "7", .other ⟨"8", "rf_b", "en"⟩, .begin true,
    .submit 1 .answered "9",
    .list 1 (.page [⟨"8", "rf_b", "en"⟩] true true),
      .list 1 (.page [⟨"7", "rf_a", "en"⟩] false false), .record 1]

theorem submissions_answerLost :
    (run (Submission.step true) (.start "a" "en") answerLost).template =
    ⟨"a", "en", .pending, some "7"⟩ ∧
      (run (Submission.step true) (.start "a" "en") answerLost).stored =
        [⟨"7", "rf_a", "en"⟩, ⟨"8", "rf_b", "en"⟩] ∧
      ∀ t ∈ trace (Submission.step true) (.start "a" "en") answerLost,
        (t.after.stored.filter t.after.template.isOn).length ≤ 1 :=
  ⟨by decide, by decide, fun t ht => (submissions true "a" "en" answerLost t ht).1⟩

end ReviewFlow.Templates
