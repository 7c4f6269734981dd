import Mathlib
import CrewFlow.Proofs.Service.Tracking
import CrewFlow.Proofs.Spec.Normal
/-!
# Names of runs

The name of a run is read off its text before anything is checked. The workflow takes its name from the
checked document, where a text counts as a name even when it is blank.
-/
set_option autoImplicit false

namespace CrewFlow.Service

open CrewFlow.Flow (Graph)
open Json (Fields Value)
open CrewFlow.Spec (Workflow documentName? shown?)
open CrewFlow.Spec.Workflow (anonymous)

/-! ## The name of a workflow -/

/-- A document whose own name is a blank text, and whose flow has no name to show either. -/
def BlanklyNamed (fields : Fields) : Prop :=
  documentName? fields = none ∧ ∃ name, fields.get? "name" = some (.str name)

theorem isBlankText_of_documentName? {fields : Fields} {name : String} (nameless : documentName? fields = none)
    (own : fields.get? "name" = some (.str name)) : Text.isBlankText name = true := by
  have hidden : shown? (some (.str name)) = none := own ▸ (Option.or_eq_none_iff.mp nameless).1
  simpa [shown?] using hidden

theorem name_of_validate {doc : Spec.Parsed} {w : Workflow} (accepted : Spec.validate doc = .ok w) :
    w.name = (doc.fields.get? "name").bind Value.text? := by
  obtain ⟨_, rfl⟩ := Spec.validate_clean accepted
  obtain ⟨fields, orchestration⟩ := doc
  cases orchestration <;> rfl

theorem name_of_check {text : String} {wish : Option String} {w : Workflow}
    (checked : Spec.check text wish = .ok w) :
    ∃ fields, Spec.readMapping text = .ok fields ∧
      w.name = (documentName? fields).or ((fields.get? "name").bind Value.text?) := by
  obtain ⟨doc, read, accepted⟩ := Spec.validate_of_check checked
  unfold Spec.parse at read
  cases mapping : Spec.readMapping text with
  | error e => simp [mapping, bind, Except.bind] at read
  | ok fields =>
      refine ⟨fields, rfl, ?_⟩
      cases kind : Spec.orchestrationOf fields wish with
      | error e => simp [mapping, kind, bind, Except.bind] at read
      | ok orchestration =>
          simp only [mapping, kind, bind, Except.bind, pure, Except.pure] at read
          cases read
          rw [name_of_validate accepted, Spec.get?_name_normalize]
          cases documentName? fields <;> rfl

/-- Peeking into a text and checking it come to one name, unless the text has only a blank one. -/
theorem peeked_eq_displayName_iff {fields : Fields} {w : Workflow}
    (named : w.name = (documentName? fields).or ((fields.get? "name").bind Value.text?)) :
    (documentName? fields).getD anonymous = w.displayName ↔ ¬BlanklyNamed fields := by
  rw [Workflow.displayName, named]
  cases shown : documentName? fields with
  | some name => simp [BlanklyNamed, shown]
  | none =>
      cases own : (fields.get? "name").bind Value.text? with
      | none =>
          refine iff_of_true rfl ?_
          rintro ⟨_, name, text⟩
          simp [text, Value.text?] at own
      | some name =>
          have text : fields.get? "name" = some (.str name) := by
            obtain ⟨v, there, spelled⟩ := Option.bind_eq_some_iff.mp own
            cases v <;> cases spelled
            exact there
          refine iff_of_false ?_ (not_not_intro ⟨shown, name, text⟩)
          -- what a run without a name is called is not blank
          rintro (rfl : anonymous = name)
          exact absurd (isBlankText_of_documentName? shown text) (by decide +kernel)

/-! ## The name of a run -/

theorem recorded_of_submit {t next : Tracker} {id : String} {s : Submission}
    (submitted : t.submit id s = .ok next) :
    next.ledger.store.record? id = some (s.pending id t.tick.1) ∧
      next.ledger.cache.get? id = some (s.pending id t.tick.1) := by
  obtain ⟨ledger, accepted, rfl⟩ := Shop.submitted_of_submit submitted
  obtain ⟨store, inserted, rfl⟩ := Execution.Ledger.submitted accepted
  constructor
  · rw [Execution.Store.record?_insert inserted id]
    exact if_pos rfl
  · rw [Execution.Cache.get?_put id]
    exact if_pos rfl

/-- A run is recorded under the name of its workflow, which is that of its graph as well, unless the document
has a blank name of its own and its flow has none. -/
theorem recorded_under_own_name_iff {s : Submission} {wish : Option String} {w : Workflow}
    (checked : Spec.check s.document wish = .ok w) {t next : Tracker} {id : String}
    (submitted : t.submit id s = .ok next) :
    ∃ fields r, Spec.readMapping s.document = .ok fields ∧
      next.ledger.store.record? id = some r ∧ next.ledger.cache.get? id = some r ∧
      (Graph.ofWorkflow w).name = w.displayName ∧ (r.name = w.displayName ↔ ¬BlanklyNamed fields) := by
  obtain ⟨fields, read, named⟩ := name_of_check checked
  obtain ⟨stored, cached⟩ := recorded_of_submit submitted
  refine ⟨fields, _, read, stored, cached, rfl, ?_⟩
  have recorded : (s.pending id t.tick.1).name = (documentName? fields).getD anonymous := by
    simp only [Submission.pending, Execution.Record.pending, Spec.peekName?, read]
    rfl
  rw [recorded]
  exact peeked_eq_displayName_iff named

/-! ## Blank names -/

/-- A submission of one crew under a heading. -/
def headed (heading : String) : Submission where
  document := heading ++ "orchestration_type: crew\n" ++
    "agents:\n- role: me\n  goal: look\n  backstory: me\n" ++
    "tasks:\n- name: t\n  description: look\n  expected_output: it\n" ++
    "crews:\n- name: us\n"
  input := none
  parameters := []
  workflowId := none
  wish := none

theorem check_of_displayName {text name : String}
    (evaluated : (Spec.check text none).toOption.map (·.displayName) = some name) :
    ∃ w, Spec.check text none = .ok w ∧ w.displayName = name := by
  cases checked : Spec.check text none with
  | error e => simp [checked, Except.toOption] at evaluated
  | ok w =>
      rw [checked] at evaluated
      exact ⟨w, rfl, Option.some_inj.mp evaluated⟩

/-- A blank name and a flow with a name. -/
def renamed : Submission := headed "name: ' '\nflow:\n  flow_name: Review\n"

/-- A blank name and nothing else. -/
def nameless : Submission := headed "name: ' '\n"

theorem renamed_recorded_under_own_name :
    ∃ (w : Workflow) (t next : Tracker) (r : Execution.Record),
      Spec.check renamed.document none = .ok w ∧ t.submit "a" renamed = .ok next ∧
      next.ledger.store.record? "a" = some r ∧ r.name = w.displayName ∧ w.displayName = "Review" := by
  have evaluated : (Spec.check renamed.document none).toOption.map (·.displayName) = some "Review" ∧
      Spec.peekName? renamed.document = some "Review" := by
    decide +kernel
  obtain ⟨w, checked, shown⟩ := check_of_displayName evaluated.1
  have submitted : Tracker.submit ⟨.empty, [], 0, 0, none⟩ "a" renamed = .ok _ := rfl
  obtain ⟨fields, r, read, stored, _, _, same⟩ := recorded_under_own_name_iff checked submitted
  refine ⟨w, _, _, r, checked, submitted, stored, same.mpr ?_, shown⟩
  have peeked : documentName? fields = some "Review" := by
    simpa only [Spec.peekName?, read] using evaluated.2
  simp [BlanklyNamed, peeked]

/-- A document with a blank name is recorded under another name than its workflow has. -/
theorem nameless_recorded_under_other_name :
    ∃ (w : Workflow) (next : Tracker) (r : Execution.Record),
      Spec.check nameless.document none = .ok w ∧
      Tracker.submit ⟨.empty, [], 0, 0, none⟩ "a" nameless = .ok next ∧
      next.ledger.store.record? "a" = some r ∧ r.name = "workflow" ∧ w.displayName = " " := by
  have evaluated : (Spec.check nameless.document none).toOption.map (·.displayName) = some " " ∧
      Spec.peekName? nameless.document = none := by
    decide +kernel
  obtain ⟨w, checked, shown⟩ := check_of_displayName evaluated.1
  have submitted : Tracker.submit ⟨.empty, [], 0, 0, none⟩ "a" nameless = .ok _ := rfl
  refine ⟨w, _, _, checked, submitted, (recorded_of_submit submitted).1, ?_, shown⟩
  simp only [Submission.pending, Execution.Record.pending, evaluated.2]
  rfl

end CrewFlow.Service
