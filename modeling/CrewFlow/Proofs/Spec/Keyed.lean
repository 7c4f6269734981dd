import Mathlib
import CrewFlow.Proofs.Json.Keyed
import CrewFlow.Proofs.Spec.WellFormed
/-!
# Declared state without repeated names

The state of a document that is read from a text has no name twice, so neither has the state of a
workflow that has passed validation.
-/
set_option autoImplicit false

namespace CrewFlow.Spec

open Json (Fields Value)

/-! ## Reading -/

theorem keyed_of_readMapping {text : String} {fields : Fields} (read : readMapping text = .ok fields) :
    fields.Keyed := by
  have keyed : (Value.obj fields).Keyed := by
    simp only [readMapping] at read
    cases tree : Yaml.read? text with
    | some node =>
        cases value : node.toJson with
        | error what => simp [tree, value] at read
        | ok v =>
            obtain rfl : v = .obj fields := by
              simp only [tree, value] at read
              split at read <;> simp_all
            exact Yaml.Node.keyed_of_toJson value
    | none =>
        cases value : Json.parse? text with
        | none => simp [tree, value] at read
        | some v =>
            obtain rfl : v = .obj fields := by
              simp only [tree, value] at read
              split at read <;> simp_all
            exact Json.keyed_of_parse? value
  exact keyed.fields

section Normal
variable {fields : Fields} {key : String}

theorem get?_changeField {field : String} {change : Value → Value} (other : key ≠ field) :
    (changeField field change fields).get? key = fields.get? key := by
  unfold changeField
  split
  · rw [Fields.get?_insert, if_neg other]
  · rfl

theorem get?_withName (other : key ≠ "name") : (withName fields).get? key = fields.get? key := by
  unfold withName
  split
  · rw [Fields.get?_insert, if_neg other]
  · rfl

theorem get?_withCrews (one : key ≠ "crew") (all : key ≠ "crews") :
    (withCrews fields).get? key = fields.get? key := by
  unfold withCrews
  split
  · rfl
  · split <;> simp [Fields.get?_insert, Fields.get?_erase, one, all]

theorem get?_state_normalize : (normalize fields).get? "state" = fields.get? "state" := by
  simp only [normalize]
  repeat rw [get?_changeField (by decide)]
  rw [get?_withCrews (by decide) (by decide), get?_withName (by decide)]

end Normal

/-- A document whose state has no name twice. -/
def StateNamed (doc : Parsed) : Prop :=
  ∀ decls, doc.fields.get? Section.state.key = some (.obj decls) → (decls.map (·.1)).Nodup

theorem stateNamed_of_parse {text : String} {wish : Option String} {doc : Parsed}
    (read : parse text wish = .ok doc) : StateNamed doc := by
  unfold parse at read
  cases mapping : readMapping text with
  | error e => simp [mapping, bind, Except.bind] at read
  | ok fields =>
      cases kind : orchestrationOf fields wish with
      | error e => simp [mapping, kind, bind, Except.bind] at read
      | ok orchestration =>
          simp only [mapping, kind, bind, Except.bind, pure, Except.pure] at read
          cases read
          intro decls found
          rw [Section.key, get?_state_normalize] at found
          exact ((keyed_of_readMapping mapping).of_get? found).fields.distinct

/-! ## Workflows -/

/-- A workflow that has passed validation: that of a text, or of any document whose state has no name
twice. -/
inductive Validated (w : Workflow) : Prop where
  | text {text : String} {wish : Option String} (checked : check text wish = .ok w)
  | document {doc : Parsed} (named : StateNamed doc) (accepted : validate doc = .ok w)

theorem Validated.exists_document {w : Workflow} (validated : Validated w) :
    ∃ doc, StateNamed doc ∧ validate doc = .ok w := by
  cases validated with
  | text checked =>
      obtain ⟨doc, read, accepted⟩ := validate_of_check checked
      exact ⟨doc, stateNamed_of_parse read, accepted⟩
  | document named accepted => exact ⟨_, named, accepted⟩

theorem Validated.wellFormed {w : Workflow} (validated : Validated w) : WellFormed w := by
  obtain ⟨doc, _, accepted⟩ := validated.exists_document
  exact wellFormed_of_validate accepted

theorem nodup_readState {doc : Parsed} (named : StateNamed doc) :
    ((readState doc.fields).value.map (·.name)).Nodup := by
  unfold readState
  split
  · simp
  · next decls found =>
      have given := (Option.filter_eq_some_iff.mp found).1
      exact (named decls given).sublist readFields_fit.1
  · simp

/-- The state fields of a workflow that has passed validation have different names. -/
theorem Validated.nodup_state {w : Workflow} (validated : Validated w) : (w.state.map (·.name)).Nodup := by
  obtain ⟨⟨fields, orchestration⟩, named, accepted⟩ := validated.exists_document
  obtain ⟨_, rfl⟩ := validate_clean accepted
  cases orchestration with
  | crew => exact List.nodup_nil
  | flow => exact nodup_readState named

end CrewFlow.Spec
