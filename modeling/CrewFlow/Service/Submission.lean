import CrewFlow.Json.Printer
import CrewFlow.Service.Form
import CrewFlow.Text.Template
/-!
# Submissions

A submission asks for the run of a document. Its parameters and its input are the placeholder values
of the run.
-/
namespace CrewFlow.Service

open Json (Value Fields)
open Text (Inputs)

/-- A request to run a document. `wish` is the kind of workflow that is asked for. -/
structure Submission where
  document : String
  input : Option String
  parameters : Fields
  workflowId : Option String
  wish : Option String
  deriving Repr

def inputName : String := "user_input"

namespace Submission

def form : Form :=
  [⟨"spec", .text, true⟩, ⟨"input", .optionalText, false⟩, ⟨"parameters", .mapping, false⟩,
    ⟨"workflow_id", .optionalText, false⟩, ⟨"orchestration_type", .optionalText, false⟩]

def ofFields (fields : Fields) : Submission where
  document := ((fields.get? "spec").bind Value.text?).getD ""
  input := (fields.get? "input").bind Value.text?
  parameters := ((fields.get? "parameters").bind Value.fields?).getD []
  workflowId := (fields.get? "workflow_id").bind Value.text?
  wish := (fields.get? "orchestration_type").bind Value.text?

def ofValue? (v : Value) : Option Submission := (form.ofValue? v).map ofFields

def read (text : String) : Except FormFault Submission := (form.read text).map ofFields

/-- The workflow that a submission belongs to: the one it names, else its parameter `workflow_id`. -/
def effectiveWorkflowId (s : Submission) : Option String :=
  match s.workflowId, s.parameters.get? "workflow_id" with
  | some id, _ => some id
  | none, some .null => none
  | none, some v => some v.plainText
  | none, none => none

/-- The placeholder values of a run. The input wins over a parameter of its name. -/
def inputs (s : Submission) : Inputs :=
  let given := s.parameters.map fun p => (p.1, p.2.plainText)
  match s.input with
  | some text => Inputs.put given inputName text
  | none => given

end Submission

end CrewFlow.Service
