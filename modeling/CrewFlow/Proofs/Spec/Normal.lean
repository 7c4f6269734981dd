import Mathlib
import CrewFlow.Proofs.Spec.Keyed
/-!
# Documents in their one shape

What a document in its one shape has under each key, by what it had there before. Validation looks at
these keys only.
-/
set_option autoImplicit false

namespace CrewFlow.Spec

open Json (Fields Value)

section Shape
variable {fields : Fields}

theorem get?_changeField_self {field : String} {change : Value → Value} :
    (changeField field change fields).get? field = (fields.get? field).map change := by
  unfold changeField
  split
  · next v found => rw [Fields.get?_insert, if_pos rfl, found, Option.map_some]
  · next missing => rw [missing, Option.map_none]

def crewsOf (fields : Fields) : Option Value :=
  ((fields.get? "crews").filter fun v => !v.isNull).or
    (((fields.get? "crew").map crewList).or (fields.get? "crews"))

theorem get?_crews_withCrews : (withCrews fields).get? "crews" = crewsOf fields := by
  unfold withCrews crewsOf
  cases single : fields.get? "crew" with
  | none =>
      cases all : fields.get? "crews" with
      | none => simp
      | some v => cases v <;> simp [Option.filter, Value.isNull]
  | some crew =>
      cases all : fields.get? "crews" with
      | none => simp [Fields.get?_insert]
      | some v =>
          cases v <;> simp [Fields.get?_insert, Fields.get?_erase, all, Option.filter, Value.isNull]

theorem get?_agents_normalize :
    (normalize fields).get? "agents" = (fields.get? "agents").map (mapEntries (listDefault "tools")) := by
  simp only [normalize]
  rw [get?_changeField (by decide), get?_changeField (by decide), get?_changeField (by decide),
    get?_changeField_self, get?_withCrews (by decide) (by decide), get?_withName (by decide)]

theorem get?_tasks_normalize :
    (normalize fields).get? "tasks" =
      (fields.get? "tasks").map (mapEntries fun task => listDefault "context" (listDefault "tools" task)) := by
  simp only [normalize]
  rw [get?_changeField (by decide), get?_changeField (by decide), get?_changeField_self,
    get?_changeField (by decide), get?_withCrews (by decide) (by decide), get?_withName (by decide)]

theorem get?_methods_normalize :
    (normalize fields).get? "flow_methods" =
      (fields.get? "flow_methods").map fun v => mapEntries (listDefault "listen_to") (methodList v) := by
  simp only [normalize]
  rw [get?_changeField_self, get?_changeField_self, get?_changeField (by decide), get?_changeField (by decide),
    get?_withCrews (by decide) (by decide), get?_withName (by decide), Option.map_map]
  rfl

theorem get?_crews_normalize : (normalize fields).get? "crews" = crewsOf fields := by
  simp only [normalize]
  repeat rw [get?_changeField (by decide)]
  rw [get?_crews_withCrews, crewsOf, crewsOf, get?_withName (by decide), get?_withName (by decide)]

theorem get?_name_normalize :
    (normalize fields).get? "name" = ((documentName? fields).map Value.str).or (fields.get? "name") := by
  simp only [normalize]
  repeat rw [get?_changeField (by decide)]
  rw [get?_withCrews (by decide) (by decide), withName]
  cases documentName? fields with
  | none => rfl
  | some name => simp [Fields.get?_insert]

theorem get?_crew_normalize : (normalize fields).get? "crew" = none := by
  simp only [normalize]
  repeat rw [get?_changeField (by decide)]
  rw [withCrews]
  split
  · next missing => exact missing
  · split <;> simp [Fields.get?_insert, Fields.get?_erase]

def shapedKeys : List String := ["name", "crew", "crews", "agents", "tasks", "flow_methods"]

theorem get?_normalize {key : String} (other : key ∉ shapedKeys) :
    (normalize fields).get? key = fields.get? key := by
  simp only [shapedKeys, List.mem_cons, List.not_mem_nil, or_false, not_or] at other
  obtain ⟨name, crew, crews, agents, tasks, methods⟩ := other
  simp only [normalize]
  rw [get?_changeField methods, get?_changeField methods, get?_changeField tasks, get?_changeField agents,
    get?_withCrews crew crews, get?_withName name]

theorem get?_listDefault {key other : String} (apart : other ≠ key) :
    (listDefault key fields).get? other = fields.get? other := by
  unfold listDefault
  split
  · rw [Fields.get?_insert, if_neg apart]
  · rw [Fields.get?_insert, if_neg apart]
  · rw [Fields.get?_insert, if_neg apart]
  · rfl

end Shape

/-! ## Checking by lookups -/

section Lookups
variable {fields other : Fields}

theorem check_of_readMapping {text : String} (read : readMapping text = .ok fields) (wish : Option String) :
    check text wish =
      (orchestrationOf fields wish).bind fun orchestration => validate ⟨normalize fields, orchestration⟩ := by
  rw [check, parse, read]
  cases kind : orchestrationOf fields wish <;> simp [kind, bind, Except.bind, pure, Except.pure]

theorem orchestrationOf_congr (same : other.get? "orchestration_type" = fields.get? "orchestration_type")
    (wish : Option String) : orchestrationOf other wish = orchestrationOf fields wish := by
  simp only [orchestrationOf, same]

theorem documentName?_congr (name : other.get? "name" = fields.get? "name")
    (flow : other.get? "flow" = fields.get? "flow") : documentName? other = documentName? fields := by
  simp only [documentName?, name, flow]

theorem sectionItems_congr {s : Section} (same : other.get? s.key = fields.get? s.key) :
    sectionItems s other = sectionItems s fields := by
  simp only [sectionItems, same]

theorem readCrews_congr (same : other.get? Section.crews.key = fields.get? Section.crews.key)
    (agents : List AgentSpec) (tasks : List TaskSpec) :
    readCrews agents tasks other = readCrews agents tasks fields := by
  rw [readCrews, readCrews, sectionItems_congr same]

theorem readState_congr (same : other.get? Section.state.key = fields.get? Section.state.key) :
    readState other = readState fields := by
  simp only [readState, same]

theorem readMethods_congr (same : other.get? Section.methods.key = fields.get? Section.methods.key)
    (crews : List CrewSpec) (state : List FieldSpec) :
    readMethods crews state other = readMethods crews state fields := by
  simp only [readMethods, same]

/-- Documents in which validation finds the same, whatever they say elsewhere. -/
structure Alike (fields other : Fields) : Prop where
  agents : other.get? Section.agents.key = fields.get? Section.agents.key
  tasks : other.get? Section.tasks.key = fields.get? Section.tasks.key
  crews : ∀ agents tasks, readCrews agents tasks other = readCrews agents tasks fields
  name : other.get? "name" = fields.get? "name"
  state : other.get? Section.state.key = fields.get? Section.state.key
  methods : other.get? Section.methods.key = fields.get? Section.methods.key

theorem validate_congr (alike : Alike fields other) (orchestration : Orchestration) :
    validate ⟨other, orchestration⟩ = validate ⟨fields, orchestration⟩ := by
  have agents : readAgents other = readAgents fields := by
    simp only [readAgents, sectionItems_congr alike.agents]
  have tasks : readTasks other = readTasks fields := by
    simp only [readTasks, sectionItems_congr alike.tasks]
  have checks : checkDocument ⟨other, orchestration⟩ = checkDocument ⟨fields, orchestration⟩ := by
    simp only [checkDocument, agents, tasks, alike.crews, alike.name, readState_congr alike.state,
      readMethods_congr alike.methods]
  rw [validate, validate, checks]

end Lookups

end CrewFlow.Spec
