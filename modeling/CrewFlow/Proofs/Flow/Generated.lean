import Mathlib
import CrewFlow.Flow.Graph
import CrewFlow.Proofs.Spec.WellFormed
/-!
# Graphs of workflows

A graph is whole when its steps have different names, one of them starts, and every name that a step can
send a walk to is there. The graphs of well-formed workflows are whole, be they made from methods or from
the crews alone.
-/
set_option autoImplicit false

namespace CrewFlow.Flow

open Spec (MethodSpec RouteTable Workflow)

/-- What a walk over a graph relies on: different steps, one to start with, and the targets and the crews
that steps name. -/
structure Whole (g : Graph) (crews : List String) : Prop where
  distinct : g.stepNames.Nodup
  starts : g.starts ≠ []
  targets : ∀ s ∈ g.steps, ∀ condition routes, s.router? = some (condition, routes) →
    ∀ t ∈ routes.targets, t ∈ g.stepNames
  crews : ∀ s ∈ g.steps, ∀ crew, s.action = .runCrew crew → crew ∈ crews

theorem starts_ne_nil {g : Graph} {s : Step} (member : s ∈ g.steps) (first : s.isStart = true) :
    g.starts ≠ [] := List.ne_nil_of_mem (List.mem_filter.mpr ⟨member, first⟩)

/-! ## Chains -/

/-- The name of the step that runs a crew in a chain. -/
def runName (crew : String) : String := "run_" ++ crew

theorem runName_injective : Function.Injective runName := by
  intro a b same
  have letters := congrArg String.toList same
  rw [runName, runName, String.toList_append, String.toList_append] at letters
  exact String.toList_inj.mp (List.append_cancel_left letters)

theorem runName_ne_finalizeName (crew : String) : runName crew ≠ finalizeName := by
  intro same
  have letters := congrArg (fun s => s.toList.head?) same
  simp [runName, finalizeName] at letters

theorem names_chainFrom (previous : Option String) (crews : List String) :
    (chainFrom previous crews).map (·.name) = crews.map runName ++ [finalizeName] := by
  induction crews generalizing previous with
  | nil => rfl
  | cons crew rest ih =>
      rw [chainFrom, List.map_cons, ih]
      rfl

theorem nodup_names_defaultChain {crews : List String} (distinct : crews.Nodup) :
    ((defaultChain crews).map (·.name)).Nodup := by
  rw [defaultChain, names_chainFrom]
  refine (distinct.map runName_injective).append (List.nodup_singleton _) ?_
  intro name runs last
  obtain ⟨crew, _, rfl⟩ := List.mem_map.mp runs
  exact runName_ne_finalizeName crew (List.mem_singleton.mp last)

theorem exists_start_defaultChain (crews : List String) : ∃ s ∈ defaultChain crews, s.isStart = true := by
  cases crews with
  | nil => exact ⟨_, List.mem_cons_self, rfl⟩
  | cons crew rest => exact ⟨_, List.mem_cons_self, rfl⟩

theorem mem_chainFrom {previous : Option String} {crews : List String} {s : Step}
    (member : s ∈ chainFrom previous crews) :
    s.router? = none ∧ ∀ crew, s.action = .runCrew crew → crew ∈ crews := by
  induction crews generalizing previous with
  | nil =>
      cases List.mem_singleton.mp member
      cases previous <;> exact ⟨rfl, fun crew action => by cases action⟩
  | cons first rest ih =>
      rcases List.mem_cons.mp member with rfl | later
      · refine ⟨by cases previous <;> rfl, ?_⟩
        intro crew action
        cases action
        exact List.mem_cons_self
      · obtain ⟨plain, named⟩ := ih later
        exact ⟨plain, fun crew action => List.mem_cons_of_mem _ (named crew action)⟩

theorem whole_defaultChain (name : String) {crews : List String} (distinct : crews.Nodup) :
    Whole ⟨name, defaultChain crews⟩ crews where
  distinct := nodup_names_defaultChain distinct
  starts := by
    obtain ⟨s, member, first⟩ := exists_start_defaultChain crews
    exact starts_ne_nil member first
  targets := by
    intro s member condition routes router
    rw [(mem_chainFrom member).1] at router
    cases router
  crews := fun s member => (mem_chainFrom member).2

/-! ## Declared methods -/

section Methods
variable {methods : List MethodSpec}

theorem names_declaredSteps (methods : List MethodSpec) :
    (declaredSteps methods).map (·.name) = methods.map (·.name) := by
  apply List.ext_getElem?
  intro i
  rw [declaredSteps, List.getElem?_map, List.getElem?_mapIdx, List.getElem?_map, Option.map_map]
  rfl

theorem mem_declaredSteps {s : Step} (member : s ∈ declaredSteps methods) :
    ∃ promoted, ∃ m ∈ methods, s = methodStep promoted m := by
  obtain ⟨i, below, rfl⟩ := List.mem_mapIdx.mp member
  exact ⟨_, _, List.getElem_mem below, rfl⟩

/-- A start method starts. Where there is none, the first method is made one. -/
theorem exists_start_declaredSteps (nonempty : methods ≠ []) : ∃ s ∈ declaredSteps methods, s.isStart = true := by
  by_cases declared : ∃ m ∈ methods, m.kind = .start
  · obtain ⟨m, member, start⟩ := declared
    obtain ⟨i, below, rfl⟩ := List.getElem_of_mem member
    refine ⟨_, List.mem_mapIdx.mpr ⟨i, below, rfl⟩, ?_⟩
    cases promoted : (!methods.any fun m => m.kind == .start) && i == 0 <;>
      simp [methodStep, Step.isStart, start]
  · have promoted : (!methods.any fun m => m.kind == .start) = true := by simpa using declared
    refine ⟨_, List.mem_mapIdx.mpr ⟨0, List.length_pos_iff.mpr nonempty, rfl⟩, ?_⟩
    simp [methodStep, Step.isStart, promoted]

theorem router?_methodStep {promoted : Bool} {m : MethodSpec} {condition : String} {routes : RouteTable}
    (router : (methodStep promoted m).router? = some (condition, routes)) : routes = m.routes := by
  cases promoted with
  | true => cases router
  | false =>
      cases kind : m.kind with
      | start => simp [methodStep, Step.router?, kind] at router
      | listen => simp [methodStep, Step.router?, kind] at router
      | router =>
          simp only [methodStep, Step.router?, kind] at router
          cases router
          rfl

theorem crew_methodStep {promoted : Bool} {m : MethodSpec} {crew : String}
    (action : (methodStep promoted m).action = .runCrew crew) : crew ∈ m.crew := by
  cases named : m.crew with
  | none => simp [methodStep, named] at action
  | some other => simpa [methodStep, named] using action

end Methods

theorem whole_declaredSteps (name : String) {w : Workflow} (formed : Spec.WellFormed w)
    (flow : w.orchestration = .flow) (nonempty : w.methods ≠ []) :
    Whole ⟨name, declaredSteps w.methods⟩ (w.crews.map (·.name)) where
  distinct := by
    rw [Graph.stepNames, names_declaredSteps]
    exact formed.methodNames.distinct
  starts := by
    obtain ⟨s, member, first⟩ := exists_start_declaredSteps nonempty
    exact starts_ne_nil member first
  targets := by
    intro s member condition routes router target listed
    obtain ⟨promoted, m, declared, rfl⟩ := mem_declaredSteps member
    rw [Graph.stepNames, names_declaredSteps]
    rw [router?_methodStep router] at listed
    exact ((formed.flow flow).linked m declared).routes target listed
  crews := by
    intro s member crew action
    obtain ⟨promoted, m, declared, rfl⟩ := mem_declaredSteps member
    exact ((formed.flow flow).equipped m declared).crew crew (crew_methodStep action)

/-- The graph of a well-formed flow is whole. -/
theorem whole_ofWorkflow {w : Workflow} (formed : Spec.WellFormed w) (flow : w.orchestration = .flow) :
    Whole (.ofWorkflow w) (w.crews.map (·.name)) := by
  unfold Graph.ofWorkflow
  by_cases undeclared : w.methods = []
  · rw [undeclared]
    exact whole_defaultChain _ formed.crewNames.distinct
  · rw [if_neg (by simpa using undeclared)]
    exact whole_declaredSteps _ formed flow undeclared

end CrewFlow.Flow
