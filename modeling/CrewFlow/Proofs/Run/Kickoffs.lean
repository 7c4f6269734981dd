import Mathlib
import CrewFlow.Proofs.Build.Pools
import CrewFlow.Proofs.Build.Wiring
import CrewFlow.Proofs.Crew.Outputs
/-!
# Kickoffs of built crews

A crew has the tasks that its declaration lists, in the order of their numbers. A declaration may list a task
twice. The crew then takes it up twice, but yields one output for it, in the place of the first.
-/
set_option autoImplicit false

namespace CrewFlow.Run

open Build (Built Collaborators Furnished crewFrom)
open Crew (Limiters OncePerName OncePerTask Rank runAll)
open CrewFlow.Crew.Kickoff (Course)
open Rate (Allowance)
open Spec (CrewSpec Workflow)
open Text (Inputs)

/-- The tasks of a document that a crew lists, as often as it does. -/
def listed (w : Workflow) (spec : CrewSpec) : List String :=
  spec.tasks.filter fun name => (w.tasks.map (·.name)).contains name

/-- A crew takes up the tasks that its declaration lists. However crews run side by side, and whatever its
agents reply, a crew that ends well has yielded one output for each name, and one for each task exactly when
none is listed twice. -/
structure YieldsAsListed (w : Workflow) (spec : CrewSpec) (crew : Crew) : Prop where
  tasks : (crew.tasks.map (·.name)).Perm (listed w spec)
  outputs : ∀ (crews : List Crew) (inputs : Inputs) (now : Nat) (limiters : Limiters) (rank : Rank)
    (left : Allowance) (ending : Crew.Ending) (c : Nat) (out : CrewOutput),
    runAll crews inputs now limiters rank left = some ending → crews[c]? = some crew →
    ending.outcomes[c]? = some (.ok out) →
      ∃ replies k, Course (Crew.Kickoff.start crew inputs) replies k ∧ k.result? = some (.ok out) ∧
        OncePerName crew inputs replies out ∧
        (OncePerTask crew inputs replies out ↔ (listed w spec).Nodup)

/-! ## The tasks of a crew -/

theorem names_crewFrom (agents : List Agent) (tasks : List CrewTask) (embedder : Option Memory.Embedder)
    (spec : CrewSpec) : ((crewFrom agents tasks embedder spec).tasks.map (·.name)).Perm
      (spec.tasks.filter fun name => (tasks.map (·.name)).contains name) := by
  rw [← (Build.picks_taskOf? tasks spec.tasks).names]
  exact (CrewTask.inOrder_perm _).map _

/-! ## Built crews -/

section Builds
variable {m : Type → Type} [Monad m] [LawfulMonad m]

theorem furnished_of_build (c : Collaborators m) {w : Workflow} (formed : Spec.WellFormed w) :
    SatisfiesM (fun outcome => ∀ b, outcome = .ok b → ∃ own, Furnished w own b) (Build.build c w) := by
  have assembled : ∀ granted, SatisfiesM (fun outcome => ∀ b, outcome = .ok b → Furnished w granted.of b)
      (Build.assemble c w granted) := by
    intro granted
    rw [← Build.answersAs_assemble c w granted []]
    refine SatisfiesM.map (Build.notes_assemble c formed granted []) ?_
    rintro ⟨outcome, asked⟩ ⟨_, _, furnished⟩
    exact furnished
  have passing : SatisfiesM (fun _ => True) (Tool.gate c.resolve (Build.requests w)) := SatisfiesM.trivial
  refine passing.bind fun verdict _ => ?_
  cases verdict with
  | error e => exact SatisfiesM.pure nofun
  | ok granted =>
      refine (assembled granted).bind fun outcome furnished => SatisfiesM.pure fun b built => ?_
      cases outcome with
      | error e => cases built
      | ok other =>
          cases built
          exact ⟨_, furnished _ rfl⟩

theorem yieldsAsListed_of_furnished {w : Workflow} {own : Tool.Owner → List Tool.LocalTool} {b : Built}
    (formed : Spec.WellFormed w) (furnished : Furnished w own b) {spec : CrewSpec}
    {embedder : Option Memory.Embedder} : YieldsAsListed w spec (crewFrom b.agents b.tasks embedder spec) := by
  have names : b.tasks.map (·.name) = w.tasks.map (·.name) :=
    Build.map_eq_of_forall₂ (furnished.tasks.imp fun _ _ wired => wired.1)
  have tasks : ((crewFrom b.agents b.tasks embedder spec).tasks.map (·.name)).Perm (listed w spec) := by
    rw [listed, ← names]
    exact names_crewFrom b.agents b.tasks embedder spec
  refine ⟨tasks, ?_⟩
  intro crews inputs now limiters rank left ending c out ended place outcome
  have alike : ∀ t ∈ (crewFrom b.agents b.tasks embedder spec).tasks,
      ∀ t' ∈ (crewFrom b.agents b.tasks embedder spec).tasks, t'.name = t.name → t' = t := by
    intro t member t' member' same
    have distinct : (b.tasks.map (·.name)).Nodup := names ▸ formed.taskNames.distinct
    exact List.inj_on_of_nodup_map distinct (Build.crewFrom_tasks member') (Build.crewFrom_tasks member) same
  obtain ⟨inside, here⟩ := List.getElem?_eq_some_iff.mp place
  obtain ⟨within, there⟩ := List.getElem?_eq_some_iff.mp outcome
  obtain ⟨replies, k, course, result⟩ := (Crew.Timeline.coursed_of_runAll ended).get inside within
  rw [List.get_eq_getElem, here] at course
  rw [List.get_eq_getElem, there] at result
  have once := Crew.oncePerName_of_course course result
  exact ⟨replies, k, course, result, once, (once.oncePerTask_iff alike).trans tasks.nodup_iff⟩

/-- The crews of a workflow that has passed validation yield their outputs as their declarations list tasks. -/
theorem built_crews_yield_as_listed (c : Collaborators m) {w : Workflow} (validated : Spec.Validated w) :
    SatisfiesM (fun outcome => ∀ b, outcome = .ok b → List.Forall₂ (YieldsAsListed w) w.crews b.crews)
      (Build.build c w) := by
  have formed := validated.wellFormed
  refine (furnished_of_build c formed).imp fun {outcome} furnished b built => ?_
  obtain ⟨own, furnished⟩ := furnished b built
  refine furnished.crews.imp ?_
  rintro spec crew ⟨embedder, rfl⟩
  exact yieldsAsListed_of_furnished formed furnished

end Builds

def drafting : Spec.Parsed where
  fields := [
    ("agents", .arr [.obj [("role", .str "me"), ("goal", .str "look"), ("backstory", .str "me")]]),
    ("tasks", .arr [
      .obj [("name", .str "draft"), ("description", .str "Draft"), ("expected_output", .str "it")],
      .obj [("name", .str "check"), ("description", .str "Check"), ("expected_output", .str "it")]]),
    ("crews", .arr [.obj [("name", .str "us"), ("tasks", .arr [.str "draft", .str "check", .str "draft"])]])]
  orchestration := .crew

theorem drafting_named : Spec.StateNamed drafting := by
  intro decls found
  cases found

def scribe : Agent.ChatModel where
  name := "scribe"
  respond messages :=
    ⟨0, .ok (if (messages.getLast?.bind fun m => m.content.toList.head?) = some 'D' then "Final Answer: draft"
      else "Final Answer: checked")⟩

def office : Collaborators Id where
  resolve _ := .error (.config "no tools")
  modelFor _ := .ok scribe
  embedderFor := none

theorem eq_ok_of_toOption {ε α : Type} {x : Except ε α} {a : α} (given : x.toOption = some a) : x = .ok a := by
  cases x with
  | error e => cases given
  | ok other =>
      cases given
      rfl

theorem drafting_runs :
    ∃ w b crew ending out, Spec.Validated w ∧ Build.build office w = .ok b ∧ b.crews = [crew] ∧
      runAll [crew] [] 0 (Limiters.ofAgents b.agents 0) .inLine .full = some ending ∧
      ending.outcomes = [.ok out] ∧ crew.tasks.map (·.name) = ["draft", "check", "draft"] ∧
      out.tasks.map (fun o => (o.name, o.raw)) = [("draft", "draft"), ("check", "checked")] ∧
      out.raw = "checked" := by
  have evaluated : ((Spec.validate drafting).toOption.any fun w => (Build.build office w).run.toOption.any fun b =>
      b.crews.length == 1 && b.crews.all fun crew =>
        (runAll [crew] [] 0 (Limiters.ofAgents b.agents 0) .inLine .full).any fun ending =>
          ending.outcomes.length == 1 && ending.outcomes.all fun outcome => outcome.toOption.any fun out =>
            crew.tasks.map (·.name) == ["draft", "check", "draft"] &&
              out.tasks.map (fun o => (o.name, o.raw)) == [("draft", "draft"), ("check", "checked")] &&
              out.raw == "checked") = true := by
    decide +kernel
  simp only [Option.any_eq_true, Bool.and_eq_true, beq_iff_eq, List.all_eq_true] at evaluated
  obtain ⟨w, validated, b, built, one, each⟩ := evaluated
  obtain ⟨crew, alone⟩ := List.length_eq_one_iff.mp one
  obtain ⟨ending, ended, single, all⟩ := each crew (by simp [alone])
  obtain ⟨outcome, only⟩ := List.length_eq_one_iff.mp single
  obtain ⟨out, good, ⟨tasks, outputs⟩, raw⟩ := all outcome (by simp [only])
  refine ⟨w, b, crew, ending, out, .document drafting_named (eq_ok_of_toOption validated), eq_ok_of_toOption built,
    alone, ended, ?_, tasks, outputs, raw⟩
  rw [only, eq_ok_of_toOption good]

theorem drafting_yields_as_listed :
    ∃ w b crew, Spec.Validated w ∧ Build.build office w = .ok b ∧ b.crews = [crew] ∧
      ∃ ending out, runAll [crew] [] 0 (Limiters.ofAgents b.agents 0) .inLine .full = some ending ∧
        ending.outcomes = [.ok out] ∧ ∃ replies, OncePerName crew [] replies out := by
  obtain ⟨w, b, crew, ending, out, validated, built, alone, ended, outcome, _⟩ := drafting_runs
  have yields := built_crews_yield_as_listed office validated
  rw [SatisfiesM_Id_eq] at yields
  have each := yields b built
  rw [alone] at each
  obtain ⟨spec, rest, asListed, _, _⟩ := List.forall₂_cons_right_iff.mp each
  obtain ⟨replies, _, _, _, once, _⟩ := asListed.outputs [crew] [] 0 _ .inLine .full ending 0 out ended rfl
    (by rw [outcome]; rfl)
  exact ⟨w, b, crew, validated, built, alone, ending, out, ended, outcome, replies, once⟩

/-- Three tasks are listed and two outputs come back, and the text is not that of the last task. -/
theorem draft_listed_twice_yielded_once :
    ∃ w b crew ending out, Spec.Validated w ∧ Build.build office w = .ok b ∧ b.crews = [crew] ∧
      runAll [crew] [] 0 (Limiters.ofAgents b.agents 0) .inLine .full = some ending ∧
      ending.outcomes = [.ok out] ∧ crew.tasks.length = 3 ∧ out.tasks.length = 2 ∧
      crew.tasks.getLast?.map (·.name) = some "draft" ∧ (out.task? "draft").map (·.raw) = some "draft" ∧
      out.raw = "checked" := by
  obtain ⟨w, b, crew, ending, out, validated, built, alone, ended, outcome, tasks, outputs, raw⟩ := drafting_runs
  refine ⟨w, b, crew, ending, out, validated, built, alone, ended, outcome, ?_, ?_, ?_, ?_, raw⟩
  · simpa using congrArg List.length tasks
  · simpa using congrArg List.length outputs
  · rw [← List.getLast?_map, tasks]
    rfl
  · obtain ⟨first, others, same, here, _⟩ := List.map_eq_cons_iff.mp outputs
    obtain ⟨name, text⟩ := Prod.mk.inj here
    rw [CrewOutput.task?, same, List.find?_cons_of_pos (by simp [name]), Option.map_some, text]

end CrewFlow.Run
