import Mathlib
import CrewFlow.Proofs.Flow.Generated
import CrewFlow.Proofs.Flow.Passage
/-!
# Walks over whole graphs

A walk over a whole graph never waits for a step that is not there, and never looks for a crew that is
not there. So it ends well, or in a step whose crew fails or yields a text that has no value of the type
it is stored with.
-/
set_option autoImplicit false

namespace CrewFlow.Flow

open Text (Inputs)

section Failures
variable {σ : Type} (runner : Runner σ) (crews : List Crew) (inputs : Inputs)

/-- How a step fails whose crew is there: its crew fails, or what the crew yields cannot be stored. -/
inductive CrewFailure (s : Step) (state : State) (world : σ) : ExecutionError → Prop where
  | kickoff {name : String} {crew : Crew} {e : ExecutionError} {after : σ}
      (action : s.action = .runCrew name) (found : crewOf? crews name = some crew)
      (failed : runner crew (overlay inputs state.fields) world = (.error e, after)) :
      CrewFailure s state world (.flowStep s.name e.message)
  | output {name : String} {crew : Crew} {result : CrewOutput} {after : σ} {field : String}
      {type : Spec.FieldType} {e : CoerceError} (action : s.action = .runCrew name)
      (found : crewOf? crews name = some crew)
      (ran : runner crew (overlay inputs state.fields) world = (.ok result, after))
      (stored : s.output = some field) (typed : state.types.lookup field = some type)
      (unfit : coerce type result.raw = .error e) :
      CrewFailure s state world
        (.flowStep s.name ("cannot store output in '" ++ field ++ "': " ++ e.message))

/-- A run ends well, or at the step that it has come to, because the crew of that step is there and fails
it. -/
def FailsOnlyWithCrews (g : Graph) (state : State) (world : σ) : Prop :=
  ∃ visits last, Passage runner crews inputs g (.start g state world) visits last ∧
    Halt runner crews inputs g last (run runner crews g inputs state world) ∧
    ((run runner crews g inputs state world).2 = none ∨
      ∃ s ∈ g.steps, ∃ queue e, last.queue = s.name :: queue ∧
        (run runner crews g inputs state world).2 = some e ∧
        CrewFailure runner crews inputs s last.state last.world e)

end Failures

theorem exists_crewOf? {crews : List Crew} {name : String} (member : name ∈ crews.map (·.name)) :
    ∃ crew, crewOf? crews name = some crew := by
  obtain ⟨crew, built, rfl⟩ := List.mem_map.mp member
  apply Option.isSome_iff_exists.mp
  rw [crewOf?, List.find?_isSome]
  exact ⟨crew, List.mem_reverse.mpr built, by simp⟩

theorem State.setText_error {state : State} {field raw : String} {e : CoerceError}
    (failed : state.setText field raw = .error e) :
    ∃ type, state.types.lookup field = some type ∧ coerce type raw = .error e := by
  unfold State.setText at failed
  split at failed
  · next type typed =>
      cases unfit : coerce type raw with
      | ok v => simp [unfit, bind, Except.bind, pure, Except.pure] at failed
      | error cause =>
          obtain rfl : cause = e := by simpa [unfit, bind, Except.bind] using failed
          exact ⟨type, typed, unfit⟩
  · cases failed

theorem storeResult_error {s : Step} {state : State} {raw : String} {e : ExecutionError}
    (failed : storeResult s state raw = .error e) :
    ∃ field type cause, s.output = some field ∧ state.types.lookup field = some type ∧
      coerce type raw = .error cause ∧
      e = .flowStep s.name ("cannot store output in '" ++ field ++ "': " ++ cause.message) := by
  simp only [storeResult] at failed
  split at failed
  · cases failed
  · next field stored =>
      split at failed
      · cases failed
      · next cause unset =>
          cases failed
          obtain ⟨type, typed, unfit⟩ := State.setText_error unset
          exact ⟨field, type, cause, stored, typed, unfit, rfl⟩

section Walks
variable {σ : Type} {runner : Runner σ} {crews : List Crew} {inputs : Inputs} {g : Graph}

/-- A step of a whole graph fails only with its crew. -/
theorem crewFailure_of_act (whole : Whole g (crews.map (·.name))) {s : Step} (member : s ∈ g.steps)
    {state : State} {world after : σ} {e : ExecutionError}
    (acted : act runner crews inputs s state world = (.error e, after)) :
    CrewFailure runner crews inputs s state world e := by
  cases acted_of_act runner crews inputs acted with
  | crewless action absent =>
      obtain ⟨crew, found⟩ := exists_crewOf? (whole.crews s member _ action)
      rw [absent] at found
      cases found
  | failed action found ran => exact .kickoff action found ran
  | unkept action found ran unstored =>
      obtain ⟨field, type, cause, stored, typed, unfit, rfl⟩ := storeResult_error unstored
      exact .output action found ran stored typed unfit

theorem mem_targets_of_choose {routes : Spec.RouteTable} {outcome : Bool} {target : String}
    (chosen : routes.choose outcome = some target) : target ∈ routes.targets := by
  obtain ⟨onTrue, onFalse, otherwise⟩ := routes
  simp only [Spec.RouteTable.targets, List.mem_eraseDups, List.mem_filterMap, id]
  refine ⟨some target, ?_, rfl⟩
  cases outcome <;> cases onTrue <;> cases onFalse <;> simp_all [Spec.RouteTable.choose]

theorem mem_stepNames_of_chosen {names : List String} (whole : Whole g names) {v : Visit}
    (member : v.step ∈ g.steps) {target : String} (chosen : v.chosen? = some target) :
    target ∈ g.stepNames := by
  cases router : v.step.router? with
  | none => simp [Visit.chosen?, choice, router] at chosen
  | some found =>
      obtain ⟨condition, routes⟩ := found
      simp only [Visit.chosen?, choice, router] at chosen
      exact whole.targets v.step member condition routes router target (mem_targets_of_choose chosen)

theorem Passage.queue_subset {names : List String} (whole : Whole g names) {state : State} {world : σ}
    {visits : List Visit} {last : Walk σ}
    (passage : Passage runner crews inputs g (.start g state world) visits last) :
    last.queue ⊆ g.stepNames := by
  refine passage.preserves (fun _ w => w.queue ⊆ g.stepNames) ?_ ?_
  · intro name waiting
    obtain ⟨s, first, rfl⟩ := List.mem_map.mp waiting
    exact List.mem_map_of_mem (List.mem_filter.mp first).1
  · intro before w visit next inside round
    cases round with
    | leaveOut waiting done =>
        rw [waiting] at inside
        exact fun name later => inside (List.mem_cons_of_mem _ later)
    | @visit name queue s state produced world waiting fresh found acted =>
        have member := mem_steps_of_step? found
        rw [waiting] at inside
        intro other queued
        rcases mem_queueAfter (v := ⟨s, state.mark s.name⟩) queued with old | chosen | ⟨l, listener, rfl, _⟩
        · exact inside (List.mem_cons_of_mem _ old)
        · exact mem_stepNames_of_chosen whole member chosen
        · exact List.mem_map_of_mem (mem_listenersOf.mp listener).1

theorem exists_step? {name : String} (member : name ∈ g.stepNames) : ∃ s, g.step? name = some s := by
  obtain ⟨s, inGraph, rfl⟩ := List.mem_map.mp member
  apply Option.isSome_iff_exists.mp
  rw [Graph.step?, List.find?_isSome]
  exact ⟨s, List.mem_reverse.mpr inGraph, by simp⟩

/-- A walk over a whole graph halts with nothing left to do, or at a step that fails with its crew. -/
theorem Passage.halt_of_whole (whole : Whole g (crews.map (·.name))) {state : State} {world : σ}
    {visits : List Visit} {last : Walk σ} {ending : Walk σ × Option ExecutionError}
    (passage : Passage runner crews inputs g (.start g state world) visits last)
    (halt : Halt runner crews inputs g last ending) :
    ending.2 = none ∨ ∃ s ∈ g.steps, ∃ queue e, last.queue = s.name :: queue ∧ ending.2 = some e ∧
      CrewFailure runner crews inputs s last.state last.world e := by
  cases halt with
  | done nothing => exact Or.inl rfl
  | @missing name queue waiting fresh absent =>
      have known : name ∈ g.stepNames := passage.queue_subset whole (waiting ▸ List.mem_cons_self)
      obtain ⟨s, found⟩ := exists_step? known
      rw [found] at absent
      cases absent
  | @failed name queue s e world waiting fresh found acted =>
      have member := mem_steps_of_step? found
      obtain rfl := Graph.step?_name found
      exact Or.inr ⟨s, member, queue, e, waiting, rfl, crewFailure_of_act whole member acted⟩

theorem run_fails_only_with_crews (whole : Whole g (crews.map (·.name))) (runner : Runner σ)
    (inputs : Inputs) (state : State) (world : σ) :
    FailsOnlyWithCrews runner crews inputs g state world := by
  obtain ⟨visits, last, passage, halt⟩ := exists_halt runner crews inputs g (.start g state world)
  exact ⟨visits, last, passage, halt, passage.halt_of_whole whole halt⟩

end Walks

end CrewFlow.Flow
