import Mathlib
import CrewFlow.Proofs.Flow.Notes
import CrewFlow.Proofs.Flow.Safety
/-!
# Flows without methods

Where a flow declares no methods, each crew waits for the one before it, and the joining step for the last
crew. So a walk waits for one step at a time, and the crews work in turn until one of them fails.
-/
set_option autoImplicit false

namespace CrewFlow.Flow

open Spec (Workflow)
open Text (Inputs)

/-! ## Crews in turn -/

section Turns
variable {σ : Type} (runner : Runner σ) (given : Inputs)

/-- Crews that work one after another on the same inputs, up to the first that fails: the outputs of those
before it, its error, and the world behind them. -/
def inTurn : List Crew → σ → List CrewOutput × Option ExecutionError × σ
  | [], world => ([], none, world)
  | crew :: crews, world =>
    match runner crew given world with
    | (.error e, after) => ([], some e, after)
    | (.ok output, after) =>
      let (outputs, failure, last) := inTurn crews after
      (output :: outputs, failure, last)

/-- A note is taken for each output, and for the crew that fails. -/
theorem inTurn_noting {crews : List Crew} {world after : σ} {outputs : List CrewOutput}
    {failure : Option ExecutionError} (turns : inTurn runner given crews world = (outputs, failure, after))
    (notes : List Note) :
    ∃ taken, inTurn (noting runner) given crews (world, notes) = (outputs, failure, after, notes ++ taken) ∧
      taken.map (·.crew) = crews.take (outputs.length + 1) := by
  induction crews generalizing world outputs notes with
  | nil =>
      cases turns
      exact ⟨[], by simp [inTurn], rfl⟩
  | cons crew crews ih =>
      rcases ran : runner crew given world with ⟨e | output, next⟩
      · simp only [inTurn, ran] at turns
        cases turns
        exact ⟨[⟨crew, given, .error e⟩], by simp [inTurn, noting, ran], rfl⟩
      · rcases rest : inTurn runner given crews next with ⟨others, outcome, last⟩
        simp only [inTurn, ran, rest] at turns
        cases turns
        obtain ⟨taken, later, crewsTaken⟩ := ih rest (notes ++ [⟨crew, given, .ok output⟩])
        refine ⟨⟨crew, given, .ok output⟩ :: taken, ?_, ?_⟩
        · simp [inTurn, noting, ran, later]
        · simp [crewsTaken]

end Turns

/-! ## Linked steps -/

def Linked : Option String → List Step → Prop
  | _, [] => True
  | previous, s :: rest => s.kind = chainKind previous ∧ Linked (some s.name) rest

theorem linked_chainFrom (previous : Option String) (crews : List String) :
    Linked previous (chainFrom previous crews) := by
  induction crews generalizing previous with
  | nil => exact ⟨rfl, trivial⟩
  | cons crew rest ih => exact ⟨rfl, ih _⟩

theorem listensTo_of_kind {s : Step} {previous : Option String} (kind : s.kind = chainKind previous)
    (name : String) : s.listensTo name = true ↔ previous = some name := by
  cases previous with
  | none => simp [Step.listensTo, Step.trigger, kind, chainKind]
  | some p => simp [Step.listensTo, Step.trigger, kind, chainKind, eq_comm]

theorem Linked.behind {previous : Option String} {before rest : List Step} {s : Step}
    (linked : Linked previous (before ++ s :: rest)) : Linked (some s.name) rest := by
  induction before generalizing previous with
  | nil => exact linked.2
  | cons t before ih => exact ih linked.2

theorem Linked.deaf {previous : Option String} {steps : List Step} (linked : Linked previous steps)
    {name : String} (other : previous ≠ some name) (fresh : name ∉ steps.map (·.name)) :
    steps.filter (·.listensTo name) = [] := by
  induction steps generalizing previous with
  | nil => rfl
  | cons s rest ih =>
      obtain ⟨kind, onward⟩ := linked
      rw [List.map_cons, List.mem_cons, not_or] at fresh
      have silent : ¬s.listensTo name = true := fun listens => other ((listensTo_of_kind kind name).mp listens)
      rw [List.filter_cons, if_neg silent]
      exact ih onward (fun same => fresh.1 (Option.some.inj same).symm) fresh.2

theorem Linked.listeners {previous : Option String} {before rest : List Step} {s : Step}
    (linked : Linked previous (before ++ s :: rest)) (other : previous ≠ some s.name)
    (distinct : ((before ++ s :: rest).map (·.name)).Nodup) :
    (before ++ s :: rest).filter (·.listensTo s.name) = rest.take 1 := by
  induction before generalizing previous with
  | nil =>
      obtain ⟨kind, onward⟩ := linked
      have silent : ¬s.listensTo s.name = true := fun listens => other ((listensTo_of_kind kind s.name).mp listens)
      rw [List.nil_append, List.filter_cons, if_neg silent]
      rw [List.nil_append, List.map_cons, List.nodup_cons] at distinct
      cases rest with
      | nil => rfl
      | cons t rest =>
          obtain ⟨next, further⟩ := onward
          obtain ⟨apart, fresh⟩ := not_or.mp (mt List.mem_cons.mpr distinct.1)
          rw [List.filter_cons, if_pos ((listensTo_of_kind next s.name).mpr rfl),
            further.deaf (fun same => apart (Option.some.inj same).symm) fresh]
          rfl
  | cons t before ih =>
      obtain ⟨kind, onward⟩ := linked
      rw [List.cons_append, List.map_cons, List.nodup_cons] at distinct
      have silent : ¬t.listensTo s.name = true := fun listens => other ((listensTo_of_kind kind s.name).mp listens)
      rw [List.cons_append, List.filter_cons, if_neg silent]
      refine ih onward (fun same => distinct.1 ?_) distinct.2
      rw [Option.some.inj same]
      exact List.mem_map_of_mem (List.mem_append_right before List.mem_cons_self)

theorem Linked.starts {previous : Option String} {steps : List Step} (linked : Linked previous steps) :
    steps.filter Step.isStart = if previous = none then steps.take 1 else [] := by
  induction steps generalizing previous with
  | nil => simp
  | cons s rest ih =>
      obtain ⟨kind, onward⟩ := linked
      have behind : rest.filter Step.isStart = [] := by rw [ih onward, if_neg (by simp)]
      cases previous with
      | none =>
          have starts : s.isStart = true := by simp [Step.isStart, kind, chainKind]
          rw [List.filter_cons, if_pos starts, behind]
          rfl
      | some p =>
          have waits : ¬s.isStart = true := by simp [Step.isStart, kind, chainKind]
          rw [List.filter_cons, if_neg waits, behind]
          rfl

/-! ## Walks along a chain -/

section Walks
variable {σ : Type} {runner : Runner σ} {crews : List Crew} {inputs : Inputs} {g : Graph}

/-- A walk has done the steps up to a point of a chain, and waits for the next one. -/
structure Along (g : Graph) (before rest : List Step) (w : Walk σ) : Prop where
  steps : g.steps = before ++ rest
  executed : w.executed = before.map (·.name)
  queue : w.queue = (rest.take 1).map (·.name)
  saved : w.saved.map (·.method) = w.executed

/-- What a walk along a chain relies on. -/
structure IsChain (g : Graph) : Prop where
  linked : Linked none g.steps
  distinct : g.stepNames.Nodup
  plain : ∀ s ∈ g.steps, s.router? = none

theorem step?_of_mem (distinct : g.stepNames.Nodup) {s : Step} (member : s ∈ g.steps) : g.step? s.name = some s := by
  obtain ⟨t, found⟩ := exists_step? (List.mem_map_of_mem member)
  rw [found, eq_of_mem_of_name_eq distinct (mem_steps_of_step? found) member (Graph.step?_name found)]

theorem along_start (chain : IsChain g) (state : State) (world : σ) :
    Along g [] g.steps (.start g state world) where
  steps := rfl
  executed := rfl
  queue := by rw [Walk.start, Graph.starts, chain.linked.starts, if_pos rfl]
  saved := rfl

theorem Along.fresh (chain : IsChain g) {before rest : List Step} {s : Step} {w : Walk σ}
    (along : Along g before (s :: rest) w) : s.name ∉ w.executed := by
  have distinct := chain.distinct
  rw [Graph.stepNames, along.steps, List.map_append, List.nodup_append] at distinct
  rw [along.executed]
  exact fun member => distinct.2.2 s.name member s.name List.mem_cons_self rfl

theorem Along.queueAfter (chain : IsChain g) {before rest : List Step} {s : Step} {w : Walk σ}
    (along : Along g before (s :: rest) w) (state : State) :
    queueAfter g s state (w.executed ++ [s.name]) [] = (rest.take 1).map (·.name) := by
  have member : s ∈ g.steps := along.steps ▸ List.mem_append_right before List.mem_cons_self
  have linked := chain.linked
  have distinct := chain.distinct
  rw [Graph.stepNames] at distinct
  rw [along.steps] at linked distinct
  have listeners : g.listenersOf s.name = rest.take 1 := by
    rw [Graph.listenersOf, along.steps]
    exact linked.listeners (by simp) distinct
  simp only [Flow.queueAfter, choice, chain.plain s member, listeners]
  cases rest with
  | nil => rfl
  | cons t rest =>
      have kind : t.kind = chainKind (some s.name) := linked.behind.1
      have fresh : t.name ∉ w.executed ++ [s.name] := by
        rw [along.executed, ← List.map_singleton (f := Step.name), ← List.map_append]
        rw [List.append_cons, List.map_append, List.nodup_append] at distinct
        exact fun earlier => distinct.2.2 t.name earlier t.name List.mem_cons_self rfl
      have ready : isReady t (w.executed ++ [s.name]) = true := by
        simp [isReady, Step.trigger, kind, chainKind]
      simp [enqueue, fresh, ready]

/-- The next step of a chain does not fail: the walk is one step further along it. -/
theorem Along.run_eq (chain : IsChain g) {before rest : List Step} {s : Step} {w : Walk σ}
    (along : Along g before (s :: rest) w) {state : State} {produced : Option String} {world : σ}
    (acted : act runner crews inputs s w.state w.world = (.ok (state, produced), world)) :
    ∃ next : Walk σ, w.run runner crews inputs g = next.run runner crews inputs g ∧
      Along g (before ++ [s]) rest next ∧ next.state = state.mark s.name ∧
      next.output = produced.getD w.output ∧ next.world = world := by
  have member : s ∈ g.steps := along.steps ▸ List.mem_append_right before List.mem_cons_self
  have round := Round.visit along.queue (along.fresh chain) (step?_of_mem chain.distinct member) acted
  refine ⟨_, run_of_round runner crews inputs g round, ?_, rfl, rfl, rfl⟩
  constructor
  case steps => rw [along.steps, List.append_assoc, List.singleton_append]
  case executed => simp [Walk.completed, along.executed]
  case queue => exact along.queueAfter chain _
  case saved => simp [Walk.completed, along.saved]

theorem Along.run_failed (chain : IsChain g) {before rest : List Step} {s : Step} {w : Walk σ}
    (along : Along g before (s :: rest) w) {e : ExecutionError} {world : σ}
    (acted : act runner crews inputs s w.state w.world = (.error e, world)) :
    w.run runner crews inputs g = ({ w with queue := [], world }, some e) := by
  have member : s ∈ g.steps := along.steps ▸ List.mem_append_right before List.mem_cons_self
  exact run_of_halt runner crews inputs g
    (.failed along.queue (along.fresh chain) (step?_of_mem chain.distinct member) acted)

/-- How a walk ends along which all crews have worked: their results are joined. -/
structure Joined (crews : List Crew) (outputs : List CrewOutput) (ending : Walk σ × Option ExecutionError) :
    Prop where
  ended : ending.2 = none
  everyone : outputs.length = crews.length
  executed : ending.1.executed = crews.map (fun c => runName c.name) ++ [finalizeName]
  results : ending.1.state.results = outputs.map (·.raw)
  output : ending.1.output = resultSeparator.intercalate (outputs.map (·.raw))
  saved : ending.1.saved.map (·.method) = ending.1.executed

/-- How a walk ends along which a crew has failed: in the step of this crew, behind those before it. -/
structure BrokenOff (crews : List Crew) (outputs : List CrewOutput) (e : ExecutionError)
    (ending : Walk σ × Option ExecutionError) : Prop where
  failed : ∃ crew, crews[outputs.length]? = some crew ∧
    ending.2 = some (.flowStep (runName crew.name) e.message)
  executed : ending.1.executed = (crews.take outputs.length).map fun c => runName c.name
  results : ending.1.state.results = outputs.map (·.raw)
  saved : ending.1.saved.length = outputs.length

/-- From wherever a walk has come to along a chain, the crews that are left work in turn. -/
theorem Along.run_crews (chain : IsChain g) {before : List Step} {previous : Option String}
    {done left : List Crew} {earlier outputs : List CrewOutput} {w : Walk σ}
    (along : Along g before (chainFrom previous (left.map (·.name))) w)
    (found : ∀ c ∈ left, crewOf? crews c.name = some c)
    (executed : w.executed = done.map fun c => runName c.name) (each : earlier.length = done.length)
    (results : w.state.results = earlier.map (·.raw)) {failure : Option ExecutionError} {after : σ}
    (turns : inTurn runner (overlay inputs w.state.fields) left w.world = (outputs, failure, after)) :
    (w.run runner crews inputs g).1.world = after ∧
      (failure = none → Joined (done ++ left) (earlier ++ outputs) (w.run runner crews inputs g)) ∧
      ∀ e, failure = some e → BrokenOff (done ++ left) (earlier ++ outputs) e (w.run runner crews inputs g) := by
  induction left generalizing before previous done earlier outputs w with
  | nil =>
      -- No crew is left, only the step that joins the results.
      cases turns
      have joins : act runner crews inputs ⟨finalizeName, chainKind previous, .finalize, none⟩ w.state w.world =
          (.ok (w.state, some (resultSeparator.intercalate w.state.results)), w.world) := rfl
      obtain ⟨next, ran, there, state, output, world⟩ := along.run_eq chain joins
      rw [ran, run_of_halt runner crews inputs g (.done there.queue), List.append_nil, List.append_nil]
      refine ⟨world, fun _ => ?_, by simp⟩
      constructor
      case ended => rfl
      case everyone => exact each
      case executed => rw [there.executed, List.map_append, ← along.executed, executed, List.map_singleton]
      case results => rw [state, State.mark, results]
      case output => rw [output, results, Option.getD_some]
      case saved => exact there.saved
  | cons crew left ih =>
      have here := found crew List.mem_cons_self
      rw [inTurn] at turns
      rcases answer : runner crew (overlay inputs w.state.fields) w.world with ⟨e | output, world⟩
      · simp only [answer] at turns
        cases turns
        have fails : act runner crews inputs ⟨runName crew.name, chainKind previous, .runCrew crew.name, none⟩
            w.state w.world = (.error (.flowStep (runName crew.name) e.message), after) := by
          simp [act, here, answer, stepFailed]
        rw [along.run_failed chain fails, List.append_nil]
        refine ⟨rfl, by simp, fun _ failed => ?_⟩
        cases failed
        constructor
        case failed => exact ⟨crew, by simp [each], rfl⟩
        case executed => rw [executed, each, List.take_left]
        case results => exact results
        case saved =>
          have all := congrArg List.length along.saved
          rwa [List.length_map, executed, List.length_map, ← each] at all
      · rcases rest : inTurn runner (overlay inputs w.state.fields) left world with ⟨others, outcome, last⟩
        simp only [answer, rest] at turns
        cases turns
        have works : act runner crews inputs ⟨runName crew.name, chainKind previous, .runCrew crew.name, none⟩
            w.state w.world = (.ok (w.state.pushResult output.raw, some output.raw), world) := by
          simp [act, here, answer, storeResult, Except.map]
        obtain ⟨next, ran, there, state, _, reached⟩ := along.run_eq chain works
        have fields : next.state.fields = w.state.fields := by
          rw [state]
          rfl
        rw [ran, List.append_cons done, List.append_cons earlier]
        refine ih there (fun c member => found c (List.mem_cons_of_mem crew member)) ?_ (by simp [each]) ?_
          (by rw [fields, reached, rest])
        · rw [there.executed, List.map_append, ← along.executed, executed, List.map_append]
          rfl
        · rw [state, List.map_append, ← results]
          rfl

end Walks

/-! ## Flows without methods -/

section Default
variable {w : Workflow} (undeclared : w.methods = [])
include undeclared

theorem steps_ofWorkflow : (Graph.ofWorkflow w).steps = defaultChain (w.crews.map (·.name)) := by
  rw [Graph.ofWorkflow, if_pos (by simp [undeclared])]

theorem isChain_ofWorkflow (distinct : (w.crews.map (·.name)).Nodup) : IsChain (.ofWorkflow w) := by
  have steps := steps_ofWorkflow undeclared
  constructor
  case linked => exact steps ▸ linked_chainFrom none _
  case distinct =>
    rw [Graph.stepNames, steps]
    exact nodup_names_defaultChain distinct
  case plain => exact fun _ member => (mem_chainFrom (steps ▸ member)).1

end Default

theorem crewOf?_of_mem {crews : List Crew} (distinct : (crews.map (·.name)).Nodup) {crew : Crew}
    (member : crew ∈ crews) : crewOf? crews crew.name = some crew := by
  obtain ⟨other, found⟩ := exists_crewOf? (List.mem_map_of_mem member)
  have named : other.name = crew.name := by simpa using List.find?_some found
  have built : other ∈ crews := List.mem_reverse.mp (List.mem_of_find?_eq_some found)
  rw [found, List.inj_on_of_nodup_map distinct built member named]

/-- A flow without methods lets its crews work in turn. When all of them succeed it joins their results, and
when one fails it breaks off, with nothing started behind this one. -/
theorem default_chain_runs_in_turn {w : Workflow} (undeclared : w.methods = []) (crews : List Crew)
    (built : crews.map (·.name) = w.crews.map (·.name)) (distinct : (w.crews.map (·.name)).Nodup)
    {σ : Type} (runner : Runner σ) (inputs : Inputs) (id : String) (workflowId : Option String) (world : σ)
    {outputs : List CrewOutput} {failure : Option ExecutionError} {after : σ} :
    let state := State.start id w.state (Graph.ofWorkflow w).stepNames workflowId
    let ending := run (noting runner) crews (.ofWorkflow w) inputs state (world, [])
    inTurn runner (overlay inputs state.fields) crews world = (outputs, failure, after) →
      (∃ notes, ending.1.world = (after, notes) ∧ notes.map (·.crew) = crews.take (outputs.length + 1)) ∧
        (failure = none → Joined crews outputs ending) ∧
        ∀ e, failure = some e → BrokenOff crews outputs e ending := by
  intro state ending turns
  have chain := isChain_ofWorkflow undeclared distinct
  have along := along_start chain state (world, ([] : List Note))
  rw [steps_ofWorkflow undeclared, ← built] at along
  obtain ⟨taken, noted, started⟩ := inTurn_noting runner _ turns []
  have unstarted : ([] : List CrewOutput).length = ([] : List Crew).length := rfl
  obtain ⟨reached, whole, broken⟩ := along.run_crews chain
    (fun c member => crewOf?_of_mem (built ▸ distinct) member) rfl unstarted rfl noted
  exact ⟨⟨taken, reached, started⟩, whole, broken⟩

/-- A flow over crews that declares no methods. -/
def shiftsOf (crews : List String) : Workflow where
  orchestration := .flow
  name := none
  agents := []
  tasks := []
  crews := crews.map fun name => ⟨name, [], [], .sequential, none, false⟩
  state := []
  methods := []

def shift (name : String) : Crew :=
  { name, agents := [], tasks := [], process := .sequential, manager := none, embedder := none }

/-- Crews work as long as there is work for them. -/
def working : Runner Nat := fun crew _ left =>
  match left with
  | 0 => (.error (.crew crew.name "no work"), 0)
  | left + 1 => (.ok ⟨crew.name, "done by " ++ crew.name, []⟩, left)

theorem shifts_run_in_turn :
    let ending (crews : List String) (work : Nat) :=
      run (noting working) (crews.map shift) (.ofWorkflow (shiftsOf crews)) []
        (.start "run" [] (Graph.ofWorkflow (shiftsOf crews)).stepNames none) (work, [])
    ((ending ["day", "night"] 2).1.executed = ["run_day", "run_night", "finalize"] ∧
        (ending ["day", "night"] 2).1.output = "done by day\n\ndone by night") ∧
      ((ending ["day", "night"] 1).2 =
          some (.flowStep "run_night" "crew 'night' failed: no work") ∧
        (ending ["day", "night"] 1).1.saved.length = 1) ∧
      (ending [] 0).1.executed = ["finalize"] := by
  intro ending
  refine ⟨?_, ?_, ?_⟩
  · obtain ⟨_, whole, _⟩ := default_chain_runs_in_turn (w := shiftsOf ["day", "night"]) rfl
      (["day", "night"].map shift) rfl (by decide) working [] "run" none 2 rfl
    have joined := whole rfl
    exact ⟨joined.executed, joined.output⟩
  · obtain ⟨_, _, broken⟩ := default_chain_runs_in_turn (w := shiftsOf ["day", "night"]) rfl
      (["day", "night"].map shift) rfl (by decide) working [] "run" none 1 rfl
    obtain ⟨⟨crew, last, failed⟩, _, _, saved⟩ := broken _ rfl
    cases last
    exact ⟨failed, saved⟩
  · obtain ⟨_, whole, _⟩ := default_chain_runs_in_turn (w := shiftsOf []) rfl
      ([].map shift) rfl (by decide) working [] "run" none 0 rfl
    exact (whole rfl).executed

end CrewFlow.Flow
