import CrewFlow.Crew.Basic
import CrewFlow.Execution.Store
import CrewFlow.Flow.Graph
import CrewFlow.Flow.State
/-!
# Walks over flow graphs

A walk begins with the start steps and goes from each step to those that it triggers: a listener when
all of its predecessors are done, or any of them, and for a router the target that it chooses. The
other targets of a router are not triggered by it. Every step is done at most once. The state is saved
after every step. Running a crew is left to a function on a world of any kind.
-/
namespace CrewFlow.Flow

open Json (Value)
open Text (Inputs)
open Execution (Snapshot)

def resultSeparator : String := "\n\n"

abbrev Runner (σ : Type) := Crew → Inputs → σ → Except ExecutionError CrewOutput × σ

def overlay (inputs : Inputs) (fields : Json.Fields) : Inputs :=
  fields.foldl (fun inputs f => inputs.put f.1 f.2.plainText) inputs

/-- The steps that are waiting, those that were done in order, the state, the last output, the saved
states and the world. -/
structure Walk (σ : Type) where
  queue : List String
  executed : List String
  state : State
  output : String
  saved : List Snapshot
  world : σ

/-- The crew with a name; of several, the last. -/
def crewOf? (crews : List Crew) (name : String) : Option Crew :=
  crews.reverse.find? fun c => c.name == name

def stepFailed (s : Step) (message : String) : ExecutionError := .flowStep s.name message

/-- The state after a crew has yielded a text: one more result, and the field that takes the text. -/
def storeResult (s : Step) (state : State) (raw : String) : Except ExecutionError State :=
  let state := state.pushResult raw
  match s.output with
  | none => .ok state
  | some field =>
    match state.setText field raw with
    | .ok state => .ok state
    | .error e =>
      .error (stepFailed s ("cannot store output in '" ++ field ++ "': " ++ e.message))

def act {σ : Type} (run : Runner σ) (crews : List Crew) (inputs : Inputs) (s : Step)
    (state : State) (world : σ) : Except ExecutionError (State × Option String) × σ :=
  match s.action with
  | .noop => (.ok (state, none), world)
  | .finalize => (.ok (state, some (resultSeparator.intercalate state.results)), world)
  | .runCrew name =>
    match crewOf? crews name with
    | none => (.error (stepFailed s ("unknown crew '" ++ name ++ "'")), world)
    | some crew =>
      match run crew (overlay inputs state.fields) world with
      | (.error e, world) => (.error (stepFailed s e.message), world)
      | (.ok result, world) =>
        ((storeResult s state result.raw).map fun state => (state, some result.raw), world)

/-- The saved form of a state: its flat view, with the output behind a joining step. -/
def savedForm (s : Step) (state : State) (output : String) : Value :=
  match s.action with
  | .finalize => .obj (state.toFields.insert "output" (.str output))
  | _ => state.toJson

/-- The target that a step chooses, and those that it suppresses. Only routers have targets. -/
def choice (s : Step) (state : State) : Option String × List String :=
  match s.router? with
  | none => (none, [])
  | some (condition, routes) =>
    let chosen := routes.choose (state.isTruthy condition)
    (chosen, routes.targets.filter fun t => some t ≠ chosen)

/-- Whether a listener may run when one of its predecessors has just been done. -/
def isReady (listener : Step) (executed : List String) : Bool :=
  match listener.trigger with
  | (after, .all) => after.all executed.contains
  | (_, .any) => true

def enqueue (executed suppressed : List String) (queue : List String) : List Step → List String
  | [] => queue
  | listener :: rest =>
    let skipped := executed.contains listener.name || queue.contains listener.name ||
      suppressed.contains listener.name
    let queue :=
      if !skipped && isReady listener executed then queue ++ [listener.name] else queue
    enqueue executed suppressed queue rest

/-- The queue after a step: the chosen target and the triggered listeners are added. -/
def queueAfter (g : Graph) (s : Step) (state : State) (executed queue : List String) :
    List String :=
  let (chosen, suppressed) := choice s state
  enqueue executed suppressed (queue ++ chosen.toList) (g.listenersOf s.name)

def remaining (g : Graph) (executed : List String) : Nat :=
  (g.stepNames.filter fun n => !executed.contains n).length

theorem Graph.step?_name {g : Graph} {name : String} {s : Step} (h : g.step? name = some s) :
    s.name = name := by
  simpa using List.find?_some h

theorem Graph.mem_stepNames_of_step? {g : Graph} {name : String} {s : Step}
    (h : g.step? name = some s) : name ∈ g.stepNames := by
  have hs : s ∈ g.steps := by simpa using List.mem_of_find?_eq_some h
  exact List.mem_map.2 ⟨s, hs, Graph.step?_name h⟩

theorem remaining_append_lt {g : Graph} {name : String} {executed : List String}
    (hmem : name ∈ g.stepNames) (hnew : executed.contains name = false) :
    remaining g (executed ++ [name]) < remaining g executed := by
  -- Over any names, so that the induction leaves the graph alone.
  have key : ∀ names : List String,
      (names.filter fun n => !(executed ++ [name]).contains n).length ≤
        (names.filter fun n => !executed.contains n).length ∧
      (name ∈ names →
        (names.filter fun n => !(executed ++ [name]).contains n).length <
          (names.filter fun n => !executed.contains n).length) := by
    intro names
    induction names with
    | nil => simp
    | cons n names ih =>
      by_cases hn : n = name
      · subst hn
        simp_all
        omega
      · by_cases hx : n ∈ executed <;> simp_all
        · exact fun h => ih.2 (h.resolve_left (fun e => hn e.symm))
        · exact fun h => ih.2 (h.resolve_left (fun e => hn e.symm))
  exact (key g.stepNames).2 hmem

namespace Walk

variable {σ : Type}

def start (g : Graph) (state : State) (world : σ) : Walk σ :=
  ⟨g.starts.map (·.name), [], state, "", [], world⟩

def completed (g : Graph) (s : Step) (w : Walk σ) (state : State) (produced : Option String)
    (world : σ) : Walk σ :=
  let state := state.mark s.name
  let output := produced.getD w.output
  let executed := w.executed ++ [s.name]
  { queue := queueAfter g s state executed w.queue
    executed, state, output
    saved := w.saved ++ [⟨state.id, s.name, savedForm s state output⟩]
    world }

def noStep (name : String) : ExecutionError := .flowStep name "step is not part of the graph"

/-- Walks until no step is waiting or one fails. -/
def run (runner : Runner σ) (crews : List Crew) (inputs : Inputs) (g : Graph) (w : Walk σ) :
    Walk σ × Option ExecutionError :=
  match _hq : w.queue with
  | [] => (w, none)
  | name :: queue =>
    -- A router queues its target without asking whether it is waiting or done already.
    if _hd : w.executed.contains name then run runner crews inputs g { w with queue }
    else
      match _hs : g.step? name with
      | none => ({ w with queue }, some (noStep name))
      | some s =>
        match act runner crews inputs s w.state w.world with
        | (.error e, world) => ({ w with queue, world }, some e)
        | (.ok (state, produced), world) =>
          run runner crews inputs g (completed g s { w with queue } state produced world)
termination_by (remaining g w.executed, w.queue.length)
decreasing_by
  · simp only [_hq, List.length_cons]
    exact Prod.Lex.right _ (Nat.lt_succ_self _)
  · refine Prod.Lex.left _ _ ?_
    have hname := Graph.step?_name _hs
    simp only [completed, hname]
    exact remaining_append_lt (Graph.mem_stepNames_of_step? _hs) (by simpa using _hd)

end Walk

def run {σ : Type} (runner : Runner σ) (crews : List Crew) (g : Graph) (inputs : Inputs)
    (state : State) (world : σ) : Walk σ × Option ExecutionError :=
  (Walk.start g state world).run runner crews inputs g

end CrewFlow.Flow
