import Mathlib
import CrewFlow.Proofs.Flow.Record
import CrewFlow.Proofs.Flow.Safety
/-!
# Histories of walks

A history tells what a walk has done so far: the steps in order, with the texts that their crews yielded. The
state that each step leaves behind tells the same, in its completion flags and in its results, and so do the
saved records.
-/
set_option autoImplicit false

namespace CrewFlow.Flow

open Json (Value)
open Spec (FieldSpec)
open Text (Inputs)

/-- A visit, and the text that the crew of its step yielded if the step runs one. -/
structure Deed extends Visit where
  text? : Option String

def doneNames (deeds : List Deed) : List String := deeds.map fun d => d.step.name

@[simp]
theorem doneNames_append (before after : List Deed) :
    doneNames (before ++ after) = doneNames before ++ doneNames after := List.map_append

def texts (deeds : List Deed) : List String := deeds.filterMap fun d => d.text?

@[simp]
theorem texts_append (before after : List Deed) : texts (before ++ after) = texts before ++ texts after :=
  List.filterMap_append

section Histories
variable {σ : Type} (runner : Runner σ) (crews : List Crew) (inputs : Inputs) (g : Graph)

def yielded? (w : Walk σ) (s : Step) : Option String :=
  match s.action with
  | .runCrew name => do
    let crew ← crewOf? crews name
    let result ← (runner crew (overlay inputs w.state.fields) w.world).1.toOption
    return result.raw
  | _ => none

/-- What a walk has done from one point to another. -/
inductive History (w : Walk σ) : List Deed → Walk σ → Prop where
  | nothing : History w [] w
  | leftOut {deeds : List Deed} {last next : Walk σ} (earlier : History w deeds last)
      (round : Round runner crews inputs g last none next) : History w deeds next
  | done {deeds : List Deed} {last next : Walk σ} {v : Visit} (earlier : History w deeds last)
      (round : Round runner crews inputs g last (some v) next) :
      History w (deeds ++ [⟨v, yielded? runner crews inputs last v.step⟩]) next

end Histories

section Walks
variable {σ : Type} {runner : Runner σ} {crews : List Crew} {inputs : Inputs} {g : Graph}

theorem Passage.exists_history {w last : Walk σ} {visits : List Visit}
    (passage : Passage runner crews inputs g w visits last) :
    ∃ deeds, deeds.map Deed.toVisit = visits ∧ History runner crews inputs g w deeds last := by
  induction passage with
  | here => exact ⟨[], rfl, .nothing⟩
  | @further visits last next visit earlier round ih =>
      obtain ⟨deeds, rfl, history⟩ := ih
      cases visit with
      | none => exact ⟨deeds, by simp, .leftOut history round⟩
      | some v => exact ⟨_, by simp, .done history round⟩

/-! ## What a state tells -/

/-- A state tells which of some steps were done and what crews have yielded. -/
structure Tells (id : String) (steps : List String) (deeds : List Deed) (state : State) : Prop where
  id : state.id = id
  distinct : (state.completed.map (·.1)).Nodup
  flags : ∀ name ∈ steps, state.completed.lookup name = some (decide (name ∈ doneNames deeds))
  results : state.results = texts deeds

theorem lookup_setFlag (flags : List (String × Bool)) (step other : String) (done : Bool) :
    (State.setFlag flags step done).lookup other = if other = step then some done else flags.lookup other := by
  rw [State.setFlag, Json.Fields.lookup_cons_eq, Json.Fields.lookup_filter]
  by_cases same : other = step <;> simp [same]

theorem nodup_setFlag {flags : List (String × Bool)} (distinct : (flags.map (·.1)).Nodup) (step : String)
    (done : Bool) : ((State.setFlag flags step done).map (·.1)).Nodup := by
  rw [State.setFlag, List.map_cons, List.nodup_cons]
  refine ⟨?_, distinct.sublist (List.filter_sublist.map _)⟩
  intro member
  obtain ⟨flag, kept, same⟩ := List.mem_map.mp member
  simp [same] at kept

theorem nodup_unset (steps : List String) {flags : List (String × Bool)} (distinct : (flags.map (·.1)).Nodup) :
    ((steps.foldl (fun flags s => State.setFlag flags s false) flags).map (·.1)).Nodup := by
  induction steps generalizing flags with
  | nil => exact distinct
  | cons s rest ih => exact ih (nodup_setFlag distinct s false)

theorem lookup_unset {steps : List String} {flags : List (String × Bool)} {name : String}
    (known : name ∈ steps ∨ flags.lookup name = some false) :
    (steps.foldl (fun flags s => State.setFlag flags s false) flags).lookup name = some false := by
  induction steps generalizing flags with
  | nil => exact known.resolve_left List.not_mem_nil
  | cons s rest ih =>
      refine ih ?_
      rw [lookup_setFlag]
      by_cases here : name = s
      · exact Or.inr (if_pos here)
      · rw [if_neg here]
        exact known.imp_left fun member => (List.mem_cons.mp member).resolve_left here

theorem tells_start (id : String) (declared : List FieldSpec) (steps : List String) (workflowId : Option String) :
    Tells id steps [] (.start id declared steps workflowId) where
  id := rfl
  distinct := nodup_unset steps List.nodup_nil
  flags := fun _ member => lookup_unset (Or.inl member)
  results := rfl

theorem results_of_act {w : Walk σ} {s : Step} {next : State} {produced : Option String} {after : σ}
    (acted : act runner crews inputs s w.state w.world = (.ok (next, produced), after)) :
    next.id = w.state.id ∧ next.completed = w.state.completed ∧
      next.results = w.state.results ++ (yielded? runner crews inputs w s).toList ∧
      ((yielded? runner crews inputs w s).isSome ↔ ∃ name, s.action = .runCrew name) := by
  cases acted_of_act runner crews inputs acted with
  | idle action => simp [yielded?, action]
  | joined action => simp [yielded?, action]
  | @kept name crew result _ _ action found ran stored =>
      have yields : yielded? runner crews inputs w s = some result.raw := by
        simp [yielded?, action, found, ran, Except.toOption]
      rw [yields]
      rcases storeResult_ok stored with ⟨_, rfl⟩ | ⟨field, v, _, rfl, _⟩ <;>
        exact ⟨rfl, rfl, rfl, by simp [action]⟩

theorem tells_visit {id : String} {steps : List String} {deeds : List Deed} {w next : Walk σ} {v : Visit}
    (tells : Tells id steps deeds w.state) (round : Round runner crews inputs g w (some v) next) :
    next.state = v.state ∧ Tells id steps (deeds ++ [⟨v, yielded? runner crews inputs w v.step⟩]) v.state := by
  cases round with
  | @visit name queue s state produced world waiting fresh found acted =>
      obtain ⟨same, unmarked, results, _⟩ := results_of_act acted
      refine ⟨rfl, same.trans tells.id, nodup_setFlag (unmarked ▸ tells.distinct) s.name true, ?_, ?_⟩
      · intro name member
        rw [State.mark, lookup_setFlag, unmarked, tells.flags name member, doneNames_append]
        by_cases here : name = s.name <;> simp [doneNames, here]
      · rw [State.mark, results, tells.results, texts_append]
        rfl

section Courses
variable {id : String} {steps : List String} {w last : Walk σ} {deeds : List Deed}

theorem History.tells (first : Tells id steps [] w.state) (history : History runner crews inputs g w deeds last) :
    Tells id steps deeds last.state := by
  induction history with
  | nothing => exact first
  | leftOut earlier round ih =>
      cases round
      exact ih
  | done earlier round ih =>
      obtain ⟨same, tells⟩ := tells_visit ih round
      exact same ▸ tells

/-- Behind each step, the state tells what was done up to this step. -/
theorem History.tells_behind (first : Tells id steps [] w.state)
    (history : History runner crews inputs g w deeds last) {k : Nat} {d : Deed} (place : deeds[k]? = some d) :
    Tells id steps (deeds.take (k + 1)) d.state ∧ (d.text?.isSome ↔ ∃ crew, d.step.action = .runCrew crew) := by
  induction history with
  | nothing => simp at place
  | leftOut earlier round ih => exact ih place
  | @done deeds before next v earlier round ih =>
      -- The step in question is one of those before, or the one that was done last.
      rcases Nat.lt_trichotomy k deeds.length with inside | rfl | beyond
      · rw [List.getElem?_append_left inside] at place
        rw [List.take_append_of_le_length inside]
        exact ih place
      · rw [List.getElem?_concat_length] at place
        cases place
        rw [List.take_of_length_le (by simp)]
        refine ⟨(tells_visit (earlier.tells first) round).2, ?_⟩
        cases round with
        | visit waiting fresh found acted => exact (results_of_act acted).2.2.2
      · rw [List.getElem?_eq_none (by simp; omega)] at place
        cases place

end Courses

/-! ## What the records tell -/

/-- A record tells which of some steps were done, and what crews have yielded. -/
structure Recorded (steps : List String) (deeds : List Deed) (record : Value) : Prop where
  flags : ∀ name ∈ steps,
    record.get? (name ++ Spec.completedSuffix) = some (.bool (decide (name ∈ doneNames deeds)))
  results : record.get? "results" = some (.ofTexts (texts deeds))

theorem Tells.recorded {id : String} {steps : List String} {deeds : List Deed} {state : State}
    (tells : Tells id steps deeds state) (s : Step) (output : String) :
    Recorded steps deeds (savedForm s state output) where
  flags := by
    intro name member
    have other : ¬ (s.action = .finalize ∧ name ++ Spec.completedSuffix = "output") :=
      fun closing => flagKey_ne (by decide) closing.2
    rw [get?_savedForm, if_neg other]
    exact State.get?_toFields_flag tells.distinct (tells.flags name member)
  results := by
    rw [get?_savedForm, if_neg (by simp), State.get?_toFields_results, tells.results]

theorem History.executed_eq {w last : Walk σ} {deeds : List Deed}
    (history : History runner crews inputs g w deeds last) : last.executed = w.executed ++ doneNames deeds := by
  induction history with
  | nothing => simp [doneNames]
  | leftOut earlier round ih =>
      cases round
      exact ih
  | done earlier round ih =>
      cases round
      simp [Walk.completed, ih, doneNames]

theorem History.executed_nodup {w last : Walk σ} {deeds : List Deed} (first : w.executed.Nodup)
    (history : History runner crews inputs g w deeds last) : last.executed.Nodup := by
  induction history with
  | nothing => exact first
  | leftOut earlier round ih =>
      cases round
      exact ih
  | done earlier round ih =>
      cases round with
      | visit waiting fresh found acted =>
          obtain rfl := Graph.step?_name found
          rw [Walk.completed, List.nodup_append_comm]
          exact List.nodup_cons.mpr ⟨fresh, ih⟩

theorem act_error {s : Step} {state : State} {world after : σ} {e : ExecutionError}
    (acted : act runner crews inputs s state world = (.error e, after)) : ∃ message, e = stepFailed s message := by
  cases acted_of_act runner crews inputs acted with
  | crewless => exact ⟨_, rfl⟩
  | failed => exact ⟨_, rfl⟩
  | unkept action found ran unstored =>
      obtain ⟨field, type, cause, _, _, _, rfl⟩ := storeResult_error unstored
      exact ⟨_, rfl⟩

/-- A walk that fails does so at the step that it has come to, which has not been done. -/
theorem Halt.failed_at {w : Walk σ} {ending : Walk σ × Option ExecutionError}
    (halt : Halt runner crews inputs g w ending) {e : ExecutionError} (failure : ending.2 = some e) :
    ∃ name queue message, w.queue = name :: queue ∧ e = .flowStep name message ∧ name ∉ w.executed := by
  cases halt with
  | done nothing => cases failure
  | @missing name queue waiting fresh absent =>
      cases failure
      exact ⟨name, queue, _, waiting, rfl, fresh⟩
  | @failed name queue s e world waiting fresh found acted =>
      cases failure
      obtain ⟨message, rfl⟩ := act_error acted
      obtain rfl := Graph.step?_name found
      exact ⟨s.name, queue, message, waiting, rfl, fresh⟩

/-- A run completes no step twice, and saves one record for each that it completes, in order, under the id of
the run. Behind each step the record has the flags of the steps that were completed so far set and no other,
and the texts that crews have yielded so far as its results. A step that fails leaves no record. -/
theorem saved_history_is_executed_history (runner : Runner σ) (crews : List Crew) (inputs : Inputs) (g : Graph)
    (id : String) (declared : List FieldSpec) (workflowId : Option String) (world : σ) :
    let state := State.start id declared g.stepNames workflowId
    let ending := run runner crews g inputs state world
    ∃ deeds last, History runner crews inputs g (.start g state world) deeds last ∧
      Halt runner crews inputs g last ending ∧
      ending.1.executed = doneNames deeds ∧
      ending.1.executed.Nodup ∧
      ending.1.saved.map (·.method) = ending.1.executed ∧
      (∀ d ∈ deeds, d.text?.isSome ↔ ∃ crew, d.step.action = .runCrew crew) ∧
      (∀ k snapshot, ending.1.saved[k]? = some snapshot →
        snapshot.flowId = id ∧ Recorded g.stepNames (deeds.take (k + 1)) snapshot.state) ∧
      ∀ e, ending.2 = some e →
        ∃ name queue message, last.queue = name :: queue ∧ e = .flowStep name message ∧
          name ∉ ending.1.saved.map (·.method) := by
  intro state ending
  obtain ⟨visits, last, passage, halt⟩ := exists_halt runner crews inputs g (.start g state world)
  change Halt runner crews inputs g last ending at halt
  obtain ⟨deeds, rfl, history⟩ := passage.exists_history
  have first : Tells id g.stepNames [] state := tells_start id declared g.stepNames workflowId
  have executed : ending.1.executed = doneNames deeds := halt.executed_eq.trans history.executed_eq
  have saved : ending.1.saved = deeds.map fun d => d.toVisit.snapshot := by
    rw [halt.saved_eq.trans passage.saved_eq, List.map_map]
    rfl
  have methods : ending.1.saved.map (·.method) = ending.1.executed := by
    rw [saved, executed, List.map_map]
    rfl
  have once : ending.1.executed.Nodup := by
    rw [halt.executed_eq]
    exact history.executed_nodup List.nodup_nil
  refine ⟨deeds, last, history, halt, executed, once, methods, ?_, ?_, ?_⟩
  · intro d member
    obtain ⟨k, below, rfl⟩ := List.getElem_of_mem member
    exact (history.tells_behind first (List.getElem?_eq_getElem below)).2
  · intro k snapshot place
    rw [saved, List.getElem?_map] at place
    obtain ⟨d, there, rfl⟩ := Option.map_eq_some_iff.mp place
    have tells := (history.tells_behind first there).1
    exact ⟨tells.id, tells.recorded d.step _⟩
  · intro e failure
    obtain ⟨name, queue, message, waiting, same, fresh⟩ := halt.failed_at failure
    rw [methods, halt.executed_eq]
    exact ⟨name, queue, message, waiting, same, fresh⟩

end Walks

end CrewFlow.Flow
