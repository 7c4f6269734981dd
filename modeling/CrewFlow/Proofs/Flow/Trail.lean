import Mathlib
import CrewFlow.Flow.Walk
/-!
# Trails of walks

A walk over a graph goes in rounds: the name at the head of the queue is left out when its step has been
done, and else its step is visited. A trail is a whole walk, from some point to its end, with the steps
that it visits and the state that each of them leaves behind. Every run of a walk is a trail.
-/
set_option autoImplicit false

namespace CrewFlow.Flow

open Text (Inputs)

/-- A step that was done, and the state behind it. -/
structure Visit where
  step : Step
  state : State

namespace Visit

def chosen? (v : Visit) : Option String := (choice v.step v.state).1

def suppressed (v : Visit) : List String := (choice v.step v.state).2

/-- The step is a router that has the target among its routes and did not choose it. -/
def PassesOver (v : Visit) (target : String) : Prop :=
  ∃ condition routes, v.step.router? = some (condition, routes) ∧ target ∈ routes.targets ∧
    v.chosen? ≠ some target

theorem mem_suppressed_iff (v : Visit) (target : String) :
    target ∈ v.suppressed ↔ v.PassesOver target := by
  cases kind : v.step.router? with
  | none => simp [suppressed, PassesOver, choice, kind]
  | some router =>
      obtain ⟨condition, routes⟩ := router
      have unchosen : ∀ chosen : Option String,
          target ∈ routes.targets.filter (fun t => decide (some t ≠ chosen)) ↔
            target ∈ routes.targets ∧ chosen ≠ some target := by
        intro chosen
        simp only [List.mem_filter, decide_eq_true_eq, ne_eq]
        rw [eq_comm (a := some target)]
      simp only [suppressed, PassesOver, chosen?, choice, kind]
      rw [unchosen]
      constructor
      · rintro ⟨member, other⟩
        exact ⟨condition, routes, rfl, member, other⟩
      · rintro ⟨_, _, same, member, other⟩
        cases same
        exact ⟨member, other⟩

end Visit

def visitedNames (visits : List Visit) : List String := visits.map fun v => v.step.name

@[simp]
theorem visitedNames_nil : visitedNames [] = [] := rfl

@[simp]
theorem visitedNames_append (before after : List Visit) :
    visitedNames (before ++ after) = visitedNames before ++ visitedNames after := List.map_append

@[simp]
theorem visitedNames_singleton (v : Visit) : visitedNames [v] = [v.step.name] := rfl

theorem mem_visitedNames {visits : List Visit} {name : String} :
    name ∈ visitedNames visits ↔ ∃ v ∈ visits, v.step.name = name := List.mem_map

/-! ## What a step does -/

section Acts
variable {σ : Type} (runner : Runner σ) (crews : List Crew) (inputs : Inputs)

/-- What a step yields or fails with, and the world behind it. -/
inductive Acted (s : Step) (state : State) (world : σ) :
    Except ExecutionError (State × Option String) → σ → Prop where
  | idle (action : s.action = .noop) : Acted s state world (.ok (state, none)) world
  | joined (action : s.action = .finalize) :
      Acted s state world (.ok (state, some (resultSeparator.intercalate state.results))) world
  | crewless {name : String} (action : s.action = .runCrew name) (absent : crewOf? crews name = none) :
      Acted s state world (.error (stepFailed s ("unknown crew '" ++ name ++ "'"))) world
  | failed {name : String} {crew : Crew} {e : ExecutionError} {after : σ} (action : s.action = .runCrew name)
      (found : crewOf? crews name = some crew)
      (ran : runner crew (overlay inputs state.fields) world = (.error e, after)) :
      Acted s state world (.error (stepFailed s e.message)) after
  | kept {name : String} {crew : Crew} {result : CrewOutput} {after : σ} {next : State}
      (action : s.action = .runCrew name) (found : crewOf? crews name = some crew)
      (ran : runner crew (overlay inputs state.fields) world = (.ok result, after))
      (stored : storeResult s state result.raw = .ok next) :
      Acted s state world (.ok (next, some result.raw)) after
  | unkept {name : String} {crew : Crew} {result : CrewOutput} {after : σ} {e : ExecutionError}
      (action : s.action = .runCrew name) (found : crewOf? crews name = some crew)
      (ran : runner crew (overlay inputs state.fields) world = (.ok result, after))
      (unstored : storeResult s state result.raw = .error e) : Acted s state world (.error e) after

theorem acted_act (s : Step) (state : State) (world : σ) :
    Acted runner crews inputs s state world (act runner crews inputs s state world).1
      (act runner crews inputs s state world).2 := by
  rw [act]
  cases action : s.action with
  | noop => exact .idle action
  | finalize => exact .joined action
  | runCrew name =>
      dsimp only
      cases found : crewOf? crews name with
      | none => exact .crewless action found
      | some crew =>
          rcases ran : runner crew (overlay inputs state.fields) world with ⟨_ | result, after⟩
          · simp only [ran]
            exact .failed action found ran
          · simp only [ran]
            cases stored : storeResult s state result.raw with
            | error e => exact .unkept action found ran stored
            | ok next => exact .kept action found ran stored

theorem acted_of_act {s : Step} {state : State} {world after : σ}
    {outcome : Except ExecutionError (State × Option String)}
    (acted : act runner crews inputs s state world = (outcome, after)) :
    Acted runner crews inputs s state world outcome after := by
  have this := acted_act runner crews inputs s state world
  rwa [acted] at this

end Acts

section Trails
variable {σ : Type} (runner : Runner σ) (crews : List Crew) (inputs : Inputs) (g : Graph)

/-- One round of a walk, with the visit that is made in it if there is one. -/
inductive Round (w : Walk σ) : Option Visit → Walk σ → Prop where
  | leaveOut {name : String} {queue : List String} (waiting : w.queue = name :: queue)
      (done : name ∈ w.executed) : Round w none { w with queue }
  | visit {name : String} {queue : List String} {s : Step} {state : State}
      {produced : Option String} {world : σ} (waiting : w.queue = name :: queue)
      (fresh : name ∉ w.executed) (found : g.step? name = some s)
      (acted : act runner crews inputs s w.state w.world = (.ok (state, produced), world)) :
      Round w (some ⟨s, state.mark s.name⟩) (.completed g s { w with queue } state produced world)

/-- How a walk ends: with nothing left to do, or at a step that is not there or fails. -/
inductive Halt (w : Walk σ) : Walk σ × Option ExecutionError → Prop where
  | done (nothing : w.queue = []) : Halt w (w, none)
  | missing {name : String} {queue : List String} (waiting : w.queue = name :: queue)
      (fresh : name ∉ w.executed) (absent : g.step? name = none) :
      Halt w ({ w with queue }, some (Walk.noStep name))
  | failed {name : String} {queue : List String} {s : Step} {e : ExecutionError} {world : σ}
      (waiting : w.queue = name :: queue) (fresh : name ∉ w.executed)
      (found : g.step? name = some s)
      (acted : act runner crews inputs s w.state w.world = (.error e, world)) :
      Halt w ({ w with queue, world }, some e)

/-- A walk from some point to its end, and the visits on the way. -/
inductive Trail : Walk σ → List Visit → Walk σ × Option ExecutionError → Prop where
  | ends {w : Walk σ} {ending : Walk σ × Option ExecutionError}
      (halt : Halt runner crews inputs g w ending) : Trail w [] ending
  | goesOn {w next : Walk σ} {visit : Option Visit} {visits : List Visit}
      {ending : Walk σ × Option ExecutionError} (round : Round runner crews inputs g w visit next)
      (rest : Trail next visits ending) : Trail w (visit.toList ++ visits) ending

/-! ## The rounds of a run -/

theorem run_of_halt {w : Walk σ} {ending : Walk σ × Option ExecutionError}
    (halt : Halt runner crews inputs g w ending) : w.run runner crews inputs g = ending := by
  rw [Walk.run]
  cases halt with
  | done nothing => split <;> simp_all
  | missing waiting fresh absent =>
      split
      · simp_all
      · next same =>
          cases waiting.symm.trans same
          rw [dif_neg (by simpa using fresh)]
          split <;> simp_all
  | failed waiting fresh found acted =>
      split
      · simp_all
      · next same =>
          cases waiting.symm.trans same
          rw [dif_neg (by simpa using fresh)]
          split <;> simp_all

theorem run_of_round {w next : Walk σ} {visit : Option Visit}
    (round : Round runner crews inputs g w visit next) :
    w.run runner crews inputs g = next.run runner crews inputs g := by
  rw [Walk.run]
  cases round with
  | leaveOut waiting done =>
      split
      · simp_all
      · next same =>
          cases waiting.symm.trans same
          rw [dif_pos (by simpa using done)]
  | visit waiting fresh found acted =>
      split
      · simp_all
      · next same =>
          cases waiting.symm.trans same
          rw [dif_neg (by simpa using fresh)]
          split <;> simp_all

theorem trail_of_halt {w : Walk σ} {ending : Walk σ × Option ExecutionError}
    (halt : Halt runner crews inputs g w ending) :
    ∃ visits, Trail runner crews inputs g w visits (w.run runner crews inputs g) := by
  rw [run_of_halt runner crews inputs g halt]
  exact ⟨[], .ends halt⟩

theorem trail_of_round {w next : Walk σ} {visit : Option Visit}
    (round : Round runner crews inputs g w visit next)
    (rest : ∃ visits, Trail runner crews inputs g next visits (next.run runner crews inputs g)) :
    ∃ visits, Trail runner crews inputs g w visits (w.run runner crews inputs g) := by
  obtain ⟨visits, trail⟩ := rest
  rw [run_of_round runner crews inputs g round]
  exact ⟨visit.toList ++ visits, .goesOn round trail⟩

/-- Every run is a trail: it ends after finitely many rounds. -/
theorem trail_of_run (w : Walk σ) :
    ∃ visits, Trail runner crews inputs g w visits (w.run runner crews inputs g) := by
  induction w using Walk.run.induct runner crews inputs g with
  | case1 w nothing => exact trail_of_halt runner crews inputs g (.done nothing)
  | case2 w name queue waiting done ih =>
      exact trail_of_round runner crews inputs g (.leaveOut waiting (by simpa using done)) ih
  | case3 w name queue waiting fresh absent =>
      exact trail_of_halt runner crews inputs g (.missing waiting (by simpa using fresh) absent)
  | case4 w name queue waiting fresh s found e world acted =>
      exact trail_of_halt runner crews inputs g
        (.failed waiting (by simpa using fresh) found acted)
  | case5 w name queue waiting fresh s found state produced world acted ih =>
      exact trail_of_round runner crews inputs g
        (.visit waiting (by simpa using fresh) found acted) ih

end Trails

section Invariants
variable {σ : Type} {runner : Runner σ} {crews : List Crew} {inputs : Inputs} {g : Graph}

theorem Trail.run_eq {w : Walk σ} {visits : List Visit} {ending : Walk σ × Option ExecutionError}
    (trail : Trail runner crews inputs g w visits ending) : w.run runner crews inputs g = ending := by
  induction trail with
  | ends halt => exact run_of_halt runner crews inputs g halt
  | goesOn round rest ih => exact (run_of_round runner crews inputs g round).trans ih

theorem Halt.executed_eq {w : Walk σ} {ending : Walk σ × Option ExecutionError}
    (halt : Halt runner crews inputs g w ending) : ending.1.executed = w.executed := by
  cases halt <;> rfl

theorem Halt.queue_eq_nil {w : Walk σ} {ending : Walk σ × Option ExecutionError}
    (halt : Halt runner crews inputs g w ending) (success : ending.2 = none) : w.queue = [] := by
  cases halt with
  | done nothing => exact nothing
  | missing => simp at success
  | failed => simp at success

/-- What every round preserves holds at the end of a trail. -/
theorem Trail.preserves {w : Walk σ} {visits : List Visit}
    {ending : Walk σ × Option ExecutionError} (trail : Trail runner crews inputs g w visits ending)
    (kept : List Visit → Walk σ → Prop)
    (step : ∀ before w visit next, kept before w → Round runner crews inputs g w visit next →
      kept (before ++ visit.toList) next) :
    ∀ before, kept before w →
      ∃ last, kept (before ++ visits) last ∧ Halt runner crews inputs g last ending := by
  induction trail with
  | ends halt =>
      intro before initial
      exact ⟨_, by simpa using initial, halt⟩
  | goesOn round rest ih =>
      intro before initial
      obtain ⟨last, final, halt⟩ := ih _ (step _ _ _ _ initial round)
      exact ⟨last, by simpa using final, halt⟩

end Invariants

end CrewFlow.Flow
