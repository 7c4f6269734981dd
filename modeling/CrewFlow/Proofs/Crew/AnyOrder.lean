import Mathlib
import CrewFlow.Proofs.Crew.Agreement
/-!
# Kickoffs in any order

A kickoff without memory comes to the outcome of the evaluation in order, whatever the order of its moves
and of the answers. Until it is over somebody can move: the main line and every job wait for jobs that
were handed out before, so the first of those that are open does not wait.
-/
set_option autoImplicit false

namespace CrewFlow.Crew

open Text (Inputs)
open Kickoff (Settled Step Change Comes setEntry)

variable {crew : Crew} {inputs : Inputs} {ask : Answers} {outs : List TaskOutput}
variable {k next : Kickoff} {taken p : Nat}

/-! ## The end of a run -/

theorem outputsOf_filter (name : String) (done : List (String × TaskOutput)) (tasks : List CrewTask) :
    Kickoff.outputsOf (done.filter fun e => e.1 ≠ name) tasks =
      Kickoff.outputsOf done (tasks.filter fun t => t.name ≠ name) := by
  induction tasks generalizing done with
  | nil => rfl
  | cons t ts ih =>
      by_cases here : t.name = name
      · have gone : (done.filter fun e => e.1 ≠ name).lookup t.name = none := by
          rw [Json.Fields.lookup_filter, if_pos here]
        rw [List.filter_cons_of_neg (by simpa using here), ← ih]
        simp only [Kickoff.outputsOf, gone]
      · have same : (done.filter fun e => e.1 ≠ name).lookup t.name = done.lookup t.name := by
          rw [Json.Fields.lookup_filter, if_neg here]
        have swap : (done.filter fun e => e.1 ≠ name).filter (fun e => e.1 ≠ t.name) =
            (done.filter fun e => e.1 ≠ t.name).filter fun e => e.1 ≠ name := by
          rw [List.filter_filter, List.filter_filter]
          simp only [Bool.and_comm]
        rw [List.filter_cons_of_pos (by simpa using here)]
        cases found : done.lookup t.name with
        | none => simp only [Kickoff.outputsOf, same, found, ih]
        | some o => simp only [Kickoff.outputsOf, same, found, swap, ih]

/-- The outputs of tasks are those of their names, each taken where it first occurs. -/
theorem outputsOf_eq_firsts (done : List (String × TaskOutput)) : ∀ tasks : List CrewTask,
    Kickoff.outputsOf done tasks = (tasks.map (·.name)).eraseDups.filterMap fun name => done.lookup name
  | [] => rfl
  | t :: ts => by
      have rest := outputsOf_eq_firsts done (ts.filter fun other => other.name ≠ t.name)
      have others : (ts.map (·.name)).filter (fun name => !name == t.name) =
          (ts.filter fun other => other.name ≠ t.name).map (·.name) := by
        rw [List.filter_map]
        refine congrArg _ (List.filter_congr fun other _ => ?_)
        by_cases same : other.name = t.name <;> simp [same]
      rw [List.map_cons, List.eraseDups_cons, others, List.filterMap_cons, ← rest, ← outputsOf_filter]
      cases found : done.lookup t.name with
      | none =>
          have absent : done.filter (fun e => e.1 ≠ t.name) = done := by
            refine List.filter_eq_self.mpr fun e member => ?_
            have differs : t.name ≠ e.1 := by simpa using List.lookup_eq_none_iff.mp found e member
            exact decide_eq_true differs.symm
          simp only [Kickoff.outputsOf, found, absent]
      | some o => simp only [Kickoff.outputsOf, found]
termination_by tasks => tasks.length
decreasing_by exact Nat.lt_succ_of_le (List.length_filter_le _ _)

section Firsts
variable {α : Type} [BEq α]

theorem eraseDups_sublist : ∀ xs : List α, xs.eraseDups.Sublist xs
  | [] => List.Sublist.slnil
  | x :: xs => by
      rw [List.eraseDups_cons]
      exact ((eraseDups_sublist (xs.filter fun y => !y == x)).trans List.filter_sublist).cons_cons x
termination_by xs => xs.length
decreasing_by exact Nat.lt_succ_of_le (List.length_filter_le _ _)

variable [LawfulBEq α]

theorem nodup_eraseDups : ∀ xs : List α, xs.eraseDups.Nodup
  | [] => List.nodup_nil
  | x :: xs => by
      rw [List.eraseDups_cons, List.nodup_cons, List.mem_eraseDups]
      exact ⟨by simp, nodup_eraseDups (xs.filter fun y => !y == x)⟩
termination_by xs => xs.length
decreasing_by exact Nat.lt_succ_of_le (List.length_filter_le _ _)

theorem eraseDups_eq_self_iff {xs : List α} : xs.eraseDups = xs ↔ xs.Nodup := by
  refine ⟨fun same => same ▸ nodup_eraseDups xs, fun distinct => ?_⟩
  induction xs with
  | nil => rfl
  | cons x xs ih =>
      obtain ⟨fresh, rest⟩ := List.nodup_cons.mp distinct
      have others : xs.filter (fun y => !y == x) = xs := by
        refine List.filter_eq_self.mpr fun y member => ?_
        have differs : y ≠ x := fun same => fresh (same ▸ member)
        simpa using differs
      rw [List.eraseDups_cons, others, ih rest]

end Firsts

theorem outputsOf_eq {done : List (String × TaskOutput)} {tasks : List CrewTask}
    (distinct : (tasks.map (·.name)).Nodup) :
    Kickoff.outputsOf done tasks = tasks.filterMap fun t => done.lookup t.name := by
  rw [outputsOf_eq_firsts, eraseDups_eq_self_iff.mpr distinct, List.filterMap_map]
  rfl

section Steps
variable (distinct : (crew.tasks.map (·.name)).Nodup)
include distinct

theorem Kept.good_output (yield : Yield crew inputs ask outs)
    (kept : Kept crew inputs outs k crew.tasks.length)
    (nothing : ∀ name, k.pending.lookup name = none) (same : k.crew = crew) :
    Good crew outs (.ok k.output) := by
  have all_done : ∀ i t, crew.tasks[i]? = some t →
      ∃ o, k.done.lookup t.name = some o ∧ Right outs i o := by
    intro i t task
    obtain ⟨below, _⟩ := List.getElem?_eq_some_iff.mp task
    cases present : k.done.lookup t.name with
    | none =>
        obtain ⟨j, waiting⟩ := kept.covered i t below task present
        cases (nothing t.name).symm.trans waiting
    | some o =>
        obtain ⟨i', t', _, task', named, right⟩ := kept.done t.name o present
        cases position_unique distinct task' task named
        exact ⟨o, rfl, right⟩
  -- Were there fewer outputs than tasks, the task behind the last of them would have none, though all are done.
  have complete : outs.length = crew.tasks.length := by
    by_contra short
    have below : outs.length < crew.tasks.length := lt_of_le_of_ne yield.fits short
    obtain ⟨o, _, right⟩ := all_done _ _ (List.getElem?_eq_getElem below)
    exact right.1 rfl
  have entries : crew.tasks.map (fun t => k.done.lookup t.name) = outs.map some := by
    apply List.ext_getElem?
    intro i
    rw [List.getElem?_map, List.getElem?_map]
    cases task : crew.tasks[i]? with
    | none =>
        have beyond := List.getElem?_eq_none_iff.mp task
        rw [List.getElem?_eq_none (by omega), Option.map_none, Option.map_none]
    | some t =>
        obtain ⟨o, present, right⟩ := all_done i t task
        obtain ⟨below, _⟩ := List.getElem?_eq_some_iff.mp task
        have output : outs[i]? = some outs[i] := List.getElem?_eq_getElem (by omega)
        rw [Option.map_some, present, output, Option.map_some, right.2 _ output]
  have outputs : Kickoff.outputsOf k.done crew.tasks = outs := by
    have mapped := congrArg (List.filterMap id) entries
    rw [List.filterMap_map, List.filterMap_map] at mapped
    exact (outputsOf_eq distinct).trans (mapped.trans List.filterMap_some)
  rw [Good, if_pos complete, Kickoff.output, same, outputs]
  rfl

/-! ## Steps -/

omit distinct in
theorem work_eq_givenWork (onInputs : k.inputs = inputs) (forgetful : k.memory = none)
    {t : CrewTask} {agent : Agent} {context before : List TaskOutput}
    (same : context = given crew p t before) :
    k.work t agent context = givenWork crew inputs p t agent before := by
  have nothing : ∀ description, k.recollect description = [] := by
    intro description
    rw [Kickoff.recollect, forgetful]
  rw [Kickoff.work, givenWork, nothing, onInputs, same]

omit distinct in
theorem pending_of_settled {name : String} {found : Option TaskOutput}
    (settled : Settled k name found next)
    (apart : ∀ name o, k.done.lookup name = some o → k.pending.lookup name = none) :
    next.pending.lookup name = none ∧
      ∀ other j, next.pending.lookup other = some j → k.pending.lookup other = some j := by
  cases settled with
  | done present => exact ⟨apart name _ present, fun _ _ waiting => waiting⟩
  | nothing absent unknown => exact ⟨unknown, fun _ _ waiting => waiting⟩
  | yielded absent waiting result =>
      refine ⟨?_, ?_⟩
      · rw [Kickoff.take, Json.Fields.lookup_filter, if_pos rfl]
      · intro other j there
        rw [Kickoff.take, Json.Fields.lookup_filter] at there
        split at there
        · cases there
        · exact there

theorem Agrees.of_taking (yield : Yield crew inputs ask outs) (agrees : Agrees crew inputs outs k)
    (main : k.main = .taking p) {t : CrewTask} (task : crew.tasks[p]? = some t) {agent : Agent}
    (owner : crew.agentFor t = .ok agent) :
    (t.isAsync = true → Agrees crew inputs outs (k.handedOut p t agent)) ∧
      (t.isAsync = false → Agrees crew inputs outs
        { k with main := .gathering p t agent [] (crew.dependencies p t) }) := by
  obtain ⟨ofCrew, onInputs, forgetful, taken, kept, right⟩ := agrees
  rw [main] at right
  obtain ⟨below, _⟩ := List.getElem?_eq_some_iff.mp task
  cases right with
  | taking fits =>
      refine ⟨fun apart => ⟨ofCrew, onInputs, forgetful, p + 1, ?_, .taking below⟩, fun inLine =>
        ⟨ofCrew, onInputs, forgetful, p, kept.withMain _, .gathering task owner inLine ?_⟩⟩
      · refine kept.of_handedOut distinct ofCrew task owner (.gathering apart ?_ ?_)
        · intro other member
          obtain ⟨name, _, waiting⟩ := List.mem_filterMap.mp member
          obtain ⟨_, job, _, _, _, standing⟩ := kept.pending name other waiting
          exact (List.getElem?_eq_some_iff.mp standing).1
        · intro early
          obtain ⟨rest, promised, perm⟩ := kept.handOut_right distinct yield early
            (crew.dependencies p t)
          refine ⟨rest, promised.imp fun _ _ promise => promise.mono ?_, perm⟩
          intro j t' there
          obtain ⟨inside, _⟩ := List.getElem?_eq_some_iff.mp there
          exact (List.getElem?_append_left inside).trans there
      · intro early
        rfl

theorem Agrees.of_asking (yield : Yield crew inputs ask outs) (agrees : Agrees crew inputs outs k)
    {name : String} {names : List String} {found : Option TaskOutput}
    (settled : Settled k name found next) :
    (∀ {t agent context}, k.main = .gathering p t agent context (name :: names) →
      Agrees crew inputs outs
        { next with main := .gathering p t agent (context ++ found.toList) names }) ∧
    (k.main = .closing (name :: names) →
      Agrees crew inputs outs { next with main := .closing names }) := by
  obtain ⟨ofCrew, onInputs, forgetful, taken, kept, right⟩ := agrees
  obtain ⟨sameCrew, sameInputs, sameMemory, _, _⟩ := settled.frame
  have still : Kept crew inputs outs next taken := kept.of_settled distinct settled
  constructor
  · intro t agent context main
    rw [main] at right
    cases right with
    | gathering task owner inLine right =>
        refine ⟨sameCrew.trans ofCrew, sameInputs.trans onInputs, sameMemory.trans forgetful, p,
          still.withMain _, .gathering task owner inLine ?_⟩
        intro early
        have there := kept.among_of_settled distinct yield early settled
        rw [← right early, List.append_assoc, List.filterMap_cons, there]
        cases found <;> rfl
  · intro main
    rw [main] at right
    cases right with
    | closing left =>
        obtain ⟨gone, others⟩ := pending_of_settled settled kept.apart
        refine ⟨sameCrew.trans ofCrew, sameInputs.trans onInputs, sameMemory.trans forgetful,
          crew.tasks.length, still.withMain _, .closing ?_⟩
        intro other j waiting
        rcases List.mem_cons.mp (left other j (others other j waiting)) with same | member
        · rw [same, gone] at waiting
          cases waiting
        · exact member

omit distinct in
theorem Agrees.of_setPhase (agrees : Agrees crew inputs outs k) {j : Nat} {job : Job}
    {old phase : JobPhase} (standing : k.jobs[j]? = some job) (was : job.phase = old)
    (right : ∀ taken i, Kept crew inputs outs k taken → crew.tasks[i]? = some job.task →
      JobRight crew inputs outs (k.jobs.map (·.task)) i j job.task job.agent old →
      JobRight crew inputs outs (k.jobs.map (·.task)) i j job.task job.agent phase) :
    Agrees crew inputs outs (k.setPhase j phase) := by
  obtain ⟨ofCrew, onInputs, forgetful, taken, kept, main⟩ := agrees
  subst was
  refine ⟨ofCrew, onInputs, forgetful, taken, kept.of_setPhase standing ?_, main⟩
  intro i task _ before
  exact right taken i kept task before

theorem Agrees.of_mainChange (yield : Yield crew inputs ask outs) (agrees : Agrees crew inputs outs k)
    (change : Change ask k none next) :
    Agrees crew inputs outs next ∨ ∃ result, next.result? = some result ∧ Good crew outs result := by
  obtain rfl : k.crew = crew := agrees.ofCrew
  have whole := agrees
  obtain ⟨ofCrew, onInputs, forgetful, taken, kept, right⟩ := agrees
  cases change with
  | @unmanned p t e main task nobody =>
      -- Taken in order, a task without an agent yields nothing, so the yield ends before it.
      refine .inr ⟨_, rfl, good_error ?_ e⟩
      obtain ⟨below, _⟩ := List.getElem?_eq_some_iff.mp task
      by_contra full
      obtain ⟨o, output⟩ : ∃ o, outs[p]? = some o := ⟨_, List.getElem?_eq_getElem (by omega)⟩
      obtain ⟨agent, owner, _⟩ := agent_of_givenOutput (yield.each p t o task output)
      cases nobody.symm.trans owner
  | handedOut main task owner apart =>
      exact .inl ((whole.of_taking distinct yield main task owner).1 apart)
  | takenUp main task owner inLine =>
      exact .inl ((whole.of_taking distinct yield main task owner).2 inLine)
  | allTaken main last =>
      left
      rw [main] at right
      cases right with
      | taking fits =>
          have all : taken = k.crew.tasks.length :=
            Nat.le_antisymm fits (List.getElem?_eq_none_iff.mp last)
          subst all
          refine ⟨ofCrew, onInputs, forgetful, _, kept.withMain _, .closing ?_⟩
          intro name j waiting
          obtain ⟨before, after, split, _⟩ := List.lookup_eq_some_iff.mp waiting
          -- The main line asks for all that is pending when it closes.
          rw [split]
          simp
  | gathered main settled => exact .inl ((whole.of_asking distinct yield settled).1 main)
  | begun main =>
      left
      rw [main] at right
      cases right with
      | gathering task owner inLine right =>
          refine ⟨ofCrew, onInputs, forgetful, taken, kept.withMain _, .working task owner ?_⟩
          intro early
          apply work_eq_givenWork onInputs forgetful
          have found := right early
          rw [List.filterMap_nil, List.append_nil] at found
          simp only [given, inLine, Bool.false_eq_true, if_false]
          exact found
  | answered main outcome =>
      left
      rw [main] at right
      cases right with
      | working task owner right =>
          have yields := yield.yields_of_work task owner right
          rw [outcome] at yields
          obtain ⟨below, _⟩ := List.getElem?_eq_some_iff.mp task
          exact ⟨ofCrew, onInputs, forgetful, taken + 1, kept.of_answered distinct task yields,
            .taking below⟩
  | refused main outcome =>
      rw [main] at right
      cases right with
      | working task owner right =>
          have yields := yield.yields_of_work task owner right
          rw [outcome] at yields
          obtain ⟨below, _⟩ := List.getElem?_eq_some_iff.mp task
          exact .inr ⟨_, rfl, good_error (Nat.lt_of_le_of_lt yields below) _⟩
  | closed main settled => exact .inl ((whole.of_asking distinct yield (p := 0) settled).2 main)
  | broken awaits result =>
      obtain ⟨name, _, waiting⟩ := Kickoff.pending_of_mainAwaits? awaits
      obtain ⟨i, job, _, task, _, standing⟩ := kept.pending name _ waiting
      have yields := kept.yields_at distinct standing task result
      obtain ⟨below, _⟩ := List.getElem?_eq_some_iff.mp task
      exact .inr ⟨_, rfl, good_error (Nat.lt_of_le_of_lt yields below) _⟩
  | ended main =>
      rw [main] at right
      cases right with
      | closing left =>
          have nothing : ∀ name, k.pending.lookup name = none := by
            intro name
            cases waiting : k.pending.lookup name with
            | none => rfl
            | some j => cases left name j waiting
          exact .inr ⟨_, rfl, kept.good_output distinct yield nothing ofCrew⟩

theorem Agrees.of_jobChange (yield : Yield crew inputs ask outs) (agrees : Agrees crew inputs outs k)
    {mover : Nat} (change : Change ask k (some mover) next) : Agrees crew inputs outs next := by
  obtain rfl : k.crew = crew := agrees.ofCrew
  cases change with
  | @jobBegun j job context standing phase =>
      refine agrees.of_setPhase standing phase ?_
      intro taken i kept task before
      cases before with
      | gathering apart linked right =>
          refine .working ?_
          intro early
          obtain ⟨rest, promised, perm⟩ := right early
          cases promised
          obtain ⟨_, _, order, _⟩ := kept.job_at distinct standing task
          rw [List.append_nil] at perm
          apply work_eq_givenWork agrees.onInputs agrees.forgetful
          simp only [given, apart, if_true]
          rw [order]
          refine arranged_eq_arranged ?_ perm
          intro name o there
          simpa using List.find?_some there
  | @jobGathered j other job context awaited o standing phase result =>
      refine agrees.of_setPhase standing phase ?_
      intro taken i kept task before
      cases before with
      | gathering apart linked right =>
          refine .gathering apart (fun j' member => linked j' (List.mem_cons_of_mem _ member)) ?_
          intro early
          obtain ⟨rest, promised, perm⟩ := right early
          cases promised with
          | @cons _ plain _ rest promise promised =>
              refine ⟨rest, promised, ?_⟩
              have same : o = plain :=
                Except.ok.inj (kept.eq_of_promise distinct promise result)
              rw [same, List.append_assoc]
              exact perm
  | @jobBroken j other job context awaited e standing phase result =>
      refine agrees.of_setPhase standing phase ?_
      intro taken i kept task before
      cases before with
      | gathering apart linked right =>
          refine .finished ?_
          -- Were the yield longer, the awaited job would have been promised an output.
          by_contra early
          obtain ⟨rest, promised, _⟩ := right (Nat.le_of_lt (Nat.lt_of_not_le early))
          cases promised with
          | cons promise promised => cases kept.eq_of_promise distinct promise result
  | @jobAnswered j job w standing phase =>
      refine agrees.of_setPhase standing phase ?_
      intro taken i kept task before
      cases before with
      | working right =>
          obtain ⟨_, owner, _, _⟩ := kept.job_at distinct standing task
          exact .finished (yield.yields_of_work task owner right)

/-- Every move keeps the agreement, or ends the run as it should. -/
theorem Agrees.of_change (yield : Yield crew inputs ask outs) (agrees : Agrees crew inputs outs k)
    {mover : Option Nat} (change : Change ask k mover next) :
    Agrees crew inputs outs next ∨ ∃ result, next.result? = some result ∧ Good crew outs result := by
  cases mover with
  | none => exact agrees.of_mainChange distinct yield change
  | some j => exact .inl (agrees.of_jobChange distinct yield change)

end Steps

/-! ## Progress -/

/-- While a job is not over, it or one that was handed out before it can move. -/
theorem Kept.job_movable (kept : Kept crew inputs outs k taken) {j : Nat} {job : Job}
    (standing : k.jobs[j]? = some job) (unfinished : k.jobResult? j = none) :
    ∃ next, Step ask k next := by
  induction j using Nat.strong_induction_on generalizing job with
  | _ j ih =>
      cases moved : k.moveJob j with
      | some next => exact ⟨next, .job moved⟩
      | none =>
          rcases Kickoff.moveJob_eq_none standing moved with ⟨w, working⟩ |
            ⟨context, other, awaited, phase, unfinished⟩ | ⟨result, finished⟩
          · exact ⟨_, .jobAnswered working⟩
          · obtain ⟨i, _, _, _, _, right⟩ := kept.jobs j job standing
            rw [phase] at right
            cases right with
            | gathering apart linked right =>
                have before : other < j := linked other List.mem_cons_self
                obtain ⟨below, _⟩ := List.getElem?_eq_some_iff.mp standing
                exact ih other before (List.getElem?_eq_getElem (by omega)) unfinished
          · cases unfinished.symm.trans finished

theorem Agrees.movable (agrees : Agrees crew inputs outs k) : ∃ next, Step ask k next := by
  obtain ⟨ofCrew, onInputs, forgetful, taken, kept, right⟩ := agrees
  cases moved : k.moveMain with
  | some next => exact ⟨next, .main moved⟩
  | none =>
      rcases Kickoff.moveMain_eq_none moved with ⟨w, working⟩ | ⟨name, j, _, waiting, unfinished⟩ |
        ⟨result, finished⟩
      · exact ⟨_, .mainAnswered working⟩
      · obtain ⟨_, job, _, _, _, standing⟩ := kept.pending name j waiting
        exact kept.job_movable standing unfinished
      · rw [finished] at right
        cases right

/-! ## All schedules -/

theorem agrees_start (forgetful : crew.embedder = none) :
    Agrees crew inputs outs (Kickoff.start crew inputs) := by
  refine ⟨rfl, rfl, by rw [Kickoff.start, forgetful, Option.map_none], 0, ?_, .taking (Nat.zero_le _)⟩
  refine ⟨?_, ?_, ?_, ?_, ?_⟩
  · intro name o present
    cases present
  · intro name j present
    cases present
  · intro name o present
    cases present
  · intro i t inside
    omega
  · intro j job standing
    cases standing

/-- The outcome of a run is that of the evaluation in order: it succeeds exactly when every task does,
and then with their outputs. -/
def AsInOrder (ask : Answers) (crew : Crew) (inputs : Inputs)
    (result : Except ExecutionError CrewOutput) : Prop :=
  result.toOption = (evaluate crew inputs ask).toOption.map (CrewOutput.ofTasks crew.name)

/-- Whatever the order of its moves, a kickoff comes to the outputs of all tasks if each of them has one. -/
theorem kickoff_comes_good (distinct : (crew.tasks.map (·.name)).Nodup)
    (forgetful : crew.embedder = none) (yield : Yield crew inputs ask outs) :
    Comes ask (Good crew outs) (Kickoff.start crew inputs) := by
  refine @Kickoff.comes_of_invariant ask _ (Agrees crew inputs outs) ?_ ?_ ?_ _ (agrees_start forgetful)
  · intro k agrees
    exact agrees.forgetful
  · intro k agrees
    exact agrees.movable
  · intro k mover next agrees change
    exact agrees.of_change distinct yield change

theorem kickoff_comes_as_in_order (distinct : (crew.tasks.map (·.name)).Nodup)
    (separate : ∀ t ∈ crew.tasks, t.context.Nodup) (forgetful : crew.embedder = none) :
    Comes ask (AsInOrder ask crew inputs) (Kickoff.start crew inputs) := by
  obtain ⟨outs, yield⟩ := exists_yield crew inputs ask
  refine (kickoff_comes_good distinct forgetful yield).imp fun result good => ?_
  rw [AsInOrder, yield.evaluate_eq distinct separate, good]
  split <;> rfl

end CrewFlow.Crew
