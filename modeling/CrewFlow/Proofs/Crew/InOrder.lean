import Mathlib
import CrewFlow.Proofs.Crew.Schedule
/-!
# Evaluation in order

The tasks of a crew one after the other, each on the outputs of tasks before it: those in its context, in
the order of the context, or all when it has none. The evaluation stops at the first task that fails. A
context may name a task twice; then a task that runs apart gets what a kickoff makes of that.
-/
set_option autoImplicit false

namespace CrewFlow.Crew

open Text (Inputs)

/-- The outputs that a task gets, of those that came before it. -/
def plainContext (t : CrewTask) (before : List TaskOutput) : List TaskOutput :=
  if t.context.isEmpty then before
  else t.context.filterMap fun name => before.find? fun o => o.name == name

/-- What an agent works on for a task after others. -/
def plainWork (inputs : Inputs) (t : CrewTask) (agent : Agent) (before : List TaskOutput) : Work :=
  ⟨t, agent, t.describe inputs, t.prompt inputs (plainContext t before) []⟩

section Evaluation
variable (crew : Crew) (inputs : Inputs) (ask : Answers)

/-- What a task yields after others. -/
def plainOutput (t : CrewTask) (before : List TaskOutput) : Except ExecutionError TaskOutput := do
  let agent ← crew.agentFor t
  let w := plainWork inputs t agent before
  w.outcome (w.answer ask)

/-- Evaluates tasks one after the other, after others. -/
def evaluateFrom (before : List TaskOutput) :
    List CrewTask → Except ExecutionError (List TaskOutput)
  | [] => .ok before
  | t :: ts => do
    let o ← plainOutput crew inputs ask t before
    evaluateFrom (before ++ [o]) ts

/-- Evaluates the tasks of a crew in order. -/
def evaluate : Except ExecutionError (List TaskOutput) := evaluateFrom crew inputs ask [] crew.tasks

/-! ## Repeated names -/

/-- The outputs that the task at a place gets, of those that came before it: one for every name on which it
depends. A task that runs apart gets them in the order of the names. -/
def given (p : Nat) (t : CrewTask) (before : List TaskOutput) : List TaskOutput :=
  let names := crew.dependencies p t
  let found := names.filterMap fun name => before.find? fun o => o.name == name
  if t.isAsync then Kickoff.arranged names found else found

def givenWork (p : Nat) (t : CrewTask) (agent : Agent) (before : List TaskOutput) : Work :=
  ⟨t, agent, t.describe inputs, t.prompt inputs (given crew p t before) []⟩

def givenOutput (p : Nat) (t : CrewTask) (before : List TaskOutput) :
    Except ExecutionError TaskOutput := do
  let agent ← crew.agentFor t
  let w := givenWork crew inputs p t agent before
  w.outcome (w.answer ask)

/-- The outputs of the tasks before the first one that fails. -/
structure Yield (outs : List TaskOutput) : Prop where
  fits : outs.length ≤ crew.tasks.length
  each : ∀ i t o, crew.tasks[i]? = some t → outs[i]? = some o →
    givenOutput crew inputs ask i t (outs.take i) = .ok o
  stops : ∀ t, crew.tasks[outs.length]? = some t →
    ∃ e, givenOutput crew inputs ask outs.length t outs = .error e

theorem exists_yield_below (n : Nat) (fits : n ≤ crew.tasks.length) :
    ∃ outs : List TaskOutput, outs.length ≤ n ∧
      (∀ i t o, crew.tasks[i]? = some t → outs[i]? = some o →
        givenOutput crew inputs ask i t (outs.take i) = .ok o) ∧
      (outs.length < n → ∀ t, crew.tasks[outs.length]? = some t →
        ∃ e, givenOutput crew inputs ask outs.length t outs = .error e) := by
  induction n with
  | zero => exact ⟨[], le_rfl, by simp, by simp⟩
  | succ n ih =>
      obtain ⟨outs, count, each, stops⟩ := ih (Nat.le_of_succ_le fits)
      rcases count.lt_or_eq with short | rfl
      · exact ⟨outs, Nat.le_succ_of_le count, each, fun _ => stops short⟩
      · obtain ⟨t, here⟩ : ∃ t, crew.tasks[outs.length]? = some t :=
          ⟨_, List.getElem?_eq_getElem fits⟩
        cases output : givenOutput crew inputs ask outs.length t outs with
        | error e =>
            refine ⟨outs, Nat.le_succ _, each, fun _ other same => ?_⟩
            cases here.symm.trans same
            exact ⟨e, output⟩
        | ok o =>
            refine ⟨outs ++ [o], by simp, ?_, by simp⟩
            intro i other o' same present
            rcases Nat.lt_trichotomy i outs.length with less | equal | greater
            · rw [List.getElem?_append_left less] at present
              rw [List.take_append_of_le_length less.le]
              exact each i other o' same present
            · subst equal
              rw [List.getElem?_concat_length] at present
              cases present
              cases here.symm.trans same
              rw [List.take_append_of_le_length le_rfl, List.take_length]
              exact output
            · rw [List.getElem?_eq_none (by simpa using greater)] at present
              cases present

theorem exists_yield : ∃ outs, Yield crew inputs ask outs := by
  obtain ⟨outs, fits, each, stops⟩ := exists_yield_below crew inputs ask crew.tasks.length le_rfl
  refine ⟨outs, fits, each, fun t here => stops ?_ t here⟩
  exact (List.getElem?_eq_some_iff.mp here).1

end Evaluation

/-! ## Outputs by name -/

def among (outs : List TaskOutput) (count : Nat) (name : String) : Option TaskOutput :=
  (outs.take count).find? fun o => o.name == name

variable {crew : Crew} {inputs : Inputs} {ask : Answers} {outs : List TaskOutput}

theorem Work.name_of_outcome {w : Work} {answer : Except String String} {o : TaskOutput}
    (outcome : w.outcome answer = .ok o) : o.name = w.task.name := by
  cases answer with
  | ok raw =>
      cases outcome
      rfl
  | error message => cases outcome

theorem agent_of_givenOutput {p : Nat} {t : CrewTask} {before : List TaskOutput} {o : TaskOutput}
    (output : givenOutput crew inputs ask p t before = .ok o) :
    ∃ agent, crew.agentFor t = .ok agent ∧
      (givenWork crew inputs p t agent before).outcome
        ((givenWork crew inputs p t agent before).answer ask) = .ok o := by
  unfold givenOutput at output
  cases owner : crew.agentFor t with
  | error e =>
      rw [owner] at output
      cases output
  | ok agent =>
      rw [owner] at output
      exact ⟨agent, rfl, output⟩

theorem Yield.name_eq (yield : Yield crew inputs ask outs) {i : Nat} {t : CrewTask} {o : TaskOutput}
    (task : crew.tasks[i]? = some t) (output : outs[i]? = some o) : o.name = t.name := by
  obtain ⟨agent, _, outcome⟩ := agent_of_givenOutput (yield.each i t o task output)
  exact Work.name_of_outcome outcome

theorem Yield.names_eq (yield : Yield crew inputs ask outs) {p : Nat} (fits : p ≤ outs.length) :
    (outs.take p).map (·.name) = (crew.tasks.take p).map (·.name) := by
  apply List.ext_getElem?
  intro i
  have count := yield.fits
  by_cases inside : i < p
  · obtain ⟨o, output⟩ : ∃ o, outs[i]? = some o := ⟨_, List.getElem?_eq_getElem (by omega)⟩
    obtain ⟨t, task⟩ : ∃ t, crew.tasks[i]? = some t := ⟨_, List.getElem?_eq_getElem (by omega)⟩
    rw [List.getElem?_map, List.getElem?_map, List.getElem?_take_of_lt inside,
      List.getElem?_take_of_lt inside, output, task, Option.map_some, Option.map_some,
      yield.name_eq task output]
  · rw [List.getElem?_eq_none (by simp; omega), List.getElem?_eq_none (by simp; omega)]

theorem find?_name_of_mem {outs : List TaskOutput} (distinct : (outs.map (·.name)).Nodup)
    {o : TaskOutput} (member : o ∈ outs) : outs.find? (fun x => x.name == o.name) = some o := by
  induction outs with
  | nil => cases member
  | cons first rest ih =>
      rw [List.map_cons, List.nodup_cons] at distinct
      rcases List.mem_cons.mp member with here | later
      · rw [here, List.find?_cons_of_pos (by simp)]
      · have differs : first.name ≠ o.name := by
          intro same
          exact distinct.1 (same ▸ List.mem_map_of_mem later)
        rw [List.find?_cons_of_neg (by simpa using differs), ih distinct.2 later]

section Distinct
variable (yield : Yield crew inputs ask outs) (distinct : (crew.tasks.map (·.name)).Nodup)
include yield distinct

theorem Yield.nodup_take {p : Nat} (fits : p ≤ outs.length) :
    ((outs.take p).map (·.name)).Nodup := by
  rw [yield.names_eq fits]
  exact distinct.sublist ((List.take_sublist ..).map _)

theorem Yield.among_of_lt {p i : Nat} {t : CrewTask} {o : TaskOutput} (fits : p ≤ outs.length)
    (inside : i < p) (task : crew.tasks[i]? = some t) (output : outs[i]? = some o) :
    among outs p t.name = some o := by
  have member : o ∈ outs.take p :=
    List.mem_of_getElem? (List.getElem?_take_of_lt inside ▸ output)
  rw [← yield.name_eq task output]
  exact find?_name_of_mem (yield.nodup_take distinct fits) member

omit distinct in
theorem Yield.of_among {p : Nat} {name : String} {o : TaskOutput}
    (found : among outs p name = some o) :
    ∃ i t, i < p ∧ crew.tasks[i]? = some t ∧ t.name = name ∧ outs[i]? = some o := by
  obtain ⟨i, output⟩ := List.mem_iff_getElem?.mp (List.mem_of_find?_eq_some found)
  have named : o.name = name := by simpa using List.find?_some found
  have inside : i < p := by
    obtain ⟨below, _⟩ := List.getElem?_eq_some_iff.mp output
    rw [List.length_take] at below
    omega
  rw [List.getElem?_take_of_lt inside] at output
  obtain ⟨below, _⟩ := List.getElem?_eq_some_iff.mp output
  have count := yield.fits
  obtain ⟨t, task⟩ : ∃ t, crew.tasks[i]? = some t := ⟨_, List.getElem?_eq_getElem (by omega)⟩
  exact ⟨i, t, inside, task, (yield.name_eq task output).symm.trans named, output⟩

theorem Yield.plainContext_eq {p : Nat} (t : CrewTask) (fits : p ≤ outs.length) :
    plainContext t (outs.take p) = (crew.dependencies p t).filterMap (among outs p) := by
  unfold plainContext Crew.dependencies
  split
  · have own : ∀ o ∈ outs.take p, among outs p o.name = some o :=
      fun o member => find?_name_of_mem (yield.nodup_take distinct fits) member
    rw [← yield.names_eq fits, List.filterMap_map]
    exact (List.filterMap_some.symm.trans (List.filterMap_congr own).symm)
  · rfl

end Distinct

/-! ## Outputs in the order of dependencies -/

theorem nodup_dependencies {p : Nat} {t : CrewTask} (distinct : (crew.tasks.map (·.name)).Nodup)
    (separate : t.context.Nodup) : (crew.dependencies p t).Nodup := by
  unfold Crew.dependencies
  split
  · exact distinct.sublist ((List.take_sublist ..).map _)
  · exact separate

theorem pairwise_idxOf {order : List String} (separate : order.Nodup) :
    order.Pairwise fun a b => order.idxOf a < order.idxOf b := by
  rw [List.pairwise_iff_getElem]
  intro i j first second before
  rw [separate.idxOf_getElem i first, separate.idxOf_getElem j second]
  exact before

theorem pairwise_arranged (order : List String) (context : List TaskOutput) :
    (Kickoff.arranged order context).Pairwise fun a b => order.idxOf a.name ≤ order.idxOf b.name := by
  have merged : (Kickoff.arranged order context).Pairwise
      fun a b => decide (order.idxOf a.name ≤ order.idxOf b.name) :=
    List.pairwise_mergeSort (by simpa using fun a b c => Nat.le_trans)
      (by simpa using fun a b => Nat.le_total _ _) context
  exact merged.imp fun less => of_decide_eq_true less

/-- Outputs that came in any order are arranged in one order, as outputs of one name are the same. -/
theorem arranged_eq_arranged {order : List String} {lookup : String → Option TaskOutput}
    {context : List TaskOutput} (named : ∀ name o, lookup name = some o → o.name = name)
    (perm : context.Perm (order.filterMap lookup)) :
    Kickoff.arranged order context = Kickoff.arranged order (order.filterMap lookup) := by
  have first : (Kickoff.arranged order context).Perm (order.filterMap lookup) :=
    (List.mergeSort_perm ..).trans perm
  have second : (Kickoff.arranged order (order.filterMap lookup)).Perm (order.filterMap lookup) :=
    List.mergeSort_perm ..
  refine List.Perm.eq_of_pairwise ?_ (pairwise_arranged order _) (pairwise_arranged order _)
    (first.trans second.symm)
  intro a b left right less greater
  obtain ⟨name, known, found⟩ := List.mem_filterMap.mp (first.subset left)
  obtain ⟨name', known', found'⟩ := List.mem_filterMap.mp (second.subset right)
  have equal : order.idxOf name = order.idxOf name' := by
    rw [← named name a found, ← named name' b found']
    exact Nat.le_antisymm less greater
  have names : name = name' := (List.idxOf_inj known).mp equal
  rw [names, found'] at found
  exact (Option.some.inj found).symm

theorem arranged_eq_self {order : List String} {lookup : String → Option TaskOutput}
    (separate : order.Nodup) (named : ∀ name o, lookup name = some o → o.name = name) :
    Kickoff.arranged order (order.filterMap lookup) = order.filterMap lookup := by
  apply List.mergeSort_of_pairwise
  rw [List.pairwise_filterMap]
  refine (pairwise_idxOf separate).imp ?_
  intro a b before o first o' second
  apply decide_eq_true
  dsimp only
  rw [named a o first, named b o' second]
  exact before.le

/-! ## Evaluation in order, without repeated names -/

section Plain
variable (yield : Yield crew inputs ask outs) (distinct : (crew.tasks.map (·.name)).Nodup)
include yield distinct

/-- Where names are not repeated, tasks get the outputs on which they depend in the order of the names. -/
theorem Yield.given_eq_plainContext {p : Nat} {t : CrewTask} (separate : t.context.Nodup)
    (fits : p ≤ outs.length) : given crew p t (outs.take p) = plainContext t (outs.take p) := by
  have named : ∀ name o, among outs p name = some o → o.name = name := by
    intro name o there
    simpa using List.find?_some there
  rw [yield.plainContext_eq distinct t fits]
  unfold given
  dsimp only
  split
  · exact arranged_eq_self (nodup_dependencies distinct separate) named
  · rfl

theorem Yield.givenOutput_eq_plainOutput {p : Nat} {t : CrewTask} (separate : t.context.Nodup)
    (fits : p ≤ outs.length) : givenOutput crew inputs ask p t (outs.take p) =
      plainOutput crew inputs ask t (outs.take p) := by
  simp only [givenOutput, plainOutput, givenWork, plainWork,
    yield.given_eq_plainContext distinct separate fits]

theorem Yield.evaluateFrom_eq (separate : ∀ t ∈ crew.tasks, t.context.Nodup) {p : Nat}
    {earlier later : List CrewTask} (split : crew.tasks = earlier ++ later)
    (count : p = earlier.length) (fits : p ≤ outs.length) :
    (evaluateFrom crew inputs ask (outs.take p) later).toOption =
      if outs.length = crew.tasks.length then some outs else none := by
  induction later generalizing p earlier with
  | nil =>
      have most := yield.fits
      have all : outs.length = p := by
        rw [split, List.append_nil] at most
        omega
      have whole : outs.length = crew.tasks.length := by simp [split, all, count]
      rw [if_pos whole, ← all, List.take_length]
      rfl
  | cons t later ih =>
      have here : crew.tasks[p]? = some t := by
        rw [split, count, List.getElem?_append_right le_rfl, Nat.sub_self, List.getElem?_cons_zero]
      have plain : plainOutput crew inputs ask t (outs.take p) =
          givenOutput crew inputs ask p t (outs.take p) :=
        (yield.givenOutput_eq_plainOutput distinct (separate t (List.mem_of_getElem? here)) fits).symm
      rcases fits.lt_or_eq with less | rfl
      · have output : outs[p]? = some outs[p] := List.getElem?_eq_getElem less
        have goesOn : evaluateFrom crew inputs ask (outs.take p) (t :: later) =
            evaluateFrom crew inputs ask (outs.take (p + 1)) later := by
          rw [evaluateFrom, plain, yield.each p t _ here output, List.take_add_one, output]
          rfl
        rw [goesOn]
        have further : crew.tasks = (earlier ++ [t]) ++ later := by simp [split]
        exact ih further (by simp [count]) less
      · obtain ⟨e, failed⟩ := yield.stops t here
        have short : outs.length ≠ crew.tasks.length := by
          have below := (List.getElem?_eq_some_iff.mp here).1
          omega
        rw [List.take_length] at plain
        rw [if_neg short, evaluateFrom, List.take_length, plain, failed]
        rfl

theorem Yield.evaluate_eq (separate : ∀ t ∈ crew.tasks, t.context.Nodup) :
    (evaluate crew inputs ask).toOption =
      if outs.length = crew.tasks.length then some outs else none := by
  have split : crew.tasks = [] ++ crew.tasks := rfl
  exact yield.evaluateFrom_eq distinct separate split rfl (Nat.zero_le _)

end Plain

end CrewFlow.Crew
