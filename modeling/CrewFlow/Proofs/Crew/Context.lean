import Mathlib
import CrewFlow.Proofs.Crew.Gathering
/-!
# Contexts

The outputs with which work on a task begins. In line they are in the order in which the task names them. A job
arranges them in the order in which their names first occur. So what a task receives does not depend on when the
tasks before it are done, and whether it runs apart matters only where a name is repeated with another one in
between.
-/
set_option autoImplicit false

namespace CrewFlow.Crew

open Kickoff (Course Placed PlacedBy HandedOutBefore Reply arranged)
open Text (Inputs)

section Received
variable {crew : Crew} {inputs : Inputs} {replies : List Reply} {k : Kickoff} {p : Nat} {t : CrewTask}

/-! ## What is received -/

theorem filterMap_of_heardOf {names : List String} {outputs : List TaskOutput}
    (heard : HeardOf replies names outputs) : names.filterMap (outputOf? replies) = outputs := by
  induction heard with
  | nil => rfl
  | cons found _ ih => rw [List.filterMap_cons_some found, ih]

theorem HeardOf.exists_output {names : List String} {outputs : List TaskOutput}
    (heard : HeardOf replies names outputs) : ∀ name ∈ names, ∃ o, outputOf? replies name = some o := by
  induction heard with
  | nil => simp
  | cons found _ ih => exact List.forall_mem_cons.mpr ⟨⟨_, found⟩, ih⟩

/-- The outputs that were heard under the names of tasks before a position on which a task there depends. -/
def heardBefore (crew : Crew) (replies : List Reply) (p : Nat) (t : CrewTask) : List TaskOutput :=
  (earlierNames crew p t).filterMap (outputOf? replies)

theorem heardBefore_eq (crew : Crew) (replies : List Reply) (p : Nat) (t : CrewTask) :
    heardBefore crew replies p t = (crew.dependencies p t).filterMap fun name =>
      if (namesBefore crew p).contains name then outputOf? replies name else none := by
  rw [heardBefore, earlierNames, List.filterMap_filter]

/-- What a task receives, it has heard under all names of tasks before it, and a job arranges it. -/
theorem context_of_receives (distinct : (crew.tasks.map (·.name)).Nodup)
    (course : Course (Kickoff.start crew inputs) replies k) {context : List TaskOutput}
    (receives : Receives k p t context) :
    HeardOf replies (earlierNames crew p t) (heardBefore crew replies p t) ∧
      context = if t.isAsync then arranged (crew.dependencies p t) (heardBefore crew replies p t)
        else heardBefore crew replies p t := by
  have gathers := gathers_of_course distinct course
  have placed := Kickoff.placed_of_course course
  have ofCrew := Kickoff.crew_of_course course
  cases receives with
  | inLine main =>
      have knows := gathers.main
      unfold Placed at placed
      rw [main] at knows placed
      cases placed with
      | gathering _ _ inLine =>
          cases knows with
          | gathering filed order gathered =>
              rw [List.append_nil] at order
              have heard : HeardOf replies (earlierNames crew p t) context := by
                rw [earlierNames, order]
                exact gathered
              rw [if_neg (by simp [inLine]), heardBefore, filterMap_of_heardOf heard]
              exact ⟨heard, rfl⟩
  | @apart j agent order context standing place =>
      rw [ofCrew] at place
      obtain ⟨_, jobs⟩ := PlacedBy.handedOut placed
      obtain ⟨q, _, there, ordered⟩ := jobs.place standing
      rw [ofCrew] at there ordered
      cases place.symm.trans there
      obtain ⟨has, lacks, all, heard, awaits⟩ := gathers.jobs j _ p standing place
      cases List.forall₂_nil_right_iff.mp awaits
      rw [List.append_nil] at all
      rw [if_pos (task_of_apart place).2]
      constructor
      · refine forall₂_filterMap_of_some fun name member => ?_
        obtain ⟨o, found⟩ := heard.exists_output name (all.mem_iff.mpr member)
        exact ⟨o, found, found⟩
      · have gathered : context.Perm (heardBefore crew replies p t) := by
          rw [heardBefore, ← filterMap_of_heardOf heard]
          exact all.filterMap _
        rw [heardBefore_eq] at gathered ⊢
        obtain rfl : order = crew.dependencies p t := ordered
        refine arranged_eq_arranged (fun name o found => ?_) gathered
        split at found
        · exact name_of_outputOf? found
        · cases found

end Received

/-! ## Repeated names -/

/-- Equal names have only names equal to them in between. -/
def Grouped (names : List String) : Prop := ∀ a b, [a, b, a].Sublist names → a = b

theorem sublist_of_not_mem {α : Type} {a : α} {xs before after : List α} (absent : a ∉ before)
    (part : (a :: xs).Sublist (before ++ after)) : (a :: xs).Sublist after := by
  induction before with
  | nil => exact part
  | cons b before ih =>
      obtain ⟨other, further⟩ := not_or.mp (mt List.mem_cons.mpr absent)
      rw [List.cons_append] at part
      cases part with
      | cons _ later => exact ih further later
      | cons_cons _ later => exact absurd rfl other

section Arranged
variable {order : List String} {lookup : String → Option TaskOutput}
variable (named : ∀ name o, lookup name = some o → o.name = name)
include named

theorem sublist_of_idxOf_lt {o o' : TaskOutput} (pair : [o, o'].Sublist (order.filterMap lookup))
    (less : order.idxOf o'.name < order.idxOf o.name) : [o', o, o'].Sublist (order.filterMap lookup) := by
  obtain ⟨name, listed, found⟩ := List.mem_filterMap.mp (pair.subset (List.mem_cons_of_mem o List.mem_cons_self))
  obtain rfl := named name o' found
  obtain ⟨before, after, split, first⟩ := List.eq_append_cons_of_mem listed
  have place : order.idxOf o'.name = before.length := by
    rw [split, List.idxOf_append_of_notMem first, List.idxOf_cons_self, Nat.add_zero]
  have absent : o.name ∉ before := by
    intro member
    have early := List.idxOf_lt_length_iff.mpr member
    rw [place, split, List.idxOf_append_of_mem member] at less
    omega
  have parts : order.filterMap lookup = before.filterMap lookup ++ o' :: after.filterMap lookup := by
    rw [split, List.filterMap_append, List.filterMap_cons_some found]
  have new : o ∉ before.filterMap lookup := by
    intro member
    obtain ⟨name, early, there⟩ := List.mem_filterMap.mp member
    exact absent (named name o there ▸ early)
  rw [parts] at pair ⊢
  cases sublist_of_not_mem new pair with
  | cons _ behind => exact (behind.cons_cons o').trans (List.sublist_append_right _ _)
  | cons_cons _ _ => exact absurd less (Nat.lt_irrefl _)

/-- Outputs that are in the order of some names stay as they are when they are arranged, exactly when equal
names stand together. -/
theorem arranged_eq_self_iff :
    arranged order (order.filterMap lookup) = order.filterMap lookup ↔
      Grouped ((order.filterMap lookup).map (·.name)) := by
  constructor
  · intro same a b between
    have sorted := pairwise_arranged order (order.filterMap lookup)
    rw [same] at sorted
    have increasing : ((order.filterMap lookup).map (·.name)).Pairwise fun a b => order.idxOf a ≤ order.idxOf b :=
      List.pairwise_map.mpr sorted
    have known : a ∈ order := by
      obtain ⟨o, gathered, rfl⟩ := List.mem_map.mp (between.subset List.mem_cons_self)
      obtain ⟨name, listed, found⟩ := List.mem_filterMap.mp gathered
      exact named name o found ▸ listed
    have three := increasing.sublist between
    simp only [List.pairwise_cons, List.mem_cons, forall_eq_or_imp] at three
    exact (List.idxOf_inj known).mp (Nat.le_antisymm three.1.1 three.2.1.1)
  · intro grouped
    refine List.mergeSort_of_pairwise (List.pairwise_iff_forall_sublist.mpr fun {o o'} pair => ?_)
    apply decide_eq_true
    by_contra more
    have less : order.idxOf o'.name < order.idxOf o.name := Nat.lt_of_not_le more
    have same := grouped o'.name o.name ((sublist_of_idxOf_lt named pair less).map TaskOutput.name)
    rw [same] at less
    exact Nat.lt_irrefl _ less

end Arranged

/-! ## In line and apart -/

section Contexts
variable {crew other : Crew} {p : Nat} {t t' : CrewTask}

section Alike
variable (names : other.tasks.map (·.name) = crew.tasks.map (·.name)) (same : t'.context = t.context)
include names

theorem namesBefore_eq : namesBefore other p = namesBefore crew p := by
  rw [namesBefore, namesBefore, List.map_take, List.map_take, names]

include same

theorem dependencies_eq : other.dependencies p t' = crew.dependencies p t := by
  rw [Crew.dependencies, Crew.dependencies, same]
  split
  · exact namesBefore_eq names
  · rfl

theorem heardBefore_eq_heardBefore {replies replies' : List Reply}
    (outputs : ∀ name ∈ earlierNames crew p t, outputOf? replies' name = outputOf? replies name) :
    heardBefore other replies' p t' = heardBefore crew replies p t := by
  have earlier : earlierNames other p t' = earlierNames crew p t := by
    rw [earlierNames, earlierNames, namesBefore_eq names, dependencies_eq names same]
  rw [heardBefore, heardBefore, earlier]
  exact List.filterMap_congr outputs

end Alike

theorem names_of_heardOf {replies : List Reply} {names : List String} {outputs : List TaskOutput}
    (heard : HeardOf replies names outputs) : outputs.map (·.name) = names := by
  induction heard with
  | nil => rfl
  | cons found _ ih => rw [List.map_cons, name_of_outputOf? found, ih]

/-- Two kickoffs of crews whose tasks have the same names, which are all different, and a task with the same
context in each. Where the tasks before it on which it depends yield the same in both, it receives the same
outputs, as often as it names them, and whenever they were ready: in the same order if it runs in line in both
or apart in both, and if it runs in line in one and apart in the other exactly when equal names stand together. -/
theorem contexts_agree_iff_grouped (distinct : (crew.tasks.map (·.name)).Nodup)
    (names : other.tasks.map (·.name) = crew.tasks.map (·.name)) {inputs inputs' : Inputs}
    {replies replies' : List Reply} {k k' : Kickoff} (course : Course (Kickoff.start crew inputs) replies k)
    (course' : Course (Kickoff.start other inputs') replies' k') (same : t'.context = t.context)
    {context context' : List TaskOutput} (receives : Receives k p t context) (receives' : Receives k' p t' context')
    (outputs : ∀ name ∈ earlierNames crew p t, outputOf? replies' name = outputOf? replies name) :
    context'.Perm context ∧ (t'.isAsync = t.isAsync → context' = context) ∧
      (t.isAsync = false → context.map (·.name) = earlierNames crew p t ∧
        (t'.isAsync = true → (context' = context ↔ Grouped (earlierNames crew p t)))) := by
  obtain ⟨heard, shown⟩ := context_of_receives distinct course receives
  obtain ⟨_, shown'⟩ := context_of_receives (names ▸ distinct) course' receives'
  rw [dependencies_eq names same, heardBefore_eq_heardBefore names same outputs] at shown'
  have perm : ∀ apart : Bool, (if apart then arranged (crew.dependencies p t) (heardBefore crew replies p t)
      else heardBefore crew replies p t).Perm (heardBefore crew replies p t) := by
    intro apart
    cases apart with
    | true => exact List.mergeSort_perm ..
    | false => exact .refl _
  refine ⟨?_, fun alike => ?_, fun inLine => ?_⟩
  · rw [shown, shown']
    exact (perm _).trans (perm _).symm
  · rw [shown, shown', alike]
  · rw [if_neg (by simp [inLine])] at shown
    refine ⟨by rw [shown, names_of_heardOf heard], fun apart => ?_⟩
    rw [if_pos apart] at shown'
    rw [shown, shown', ← names_of_heardOf heard, heardBefore_eq]
    refine arranged_eq_self_iff fun name o found => ?_
    split at found
    · exact name_of_outputOf? found
    · cases found

end Contexts

/-! ## A task that names another twice -/

def Kickoff.play (k : Kickoff) : List (Actor × String) → Option (List Reply × Kickoff)
  | [] => some ([], k)
  | (who, text) :: turns =>
    match k.workBy? who with
    | some w => ((k.answerBy (.ok text) who).play turns).map fun (replies, last) => ((w, .ok text) :: replies, last)
    | none => (k.moveBy who).bind fun next => next.play turns

theorem Kickoff.course_of_play {first k last : Kickoff} {earlier replies : List Reply} {turns : List (Actor × String)}
    (course : Course first earlier k) (played : k.play turns = some (replies, last)) :
    Course first (earlier ++ replies) last := by
  induction turns generalizing k earlier replies with
  | nil =>
      cases played
      rwa [List.append_nil]
  | cons turn turns ih =>
      obtain ⟨who, text⟩ := turn
      rw [play] at played
      cases working : k.workBy? who with
      | some w =>
          rw [working] at played
          obtain ⟨⟨later, _⟩, rest, same⟩ := Option.map_eq_some_iff.mp played
          cases same
          have answered := ih (course.further (.answered (.ok text) working)) rest
          rwa [List.append_assoc] at answered
      | none =>
          rw [working] at played
          obtain ⟨next, moved, rest⟩ := Option.bind_eq_some_iff.mp played
          have goesOn := ih (course.further (.moved moved)) rest
          rwa [Option.toList_none, List.append_nil] at goesOn

/-- A task with a context. -/
def citation (context : List String) (apart : Bool) : CrewTask := ⟨"c", "C", "it", none, [], context, none, apart⟩

/-- Two tasks before it. The second one runs apart as well if the task does. -/
def citing (context : List String) (apart : Bool) : Crew :=
  { desk with
    tasks := [⟨"a", "A", "it", none, [], [], none, false⟩, ⟨"b", "B", "it", none, [], [], none, apart⟩,
      citation context apart] }

def citingTurns (context : List String) : Bool → List (Actor × String)
  | false =>
    ["", "", "one", "", "", "", "two", ""].map (fun text => (.main 0, text)) ++
      context.map fun _ => (.main 0, "")
  | true =>
    ["", "", "one", "", ""].map (fun text => (.main 0, text)) ++
      [(.job 0 0, ""), (.job 0 0, "two")] ++ (context.filter (· == "b")).map fun _ => (.job 0 1, "")

/-- What is gathered for the task, by names and texts, in line and apart. The tasks before it yield the same. -/
def citesAs (context : List String) (inLine byJob : List (String × String)) : Bool :=
  ((Kickoff.start (citing context false) []).play (citingTurns context false)).any fun (replies, k) =>
    ((Kickoff.start (citing context true) []).play (citingTurns context true)).any fun (replies', k') =>
      ["a", "b"].all (fun name => outputOf? replies' name == outputOf? replies name) &&
        match k.main, (k'.jobs[1]? : Option Job) with
        | .gathering 2 _ _ gathered [], some ⟨_, _, order, .gathering gathered' []⟩ =>
          order == context && gathered.map (fun o => (o.name, o.raw)) == inLine &&
            gathered'.map (fun o => (o.name, o.raw)) == byJob
        | _, _ => false

theorem exists_citation {context : List String} {inLine byJob : List (String × String)}
    (shown : citesAs context inLine byJob = true) :
    ∃ replies replies' k k' gathered gathered',
      Course (Kickoff.start (citing context false) []) replies k ∧
        Course (Kickoff.start (citing context true) []) replies' k' ∧
        Receives k 2 (citation context false) gathered ∧
        Receives k' 2 (citation context true) (arranged context gathered') ∧
        (∀ name ∈ ["a", "b"], outputOf? replies' name = outputOf? replies name) ∧
        gathered.map (fun o => (o.name, o.raw)) = inLine ∧ gathered'.map (fun o => (o.name, o.raw)) = byJob := by
  simp only [citesAs, Option.any_eq_true, Bool.and_eq_true] at shown
  obtain ⟨⟨replies, k⟩, played, ⟨replies', k'⟩, played', same, shown⟩ := shown
  have course := Kickoff.course_of_play .here played
  have course' := Kickoff.course_of_play .here played'
  have placed := Kickoff.placed_of_course course
  have placed' := Kickoff.placed_of_course course'
  split at shown
  · next t agent gathered t' agent' order gathered' main standing =>
      simp only [Bool.and_eq_true, beq_iff_eq] at shown
      obtain ⟨⟨rfl, texts⟩, texts'⟩ := shown
      obtain rfl : t = citation order false := by
        unfold Placed at placed
        rw [main] at placed
        cases placed with
        | gathering _ task _ =>
            rw [Kickoff.crew_of_course course] at task
            exact (Option.some.inj task).symm
      obtain ⟨_, jobs⟩ := PlacedBy.handedOut placed'
      obtain ⟨q, _, place, _⟩ := jobs.place standing
      have third : (apart (citing order true))[1]? = some (citation order true, 2) := rfl
      rw [Kickoff.crew_of_course course', third] at place
      cases place
      refine ⟨replies, replies', k, k', gathered, gathered', course, course', .inLine main,
        .apart standing ?_, by simpa using same, texts, texts'⟩
      rw [Kickoff.crew_of_course course', third]
  · cases shown

/-- Names of which one is repeated, but with no other in between: the task receives the same in line and apart. -/
theorem grouped_names_cited_alike :
    ∃ replies replies' k k' received received',
      Course (Kickoff.start (citing ["b", "ghost", "a", "a"] false) []) replies k ∧
        Course (Kickoff.start (citing ["b", "ghost", "a", "a"] true) []) replies' k' ∧
        Receives k 2 (citation ["b", "ghost", "a", "a"] false) received ∧
        Receives k' 2 (citation ["b", "ghost", "a", "a"] true) received' ∧
        received.map (·.name) = ["b", "a", "a"] ∧ received' = received := by
  have shown : citesAs ["b", "ghost", "a", "a"] [("b", "two"), ("a", "one"), ("a", "one")]
      [("a", "one"), ("a", "one"), ("b", "two")] = true := by
    decide +kernel
  obtain ⟨replies, replies', k, k', received, _, course, course', receives, receives', same, _⟩ :=
    exists_citation shown
  have distinct : ((citing ["b", "ghost", "a", "a"] false).tasks.map (·.name)).Nodup := by decide
  have alike : (citing ["b", "ghost", "a", "a"] true).tasks.map (·.name) =
      (citing ["b", "ghost", "a", "a"] false).tasks.map (·.name) := rfl
  have earlier : earlierNames (citing ["b", "ghost", "a", "a"] false) 2
      (citation ["b", "ghost", "a", "a"] false) = ["b", "a", "a"] := by decide +kernel
  have known : ["b", "a", "a"] ⊆ ["a", "b"] := by decide
  have cited : (citation ["b", "ghost", "a", "a"] true).context =
      (citation ["b", "ghost", "a", "a"] false).context := rfl
  obtain ⟨_, _, inLine⟩ := contexts_agree_iff_grouped distinct alike course course' cited receives receives'
    fun name member => same name (known (earlier ▸ member))
  obtain ⟨names, agree⟩ := inLine rfl
  rw [earlier] at names agree
  refine ⟨replies, replies', k, k', received, _, course, course', receives, receives', names, ?_⟩
  refine (agree rfl).mpr fun a b between => ?_
  have whole := between.eq_of_length rfl
  simp only [List.cons.injEq] at whole
  exact absurd (whole.1.symm.trans whole.2.2.1) (by decide)

/-- A name that is repeated behind another one: in line its output stands behind that of the other again, apart
it stands twice at the beginning. -/
theorem repeated_name_moved_apart :
    ∃ replies replies' k k' received received',
      Course (Kickoff.start (citing ["a", "b", "a"] false) []) replies k ∧
        Course (Kickoff.start (citing ["a", "b", "a"] true) []) replies' k' ∧
        Receives k 2 (citation ["a", "b", "a"] false) received ∧
        Receives k' 2 (citation ["a", "b", "a"] true) received' ∧
        (∀ name ∈ ["a", "b"], outputOf? replies' name = outputOf? replies name) ∧
        received.map (fun o => (o.name, o.raw)) = [("a", "one"), ("b", "two"), ("a", "one")] ∧
        received'.map (fun o => (o.name, o.raw)) = [("a", "one"), ("a", "one"), ("b", "two")] := by
  have shown : citesAs ["a", "b", "a"] [("a", "one"), ("b", "two"), ("a", "one")]
      [("a", "one"), ("a", "one"), ("b", "two")] = true := by decide +kernel
  obtain ⟨replies, replies', k, k', received, gathered, course, course', receives, receives', same, texts, texts'⟩ :=
    exists_citation shown
  have inOrder : arranged ["a", "b", "a"] gathered = gathered := by
    refine List.mergeSort_of_pairwise ?_
    have names : gathered.map (·.name) = ["a", "a", "b"] := by
      have firsts := congrArg (List.map Prod.fst) texts'
      rwa [List.map_map] at firsts
    have increasing : (gathered.map (·.name)).Pairwise fun a b =>
        decide (["a", "b", "a"].idxOf a ≤ ["a", "b", "a"].idxOf b) = true := by
      rw [names]
      decide
    exact List.pairwise_map.mp increasing
  rw [inOrder] at receives'
  exact ⟨replies, replies', k, k', received, gathered, course, course', receives, receives', same, texts, texts'⟩

end CrewFlow.Crew
