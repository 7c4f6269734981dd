import Mathlib
import CrewFlow.Proofs.Crew.Dependencies
import CrewFlow.Proofs.Crew.Once
/-!
# What is gathered for tasks

The main line asks for the output under every name on which a task depends, one after another, and comes by one
where the name is of a task before it. A job has some of these outputs from its beginning, and awaits the jobs
that will have the others.
-/
set_option autoImplicit false

namespace CrewFlow.Crew

open Kickoff (Change Course Placed PlacedBy HandedOutBefore Reply Settled arranged)
open Text (Inputs)

/-! ## What a task receives -/

/-- The names of the tasks before a position. -/
def namesBefore (crew : Crew) (p : Nat) : List String := (crew.tasks.take p).map (·.name)

/-- The names on which a task at a position depends, without those of no task before it. -/
def earlierNames (crew : Crew) (p : Nat) (t : CrewTask) : List String :=
  (crew.dependencies p t).filter (namesBefore crew p).contains

/-- Work on a task begins, in line or by a job, with some outputs as its context. -/
inductive Receives (k : Kickoff) (p : Nat) (t : CrewTask) : List TaskOutput → Prop where
  | inLine {agent : Agent} {context : List TaskOutput} (main : k.main = .gathering p t agent context []) :
      Receives k p t context
  | apart {j : Nat} {agent : Agent} {order : List String} {context : List TaskOutput}
      (standing : k.jobs[j]? = some ⟨t, agent, order, .gathering context []⟩)
      (place : (apart k.crew)[j]? = some (t, p)) : Receives k p t (arranged order context)

theorem jobWork?_setPhase_self {k : Kickoff} {j : Nat} {job : Job} {phase : JobPhase}
    (standing : k.jobs[j]? = some job) :
    (k.setPhase j phase).jobWork? j =
      match phase with
      | .working w => some w
      | _ => none := by
  have moved : (k.setPhase j phase).jobs[j]? = some { job with phase } := by
    rw [Kickoff.setPhase, List.getElem?_modify, standing, Option.map_eq_map, Option.map_some, if_pos rfl]
  rw [Kickoff.jobWork?_eq, moved]
  rfl

theorem Receives.works {k : Kickoff} {p : Nat} {t : CrewTask} {context : List TaskOutput}
    (receives : Receives k p t context) :
    ∃ who next agent, k.moveBy who = some next ∧ next.workBy? who = some (k.work t agent context) := by
  cases receives with
  | @inLine agent _ main =>
      refine ⟨.main 0, { k with main := .working p (k.work t agent context) }, agent, ?_, rfl⟩
      rw [Kickoff.moveBy, Kickoff.moveMain, main]
  | @apart j agent order context standing place =>
      refine ⟨.job 0 j, k.setPhase j (.working (k.work t agent (arranged order context))), agent, ?_, ?_⟩
      · rw [Kickoff.moveBy, Kickoff.moveJob, standing]
      · rw [Kickoff.workBy?, jobWork?_setPhase_self standing]

theorem exists_receives {k next : Kickoff} (placed : Placed k) {who : Actor} (moved : k.moveBy who = some next)
    {w : Work} (working : next.workBy? who = some w) :
    ∃ p agent context, Receives k p w.task context ∧ w = k.work w.task agent context := by
  have change : Change (fun _ _ _ => .ok "") k who.job? next := Kickoff.change_of_moveBy moved
  rw [Kickoff.workBy?_eq_workOn?] at working
  generalize who.job? = mover at change working
  cases change with
  | begun main =>
      cases working
      exact ⟨_, _, _, .inLine main, rfl⟩
  | @jobBegun j job context standing phase =>
      obtain ⟨_, jobs⟩ := PlacedBy.handedOut placed
      obtain ⟨p, _, place, _⟩ := jobs.place standing
      obtain ⟨t, agent, order, _⟩ := job
      cases phase
      rw [Kickoff.workOn?, jobWork?_setPhase_self standing] at working
      cases working
      exact ⟨p, agent, _, .apart standing place, rfl⟩
  | jobGathered standing phase result =>
      rw [Kickoff.workOn?, jobWork?_setPhase_self standing] at working
      cases working
  | jobBroken standing phase result =>
      rw [Kickoff.workOn?, jobWork?_setPhase_self standing] at working
      cases working
  | jobAnswered standing phase =>
      rw [Kickoff.workOn?, jobWork?_setPhase_self standing] at working
      cases working
  | _ => cases working

/-! ## What is gathered -/

/-- What is done or pending belongs to tasks before a position, and nothing is both. -/
structure Filed (crew : Crew) (p : Nat) (k : Kickoff) : Prop where
  done : ∀ name, (k.done.lookup name).isSome → name ∈ namesBefore crew p
  pending : ∀ name, (k.pending.lookup name).isSome → name ∈ namesBefore crew p
  apart : ∀ name, (k.done.lookup name).isSome → k.pending.lookup name = none

section Gathered
variable (crew : Crew) (replies : List Reply)

def HeardOf (names : List String) (outputs : List TaskOutput) : Prop :=
  List.Forall₂ (fun name o => outputOf? replies name = some o) names outputs

/-- The main line has gathered the outputs under the names it has asked for, as far as they are of tasks before. -/
inductive MainGathers (k : Kickoff) : MainPhase → Prop where
  | taking {p : Nat} (filed : Filed crew p k) : MainGathers k (.taking p)
  | gathering {p : Nat} {t : CrewTask} {agent : Agent} {context : List TaskOutput} {names asked : List String}
      (filed : Filed crew p k) (order : crew.dependencies p t = asked ++ names)
      (gathered : HeardOf replies (asked.filter (namesBefore crew p).contains) context) :
      MainGathers k (.gathering p t agent context names)
  | working {p : Nat} {w : Work} (filed : Filed crew p k) : MainGathers k (.working p w)
  | closing {names : List String} : MainGathers k (.closing names)
  | finished {result : Except ExecutionError CrewOutput} : MainGathers k (.finished result)

def PhaseGathers (k : Kickoff) (p : Nat) (t : CrewTask) : JobPhase → Prop
  | .gathering context awaited => ∃ has lacks, (has ++ lacks).Perm (earlierNames crew p t) ∧
      HeardOf replies has context ∧
      List.Forall₂ (fun name i => ∃ job, k.jobs[i]? = some job ∧ job.task.name = name) lacks awaited
  | _ => True

structure Gathers (k : Kickoff) : Prop where
  main : MainGathers crew replies k k.main
  jobs : ∀ (j : Nat) (job : Job) (p : Nat), k.jobs[j]? = some job → (apart crew)[j]? = some (job.task, p) →
    PhaseGathers crew replies k p job.task job.phase

end Gathered

section Steps
variable {crew : Crew} {inputs : Inputs} {replies more : List Reply} {k next : Kickoff} {p : Nat} {t : CrewTask}

theorem outputOf?_append {name : String} {o : TaskOutput} (found : outputOf? replies name = some o) :
    outputOf? (replies ++ more) name = some o := by
  obtain ⟨r, heard, yields⟩ := Option.bind_eq_some_iff.mp found
  rw [outputOf?, List.find?_append, heard]
  exact yields

theorem PhaseGathers.append {phase : JobPhase} (gathers : PhaseGathers crew replies k p t phase) :
    PhaseGathers crew (replies ++ more) k p t phase := by
  cases phase with
  | gathering context awaited =>
      obtain ⟨has, lacks, all, heard, awaits⟩ := gathers
      exact ⟨has, lacks, all, heard.imp fun _ _ => outputOf?_append, awaits⟩
  | working w => trivial
  | finished result => trivial

theorem PhaseGathers.of_jobs {phase : JobPhase} (gathers : PhaseGathers crew replies k p t phase)
    (grows : ∀ (i : Nat) job, k.jobs[i]? = some job → ∃ job', next.jobs[i]? = some job' ∧ job'.task = job.task) :
    PhaseGathers crew replies next p t phase := by
  cases phase with
  | gathering context awaited =>
      obtain ⟨has, lacks, all, heard, awaits⟩ := gathers
      refine ⟨has, lacks, all, heard, awaits.imp ?_⟩
      rintro name i ⟨job, there, named⟩
      obtain ⟨job', there', same⟩ := grows i job there
      exact ⟨job', there', same ▸ named⟩
  | working w => trivial
  | finished result => trivial

theorem namesBefore_subset {q : Nat} (later : p ≤ q) : namesBefore crew p ⊆ namesBefore crew q :=
  ((List.take_sublist_take_left later).map _).subset

theorem Filed.of_same {q : Nat} (filed : Filed crew p k) (done : next.done = k.done)
    (pending : next.pending = k.pending) (later : p ≤ q) : Filed crew q next where
  done := by
    intro name there
    rw [done] at there
    exact namesBefore_subset later (filed.done name there)
  pending := by
    intro name there
    rw [pending] at there
    exact namesBefore_subset later (filed.pending name there)
  apart := by
    rw [done, pending]
    exact filed.apart

theorem MainGathers.of_same {main : MainPhase} (gathers : MainGathers crew replies k main)
    (done : next.done = k.done) (pending : next.pending = k.pending) : MainGathers crew replies next main := by
  cases gathers with
  | taking filed => exact .taking (filed.of_same done pending le_rfl)
  | gathering filed order gathered => exact .gathering (filed.of_same done pending le_rfl) order gathered
  | working filed => exact .working (filed.of_same done pending le_rfl)
  | closing => exact .closing
  | finished => exact .finished

theorem MainGathers.append {main : MainPhase} (gathers : MainGathers crew replies k main) :
    MainGathers crew (replies ++ more) k main := by
  cases gathers with
  | taking filed => exact .taking filed
  | gathering filed order gathered =>
      exact .gathering filed order (gathered.imp fun _ _ => outputOf?_append)
  | working filed => exact .working filed
  | closing => exact .closing
  | finished => exact .finished

theorem Gathers.append (gathers : Gathers crew replies k) : Gathers crew (replies ++ more) k :=
  ⟨gathers.main.append, fun j job p standing place => (gathers.jobs j job p standing place).append⟩

theorem Gathers.withMain (gathers : Gathers crew replies k) (jobs : next.jobs = k.jobs)
    (main : MainGathers crew replies next next.main) : Gathers crew replies next := by
  refine ⟨main, fun j job p standing place => ?_⟩
  rw [jobs] at standing
  exact (gathers.jobs j job p standing place).of_jobs fun _ job there => ⟨job, jobs ▸ there, rfl⟩

theorem Gathers.of_setPhase {j : Nat} {job : Job} {phase : JobPhase} (gathers : Gathers crew replies k)
    (standing : k.jobs[j]? = some job)
    (phaseGathers : ∀ p, (apart crew)[j]? = some (job.task, p) → PhaseGathers crew replies k p job.task phase) :
    Gathers crew replies (k.setPhase j phase) := by
  have grows : ∀ (i : Nat) other, k.jobs[i]? = some other →
      ∃ job', (k.setPhase j phase).jobs[i]? = some job' ∧ job'.task = other.task :=
    fun _ _ there => Kickoff.exists_job_setPhase j phase there
  refine ⟨gathers.main.of_same rfl rfl, fun i other p there place => ?_⟩
  obtain ⟨old, before, ⟨rfl, rfl⟩ | ⟨_, rfl⟩⟩ := Kickoff.job_of_setPhase there
  · cases standing.symm.trans before
    exact (phaseGathers p place).of_jobs grows
  · exact (gathers.jobs i _ p before place).of_jobs grows

/-! ## Handing out -/

theorem forall₂_of_filterMap {α β : Type} (f : α → Option β) (xs : List α) :
    List.Forall₂ (fun x y => f x = some y) (xs.filter fun x => (f x).isSome) (xs.filterMap f) := by
  induction xs with
  | nil => exact .nil
  | cons x rest ih =>
      cases given : f x with
      | none => simpa [given] using ih
      | some y => simpa [given] using ih

theorem not_mem_namesBefore (taken : ∀ t ∈ crew.tasks.take p, Promised k t.name) {name : String}
    (absent : k.done.lookup name = none) (unknown : k.pending.lookup name = none) : name ∉ namesBefore crew p := by
  intro before
  obtain ⟨t, member, rfl⟩ := List.mem_map.mp before
  rcases taken t member with done | pending
  · simp [absent] at done
  · simp [unknown] at pending

/-- Of the tasks before a position each is done or pending, and nothing else is. -/
theorem Filed.perm_earlierNames (filed : Filed crew p k) (taken : ∀ t ∈ crew.tasks.take p, Promised k t.name)
    (names : List String) :
    (names.filter (fun name => (k.done.lookup name).isSome) ++
      names.filter fun name => (k.pending.lookup name).isSome).Perm (names.filter (namesBefore crew p).contains) := by
  have done : (names.filter (namesBefore crew p).contains).filter (fun name => (k.done.lookup name).isSome) =
      names.filter fun name => (k.done.lookup name).isSome := by
    rw [List.filter_filter]
    refine List.filter_congr fun name _ => ?_
    cases there : (k.done.lookup name).isSome with
    | false => rfl
    | true => simpa using filed.done name there
  have pending : (names.filter (namesBefore crew p).contains).filter (fun name => !(k.done.lookup name).isSome) =
      names.filter fun name => (k.pending.lookup name).isSome := by
    rw [List.filter_filter]
    refine List.filter_congr fun name _ => ?_
    cases there : (k.done.lookup name).isSome with
    | true => simp [filed.apart name there]
    | false =>
        cases waits : (k.pending.lookup name).isSome with
        | true => simpa using filed.pending name waits
        | false =>
            have unknown := not_mem_namesBefore taken (by simpa using there) (by simpa using waits)
            simpa using unknown
  have split := List.filter_append_perm (fun name => (k.done.lookup name).isSome)
    (names.filter (namesBefore crew p).contains)
  rwa [done, pending] at split

theorem name_mem_namesBefore (task : crew.tasks[p]? = some t) : t.name ∈ namesBefore crew (p + 1) := by
  rw [namesBefore, List.take_add_one, task, List.map_append]
  exact List.mem_append_right _ List.mem_cons_self

theorem name_not_mem_namesBefore (distinct : (crew.tasks.map (·.name)).Nodup) (task : crew.tasks[p]? = some t) :
    t.name ∉ namesBefore crew p := by
  intro before
  obtain ⟨t', member, same⟩ := List.mem_map.mp before
  obtain ⟨i, place⟩ := List.mem_iff_getElem?.mp member
  rw [List.getElem?_take] at place
  split at place
  · next inside =>
      have := position_unique distinct place task same
      omega
  · cases place

/-- A job that is handed out has what is done of the outputs under the names of tasks before, and awaits the rest. -/
theorem Gathers.of_handedOut {agent : Agent} (gathers : Gathers crew replies k)
    (distinct : (crew.tasks.map (·.name)).Nodup) (once : (answeredNames replies).Nodup)
    (stored : Stored crew inputs replies k) (taken : ∀ t ∈ crew.tasks.take p, Promised k t.name)
    (main : k.main = .taking p) (jobs : HandedOutBefore k p) (task : crew.tasks[p]? = some t)
    (async : t.isAsync = true) : Gathers crew replies (k.handedOut p t agent) := by
  obtain rfl : k.crew = crew := stored.ofCrew
  have grows : ∀ (i : Nat) job, k.jobs[i]? = some job →
      ∃ job', (k.handedOut p t agent).jobs[i]? = some job' ∧ job'.task = job.task :=
    fun _ job there => ⟨job, Kickoff.job_handedOut p t agent there, rfl⟩
  have filed : Filed k.crew p k := by
    have knows := gathers.main
    rw [main] at knows
    cases knows with
    | taking filed => exact filed
  have new := name_not_mem_namesBefore distinct task
  have later : Filed k.crew (p + 1) k := filed.of_same rfl rfl (Nat.le_succ p)
  refine ⟨.taking ⟨later.done, fun name there => ?_, fun name there => ?_⟩, fun j job q standing place => ?_⟩
  · rw [Kickoff.handedOut, Kickoff.lookup_setEntry] at there
    split at there
    · next same => exact same ▸ name_mem_namesBefore task
    · exact later.pending name there
  · have other : name ≠ t.name := fun same => new (same ▸ filed.done name there)
    rw [Kickoff.handedOut, Kickoff.lookup_setEntry, if_neg other]
    exact filed.apart name there
  · rcases Kickoff.job_of_handedOut standing with old | ⟨rfl, rfl⟩
    · exact (gathers.jobs j job q old place).of_jobs grows
    · cases place.symm.trans (jobs.place_next task async)
      refine ⟨_, _, filed.perm_earlierNames taken _, ?_, ?_⟩
      · refine (forall₂_of_filterMap (fun name => k.done.lookup name) _).imp fun name o found => ?_
        exact (stored.done name o found).outputOf?_eq once
      · refine (forall₂_of_filterMap (fun name => k.pending.lookup name) _).imp fun name i found => ?_
        obtain ⟨job, there, named⟩ := stored.pending name i found
        obtain ⟨job', there', same⟩ := grows i job there
        exact ⟨job', there', same ▸ named⟩

/-! ## Gathering -/

theorem Filed.of_settled (filed : Filed crew p k) {name : String} {o : Option TaskOutput}
    (settled : Settled k name o next) : Filed crew p next := by
  cases settled with
  | done found => exact filed
  | nothing absent unknown => exact filed
  | yielded absent waiting result =>
      refine ⟨fun other there => ?_, fun other there => ?_, fun other there => ?_⟩
      · rw [Kickoff.take, Kickoff.lookup_setEntry] at there
        split at there
        · next same => exact filed.pending other (by rw [same, waiting]; rfl)
        · exact filed.done other there
      · rw [Kickoff.take, Json.Fields.lookup_filter] at there
        split at there
        · cases there
        · exact filed.pending other there
      · rw [Kickoff.take, Kickoff.lookup_setEntry] at there
        rw [Kickoff.take, Json.Fields.lookup_filter]
        split at there
        · next same => rw [if_pos same]
        · next apart => rw [if_neg apart, filed.apart other there]

theorem Filed.of_answered (filed : Filed crew p k) (distinct : (crew.tasks.map (·.name)).Nodup)
    (task : crew.tasks[p]? = some t) (o : TaskOutput) {main : MainPhase} :
    Filed crew (p + 1) { k with done := Kickoff.setEntry k.done t.name o, main } := by
  have new := name_not_mem_namesBefore distinct task
  have later : Filed crew (p + 1) k := filed.of_same rfl rfl (Nat.le_succ p)
  refine ⟨fun name there => ?_, later.pending, fun name there => ?_⟩
  · rw [Kickoff.lookup_setEntry] at there
    split at there
    · next same => exact same ▸ name_mem_namesBefore task
    · exact later.done name there
  · rw [Kickoff.lookup_setEntry] at there
    split at there
    · next same =>
        cases waits : k.pending.lookup name with
        | none => rfl
        | some j => exact absurd (same ▸ filed.pending name (by rw [waits]; rfl)) new
    · exact filed.apart name there

/-- The main line asks for the output under a name: it comes by one exactly when the name is of a task before. -/
theorem heardOf_of_settled (filed : Filed crew p k) (stored : Stored crew inputs replies k)
    (once : (answeredNames replies).Nodup) (taken : ∀ t ∈ crew.tasks.take p, Promised k t.name) {name : String}
    {o : Option TaskOutput} (settled : Settled k name o next) :
    HeardOf replies ([name].filter (namesBefore crew p).contains) o.toList := by
  have here : ∀ {o}, name ∈ namesBefore crew p → YieldedUnder crew inputs replies name o →
      HeardOf replies ([name].filter (namesBefore crew p).contains) [o] := by
    intro o before yielded
    rw [List.filter_cons_of_pos (List.contains_iff_mem.mpr before)]
    exact .cons (yielded.outputOf?_eq once) .nil
  have after := stored.of_settled settled
  cases settled with
  | @done o found => exact here (filed.done name (by rw [found]; rfl)) (stored.done name o found)
  | @yielded o j absent waiting result =>
      refine here (filed.pending name (by rw [waiting]; rfl)) (after.done name o ?_)
      rw [Kickoff.take, Kickoff.lookup_setEntry, if_pos rfl]
  | nothing absent unknown =>
      have other := not_mem_namesBefore taken absent unknown
      rw [List.filter_cons_of_neg (by simpa using other)]
      exact .nil

theorem Gathers.of_change {ask : Answers} {mover : Option Nat} (gathers : Gathers crew replies k)
    (distinct : (crew.tasks.map (·.name)).Nodup) (once : (answeredNames replies).Nodup)
    (traced : Traced crew inputs replies k) (placed : Placed k) (change : Change ask k mover next) :
    Gathers crew replies next := by
  obtain ⟨stored, main⟩ := traced
  have knows := gathers.main
  unfold Placed at placed
  obtain rfl : k.crew = crew := stored.ofCrew
  cases change with
  | unmanned phase task nobody => exact gathers.withMain rfl .finished
  | refused phase outcome => exact gathers.withMain rfl .finished
  | broken awaits result => exact gathers.withMain rfl .finished
  | ended phase => exact gathers.withMain rfl .finished
  | allTaken phase last => exact gathers.withMain rfl .closing
  | closed phase settled => exact gathers.withMain settled.frame.2.2.2.1 .closing
  | handedOut phase task owner async =>
      rw [phase] at main placed
      cases main with
      | taking taken =>
          cases placed with
          | taking jobs => exact gathers.of_handedOut distinct once stored taken phase jobs task async
  | @takenUp p t agent phase task owner inLine =>
      rw [phase] at knows
      cases knows with
      | taking filed =>
          have nothing : HeardOf replies (List.filter (namesBefore k.crew p).contains []) [] := .nil
          exact gathers.withMain rfl (.gathering (filed.of_same rfl rfl le_rfl) rfl nothing)
  | @gathered p t agent context name names o behind phase settled =>
      rw [phase] at main knows
      cases main with
      | gathering taken task owner =>
          cases knows with
          | @gathering _ _ _ _ _ asked filed order gathered =>
              have heard : HeardOf replies ((asked ++ [name]).filter (namesBefore k.crew p).contains)
                  (context ++ o.toList) := by
                rw [List.filter_append]
                exact List.rel_append gathered (heardOf_of_settled filed stored once taken settled)
              refine gathers.withMain settled.frame.2.2.2.1
                (.gathering ((filed.of_settled settled).of_same rfl rfl le_rfl) ?_ heard)
              rw [order, List.append_assoc, List.singleton_append]
  | begun phase =>
      rw [phase] at knows
      cases knows with
      | gathering filed order gathered => exact gathers.withMain rfl (.working (filed.of_same rfl rfl le_rfl))
  | answered phase outcome =>
      rw [phase] at knows placed
      cases knows with
      | working filed =>
          cases placed with
          | working jobs task inLine => exact gathers.withMain rfl (.taking (filed.of_answered distinct task _))
  | jobBegun standing phase => exact gathers.of_setPhase standing fun _ _ => trivial
  | jobBroken standing phase result => exact gathers.of_setPhase standing fun _ _ => trivial
  | jobAnswered standing phase => exact gathers.of_setPhase standing fun _ _ => trivial
  | @jobGathered j other job context awaited o standing phase result =>
      refine gathers.of_setPhase standing fun p place => ?_
      have before := gathers.jobs j job p standing place
      rw [phase] at before
      obtain ⟨has, lacks, all, heard, awaits⟩ := before
      -- Jobs are awaited in the order of the names that are lacking, so the output is for the first.
      obtain ⟨name, lacks', ⟨job', there, named⟩, later, rfl⟩ := List.forall₂_cons_right_iff.mp awaits
      obtain ⟨job₁, there₁, finished⟩ := Kickoff.jobResult?_eq_some result
      cases there.symm.trans there₁
      have kept := stored.jobs job' (List.mem_of_getElem? there)
      have yielded : YieldedUnder k.crew inputs replies name o :=
        ⟨job'.task, kept.task, named, kept.yields o finished⟩
      refine ⟨has ++ [name], lacks', ?_, ?_, later⟩
      · rwa [List.append_assoc, List.singleton_append]
      · exact List.rel_append heard (.cons (yielded.outputOf?_eq once) .nil)

theorem gathers_of_course (distinct : (crew.tasks.map (·.name)).Nodup)
    (course : Course (Kickoff.start crew inputs) replies k) : Gathers crew replies k := by
  have known : AnsweredOnce crew replies k ∧ Traced crew inputs replies k ∧ Placed k ∧ Gathers crew replies k := by
    refine Kickoff.invariant_of_course
      (fun replies k =>
        AnsweredOnce crew replies k ∧ Traced crew inputs replies k ∧ Placed k ∧ Gathers crew replies k)
      ⟨answeredOnce_of_course distinct .here, traced_start, .taking rfl, ?_⟩ ?_ ?_ course
    · exact ⟨.taking ⟨by simp [Kickoff.start], by simp [Kickoff.start], by simp [Kickoff.start]⟩,
        by simp [Kickoff.start]⟩
    · rintro replies k memory ⟨answered, traced, placed, gathers⟩
      exact ⟨⟨answered.once, answered.ahead, answered.underway⟩, traced.withMemory memory,
        placed.of_same rfl fun _ => id, gathers.withMain rfl (gathers.main.of_same rfl rfl)⟩
    · rintro replies ask k mover next ⟨answered, traced, placed, gathers⟩ change
      have heard := answered.of_change distinct traced placed change
      have known := traced.mono (List.subset_append_left replies (Kickoff.heardFrom ask k mover).toList)
      exact ⟨heard, traced.after change, placed.of_change change,
        gathers.append.of_change distinct heard.once known placed change⟩
  exact known.2.2.2

end Steps

end CrewFlow.Crew
