import Mathlib
import CrewFlow.Proofs.Crew.Events
import CrewFlow.Proofs.Crew.Outputs
import CrewFlow.Proofs.Crew.Places
import CrewFlow.Proofs.Crew.Timing
/-!
# Dependencies come first

Work on a task begins when the tasks before it on which it depends have been completed. The main line settles them
one after another; a job knows from its beginning which are done and awaits the jobs of the others. A task that is
taken up in line besides comes after all such tasks before it.
-/
set_option autoImplicit false

namespace CrewFlow.Crew

open Kickoff (Change Course Placed PlacedBy HandedOutBefore Reply Settled)
open Text (Inputs)

/-- A task at a position depends on one that stands before it. -/
structure DependsOn (crew : Crew) (p : Nat) (t earlier : CrewTask) : Prop where
  before : earlier ∈ crew.tasks.take p
  named : earlier.name ∈ crew.dependencies p t

section Prepared
variable (crew : Crew) (inputs : Inputs) (replies : List Reply)

def Due (k : Kickoff) (awaited : List Nat) (name : String) : Prop :=
  (∃ o, YieldedUnder crew inputs replies name o) ∨
    ∃ i ∈ awaited, ∃ job, k.jobs[i]? = some job ∧ job.task.name = name

def PhasePrepared (k : Kickoff) (p : Nat) (t : CrewTask) : JobPhase → Prop
  | .gathering _ awaited => ∀ earlier, DependsOn crew p t earlier → Due crew inputs replies k awaited earlier.name
  | .working _ => ∀ earlier, DependsOn crew p t earlier → ∃ o, YieldedUnder crew inputs replies earlier.name o
  | .finished _ => True

def InLineDone (k : Kickoff) (p : Nat) : Prop :=
  ∀ t ∈ crew.tasks.take p, t.isAsync = false → (k.done.lookup t.name).isSome

/-- The main line still asks for the outputs on which its task depends, or has them. -/
inductive MainPrepared (k : Kickoff) : MainPhase → Prop where
  | taking {p : Nat} (inLine : InLineDone crew k p) : MainPrepared k (.taking p)
  | gathering {p : Nat} {t : CrewTask} {agent : Agent} {context : List TaskOutput} {names : List String}
      (inLine : InLineDone crew k p)
      (asks : ∀ earlier, DependsOn crew p t earlier → earlier.name ∈ names ∨ (k.done.lookup earlier.name).isSome) :
      MainPrepared k (.gathering p t agent context names)
  | working {p : Nat} {w : Work} (inLine : InLineDone crew k p)
      (has : ∀ earlier, DependsOn crew p w.task earlier → (k.done.lookup earlier.name).isSome) :
      MainPrepared k (.working p w)
  | closing {names : List String} : MainPrepared k (.closing names)
  | finished {result : Except ExecutionError CrewOutput} : MainPrepared k (.finished result)

structure Prepared (k : Kickoff) : Prop where
  main : MainPrepared crew k k.main
  jobs : ∀ (j : Nat) (job : Job) (p : Nat), k.jobs[j]? = some job → (apart crew)[j]? = some (job.task, p) →
    PhasePrepared crew inputs replies k p job.task job.phase

end Prepared

section Steps
variable {crew : Crew} {inputs : Inputs} {replies more : List Reply} {k next : Kickoff}
variable {p : Nat} {t : CrewTask}

/-! ## Jobs -/

theorem Due.mono {awaited : List Nat} {name : String} (due : Due crew inputs replies k awaited name)
    (subset : replies ⊆ more)
    (grows : ∀ (i : Nat) job, k.jobs[i]? = some job → ∃ job', next.jobs[i]? = some job' ∧ job'.task = job.task) :
    Due crew inputs more next awaited name := by
  rcases due with ⟨o, yielded⟩ | ⟨i, listed, job, standing, named⟩
  · exact .inl ⟨o, yielded.mono subset⟩
  · obtain ⟨job', there, same⟩ := grows i job standing
    exact .inr ⟨i, listed, job', there, same ▸ named⟩

theorem PhasePrepared.mono {phase : JobPhase} (prepared : PhasePrepared crew inputs replies k p t phase)
    (subset : replies ⊆ more)
    (grows : ∀ (i : Nat) job, k.jobs[i]? = some job → ∃ job', next.jobs[i]? = some job' ∧ job'.task = job.task) :
    PhasePrepared crew inputs more next p t phase := by
  cases phase with
  | gathering context awaited => exact fun earlier depends => (prepared earlier depends).mono subset grows
  | working w =>
      intro earlier depends
      obtain ⟨o, yielded⟩ := prepared earlier depends
      exact ⟨o, yielded.mono subset⟩
  | finished result => trivial

theorem Prepared.mono (prepared : Prepared crew inputs replies k) (subset : replies ⊆ more) :
    Prepared crew inputs more k :=
  ⟨prepared.main, fun j job p standing place =>
    (prepared.jobs j job p standing place).mono subset fun _ job there => ⟨job, there, rfl⟩⟩

theorem Prepared.withMain (prepared : Prepared crew inputs replies k) (jobs : next.jobs = k.jobs)
    (main : MainPrepared crew next next.main) : Prepared crew inputs replies next := by
  refine ⟨main, fun j job p standing place => ?_⟩
  rw [jobs] at standing
  exact (prepared.jobs j job p standing place).mono (List.Subset.refl _) fun _ job there => ⟨job, jobs ▸ there, rfl⟩

theorem MainPrepared.of_done {main : MainPhase} (prepared : MainPrepared crew k main)
    (done : ∀ name, (k.done.lookup name).isSome → (next.done.lookup name).isSome) : MainPrepared crew next main := by
  have inLineDone : ∀ {p}, InLineDone crew k p → InLineDone crew next p :=
    fun inLine t member async => done _ (inLine t member async)
  cases prepared with
  | taking inLine => exact .taking (inLineDone inLine)
  | gathering inLine asks =>
      exact .gathering (inLineDone inLine) fun earlier depends => (asks earlier depends).imp_right (done _)
  | working inLine has => exact .working (inLineDone inLine) fun earlier depends => done _ (has earlier depends)
  | closing => exact .closing
  | finished => exact .finished

theorem Prepared.of_setPhase {j : Nat} {job : Job} {phase : JobPhase} (prepared : Prepared crew inputs replies k)
    (standing : k.jobs[j]? = some job)
    (prepares : ∀ p, (apart crew)[j]? = some (job.task, p) → PhasePrepared crew inputs replies k p job.task phase) :
    Prepared crew inputs replies (k.setPhase j phase) := by
  have grows : ∀ (i : Nat) other, k.jobs[i]? = some other →
      ∃ job', (k.setPhase j phase).jobs[i]? = some job' ∧ job'.task = other.task :=
    fun _ _ there => Kickoff.exists_job_setPhase j phase there
  refine ⟨prepared.main.of_done fun _ => id, fun i other p there place => ?_⟩
  obtain ⟨old, before, ⟨rfl, rfl⟩ | ⟨_, rfl⟩⟩ := Kickoff.job_of_setPhase there
  · cases standing.symm.trans before
    exact (prepares p place).mono (List.Subset.refl _) grows
  · exact (prepared.jobs i _ p before place).mono (List.Subset.refl _) grows

/-! ## Changes -/

/-- A job is handed out when all tasks before it are done or have jobs. -/
theorem Prepared.of_handedOut {agent : Agent} (prepared : Prepared crew inputs replies k)
    (stored : Stored crew inputs replies k) (taken : ∀ t ∈ crew.tasks.take p, Promised k t.name)
    (main : k.main = .taking p) (jobs : HandedOutBefore k p) (task : crew.tasks[p]? = some t)
    (async : t.isAsync = true) : Prepared crew inputs replies (k.handedOut p t agent) := by
  obtain rfl : k.crew = crew := stored.ofCrew
  have grows : ∀ (i : Nat) job, k.jobs[i]? = some job →
      ∃ job', (k.handedOut p t agent).jobs[i]? = some job' ∧ job'.task = job.task :=
    fun _ job there => ⟨job, Kickoff.job_handedOut p t agent there, rfl⟩
  refine ⟨.taking ?_, fun j job q standing place => ?_⟩
  · intro earlier member inLine
    have done := prepared.main
    rw [main] at done
    cases done with
    | taking before =>
        rw [List.take_add_one, task] at member
        rcases List.mem_append.mp member with old | new
        · exact before earlier old inLine
        · obtain rfl : earlier = t := by simpa using new
          simp [async] at inLine
  · rcases Kickoff.job_of_handedOut standing with old | ⟨rfl, rfl⟩
    · exact (prepared.jobs j job q old place).mono (List.Subset.refl _) grows
    · cases place.symm.trans (jobs.place_next task async)
      intro earlier depends
      rcases taken earlier depends.before with done | pending
      · obtain ⟨o, found⟩ := Option.isSome_iff_exists.mp done
        exact .inl ⟨o, stored.done _ o found⟩
      · obtain ⟨i, found⟩ := Option.isSome_iff_exists.mp pending
        obtain ⟨other, there, named⟩ := stored.pending _ i found
        obtain ⟨job', there', same⟩ := grows i other there
        exact .inr ⟨i, List.mem_filterMap.mpr ⟨_, depends.named, found⟩, job', there', same ▸ named⟩

theorem Prepared.of_change {ask : Answers} {mover : Option Nat} (prepared : Prepared crew inputs replies k)
    (traced : Traced crew inputs replies k) (placed : Placed k) (change : Change ask k mover next) :
    Prepared crew inputs replies next := by
  obtain ⟨stored, main⟩ := traced
  have knows := prepared.main
  unfold Placed at placed
  obtain rfl : k.crew = crew := stored.ofCrew
  cases change with
  | unmanned phase task nobody => exact prepared.withMain rfl .finished
  | refused phase outcome => exact prepared.withMain rfl .finished
  | broken awaits result => exact prepared.withMain rfl .finished
  | ended phase => exact prepared.withMain rfl .finished
  | allTaken phase last => exact prepared.withMain rfl .closing
  | handedOut phase task owner async =>
      rw [phase] at main placed
      cases main with
      | taking taken =>
          cases placed with
          | taking jobs => exact prepared.of_handedOut stored taken phase jobs task async
  | takenUp phase task owner inLine =>
      rw [phase] at knows
      cases knows with
      | taking before =>
          exact prepared.withMain rfl (.gathering before fun earlier depends => .inl depends.named)
  | @gathered p t agent context name names o behind phase settled =>
      rw [phase] at main knows
      cases main with
      | gathering taken task owner =>
          cases knows with
          | gathering before asks =>
              have kept : ∀ name, (k.done.lookup name).isSome → (behind.done.lookup name).isSome :=
                fun name => (Promised.of_settled settled name).1
              refine prepared.withMain settled.frame.2.2.2.1 (.gathering (fun t member inLine => ?_) ?_)
              · exact kept _ (before t member inLine)
              · -- The name that is settled leaves the list, and is done since its task has been taken up.
                intro earlier depends
                obtain ⟨done, pending⟩ := Promised.of_settled settled earlier.name
                rcases asks earlier depends with listed | has
                · by_cases here : earlier.name = name
                  · rcases taken earlier depends.before with there | waiting
                    · exact .inr (done there)
                    · exact .inr ((pending waiting).resolve_right fun still => still.1 here)
                  · exact .inl ((List.mem_cons.mp listed).resolve_left here)
                · exact .inr (done has)
  | begun phase =>
      rw [phase] at knows
      cases knows with
      | gathering before asks =>
          refine prepared.withMain rfl (.working before fun earlier depends => ?_)
          exact (asks earlier depends).resolve_left List.not_mem_nil
  | @answered p w o phase outcome =>
      rw [phase] at knows placed
      cases knows with
      | working before has =>
          cases placed with
          | working jobs task inLine =>
              refine prepared.withMain rfl (.taking fun earlier member isInLine => ?_)
              rw [Kickoff.lookup_setEntry]
              rw [List.take_add_one, task] at member
              split
              · rfl
              · next other =>
                  rcases List.mem_append.mp member with old | new
                  · exact before earlier old isInLine
                  · exact absurd (by simpa using congrArg CrewTask.name (List.mem_singleton.mp new)) other
  | closed phase settled => exact prepared.withMain settled.frame.2.2.2.1 .closing
  | @jobBegun j job context standing phase =>
      refine prepared.of_setPhase standing fun p place earlier depends => ?_
      have gathers := prepared.jobs j job p standing place
      rw [phase] at gathers
      rcases gathers earlier depends with heard | ⟨i, listed, _⟩
      · exact heard
      · cases listed
  | @jobGathered j other job context awaited o standing phase result =>
      refine prepared.of_setPhase standing fun p place earlier depends => ?_
      have gathers := prepared.jobs j job p standing place
      rw [phase] at gathers
      rcases gathers earlier depends with heard | ⟨i, listed, job', there, named⟩
      · exact .inl heard
      -- The output that comes in is that of the first job listed; the others are listed still.
      · rcases List.mem_cons.mp listed with first | rest
        · obtain ⟨job₁, there₁, yields⟩ := Kickoff.jobResult?_eq_some result
          subst first
          cases there.symm.trans there₁
          have kept := stored.jobs job' (List.mem_of_getElem? there)
          exact .inl ⟨o, job'.task, kept.task, named, kept.yields o yields⟩
        · exact .inr ⟨i, rest, job', there, named⟩
  | jobBroken standing phase result => exact prepared.of_setPhase standing fun _ _ => trivial
  | jobAnswered standing phase => exact prepared.of_setPhase standing fun _ _ => trivial

theorem prepared_of_course (course : Course (Kickoff.start crew inputs) replies k) :
    Prepared crew inputs replies k := by
  have known : Traced crew inputs replies k ∧ Placed k ∧ Prepared crew inputs replies k := by
    refine Kickoff.invariant_of_course
      (fun replies k => Traced crew inputs replies k ∧ Placed k ∧ Prepared crew inputs replies k)
      ⟨traced_start, .taking rfl, .taking (by simp [InLineDone]), by simp [Kickoff.start]⟩ ?_ ?_ course
    · rintro replies k memory ⟨traced, placed, prepared⟩
      exact ⟨traced.withMemory memory, placed.of_same rfl fun _ => id, prepared.withMain rfl (prepared.main.of_done fun _ => id)⟩
    · rintro replies ask k mover next ⟨traced, placed, prepared⟩ change
      have subset := List.subset_append_left replies (Kickoff.heardFrom ask k mover).toList
      have known := traced.mono subset
      exact ⟨traced.after change, placed.of_change change, (prepared.mono subset).of_change known placed change⟩
  exact known.2.2

/-! ## Whoever works -/

theorem YieldedUnder.yielded (distinct : (crew.tasks.map (·.name)).Nodup) (member : t ∈ crew.tasks) {o : TaskOutput}
    (yielded : YieldedUnder crew inputs replies t.name o) : Yielded crew inputs replies t o := by
  obtain ⟨other, there, same, yielded⟩ := yielded
  exact List.inj_on_of_nodup_map distinct there member same ▸ yielded

/-- Whoever works on a task has heard the outputs on which it depends, and in line those of all tasks in line. -/
theorem yielded_of_workBy? (distinct : (crew.tasks.map (·.name)).Nodup)
    (course : Course (Kickoff.start crew inputs) replies k) {who : Actor} {w : Work}
    (working : k.workBy? who = some w) :
    ∃ p, crew.tasks[p]? = some w.task ∧
      (∀ earlier, DependsOn crew p w.task earlier → ∃ o, Yielded crew inputs replies earlier o) ∧
      (w.task.isAsync = false → ∀ earlier ∈ crew.tasks.take p, earlier.isAsync = false →
        ∃ o, Yielded crew inputs replies earlier o) := by
  have stored := (traced_of_course course).stored
  have prepared := prepared_of_course course
  have placed := Kickoff.placed_of_course course
  have ofCrew := Kickoff.crew_of_course course
  have heard : ∀ {p earlier}, earlier ∈ crew.tasks.take p → (k.done.lookup earlier.name).isSome →
      ∃ o, Yielded crew inputs replies earlier o := by
    intro p earlier before done
    obtain ⟨o, found⟩ := Option.isSome_iff_exists.mp done
    exact ⟨o, (stored.done _ o found).yielded distinct (List.mem_of_mem_take before)⟩
  cases who with
  | main c =>
      obtain ⟨p, main⟩ := Kickoff.mainWork?_eq_some working
      have knows := prepared.main
      unfold Placed at placed
      rw [main] at placed knows
      cases placed with
      | working jobs task inLine =>
          cases knows with
          | working inLineDone has =>
              refine ⟨p, ofCrew ▸ task, fun earlier depends => heard depends.before (has earlier depends), ?_⟩
              exact fun _ earlier before isInLine => heard before (inLineDone earlier before isInLine)
  | job c j =>
      obtain ⟨job, standing, phase⟩ := Kickoff.jobWork?_eq_some working
      obtain ⟨_, jobs⟩ := PlacedBy.handedOut placed
      obtain ⟨p, _, place, _⟩ := jobs.place standing
      rw [ofCrew] at place
      have works := ((stored.jobs job (List.mem_of_getElem? standing)).works w phase).task
      obtain ⟨task, async⟩ := task_of_apart place
      have hears := prepared.jobs j job p standing place
      rw [phase] at hears
      rw [works]
      refine ⟨p, task, fun earlier depends => ?_, fun inLine => ?_⟩
      · obtain ⟨o, yielded⟩ := hears earlier depends
        exact ⟨o, yielded.yielded distinct (List.mem_of_mem_take depends.before)⟩
      · cases async.symm.trans inLine

end Steps

/-! ## Before work begins -/

/-- A task of a crew has been completed: an agent has answered well. -/
def Completed (events : List Event) (c : Nat) (t : CrewTask) : Prop :=
  ∃ who w calls raw, Event.worked who w calls (some (.ok raw)) ∈ events ∧ who.crew = c ∧ w.task = t

theorem Yielded.completed {crew : Crew} {inputs : Inputs} {events : List Event} {c : Nat} {t : CrewTask}
    {o : TaskOutput} (yielded : Yielded crew inputs (repliesOf c events) t o) : Completed events c t := by
  obtain ⟨w, answer, heard, works, outcome⟩ := yielded
  obtain ⟨event, member, reply⟩ := List.mem_filterMap.mp heard
  unfold Event.reply? at reply
  split at reply
  · next who w' calls answer' =>
      split at reply
      · next own =>
          cases reply
          cases answer with
          | ok raw => exact ⟨who, w, calls, raw, member, own, works.task⟩
          | error message => cases outcome
      · cases reply
  · cases reply

section Runs
variable (crews : List Crew) (inputs : Inputs) (now : Nat) (limiters : Limiters) (rank : Rank) (left : Rate.Allowance)

open Timeline (Lived) in
/-- Before anybody works on a task of a crew, the tasks before it on which it depends have been completed, and if it
is taken up in line all those before it that are. -/
theorem dependencies_completed_before_work :
    (∀ ending, runAll crews inputs now limiters rank left = some ending →
      ∃ events t, Lived (.start crews inputs now limiters rank left) events t ∧
        ending.calls = events.flatMap Event.calls) ∧
    ∀ {before after who w calls answer t},
      Lived (.start crews inputs now limiters rank left) (before ++ .worked who w calls answer :: after) t →
      ∀ {crew}, crews[who.crew]? = some crew → (crew.tasks.map (·.name)).Nodup →
        ∃ p, crew.tasks[p]? = some w.task ∧
          (∀ earlier, DependsOn crew p w.task earlier → Completed before who.crew earlier) ∧
          (w.task.isAsync = false → ∀ earlier ∈ crew.tasks.take p, earlier.isAsync = false →
            Completed before who.crew earlier) := by
  refine ⟨fun ending ended => ?_, fun {before after who w calls answer t} lived crew member distinct => ?_⟩
  · obtain ⟨events, t, lived, calls, _⟩ := Timeline.lived_of_runAll ended
    exact ⟨events, t, lived, calls⟩
  · obtain ⟨u, v, untilThen, act⟩ := lived.split
    obtain ⟨k, standing, course⟩ := untilThen.course member
    have working : k.workBy? who = some w := by
      cases act with
      | worked there _ working _ =>
          cases standing.symm.trans there
          exact working
      | answered there _ working _ =>
          cases standing.symm.trans there
          exact working
    obtain ⟨p, task, depends, inLine⟩ := yielded_of_workBy? distinct course working
    refine ⟨p, task, fun earlier relies => ?_, fun alone earlier there isInLine => ?_⟩
    · obtain ⟨o, yielded⟩ := depends earlier relies
      exact yielded.completed
    · obtain ⟨o, yielded⟩ := inLine alone earlier there isInLine
      exact yielded.completed

end Runs

def press : Crew := { desk with agents := [{ writer with model := ⟨"quick", fun _ => ⟨0, .ok "Final Answer: text"⟩⟩ }] }

theorem press_performs :
    ∃ before who w calls answer t,
      Timeline.Lived (.start [press] [] 0 [] .inLine .full) (before ++ [.worked who w calls answer]) t ∧
        who.crew = 0 ∧ w.task.name = "edit" := by
  let turns : List Actor := [.main 0, .main 0, .job 0 0, .job 0 0, .main 0, .main 0, .main 0]
  have evaluated : ((Timeline.start [press] [] 0 [] .inLine .full).perform turns).any (fun performed =>
      performed.1.getLast?.any fun event =>
        event.who.crew == 0 && event.work?.any fun w => w.task.name == "edit") = true := by
    decide +kernel
  simp only [Option.any_eq_true, Bool.and_eq_true, beq_iff_eq] at evaluated
  obtain ⟨⟨events, t⟩, performed, event, last, own, w, works, edit⟩ := evaluated
  obtain ⟨before, rfl⟩ := List.getLast?_eq_some_iff.mp last
  cases event with
  | worked who w' calls answer =>
      cases works
      exact ⟨before, who, w, calls, answer, t, Timeline.lived_of_perform performed, own, edit⟩
  | moved who => cases works
  | dismissed who => cases works

theorem press_edits_completed_draft :
    ∃ before who w calls answer t,
      Timeline.Lived (.start [press] [] 0 [] .inLine .full) (before ++ [.worked who w calls answer]) t ∧
        w.task.name = "edit" ∧ ∃ draft ∈ press.tasks, draft.name = "draft" ∧ Completed before 0 draft := by
  obtain ⟨before, who, w, calls, answer, t, lived, own, edit⟩ := press_performs
  refine ⟨before, who, w, calls, answer, t, lived, edit, ?_⟩
  obtain ⟨_, history⟩ := dependencies_completed_before_work [press] [] 0 [] .inLine .full
  obtain ⟨p, task, depends, _⟩ := history lived (show [press][who.crew]? = some press by rw [own]; rfl) (by decide)
  rw [own] at depends
  match p, task with
  | 0, task =>
      have draft := Option.some.inj task
      rw [← draft] at edit
      exact absurd edit (by decide)
  | 1, task =>
      have second := Option.some.inj task
      refine ⟨_, List.mem_of_getElem? (i := 0) rfl, rfl, depends _ ⟨?_, ?_⟩⟩
      · simp [press, desk]
      · rw [← second]
        simp [Crew.dependencies]
  | p + 2, task => simp [press, desk] at task

end CrewFlow.Crew
