import Mathlib
import CrewFlow.Proofs.Crew.Faithful
/-!
# Courses of kickoffs

What a kickoff goes through when nothing is known of its agents: each of its moves, and any answer to what is
being worked on. A course keeps account of the answers. Crews that run side by side go through courses, be
their agents limited in time or not, and whatever the crews remember.
-/
set_option autoImplicit false

namespace CrewFlow.Crew

open Agent (Execution)
open Rate (Allowance)
open Text (Inputs)

namespace Kickoff

/-- What was worked on, and the answer to it. -/
abbrev Reply := Work × Except String String

/-- A move of an actor, or an answer to one. -/
inductive Move (k : Kickoff) : Option Reply → Kickoff → Prop where
  | moved {who : Actor} {next : Kickoff} (moved : k.moveBy who = some next) : Move k none next
  | answered {who : Actor} {w : Work} (answer : Except String String) (working : k.workBy? who = some w) :
      Move k (some (w, answer)) (k.answerBy answer who)

/-- A kickoff comes to another by moves and answers. -/
inductive Course (k : Kickoff) : List Reply → Kickoff → Prop where
  | here : Course k [] k
  | further {replies : List Reply} {last next : Kickoff} {reply : Option Reply} (earlier : Course k replies last)
      (move : Move last reply next) : Course k (replies ++ reply.toList) next

section Moves
variable {k next : Kickoff}

theorem rememberAnswer_eq (w : Work) (answer : Except String String) :
    ∃ memory, k.rememberAnswer w answer = { k with memory } := by
  unfold rememberAnswer remember
  split
  · split
    · split <;> exact ⟨_, rfl⟩
    · exact ⟨_, rfl⟩
  · exact ⟨_, rfl⟩

def workOn? (k : Kickoff) : Option Nat → Option Work
  | none => k.mainWork?
  | some j => k.jobWork? j

theorem workBy?_eq_workOn? (who : Actor) : k.workBy? who = k.workOn? who.job? := by
  cases who <;> rfl

/-- An answer changes the kickoff as one without memory, apart from its memory. -/
theorem change_of_reply {who : Actor} {w : Work} (working : k.workBy? who = some w)
    (answer : Except String String) :
    ∃ memory, Change (fun _ _ _ => answer) { k with memory } who.job? (k.answerBy answer who) := by
  cases who with
  | main c =>
      obtain ⟨p, main⟩ := mainWork?_eq_some working
      obtain ⟨memory, remembered⟩ := k.rememberAnswer_eq w answer
      refine ⟨memory, ?_⟩
      rw [answerBy, answerMain, main]
      dsimp only
      rw [remembered]
      cases outcome : w.outcome answer with
      | ok o => exact .answered rfl outcome
      | error e => exact .refused rfl outcome
  | job c j =>
      obtain ⟨job, standing, phase⟩ := jobWork?_eq_some working
      obtain ⟨memory, remembered⟩ := k.rememberAnswer_eq w answer
      refine ⟨memory, ?_⟩
      have his : k.jobWork? j = some w := working
      rw [answerBy, answerJob, his]
      dsimp only
      rw [remembered]
      exact .jobAnswered standing phase

def heardFrom (ask : Answers) (k : Kickoff) (mover : Option Nat) : Option Reply :=
  (k.workOn? mover).map fun w => (w, w.answer ask)

theorem Move.exists_change {reply : Option Reply} (move : Move k reply next) :
    ∃ ask memory mover, Change ask { k with memory } mover next ∧ reply = heardFrom ask k mover := by
  cases move with
  | @moved who _ moved =>
      refine ⟨fun _ _ _ => .ok "", k.memory, who.job?, change_of_moveBy moved, ?_⟩
      rw [heardFrom, ← workBy?_eq_workOn?]
      cases working : k.workBy? who with
      | none => rfl
      | some w =>
          rw [moveBy_of_workBy? working] at moved
          cases moved
  | @answered who w answer working =>
      obtain ⟨memory, change⟩ := change_of_reply working answer
      refine ⟨_, memory, who.job?, change, ?_⟩
      rw [heardFrom, ← workBy?_eq_workOn?, working]
      rfl

theorem Move.weight_lt {reply : Option Reply} (move : Move k reply next) : next.weight < k.weight := by
  obtain ⟨ask, memory, mover, change, _⟩ := move.exists_change
  have lighter := weight_lt_of_change change
  exact lighter

end Moves

/-- What every change keeps, with what is heard in it, holds after any course. The memory does not matter to it. -/
theorem invariant_of_course (Inv : List Reply → Kickoff → Prop) {crew : Crew} {inputs : Inputs}
    (first : Inv [] (start crew inputs))
    (blind : ∀ {replies k} memory, Inv replies k → Inv replies { k with memory })
    (keeps : ∀ {replies ask k mover next}, Inv replies k → Change ask k mover next →
      Inv (replies ++ (heardFrom ask k mover).toList) next)
    {replies : List Reply} {k : Kickoff} (course : Course (start crew inputs) replies k) : Inv replies k := by
  induction course with
  | here => exact first
  | @further replies last next reply earlier move ih =>
      obtain ⟨ask, memory, mover, change, rfl⟩ := move.exists_change
      have kept := keeps (blind memory ih) change
      exact kept

theorem linked_of_course {crew : Crew} {inputs : Inputs} {replies : List Reply} {k : Kickoff}
    (course : Course (start crew inputs) replies k) : Linked k := by
  refine invariant_of_course (fun _ k => Linked k) ⟨?_, ?_⟩ ?_ ?_ course
  · intro name j found
    cases found
  · intro j job standing
    cases standing
  · intro _ _ _ linked
    exact ⟨linked.pending, linked.jobs⟩
  · intro _ _ _ _ _ linked change
    exact linked.of_change change

end Kickoff

/-! ## Crews side by side -/

namespace Timeline

open Kickoff (Course Move)

def Coursed (crews : List Crew) (inputs : Inputs) (kickoffs : List Kickoff) : Prop :=
  List.Forall₂ (fun crew k => ∃ replies, Course (Kickoff.start crew inputs) replies k) crews kickoffs

variable {crews : List Crew} {inputs : Inputs} {t next : Timeline}

theorem Coursed.move {kickoffs : List Kickoff} (coursed : Coursed crews inputs kickoffs) {c : Nat}
    {k after : Kickoff} (standing : kickoffs[c]? = some k) {reply : Option Kickoff.Reply}
    (move : Move k reply after) : Coursed crews inputs (kickoffs.set c after) :=
  forall₂_set coursed standing fun _ ⟨_, course⟩ => ⟨_, .further course move⟩

theorem kickoffs_work (t : Timeline) (who : Actor) (w : Work) : (t.work who w).1.kickoffs = t.kickoffs := by
  cases outcome : (t.progress who w).outcome with
  | finished result =>
      rw [work_of_finished outcome]
      exact kickoffs_charge w.agent.role _
  | waiting e isSpent =>
      rw [work_of_waiting outcome]
      dsimp only
      split
      · exact kickoffs_charge w.agent.role _
      · exact kickoffs_charge w.agent.role _

theorem Coursed.polled {who : Actor} {n : Nat} (coursed : Coursed crews inputs t.kickoffs)
    (polled : Polled who n t next) : Coursed crews inputs next.kickoffs := by
  induction polled with
  | tired => exact coursed
  | absent nobody => exact coursed
  | spent standing spent => exact coursed
  | moved standing look moved rest ih =>
      apply ih
      rw [kickoffs_afterBy, kickoffs_of_lookFor look]
      exact coursed.move standing (.moved moved)
  | @answered n t looked worked last k w answer standing look working works rest ih =>
      have kickoffs : worked.kickoffs = t.kickoffs := by
        have same := kickoffs_work looked who w
        rw [works, kickoffs_of_lookFor look] at same
        exact same
      apply ih
      rw [kickoffs_afterBy, kickoffs]
      exact coursed.move standing (.answered answer working)
  | @working n t looked last k w standing look working works =>
      have same := kickoffs_work looked who w
      rw [works, kickoffs_of_lookFor look] at same
      exact same ▸ coursed
  | @awaiting n j t looked k standing look stuck idle awaits =>
      have same : (looked.await (.job who.crew j) who).kickoffs = looked.kickoffs :=
        congrArg Prod.fst (held_await (.job who.crew j) who)
      rw [same, kickoffs_of_lookFor look]
      exact coursed
  | resting standing look stuck idle alone =>
      rw [kickoffs_of_lookFor look]
      exact coursed

theorem coursed_start (now : Nat) (limiters : Limiters) (rank : Rank) (left : Allowance) :
    Coursed crews inputs (start crews inputs now limiters rank left).kickoffs := by
  rw [Coursed, start, List.forall₂_map_right_iff, List.forall₂_same]
  exact fun crew _ => ⟨[], .here⟩

/-- What crews that run side by side come to, they come to by courses of their own. -/
theorem coursed_of_runAll {now : Nat} {limiters : Limiters} {rank : Rank} {left : Allowance} {ending : Ending}
    (ended : runAll crews inputs now limiters rank left = some ending) :
    List.Forall₂ (fun crew outcome => ∃ replies k,
      Course (Kickoff.start crew inputs) replies k ∧ k.result? = some outcome) crews ending.outcomes := by
  have first : Coursed crews inputs (start crews inputs now limiters rank left).held.1 :=
    coursed_start now limiters rank left
  obtain ⟨t, coursed, each⟩ := @kept_of_runAll (fun held => Coursed crews inputs held.1)
    (fun coursed polled => Coursed.polled coursed polled) (fun coursed _ => coursed)
    crews inputs now limiters rank left ending first ended
  refine List.forall₂_iff_get.mpr ⟨coursed.length_eq.trans each.length_eq, ?_⟩
  intro c inside outside
  have here : c < t.kickoffs.length := by
    rw [each.length_eq]
    exact outside
  obtain ⟨replies, course⟩ := coursed.get inside here
  exact ⟨replies, _, course, each.get here outside⟩

end Timeline

end CrewFlow.Crew
