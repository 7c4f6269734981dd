import Mathlib
import CrewFlow.Proofs.Crew.Dependencies
import CrewFlow.Proofs.Crew.Failures
/-!
# After a crew is over

When a crew is over, nobody works for it any more: its jobs are dismissed, and the requests that they have made are
forgotten with them.
-/
set_option autoImplicit false

namespace CrewFlow.Agent.Execution

open Rate (Allowance Limiter)

section Who
variable {α : Type} {e : Execution α}

theorem who_answered {outcome : Except String String} {next : Execution α} (again : e.answered outcome = .inr next) :
    next.who = e.who := by
  unfold answered at again
  split at again
  · cases again
  · split at again
    · cases again
    · cases again
      rfl

variable [DecidableEq α]

theorem who_request (l : Option (Limiter α)) (now : Nat) (left : Allowance) :
    (request l e now left).2.2.1.who = e.who := by
  unfold request
  split
  · rfl
  · split <;> rfl
  · split <;> rfl

theorem who_proceed (now n : Nat) (l : Option (Limiter α)) (left : Allowance) {next : Execution α} {isSpent : Bool}
    (waits : (proceed now n l left e).outcome = .waiting next isSpent) : next.who = e.who := by
  induction n generalizing l left e with
  | zero =>
      cases waits
      rfl
  | succ n ih =>
      rw [proceed] at waits
      have same := who_request (e := e) l now left
      split at waits
      · next reached =>
          rw [reached] at same
          cases waits
          exact same
      · next reached =>
          rw [reached] at same
          dsimp only at waits
          split at waits
          · cases waits
          · next again => exact (ih _ _ waits).trans ((who_answered again).trans same)

theorem who_advance (now : Nat) (l : Option (Limiter α)) (left : Allowance) {next : Execution α} {isSpent : Bool}
    (waits : (e.advance now l left).outcome = .waiting next isSpent) : next.who = e.who := by
  unfold advance at waits
  dsimp only at waits
  split at waits
  · next finished => cases finished.symm.trans waits
  · split at waits
    · cases waits
    · exact who_proceed _ _ _ _ waits

end Who

end CrewFlow.Agent.Execution

namespace CrewFlow.Crew

open Agent (Execution)
open Kickoff (Course)
open Rate (Allowance)
open Text (Inputs)

namespace Timeline

def executionsOf (t : Timeline) (c : Nat) : List (Execution Actor) := t.executions.filter fun e => e.who.crew = c

variable {t next : Timeline} {events : List Event} {c : Nat} {k : Kickoff}

theorem who_underway (t : Timeline) (who : Actor) (w : Work) : (t.underway who w).who = who := by
  unfold underway
  cases begun : t.executions.find? fun e => e.who = who with
  | none => rfl
  | some e => simpa using List.find?_some begun

theorem executions_work (t : Timeline) (who : Actor) (w : Work) :
    ∃ mine : Option (Execution Actor), (∀ e ∈ mine, e.who = who) ∧
      (t.work who w).1.executions = (t.executions.filter fun e => e.who ≠ who) ++ mine.toList := by
  cases outcome : (t.progress who w).outcome with
  | finished result =>
      rw [work_of_finished outcome]
      exact ⟨none, by simp, by simp⟩
  | waiting e isSpent =>
      have his : e.who = who := (Execution.who_advance _ _ _ outcome).trans (who_underway t who w)
      rw [work_of_waiting outcome]
      refine ⟨some e, by simpa using his, ?_⟩
      dsimp only
      split
      · rfl
      · rfl

theorem executionsOf_work {who : Actor} (other : who.crew ≠ c) (w : Work) :
    (t.work who w).1.executionsOf c = t.executionsOf c := by
  obtain ⟨mine, his, executions⟩ := executions_work t who w
  rw [executionsOf, executions, List.filter_append, List.filter_filter]
  have none_of_crew : (mine.toList.filter fun e => e.who.crew = c) = [] := by
    rw [List.filter_eq_nil_iff]
    intro e member
    rw [his e (Option.mem_toList.mp member)]
    simpa using other
  rw [none_of_crew, List.append_nil]
  apply List.filter_congr
  intro e _
  by_cases here : e.who.crew = c
  · have apart : e.who ≠ who := fun same => other (same ▸ here)
    simp [here, apart]
  · simp [here]

theorem Act.of_ended {event : Option Event} (act : Act t event next) (standing : t.kickoffs[c]? = some k)
    (ended : k.result?.isSome) :
    (∀ e ∈ event, e.who.crew = c → e = .dismissed e.who) ∧ (next.executionsOf c).Sublist (t.executionsOf c) ∧
      next.kickoffs[c]? = some k := by
  -- Only for a crew that still goes on does anybody move or work, so it is another one.
  have elsewhere : ∀ {who : Actor} {k' : Kickoff}, t.kickoffs[who.crew]? = some k' → k'.result? = none →
      who.crew ≠ c := by
    rintro who k' there going rfl
    cases standing.symm.trans there
    simp [going] at ended
  cases act with
  | calm held calls =>
      have kickoffs : next.kickoffs = t.kickoffs := congrArg Prod.fst held
      have executions : next.executions = t.executions := congrArg Prod.snd held
      refine ⟨by simp, ?_, kickoffs ▸ standing⟩
      rw [executionsOf, executions]
      exact List.Sublist.refl _
  | @moved who k' after there going moved =>
      have other := elsewhere there going
      have executions : (t.afterBy k' after who).executions = t.executions := congrArg Prod.snd (held_afterBy ..)
      refine ⟨fun e member own => ?_, ?_, ?_⟩
      · cases member
        exact absurd own other
      · rw [executionsOf, executions]
        exact List.Sublist.refl _
      · rw [kickoffs_afterBy, List.getElem?_set_ne other, standing]
  | @worked who k' w _ there going working works =>
      have other := elsewhere there going
      have kept := executionsOf_work (t := t) other w
      have kickoffs := kickoffs_work t who w
      rw [works] at kept kickoffs
      refine ⟨fun e member own => ?_, kept ▸ List.Sublist.refl _, kickoffs ▸ standing⟩
      cases member
      exact absurd own other
  | @answered who k' w worked answer there going working works =>
      have other := elsewhere there going
      have kept := executionsOf_work (t := t) other w
      have kickoffs := kickoffs_work t who w
      rw [works] at kept kickoffs
      have executions : (worked.afterBy k' (k'.answerBy answer who) who).executions = worked.executions :=
        congrArg Prod.snd (held_afterBy ..)
      refine ⟨fun e member own => ?_, ?_, ?_⟩
      · cases member
        exact absurd own other
      · rw [executionsOf, executions, ← kept]
        exact List.Sublist.refl _
      · rw [kickoffs_afterBy, List.getElem?_set_ne other, kickoffs, standing]
  | @dismissed c' j _ =>
      have kickoffs : (t.dismiss (.job c' j)).kickoffs = t.kickoffs := congrArg Prod.fst (held_dismiss _)
      have executions : (t.dismiss (.job c' j)).executions = t.executions.filter fun e => e.who ≠ .job c' j :=
        congrArg Prod.snd (held_dismiss _)
      refine ⟨fun e member _ => ?_, ?_, kickoffs ▸ standing⟩
      · cases member
        rfl
      · rw [executionsOf, executions]
        exact List.filter_sublist.filter _

/-- Once a crew is over nobody works or moves for it, and what is left of its work only goes. -/
theorem Lived.of_ended (lived : Lived t events next) (standing : t.kickoffs[c]? = some k) (ended : k.result?.isSome) :
    (∀ e ∈ events, e.who.crew = c → e = .dismissed e.who) ∧ (next.executionsOf c).Sublist (t.executionsOf c) ∧
      next.kickoffs[c]? = some k := by
  induction lived with
  | here => exact ⟨by simp, List.Sublist.refl _, standing⟩
  | further _ act ih =>
      obtain ⟨before, fewer, still⟩ := ih
      obtain ⟨now, less, there⟩ := act.of_ended still ended
      refine ⟨fun e member own => ?_, less.trans fewer, there⟩
      rcases List.mem_append.mp member with old | new
      · exact before e old own
      · exact now e (Option.mem_toList.mp new) own

section Runs
variable (crews : List Crew) (inputs : Inputs) (now : Nat) (limiters : Limiters) (rank : Rank) (left : Allowance)

/-- When a crew is over, nobody moves or works for it any more. A task with a name of its own does not fail without
the crew, which fails in its own name. -/
theorem nothing_outlives_its_crew :
    (∀ ending, runAll crews inputs now limiters rank left = some ending →
      ∃ events t, Lived (start crews inputs now limiters rank left) events t ∧
        ending.calls = events.flatMap Event.calls) ∧
    ∀ {earlier later t next}, Lived (start crews inputs now limiters rank left) earlier t → Lived t later next →
      ∀ {c crew}, crews[c]? = some crew → ∃ k, t.kickoffs[c]? = some k ∧
        (k.result?.isSome → (∀ e ∈ later, e.who.crew = c → e = .dismissed e.who) ∧
          (next.executionsOf c).Sublist (t.executionsOf c) ∧ next.kickoffs[c]? = some k) ∧
        (∀ task, Distinct crew task.name → Failed crew (repliesOf c earlier) k task →
          k.Ends fun result => ∃ message, result = .error (.crew crew.name message)) ∧
        ∀ e, k.result? = some (.error e) → ∃ message, e = .crew crew.name message := by
  refine ⟨fun ending ended => ?_, fun lived onward c crew member => ?_⟩
  · obtain ⟨events, t, lived, calls, _⟩ := lived_of_runAll ended
    exact ⟨events, t, lived, calls⟩
  · obtain ⟨k, standing, course⟩ := lived.course member
    refine ⟨k, standing, onward.of_ended standing, fun task own failed => failed.ends own course, ?_⟩
    exact fun e failed => error_of_course course failed

end Runs

/-- A draft that takes its time, and a check by an agent whose model is down. -/
def outage : Crew :=
  let checker : Agent := { writer with role := "checker", model := ⟨"down", fun _ => ⟨0, .error "down"⟩⟩ }
  { name := "outage", agents := [writer, checker], process := .sequential, manager := none, embedder := none
    tasks :=
      [⟨"draft", "Draft", "a text", none, [], [], none, true⟩,
        ⟨"check", "Check", "a text", some "checker", [], ["notes"], none, false⟩] }

theorem outage_performs :
    ∃ earlier t k w message, Lived (start [outage] [] 0 [] .inLine .full) earlier t ∧ t.kickoffs[0]? = some k ∧
      (t.executionsOf 0).length = 1 ∧ k.result?.isSome ∧ (w, .error message) ∈ repliesOf 0 earlier ∧
      w.task.name = "check" := by
  let turns : List Actor := [.main 0, .job 0 0, .job 0 0, .main 0, .main 0, .main 0, .main 0]
  have evaluated : ((start [outage] [] 0 [] .inLine .full).perform turns).any (fun performed =>
      performed.2.kickoffs[0]?.any (fun k => k.result?.isSome) && (performed.2.executionsOf 0).length == 1 &&
        (repliesOf 0 performed.1).any fun reply =>
          match reply with
          | (w, .error _) => w.task.name == "check"
          | _ => false) = true := by
    decide +kernel
  obtain ⟨⟨events, t⟩, performed, evaluated⟩ := (Option.any_eq_true _ _).mp evaluated
  simp only [Bool.and_eq_true, Option.any_eq_true, List.any_eq_true, beq_iff_eq] at evaluated
  obtain ⟨⟨⟨k, standing, ended⟩, one⟩, ⟨w, answer⟩, heard, check⟩ := evaluated
  cases answer with
  | ok raw => cases check
  | error message => exact ⟨events, t, k, w, message, lived_of_perform performed, standing, one, ended, heard, by simpa using check⟩

theorem outage_leaves_nothing :
    ∃ earlier t k, Lived (start [outage] [] 0 [] .inLine .full) earlier t ∧ t.kickoffs[0]? = some k ∧
      (t.executionsOf 0).length = 1 ∧ (∃ message, k.result? = some (.error (.crew "outage" message))) ∧
      (t.dismiss (.job 0 0)).kickoffs[0]? = some k ∧
      ((t.dismiss (.job 0 0)).executionsOf 0).Sublist (t.executionsOf 0) := by
  obtain ⟨earlier, t, k, w, message, lived, standing, one, ended, heard, check⟩ := outage_performs
  have crewOver : t.isCrewOver 0 = true := by simpa [isCrewOver, standing] using ended
  obtain ⟨_, history⟩ := nothing_outlives_its_crew [outage] [] 0 [] .inLine .full
  obtain ⟨k', there, after, fails, _⟩ := history lived (Act.dismissed (j := 0) crewOver).lived
    (show [outage][0]? = some outage from rfl)
  cases standing.symm.trans there
  obtain ⟨_, fewer, same⟩ := after ended
  have ends := fails w.task (.of_nodup (by decide) _) (.refused heard rfl)
  obtain ⟨result, found⟩ := Option.isSome_iff_exists.mp ended
  obtain ⟨message, rfl⟩ := ends.right_of_result? found
  exact ⟨earlier, t, k, lived, standing, one, ⟨message, found⟩, same, fewer⟩

end Timeline

end CrewFlow.Crew
