import Mathlib
import CrewFlow.Proofs.Agent.Untimed
/-!
# Executions at a later time

Nothing depends on what time it is: an execution that begins later, at a limiter whose window began as much
later, goes the same way, and all its times are as much later.
-/
set_option autoImplicit false

namespace CrewFlow

namespace Rate

variable {α : Type} (d : Nat)

/-! ## Limiters -/

def Window.later (w : Window) : Window := { w with started := w.started + d }

def Admission.later : Admission → Admission
  | .granted w => .granted (w.later d)
  | .full ends => .full (ends + d)

def Limiter.later (l : Limiter α) : Limiter α := { l with window := l.window.later d }

theorem Window.current_later (w : Window) (now : Nat) :
    (w.later d).current (now + d) = (w.current now).later d := by
  simp only [current, later, Nat.add_sub_add_right]
  split <;> rfl

theorem Window.decide_later (w : Window) (most now : Nat) :
    (w.later d).decide most (now + d) = (w.decide most now).later d := by
  simp only [decide, current_later]
  by_cases room : (w.current now).count < most
  · simp [room, later, Admission.later]
  · simp [room, later, Admission.later, Nat.add_right_comm]

namespace Limiter

variable (l : Limiter α)

@[simp]
theorem holder_later : (l.later d).holder = l.holder := rfl

theorem release_later : (l.later d).release = l.release.later d := rfl

theorem reopen_later (now : Nat) : (l.later d).reopen (now + d) = (l.reopen now).later d := rfl

theorem pass_later (now : Nat) :
    (l.later d).pass (now + d) = ((l.pass now).1.later d, (l.pass now).2.map (· + d)) := by
  simp only [pass]
  rw [show (l.later d).window.decide (l.later d).most (now + d) = _ from l.window.decide_later d l.most now]
  cases l.window.decide l.most now with
  | granted w => rfl
  | full ends => simp [Admission.later, later, Window.current_later]

theorem ask_later (who : α) : (l.later d).ask who = (l.ask who).later d := by
  simp only [ask, later]
  split <;> rfl

theorem withdraw_later [DecidableEq α] (who : α) : (l.later d).withdraw who = (l.withdraw who).later d := by
  simp only [withdraw, holder_later, release_later]
  by_cases mine : l.holder = some who
  · simp [mine]
  · simp [mine, later]

end Limiter

end Rate

namespace Agent

open Rate (Allowance Limiter)

variable {α : Type} (d : Nat)

def Call.later (c : Call) : Call := { c with time := c.time + d }

def Stage.later : Stage → Stage
  | .arriving => .arriving
  | .queued => .queued
  | .resting ends => .resting (ends + d)
  | .calling ends outcome => .calling (ends + d) outcome

namespace Execution

def later (e : Execution α) : Execution α :=
  { e with stage := e.stage.later d, deadline := e.deadline.map (· + d) }

def Halt.later (h : Halt) : Halt := { h with stage := h.stage.later d }

end Execution

def Outcome.later : Outcome α → Outcome α
  | .waiting e isSpent => .waiting (e.later d) isSpent
  | .finished result => .finished result

def Progress.later (p : Progress α) : Progress α where
  limiter := p.limiter.map (·.later d)
  left := p.left
  calls := p.calls.map (·.later d)
  outcome := p.outcome.later d

namespace Execution

variable (e : Execution α) (now : Nat)

theorem start_later (who : α) (agent : Agent) (extra : List Tool.LocalTool) (prompt : String) :
    start who agent extra prompt (now + d) = (start who agent extra prompt now).later d := by
  simp only [start, later, Stage.later, Option.map_map]
  congr 1
  cases agent.limits.maxTime with
  | none => rfl
  | some most => simp [Nat.add_right_comm]

theorem pass_later (l : Limiter α) (left : Allowance) :
    pass (l.later d) (now + d) left = ((pass l now left).1.later d, (pass l now left).2.map (Halt.later d)) := by
  simp only [pass, Limiter.pass_later]
  rcases l.pass now with ⟨l, _ | ends⟩ <;> rfl

theorem answered_later (outcome : Except String String) :
    (e.later d).answered outcome = (e.answered outcome).map id (later d) := by
  cases outcome with
  | error cause => rfl
  | ok reply =>
      simp only [answered, later]
      cases (e.dialogue.feed reply).run <;> rfl

theorem isLate_later : (e.later d).isLate (now + d) = e.isLate now := by
  simp only [isLate, later]
  cases e.deadline <;> simp

theorem alarms_later : (e.later d).alarms = e.alarms.map (· + d) := by
  simp only [alarms, later]
  cases e.stage <;> cases e.deadline <;> rfl

variable [DecidableEq α]

theorem enter_later (l : Limiter α) (left : Allowance) :
    enter (l.later d) (e.later d) (now + d) left =
      ((enter l e now left).1.later d, (enter l e now left).2.1,
        (enter l e now left).2.2.map (Halt.later d)) := by
  cases left with
  | zero => rfl
  | succ left =>
      simp only [enter, later]
      cases e.stage with
      | arriving =>
          simp only [Stage.later, Limiter.ask_later, Limiter.holder_later, pass_later]
          split <;> rfl
      | queued =>
          simp only [Stage.later, Limiter.holder_later, pass_later]
          split <;> rfl
      | resting ends =>
          simp only [Stage.later, Nat.add_le_add_iff_right, Limiter.reopen_later]
          split <;> rfl
      | calling ends outcome => rfl

theorem passLimiter_later (l : Option (Limiter α)) (left : Allowance) :
    passLimiter (l.map (·.later d)) (e.later d) (now + d) left =
      ((passLimiter l e now left).1.map (·.later d), (passLimiter l e now left).2.1,
        (passLimiter l e now left).2.2.map (Halt.later d)) := by
  cases l with
  | none => rfl
  | some l => simp only [passLimiter, Option.map_some, enter_later]

theorem request_later (l : Option (Limiter α)) (left : Allowance) :
    request (l.map (·.later d)) (e.later d) (now + d) left =
      ((request l e now left).1.map (·.later d), (request l e now left).2.1,
        (request l e now left).2.2.1.later d, (request l e now left).2.2.2) := by
  by_cases called : ∃ ends outcome, e.stage = .calling ends outcome
  · obtain ⟨who, agent, dialogue, stage, deadline⟩ := e
    obtain ⟨ends, outcome, rfl⟩ := called
    cases left with
    | zero => rfl
    | succ left =>
        simp only [request, later, Stage.later, Nat.add_le_add_iff_right]
        split <;> rfl
  · have uncalled : ∀ ends outcome, e.stage ≠ .calling ends outcome :=
      fun ends outcome same => called ⟨ends, outcome, same⟩
    have still : ∀ ends outcome, (e.later d).stage ≠ .calling ends outcome := by
      intro ends outcome same
      cases stage : e.stage <;> simp_all [later, Stage.later]
    rw [request_eq_of_uncalled _ still, request_eq_of_uncalled _ uncalled, passLimiter_later]
    rcases passLimiter l e now left with ⟨l, left, _ | halt⟩
    · simp only [Option.map_none, later, Stage.later, Nat.add_right_comm]
      rfl
    · rfl

theorem proceed_later (n : Nat) (l : Option (Limiter α)) (left : Allowance) :
    proceed (now + d) n (l.map (·.later d)) left (e.later d) = (proceed now n l left e).later d := by
  induction n generalizing l left e with
  | zero => rfl
  | succ n ih =>
      simp only [proceed, request_later]
      rcases request l e now left with ⟨l, left, e, outcome | isSpent⟩
      · simp only [answered_later]
        rcases e.answered outcome with result | e
        · rfl
        · simp only [Sum.map_inr, ih]
          rfl
      · rfl

theorem advance_later (l : Option (Limiter α)) (left : Allowance) :
    (e.later d).advance (now + d) (l.map (·.later d)) left = (e.advance now l left).later d := by
  have same : proceed (now + d) (e.later d).dialogue.requestsLeft (l.map (·.later d)) left (e.later d) =
      (proceed now e.dialogue.requestsLeft l left e).later d := proceed_later d e now _ l left
  simp only [advance, same]
  generalize proceed now e.dialogue.requestsLeft l left e = p
  obtain ⟨limiter, left', calls, waiting | result⟩ := p
  · simp only [Progress.later, Outcome.later, isLate_later]
    by_cases late : left ≠ 0 ∧ waiting.isLate now = true
    · rw [if_pos late, if_pos late]
      cases limiter with
      | none => rfl
      | some l => simp [Limiter.withdraw_later, later]
    · rw [if_neg late, if_neg late]
  · rfl

end Execution

theorem limiter?_later [DecidableEq α] (agent : Agent) (now : Nat) :
    limiter? α agent (now + d) = (limiter? α agent now).map (·.later d) := by
  simp only [limiter?]
  cases agent.limits.maxRpm <;> rfl

end Agent

end CrewFlow
