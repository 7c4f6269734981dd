import Mathlib
import CrewFlow.Proofs.Agent.Later
import CrewFlow.Proofs.Crew.Polls
/-!
# Timelines at a later time

Crews that are run side by side at a later time, with limiters whose windows began as much later, go the same
way.
-/
set_option autoImplicit false

namespace CrewFlow.Crew

open Agent (Execution Outcome Progress)
open Rate (Allowance Limiter)
open Text (Inputs)

variable (d : Nat)

/-! ## Limiters -/

def Limiters.later (limiters : Limiters) : Limiters := limiters.map fun entry => (entry.1, entry.2.later d)

theorem Limiters.ofAgents_later (agents : List Agent) (now : Nat) :
    ofAgents agents (now + d) = (ofAgents agents now).later d := by
  simp only [ofAgents, later, Agent.limiter?_later, List.map_filterMap]
  congr 1
  funext agent
  cases Agent.limiter? Actor agent now <;> rfl

theorem Limiters.lookup_later (limiters : Limiters) (role : String) :
    (limiters.later d).lookup role = (List.lookup role limiters).map (·.later d) := by
  induction limiters with
  | nil => rfl
  | cons entry rest ih =>
      obtain ⟨name, l⟩ := entry
      simp only [later, List.map_cons, List.lookup_cons]
      cases role == name with
      | true => rfl
      | false => exact ih

/-! ## Waking and waiting -/

namespace Timeline

def later (t : Timeline) : Timeline :=
  { t with
    now := t.now + d
    limiters := t.limiters.later d
    executions := t.executions.map (·.later d)
    alarms := t.alarms.map fun a => (a.1 + d, a.2)
    calls := t.calls.map (·.later d) }

variable (t : Timeline)

theorem left_later : (t.later d).left = t.left := rfl

theorem kickoffs_later : (t.later d).kickoffs = t.kickoffs := rfl

theorem alarms_later : (t.later d).alarms = t.alarms.map fun a => (a.1 + d, a.2) := rfl

theorem now_later : (t.later d).now = t.now + d := rfl

theorem limiters_later : (t.later d).limiters = t.limiters.later d := rfl

theorem executions_later : (t.later d).executions = t.executions.map (·.later d) := rfl

theorem foldl_later {α : Type} {f : Timeline → α → Timeline}
    (same : ∀ t a, f (t.later d) a = (f t a).later d) (actions : List α) :
    actions.foldl f (t.later d) = (actions.foldl f t).later d := by
  induction actions generalizing t with
  | nil => rfl
  | cons a actions ih => rw [List.foldl_cons, List.foldl_cons, same, ih]

theorem rouse_later (m : Mover) : (t.later d).rouse m = (t.rouse m).later d := by
  rw [rouse, rouse, apply_ite (later d), apply_ite (later d)]
  rfl

theorem wake_later (who : Actor) : (t.later d).wake who = (t.wake who).later d := rouse_later d t who.mover

theorem renew_later : (t.later d).renew = t.renew.later d :=
  foldl_later d { t with spent := [] } (rouse_later d) t.spent

theorem wakeAll_later (actors : List Actor) : (t.later d).wakeAll actors = (t.wakeAll actors).later d :=
  foldl_later d t (wake_later d) actors

theorem await_later (job who : Actor) : (t.later d).await job who = (t.await job who).later d := by
  rw [await, await, apply_ite (later d)]
  rfl

theorem wakeAwaiting_later (job : Actor) : (t.later d).wakeAwaiting job = (t.wakeAwaiting job).later d :=
  wakeAll_later d { t with awaited := t.awaited.filter fun w => w.1 ≠ job } _

theorem putLimiter_later (role : String) (before after : Limiter Actor) :
    (t.later d).putLimiter role (before.later d) (after.later d) =
      (t.putLimiter role before after).later d := by
  have limiters : (t.limiters.later d).map (fun e => if e.1 = role then (role, after.later d) else e) =
      Limiters.later d (t.limiters.map fun e => if e.1 = role then (role, after) else e) := by
    simp only [Limiters.later, List.map_map]
    congr 1
    funext e
    simp only [Function.comp_apply]
    rw [apply_ite (fun e : String × Limiter Actor => (e.1, e.2.later d))]
  have put : ({ t.later d with limiters := (t.limiters.later d).map fun e =>
      if e.1 = role then (role, after.later d) else e } : Timeline) =
        later d { t with limiters := t.limiters.map fun e => if e.1 = role then (role, after) else e } := by
    rw [limiters]
    rfl
  simp only [putLimiter, Limiter.holder_later, limiters_later, put]
  cases after.holder with
  | none => rfl
  | some who =>
      simp only [wake_later]
      rw [apply_ite (later d)]

/-! ## Work -/

theorem find?_later (who : Actor) (executions : List (Execution Actor)) :
    (executions.map (·.later d)).find? (fun e => e.who = who) =
      (executions.find? fun e => e.who = who).map (·.later d) := by
  rw [List.find?_map]
  rfl

theorem filter_map_of {α : Type} {f : α → α} {p q : α → Bool} (same : ∀ a, p (f a) = q a) (xs : List α) :
    (xs.map f).filter p = (xs.filter q).map f := by
  rw [List.filter_map]
  congr 1
  exact List.filter_congr fun a _ => same a

theorem filter_later (who : Actor) (executions : List (Execution Actor)) :
    (executions.map (·.later d)).filter (fun e => e.who ≠ who) =
      (executions.filter fun e => e.who ≠ who).map (·.later d) := filter_map_of (fun _ => rfl) executions

theorem filter_alarms_later (who : Actor) (alarms : List (Nat × Actor)) :
    (alarms.map fun a => (a.1 + d, a.2)).filter (fun a => a.2 ≠ who) =
      (alarms.filter fun a => a.2 ≠ who).map fun a => (a.1 + d, a.2) := filter_map_of (fun _ => rfl) alarms

theorem dismiss_later (who : Actor) : (t.later d).dismiss who = (t.dismiss who).later d := by
  have left : ∀ r : Timeline, ({ r.later d with
      executions := (r.later d).executions.filter fun e => e.who ≠ who
      alarms := (r.later d).alarms.filter fun a => a.2 ≠ who
      awaited := (r.later d).awaited.filter fun w => w.2 ≠ who } : Timeline) = later d { r with
        executions := r.executions.filter fun e => e.who ≠ who
        alarms := r.alarms.filter fun a => a.2 ≠ who
        awaited := r.awaited.filter fun w => w.2 ≠ who } := by
    intro r
    simp only [later, filter_later, filter_alarms_later]
  simp only [dismiss, executions_later, find?_later]
  cases t.executions.find? fun e => e.who = who with
  | none => exact left t
  | some e =>
      simp only [Option.map_some, limiters_later, Limiters.lookup_later]
      have role : (e.later d).agent.role = e.agent.role := rfl
      rw [role]
      cases List.lookup e.agent.role t.limiters with
      | none => exact left t
      | some l =>
          simp only [Option.map_some, Limiter.withdraw_later, putLimiter_later]
          exact left _

theorem putKickoff_later (c : Nat) (k : Kickoff) :
    (t.later d).putKickoff c k = (t.putKickoff c k).later d := rfl

theorem afterMain_later (c : Nat) (before after : Kickoff) :
    (t.later d).afterMain c before after = (t.afterMain c before after).later d :=
  wakeAll_later d (t.putKickoff c after) _

theorem afterJob_later (c j : Nat) (after : Kickoff) :
    (t.later d).afterJob c j after = (t.afterJob c j after).later d := by
  simp only [afterJob, putKickoff_later, wakeAwaiting_later]
  rw [apply_ite (later d)]

theorem look_later (c : Nat) (k : Kickoff) (j : Nat) :
    (t.later d).look c k j = (t.look c k j).map (later d) := by
  rw [look, look, apply_ite (Option.map (later d))]
  refine if_congr Iff.rfl rfl ?_
  rw [left_later]
  rcases t.left with _ | left
  · rfl
  · cases k.jobResult? j <;> rfl

theorem lookFor_later (c : Nat) (k : Kickoff) (awaits : Option Nat) :
    (t.later d).lookFor c k awaits = (t.lookFor c k awaits).map (later d) := by
  cases awaits with
  | none => rfl
  | some j => exact look_later d t c k j

theorem news_later (known times : List Nat) :
    (times.map (· + d)).filter (fun time => !(known.map (· + d)).contains time) =
      (times.filter fun time => !known.contains time).map (· + d) := filter_map_of (fun _ => by simp) times

theorem underway_later (who : Actor) (w : Work) :
    (t.later d).underway who w = (t.underway who w).later d := by
  rw [underway, executions_later, find?_later, now_later, Execution.start_later, underway]
  cases t.executions.find? fun e => e.who = who <;> rfl

theorem progress_later (who : Actor) (w : Work) :
    (t.later d).progress who w = (t.progress who w).later d := by
  rw [progress, underway_later, limiters_later, Limiters.lookup_later]
  exact (t.underway who w).advance_later d t.now _ t.left

theorem charge_later (role : String) (p : Progress Actor) :
    (t.later d).charge role (p.later d) = (t.charge role p).later d := by
  have charged : ({ t.later d with calls := (t.later d).calls ++ (p.later d).calls, left := p.left } :
      Timeline) = later d { t with calls := t.calls ++ p.calls, left := p.left } := by
    simp only [later, Progress.later, List.map_append]
  obtain ⟨limiter, left, calls, outcome⟩ := p
  simp only [charge, limiters_later, Limiters.lookup_later]
  cases List.lookup role t.limiters with
  | none => exact charged
  | some before =>
      cases limiter with
      | none => exact charged
      | some after => exact (congrArg (putLimiter · role _ _) charged).trans (putLimiter_later d _ role before after)

theorem newAlarms_later (who : Actor) (e : Execution Actor) :
    (t.later d).newAlarms who (e.later d) = (t.newAlarms who e).map fun a => (a.1 + d, a.2) := by
  have known : (((t.later d).executions.find? fun e => e.who = who).map Execution.alarms).getD [] =
      (((t.executions.find? fun e => e.who = who).map Execution.alarms).getD []).map (· + d) := by
    rw [executions_later, find?_later]
    cases t.executions.find? fun e => e.who = who with
    | none => rfl
    | some e => exact e.alarms_later d
  simp only [newAlarms, known, Execution.alarms_later, news_later, List.map_map]
  rfl

theorem work_later (who : Actor) (w : Work) :
    (t.later d).work who w = ((t.work who w).1.later d, (t.work who w).2) := by
  have same := t.progress_later d who w
  cases outcome : (t.progress who w).outcome with
  | finished result =>
      have ends : ((t.later d).progress who w).outcome = .finished result := by
        rw [same]
        exact congrArg (Outcome.later d) outcome
      rw [work_of_finished outcome, work_of_finished ends, same, charge_later]
      simp only [later, filter_later, filter_alarms_later]
  | waiting e isSpent =>
      have waits : ((t.later d).progress who w).outcome = .waiting (e.later d) isSpent := by
        rw [same]
        exact congrArg (Outcome.later d) outcome
      have left : ({ (t.charge w.agent.role (t.progress who w)).later d with
          executions := ((t.later d).executions.filter fun e => e.who ≠ who) ++ [e.later d]
          alarms := ((t.charge w.agent.role (t.progress who w)).later d).alarms ++
            (t.later d).newAlarms who (e.later d) } : Timeline) =
          later d { t.charge w.agent.role (t.progress who w) with
            executions := (t.executions.filter fun e => e.who ≠ who) ++ [e]
            alarms := (t.charge w.agent.role (t.progress who w)).alarms ++ t.newAlarms who e } := by
        rw [newAlarms_later]
        simp only [later, filter_later, List.map_append, List.map_cons, List.map_nil]
      rw [work_of_waiting outcome, work_of_waiting waits, same, charge_later]
      dsimp only
      rw [left, apply_ite (later d)]
      rfl

/-! ## Turns -/

theorem pollMain_later (c n : Nat) : (t.later d).pollMain c n = (t.pollMain c n).later d := by
  induction n generalizing t with
  | zero => rfl
  | succ n ih =>
      rw [pollMain, pollMain, kickoffs_later]
      cases t.kickoffs[c]? with
      | none => rfl
      | some k =>
          simp only [lookFor_later]
          cases t.lookFor c k k.mainAwaits? with
          | none => rfl
          | some t =>
              simp only [Option.map_some]
              cases k.moveMain with
              | some after => exact (congrArg _ (t.afterMain_later d c k after)).trans (ih _)
              | none =>
                  cases k.mainWork? with
                  | some w =>
                      simp only [work_later]
                      rcases t.work (.main c) w with ⟨t, _ | answer⟩
                      · rfl
                      · exact (congrArg _ (t.afterMain_later d c k _)).trans (ih _)
                  | none =>
                      cases k.mainAwaits? with
                      | none => rfl
                      | some j => exact t.await_later d _ _

theorem pollJob_later (c j n : Nat) : (t.later d).pollJob c j n = (t.pollJob c j n).later d := by
  induction n generalizing t with
  | zero => rfl
  | succ n ih =>
      rw [pollJob, pollJob, kickoffs_later]
      cases t.kickoffs[c]? with
      | none => rfl
      | some k =>
          simp only [lookFor_later]
          cases t.lookFor c k (k.jobAwaits? j) with
          | none => rfl
          | some t =>
              simp only [Option.map_some]
              cases k.moveJob j with
              | some after => exact (congrArg _ (t.afterJob_later d c j after)).trans (ih _)
              | none =>
                  cases k.jobWork? j with
                  | some w =>
                      simp only [work_later]
                      rcases t.work (.job c j) w with ⟨t, _ | answer⟩
                      · rfl
                      · exact (congrArg _ (t.afterJob_later d c j _)).trans (ih _)
                  | none =>
                      cases k.jobAwaits? j with
                      | none => rfl
                      | some other => exact t.await_later d _ _

theorem pollMains_later : (t.later d).pollMains = t.pollMains.later d :=
  foldl_later d t (fun t c => t.pollMain_later d c t.moveBound) _

theorem poll_later (m : Mover) : (t.later d).poll m = (t.poll m).later d := by
  cases m with
  | mains => exact pollMains_later d { t with left := .full }
  | job c j =>
      rw [poll, poll, apply_ite (later d)]
      refine if_congr Iff.rfl ?_ ?_
      · exact dismiss_later d { t with left := .full } _
      · exact pollJob_later d { t with left := .full } c j _

theorem drain_later (n : Nat) : (t.later d).drain n = (t.drain n).later d := by
  induction n generalizing t with
  | zero => rfl
  | succ n ih =>
      rw [drain, drain, show (t.later d).ready = t.ready from rfl]
      cases t.ready with
      | nil => rfl
      | cons m rest =>
          have polled := poll_later d { t with ready := rest } m
          dsimp only
          rw [apply_ite (later d), ← ih]
          exact if_congr (congrArg (·.isOver = true) polled).to_iff polled (congrArg (·.drain n) polled)

/-! ## Rounds -/

theorem min?_later (times : List Nat) : (times.map (· + d)).min? = times.min?.map (· + d) := by
  have least : ∀ (rest : List Nat) (first : Nat),
      (rest.map (· + d)).foldl min (first + d) = rest.foldl min first + d := by
    intro rest
    induction rest with
    | nil => intro first; rfl
    | cons time rest ih =>
        intro first
        rw [List.map_cons, List.foldl_cons, List.foldl_cons, Nat.add_min_add_right, ih]
  cases times with
  | nil => rfl
  | cons first rest => exact congrArg some (least rest first)

theorem nextAlarm?_later : (t.later d).nextAlarm? = t.nextAlarm?.map (· + d) := by
  rw [nextAlarm?, nextAlarm?, ← min?_later, alarms_later]
  simp only [List.map_map]
  rfl

theorem goTo_later (time : Nat) : (t.later d).goTo (time + d) = (t.goTo time).later d := by
  have due : (t.later d).alarms.filter (fun a => a.1 ≤ time + d) =
      (t.alarms.filter fun a => a.1 ≤ time).map fun a => (a.1 + d, a.2) :=
    filter_map_of (fun a => by simp) t.alarms
  have rest : (t.later d).alarms.filter (fun a => time + d < a.1) =
      (t.alarms.filter fun a => time < a.1).map fun a => (a.1 + d, a.2) :=
    filter_map_of (fun a => by simp) t.alarms
  rw [goTo, goTo]
  simp only [due, rest, List.map_map, now_later, Nat.add_max_add_right]
  exact wakeAll_later d { t with now := max t.now time, alarms := t.alarms.filter fun a => time < a.1 } _

theorem moveAhead_later : (t.later d).moveAhead = t.moveAhead.later d := by
  rw [moveAhead, moveAhead, apply_ite (later d)]
  exact if_congr Iff.rfl (poll_later d { t with mainReady := false } .mains) rfl

theorem run_later (n : Nat) : (t.later d).run n = (t.run n).later d := by
  induction n generalizing t with
  | zero => rfl
  | succ n ih =>
      rw [run, run]
      dsimp only
      rw [moveAhead_later, apply_ite (later d)]
      refine if_congr Iff.rfl rfl ?_
      rw [drain_later, apply_ite (later d)]
      refine if_congr Iff.rfl rfl ?_
      rw [renew_later, apply_ite (later d)]
      refine if_congr Iff.rfl (ih _) ?_
      rw [nextAlarm?_later]
      cases (t.moveAhead.drain turnsBetween).renew.nextAlarm? with
      | none => rfl
      | some time => exact (congrArg _ (goTo_later d _ time)).trans (ih _)

theorem clear_later : (t.later d).clear = t.clear.later d := by
  refine foldl_later d t (fun t entry => ?_) _
  obtain ⟨k, c⟩ := entry
  exact foldl_later (f := fun t j => t.dismiss (.job c j)) d t (fun t j => t.dismiss_later d (.job c j)) _

end Timeline

def Ending.later (e : Ending) : Ending :=
  { e with now := e.now + d, limiters := e.limiters.later d, calls := e.calls.map (·.later d) }

/-- Crews that are run at another time come to the same, as much later as they begin. -/
theorem runAll_later (crews : List Crew) (inputs : Inputs) (now : Nat) (limiters : Limiters) (rank : Rank)
    (left : Allowance) :
    runAll crews inputs (now + d) (limiters.later d) rank left =
      (runAll crews inputs now limiters rank left).map (Ending.later d) := by
  have started : Timeline.start crews inputs (now + d) (limiters.later d) rank left =
      (Timeline.start crews inputs now limiters rank left).later d := rfl
  rw [runAll, runAll, started]
  simp only [Timeline.pollMains_later, Timeline.run_later, Timeline.clear_later, Timeline.kickoffs_later]
  cases ((Timeline.start crews inputs now limiters rank left).pollMains.run
    (crews.foldr (fun c n => roundBound c + n) 1)).kickoffs.mapM Kickoff.result? <;> rfl

end CrewFlow.Crew
