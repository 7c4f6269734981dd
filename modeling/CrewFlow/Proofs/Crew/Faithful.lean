import Mathlib
import CrewFlow.Proofs.Agent.Untimed
import CrewFlow.Proofs.Crew.Polls
/-!
# Timelines that keep to schedules

The timeline moves kickoffs in one of the orders in which they may move, and hands them the answers that
their agents give, however long the models take.
-/
set_option autoImplicit false

namespace CrewFlow.Crew

open Agent (AgentError Execution Progress)
open Kickoff (Step Staffed Employs)
open Rate (Allowance Limiter)
open Relation (ReflTransGen)
open Text (Inputs)

/-! ## Lists side by side -/

section Lists
variable {α β γ : Type} {R : α → β → Prop} {xs : List α} {ys : List β}

theorem exists_forall₂ (each : ∀ x ∈ xs, ∃ y, R x y) : ∃ ys, List.Forall₂ R xs ys := by
  induction xs with
  | nil => exact ⟨[], .nil⟩
  | cons x xs ih =>
      obtain ⟨y, first⟩ := each x List.mem_cons_self
      obtain ⟨ys, rest⟩ := ih fun x' member => each x' (List.mem_cons_of_mem x member)
      exact ⟨y :: ys, .cons first rest⟩

theorem forall₂_exists {S : β → γ → Prop} {zs : List γ} :
    List.Forall₂ (fun x z => ∃ y, R x y ∧ S y z) xs zs ↔
      ∃ ys, List.Forall₂ R xs ys ∧ List.Forall₂ S ys zs := by
  constructor
  · intro each
    induction each with
    | nil => exact ⟨[], .nil, .nil⟩
    | cons through _ ih =>
        obtain ⟨y, before, after⟩ := through
        obtain ⟨ys, earlier, later⟩ := ih
        exact ⟨y :: ys, .cons before earlier, .cons after later⟩
  · rintro ⟨ys, earlier, later⟩
    induction earlier generalizing zs with
    | nil =>
        cases later
        exact .nil
    | cons before _ ih =>
        cases later with
        | cons after later => exact .cons ⟨_, before, after⟩ (ih later)

theorem forall₂_set (related : List.Forall₂ R xs ys) {i : Nat} {y z : β} (place : ys[i]? = some y)
    (kept : ∀ x, R x y → R x z) : List.Forall₂ R xs (ys.set i z) := by
  induction related generalizing i with
  | nil => exact .nil
  | cons here rest ih =>
      cases i with
      | zero =>
          cases place
          exact .cons (kept _ here) rest
      | succ i => exact .cons here (ih place)

theorem mapM_eq_some {f : α → Option β} :
    xs.mapM f = some ys ↔ List.Forall₂ (fun x y => f x = some y) xs ys := by
  constructor
  · intro found
    induction xs generalizing ys with
    | nil =>
        cases found
        exact .nil
    | cons x xs ih =>
        rw [List.mapM_cons] at found
        obtain ⟨y, head, rest⟩ := Option.bind_eq_some_iff.mp found
        obtain ⟨zs, tail, here⟩ := Option.bind_eq_some_iff.mp rest
        cases here
        exact .cons head (ih tail)
  · intro each
    induction each with
    | nil => rfl
    | cons head _ ih =>
        rw [List.mapM_cons, head, ih]
        rfl

end Lists

namespace Timeline

variable {t next : Timeline}

/-! ## What waiting and waking leave alone -/

/-- The kickoffs and the executions of a timeline. -/
def held (t : Timeline) : List Kickoff × List (Execution Actor) := (t.kickoffs, t.executions)

theorem held_rouse (m : Mover) : (t.rouse m).held = t.held := by
  unfold rouse
  split
  · rfl
  · split <;> rfl

theorem held_foldl {α : Type} {f : Timeline → α → Timeline} (keeps : ∀ t a, (f t a).held = t.held)
    (actions : List α) : (actions.foldl f t).held = t.held := by
  induction actions generalizing t with
  | nil => rfl
  | cons a actions ih => rw [List.foldl_cons, ih, keeps]

theorem held_wakeAll (actors : List Actor) : (t.wakeAll actors).held = t.held :=
  held_foldl (fun _ _ => held_rouse _) actors

theorem held_renew : t.renew.held = t.held := held_foldl (fun _ _ => held_rouse _) t.spent

theorem held_await (job who : Actor) : (t.await job who).held = t.held := by
  unfold await
  split <;> rfl

theorem held_wakeAwaiting (job : Actor) : (t.wakeAwaiting job).held = t.held := held_wakeAll _

theorem held_putLimiter (role : String) (before after : Limiter Actor) :
    (t.putLimiter role before after).held = t.held := by
  unfold putLimiter
  dsimp only
  split
  · split
    · rfl
    · exact held_rouse _
  · rfl

theorem held_of_look {c j : Nat} {k : Kickoff} (looked : t.look c k j = some next) :
    next.held = t.held := by
  unfold look at looked
  split at looked
  · cases looked
    rfl
  · split at looked
    · cases looked
    · cases looked
      rfl
    · cases looked
      rfl

theorem held_of_lookFor {c : Nat} {k : Kickoff} {awaits : Option Nat}
    (looked : t.lookFor c k awaits = some next) : next.held = t.held := by
  cases awaits with
  | none =>
      cases looked
      rfl
  | some j => exact held_of_look looked

theorem kickoffs_of_lookFor {c : Nat} {k : Kickoff} {awaits : Option Nat}
    (looked : t.lookFor c k awaits = some next) : next.kickoffs = t.kickoffs :=
  congrArg Prod.fst (held_of_lookFor looked)

theorem held_afterBy (before after : Kickoff) (who : Actor) :
    (t.afterBy before after who).held = (t.kickoffs.set who.crew after, t.executions) := by
  cases who with
  | main c => exact held_wakeAll _
  | job c j =>
      unfold afterBy afterJob
      dsimp only
      split
      · exact held_wakeAwaiting _
      · rfl

theorem kickoffs_afterBy (before after : Kickoff) (who : Actor) :
    (t.afterBy before after who).kickoffs = t.kickoffs.set who.crew after :=
  congrArg Prod.fst (held_afterBy before after who)

theorem held_dismiss (who : Actor) :
    (t.dismiss who).held = (t.kickoffs, t.executions.filter fun e => e.who ≠ who) := by
  unfold dismiss
  dsimp only
  split
  · rfl
  · next e found =>
      split
      · next l limited =>
          have kept := held_putLimiter (t := t) e.agent.role l (l.withdraw who)
          have kickoffs : (t.putLimiter e.agent.role l (l.withdraw who)).kickoffs = t.kickoffs :=
            congrArg Prod.fst kept
          have executions :
              (t.putLimiter e.agent.role l (l.withdraw who)).executions = t.executions :=
            congrArg Prod.snd kept
          simp only [held, kickoffs, executions]
      · rfl

theorem held_charge (role : String) (p : Progress Actor) : (t.charge role p).held = t.held := by
  unfold charge
  dsimp only
  split
  · exact held_putLimiter ..
  · rfl

theorem kickoffs_charge (role : String) (p : Progress Actor) :
    (t.charge role p).kickoffs = t.kickoffs := congrArg Prod.fst (held_charge role p)

/-! ## What turns keep -/

section Kept
variable {Inv : List Kickoff × List (Execution Actor) → Prop}
  (polls : ∀ {who : Actor} {n : Nat} {t next : Timeline}, Inv t.held → Polled who n t next → Inv next.held)
  (ends : ∀ {kickoffs : List Kickoff} {executions fewer : List (Execution Actor)},
    Inv (kickoffs, executions) → fewer ⊆ executions → Inv (kickoffs, fewer))
include polls

theorem kept_pollMains (kept : Inv t.held) : Inv t.pollMains.held := by
  unfold pollMains
  induction List.range t.kickoffs.length generalizing t with
  | nil => exact kept
  | cons c cs ih => exact ih (polls kept (polled_pollMain c t.moveBound t))

include ends

theorem kept_poll (m : Mover) (kept : Inv t.held) : Inv (t.poll m).held := by
  unfold poll
  dsimp only
  split
  · exact kept_pollMains polls kept
  · split
    · rw [held_dismiss]
      exact ends kept (List.filter_subset_self _)
    · next c j _ =>
        have full : Inv ({ t with left := .full } : Timeline).held := kept
        exact polls full (polled_pollJob c j _ _)

theorem kept_drain (n : Nat) (kept : Inv t.held) : Inv (t.drain n).held := by
  induction n generalizing t with
  | zero => exact kept
  | succ n ih =>
      rw [drain]
      split
      · exact kept
      · next m rest awake =>
          have polled := kept_poll polls ends (t := { t with ready := rest }) m kept
          dsimp only
          split
          · exact polled
          · exact ih polled

theorem kept_run (n : Nat) (kept : Inv t.held) : Inv (t.run n).held := by
  induction n generalizing t with
  | zero => exact kept
  | succ n ih =>
      have ahead : Inv t.moveAhead.held := by
        unfold moveAhead
        split
        · exact kept_poll polls ends .mains kept
        · exact kept
      have drained := kept_drain polls ends turnsBetween ahead
      have renewed : Inv (t.moveAhead.drain turnsBetween).renew.held := by
        rw [held_renew]
        exact drained
      rw [run]
      dsimp only
      split
      · exact ahead
      · split
        · exact drained
        · split
          · exact ih renewed
          · split
            · next time _ =>
                apply ih
                rw [goTo, held_wakeAll]
                exact renewed
            · exact renewed

/-- What polls keep holds where crews that run side by side have ended, with the outcomes of their runs. -/
theorem kept_of_runAll {crews : List Crew} {inputs : Inputs} {now : Nat} {limiters : Limiters} {rank : Rank}
    {left : Allowance} {ending : Ending} (first : Inv (start crews inputs now limiters rank left).held)
    (ended : runAll crews inputs now limiters rank left = some ending) :
    ∃ t : Timeline, Inv t.held ∧
      List.Forall₂ (fun (k : Kickoff) outcome => k.result? = some outcome) t.kickoffs ending.outcomes := by
  obtain ⟨outcomes, found, here⟩ := Option.bind_eq_some_iff.mp ended
  cases here
  exact ⟨_, kept_run polls ends _ (kept_pollMains polls first), mapM_eq_some.mp found⟩

end Kept

/-! ## What a timeline is faithful to -/

def workOf? (kickoffs : List Kickoff) (who : Actor) : Option Work :=
  (kickoffs[who.crew]?).bind fun k => k.workBy? who

abbrev answers : Answers := Agent.reply

variable {crews : List Crew} {inputs : Inputs}

/-- Every kickoff has followed a schedule from its start on. Every execution is on the way to the answer
to what its actor works on. -/
structure Faithful (crews : List Crew) (inputs : Inputs)
    (held : List Kickoff × List (Execution Actor)) : Prop where
  count : held.1.length = crews.length
  followed : ∀ (c : Nat) (k : Kickoff) (crew : Crew), held.1[c]? = some k → crews[c]? = some crew →
    ReflTransGen (Step answers) (Kickoff.start crew inputs) k
  onTheWay : ∀ e ∈ held.2, ∃ w, workOf? held.1 e.who = some w ∧ e.agent = w.agent ∧
    e.Leads (w.answer answers)

theorem Faithful.fewer {kickoffs : List Kickoff} {executions fewer : List (Execution Actor)}
    (faithful : Faithful crews inputs (kickoffs, executions)) (subset : fewer ⊆ executions) :
    Faithful crews inputs (kickoffs, fewer) :=
  ⟨faithful.count, faithful.followed, fun e member => faithful.onTheWay e (subset member)⟩

theorem Faithful.step {kickoffs : List Kickoff} {executions : List (Execution Actor)}
    (faithful : Faithful crews inputs (kickoffs, executions)) {c : Nat} {k after : Kickoff}
    (standing : kickoffs[c]? = some k) (step : Step answers k after)
    (still : ∀ e ∈ executions, ∀ w, workOf? kickoffs e.who = some w →
      workOf? (kickoffs.set c after) e.who = some w) :
    Faithful crews inputs (kickoffs.set c after, executions) := by
  refine ⟨by simpa using faithful.count, ?_, ?_⟩
  · intro other k' crew there same
    by_cases here : c = other
    · subst here
      obtain ⟨below, _⟩ := List.getElem?_eq_some_iff.mp standing
      rw [List.getElem?_set_self below] at there
      cases there
      exact (faithful.followed c k crew standing same).tail step
    · rw [List.getElem?_set_ne here] at there
      exact faithful.followed other k' crew there same
  · intro e member
    obtain ⟨w, working, onward⟩ := faithful.onTheWay e member
    exact ⟨w, still e member w working, onward⟩

theorem workOf?_set {kickoffs : List Kickoff} {c : Nat} {k after : Kickoff}
    (standing : kickoffs[c]? = some k) {who : Actor} {w : Work}
    (keeps : who.crew = c → k.workBy? who = some w → after.workBy? who = some w)
    (working : workOf? kickoffs who = some w) : workOf? (kickoffs.set c after) who = some w := by
  obtain ⟨below, _⟩ := List.getElem?_eq_some_iff.mp standing
  unfold workOf? at working ⊢
  by_cases here : who.crew = c
  · rw [here, standing, Option.bind_some] at working
    rw [here, List.getElem?_set_self below, Option.bind_some]
    exact keeps here working
  · rw [List.getElem?_set_ne (Ne.symm here)]
    exact working

theorem workOf?_eq {kickoffs : List Kickoff} {who : Actor} {k : Kickoff} {w : Work}
    (standing : kickoffs[who.crew]? = some k) (working : k.workBy? who = some w) :
    workOf? kickoffs who = some w := by
  rw [workOf?, standing, Option.bind_some, working]

section Steps
variable {kickoffs : List Kickoff} {executions : List (Execution Actor)} {who : Actor}
variable {k after : Kickoff} {w : Work}

theorem Faithful.moved (faithful : Faithful crews inputs (kickoffs, executions))
    (standing : kickoffs[who.crew]? = some k) (moved : k.moveBy who = some after) :
    Faithful crews inputs (kickoffs.set who.crew after, executions) := by
  refine faithful.step standing (Kickoff.step_of_moveBy moved) ?_
  intro e _ w working
  refine workOf?_set standing ?_ working
  intro _ his
  exact Kickoff.workBy?_of_moveBy moved his

theorem Faithful.answered (faithful : Faithful crews inputs (kickoffs, executions))
    (standing : kickoffs[who.crew]? = some k) (working : k.workBy? who = some w) :
    Faithful crews inputs
      (kickoffs.set who.crew (k.answerBy (w.answer answers) who),
        executions.filter fun e => e.who ≠ who) := by
  refine (faithful.fewer (List.filter_subset_self _)).step standing
    (Kickoff.step_of_answerBy working) ?_
  intro e member w' working'
  refine workOf?_set standing ?_ working'
  intro sameCrew his
  have apart : e.who ≠ who := by simpa using (List.mem_filter.mp member).2
  rw [Kickoff.workBy?_answerBy sameCrew apart, his]

theorem Faithful.goneOn (faithful : Faithful crews inputs (kickoffs, executions))
    (working : workOf? kickoffs who = some w) {e : Execution Actor} (his : e.who = who)
    (agent : e.agent = w.agent) (leads : e.Leads (w.answer answers)) :
    Faithful crews inputs (kickoffs, (executions.filter fun e => e.who ≠ who) ++ [e]) := by
  refine ⟨faithful.count, faithful.followed, ?_⟩
  intro e' member
  rcases List.mem_append.mp member with old | new
  · exact faithful.onTheWay e' (List.mem_of_mem_filter old)
  · cases List.mem_singleton.mp new
    exact ⟨w, his ▸ working, agent, leads⟩

end Steps

/-! ## Turns -/

/-- Nobody in the crews has a time limit, and no crew remembers. -/
def Timeless (crews : List Crew) : Prop :=
  ∀ crew ∈ crews, crew.embedder = none ∧ ∀ agent, Employs crew agent → agent.limits.maxTime = none

theorem Faithful.underway {who : Actor} {w : Work} (faithful : Faithful crews inputs t.held)
    (working : workOf? t.kickoffs who = some w) (patient : w.agent.limits.maxTime = none) :
    (t.underway who w).who = who ∧ (t.underway who w).agent = w.agent ∧
      (t.underway who w).Leads (w.answer answers) := by
  unfold Timeline.underway
  cases begun : t.executions.find? fun e => e.who = who with
  | none =>
      rw [Option.getD_none]
      exact ⟨rfl, rfl, Agent.Execution.leads_start w.task.tools w.prompt patient⟩
  | some e =>
      rw [Option.getD_some]
      have his : e.who = who := by simpa using List.find?_some begun
      obtain ⟨w', worked, agent, leads⟩ := faithful.onTheWay e (List.mem_of_find?_eq_some begun)
      rw [his] at worked
      cases worked.symm.trans working
      exact ⟨his, agent, leads⟩

theorem Faithful.work {who : Actor} {w : Work} (faithful : Faithful crews inputs t.held)
    (working : workOf? t.kickoffs who = some w) (patient : w.agent.limits.maxTime = none) :
    (∃ next, t.work who w = (next, some (w.answer answers)) ∧
      next.held = (t.kickoffs, t.executions.filter fun e => e.who ≠ who)) ∨
    ∃ next, t.work who w = (next, none) ∧ next.kickoffs = t.kickoffs ∧
      Faithful crews inputs next.held := by
  obtain ⟨his, agent, leads⟩ := faithful.underway working patient
  have arrives : (t.underway who w).Arrives (w.answer answers) (t.progress who w).outcome :=
    leads.advance _
  cases outcome : (t.progress who w).outcome with
  | finished result =>
      rw [outcome] at arrives
      left
      rw [work_of_finished outcome, show result.mapError (·.message) = _ from arrives]
      exact ⟨_, rfl, by rw [held, kickoffs_charge]⟩
  | waiting e isSpent =>
      rw [outcome] at arrives
      obtain ⟨onward, sameWho, sameAgent⟩ := arrives
      right
      have goneOn := faithful.goneOn working (sameWho.trans his) (sameAgent.trans agent) onward
      refine ⟨_, work_of_waiting outcome, ?_, ?_⟩
      · dsimp only
        split
        · rw [exhaust, kickoffs_charge]
        · rw [kickoffs_charge]
      · dsimp only
        split
        · rw [held, exhaust, kickoffs_charge]
          exact goneOn
        · rw [held, kickoffs_charge]
          exact goneOn

section Turns
variable (timeless : Timeless crews)

include timeless in
theorem Faithful.patient {kickoffs : List Kickoff} {executions : List (Execution Actor)}
    (faithful : Faithful crews inputs (kickoffs, executions)) {who : Actor} {w : Work}
    (working : workOf? kickoffs who = some w) : w.agent.limits.maxTime = none := by
  obtain ⟨k, standing, working⟩ := Option.bind_eq_some_iff.mp working
  obtain ⟨below, _⟩ := List.getElem?_eq_some_iff.mp standing
  have count : kickoffs.length = crews.length := faithful.count
  have there : crews[who.crew]? = some crews[who.crew] := List.getElem?_eq_getElem (count ▸ below)
  obtain ⟨forgetful, patient⟩ := timeless crews[who.crew] (List.mem_of_getElem? there)
  have staffed := Kickoff.staffed_of_reached forgetful (faithful.followed _ k _ standing there)
  exact patient _ (staffed.employs_of_workBy working)

theorem Faithful.looked {who : Actor} {k : Kickoff} {awaits : Option Nat}
    (faithful : Faithful crews inputs t.held) (standing : t.kickoffs[who.crew]? = some k)
    (look : t.lookFor who.crew k awaits = some next) :
    next.kickoffs[who.crew]? = some k ∧ Faithful crews inputs next.held := by
  rw [kickoffs_of_lookFor look, held_of_lookFor look]
  exact ⟨standing, faithful⟩

theorem Faithful.afterMoved {who : Actor} {k after : Kickoff}
    (faithful : Faithful crews inputs t.held) (standing : t.kickoffs[who.crew]? = some k)
    (moved : k.moveBy who = some after) : Faithful crews inputs (t.afterBy k after who).held := by
  rw [held_afterBy]
  exact faithful.moved standing moved

include timeless in
theorem Faithful.afterAnswered {who : Actor} {k : Kickoff} {w : Work} {answer : Except String String}
    (faithful : Faithful crews inputs t.held) (standing : t.kickoffs[who.crew]? = some k)
    (working : k.workBy? who = some w) (works : t.work who w = (next, some answer)) :
    answer = w.answer answers ∧
      Faithful crews inputs (next.afterBy k (k.answerBy answer who) who).held := by
  have his := workOf?_eq standing working
  rcases faithful.work his (faithful.patient timeless his) with
    ⟨worked, answers, held⟩ | ⟨worked, waits, _, _⟩
  · cases works.symm.trans answers
    have kickoffs : next.kickoffs = t.kickoffs := congrArg Prod.fst held
    have executions : next.executions = t.executions.filter fun e => e.who ≠ who :=
      congrArg Prod.snd held
    rw [held_afterBy, kickoffs, executions]
    exact ⟨rfl, faithful.answered standing working⟩
  · cases works.symm.trans waits

include timeless in
theorem Faithful.afterWorking {who : Actor} {k : Kickoff} {w : Work}
    (faithful : Faithful crews inputs t.held) (standing : t.kickoffs[who.crew]? = some k)
    (working : k.workBy? who = some w) (works : t.work who w = (next, none)) :
    Faithful crews inputs next.held := by
  have his := workOf?_eq standing working
  rcases faithful.work his (faithful.patient timeless his) with
    ⟨worked, answers, _⟩ | ⟨worked, waits, _, onward⟩
  · cases works.symm.trans answers
  · cases works.symm.trans waits
    exact onward

include timeless in
theorem Faithful.polled {n : Nat} {who : Actor} (faithful : Faithful crews inputs t.held)
    (polled : Polled who n t next) : Faithful crews inputs next.held := by
  induction polled with
  | tired => exact faithful
  | absent nobody => exact faithful
  | spent standing spent => exact faithful
  | moved standing look moved rest ih =>
      obtain ⟨standing, faithful⟩ := faithful.looked standing look
      exact ih (faithful.afterMoved standing moved)
  | answered standing look working works rest ih =>
      obtain ⟨standing, faithful⟩ := faithful.looked standing look
      exact ih (faithful.afterAnswered timeless standing working works).2
  | working standing look working works =>
      obtain ⟨standing, faithful⟩ := faithful.looked standing look
      exact faithful.afterWorking timeless standing working works
  | awaiting standing look stuck idle awaits =>
      rw [held_await]
      exact (faithful.looked standing look).2
  | resting standing look stuck idle alone => exact (faithful.looked standing look).2

end Turns

theorem faithful_start (now : Nat) (limiters : Limiters) (rank : Rank) (left : Allowance) :
    Faithful crews inputs (start crews inputs now limiters rank left).held := by
  refine ⟨by simp [held, start], ?_, by simp [held, start]⟩
  intro c k crew standing there
  simp only [held, start, List.getElem?_map, there, Option.map_some] at standing
  cases standing
  exact .refl

end Timeline

end CrewFlow.Crew
