import Mathlib
import CrewFlow.Proofs.Crew.Debt
/-!
# Crews end

What crews still have to pay falls with every turn. When they cannot pay for another turn, nobody is awake
and no alarm is set, and so all of them are over.
-/
set_option autoImplicit false

namespace CrewFlow.Crew

open Agent (Execution)
open Agent.Execution (fare waitingAt)
open Kickoff (weightFrom)
open Rate (Allowance Limiter)
open Text (Inputs)

def Mover.actors (m : Mover) : Set Actor := {who | who.mover = m}

theorem weightFrom_lt_crewMoves (crew : Crew) : weightFrom crew 0 + 2 < Timeline.crewMoves crew := by
  have weight : ∀ (most : Nat) (tasks : List CrewTask),
      (tasks.map fun t => most + t.context.length + 5).sum =
        tasks.length * (most + 5) + tasks.foldr (fun t n => t.context.length + n) 0 := by
    intro most tasks
    induction tasks with
    | nil => simp
    | cons t tasks ih =>
        rw [List.map_cons, List.sum_cons, ih, List.length_cons, List.foldr_cons]
        ring
  rw [weightFrom, List.drop_zero, weight, Timeline.crewMoves]
  generalize crew.tasks.foldr (fun t n => t.context.length + n) 0 = links
  nlinarith

namespace Timeline

variable {crews : List Crew} {inputs : Inputs} {t next : Timeline} {k after : Kickoff} {who : Actor}
variable {busy : Set Actor} {m : Mover} {c : Nat}

namespace Running

/-! ## Nobody to wait for -/

/-- The lock for which somebody waits is held by somebody who waits for a time. -/
theorem not_queued (running : Running crews inputs t ∅) (asleep : ∀ m, ¬t.Awake m)
    (quiet : t.alarms = []) : ∀ e ∈ t.executions, e.stage ≠ .queued := by
  intro e member queued
  have watched := running.watched
  have inLine := watched.stands e member
  rw [Agent.Execution.Stands, queued] at inLine
  cases found : t.limiters.lookup e.agent.role with
  | none =>
      rw [found] at inLine
      cases inLine
  | some l =>
      rw [found] at inLine
      have sound := watched.sound _ l found
      cases holds : l.holder with
      | none =>
          have nobody : l.line = [] := by rw [Limiter.line, holds, sound.handed holds]; rfl
          have inLine : e.who ∈ l.line := inLine
          rw [nobody] at inLine
          cases inLine
      | some x =>
          obtain ⟨holder, there, his, role⟩ :=
            watched.manned _ l x found (Limiter.mem_line_of_holder holds)
          subst his
          obtain ⟨k, w, standing, working⟩ := running.works there
          obtain ⟨awaits, unfinished⟩ := Kickoff.awaitedBy?_of_workBy? working
          cases watched.waits holder.who k standing (Kickoff.has_of_workBy? working) (by simp) with
          | awake awake => exact asleep _ awake
          | done done => exact unfinished done
          | dismissed ended gone => exact gone holder there rfl
          | timed member his stage alarm =>
              rw [quiet] at alarm
              cases alarm
          | @queued other member his stage behind =>
              have same := List.inj_on_of_nodup_map watched.once member there his
              subst same
              rw [role, found] at behind
              exact behind holds
          | awaiting awaited below unfinished noted => cases awaits.symm.trans awaited

/-- When nobody is awake and no alarm is set, everybody in a crew that is not over is over, or awaits a
job that is not. -/
theorem over_or_awaits (running : Running crews inputs t ∅) (asleep : ∀ m, ¬t.Awake m)
    (quiet : t.alarms = []) (who : Actor) (standing : t.kickoffs[who.crew]? = some k)
    (going : k.result? = none) (has : k.Has who) :
    k.IsOver who ∨ ∃ j, k.awaitedBy? who = some j ∧ ¬k.IsOver (.job who.crew j) := by
  cases running.watched.waits who k standing has (by simp) with
  | awake awake => exact absurd awake (asleep _)
  | done done => exact .inl done
  | dismissed ended gone => simp [going] at ended
  | timed member his stage alarm =>
      rw [quiet] at alarm
      cases alarm
  | queued member his stage behind =>
      exact absurd stage (running.not_queued asleep quiet _ member)
  | @awaiting j awaits below unfinished noted =>
      exact .inr ⟨j, awaits, by simp [Kickoff.IsOver, unfinished]⟩

/-- Jobs await jobs that were handed out before them, so all of them are over, and then so is the main
line. -/
theorem over_of_idle (running : Running crews inputs t ∅) (asleep : ∀ m, ¬t.Awake m)
    (quiet : t.alarms = []) : t.isOver = true := by
  rw [isOver, List.all_eq_true]
  intro k member
  obtain ⟨c, standing⟩ := List.mem_iff_getElem?.mp member
  by_contra unfinished
  have going : k.result? = none := by simpa using unfinished
  have jobs : ∀ j, k.Has (.job c j) → k.IsOver (.job c j) := by
    intro j
    induction j using Nat.strong_induction_on with
    | _ j earlier =>
        intro has
        rcases running.over_or_awaits asleep quiet (.job c j) standing going has with
          done | ⟨i, awaits, unfinished⟩
        · exact done
        · have below := lt_of_jobAwaits? (running.linked standing) awaits
          exact absurd (earlier i below (below.trans has)) unfinished
  rcases running.over_or_awaits asleep quiet (.main c) standing going trivial with
    done | ⟨j, awaits, unfinished⟩
  · exact unfinished done
  · exact unfinished (jobs j (lt_of_awaitedBy? (running.linked standing) awaits))

/-! ## Turns -/

theorem turn {ready : List Mover} {mainReady : Bool} (running : Running crews inputs t ∅)
    (others : ∀ m', m' ≠ m → t.Awake m' → ({ t with ready, mainReady } : Timeline).Awake m') :
    Running crews inputs { t with ready, mainReady } m.actors := by
  refine ⟨running.timeless, running.faithful, { running.watched with waits := ?_ }⟩
  intro who k standing has apart
  cases running.watched.waits who k standing has (by simp) with
  | awake awake => exact .awake (others _ apart awake)
  | done done => exact .done done
  | dismissed ended gone => exact .dismissed ended gone
  | timed member his stage alarm => exact .timed member his stage alarm
  | queued member his stage behind => exact .queued member his stage behind
  | awaiting awaits below unfinished noted => exact .awaiting awaits below unfinished noted

theorem weight_lt (running : Running crews inputs t busy) (standing : t.kickoffs[c]? = some k) :
    k.weight < t.moveBound := by
  obtain ⟨crew, _, forgetful, reached⟩ := running.reached standing
  have light := Kickoff.weight_le_of_reached forgetful reached
  have ofCrew := (Kickoff.staffed_of_reached forgetful reached).ofCrew
  have most := weightFrom_lt_crewMoves crew
  have bound : ∀ {kickoffs : List Kickoff}, k ∈ kickoffs →
      crewMoves crew ≤ kickoffs.foldr (fun k n => crewMoves k.crew + n) 0 := by
    intro kickoffs member
    induction kickoffs with
    | nil => cases member
    | cons first rest ih =>
        rw [List.foldr_cons]
        rcases List.mem_cons.mp member with rfl | later
        · rw [ofCrew]
          exact Nat.le_add_right _ _
        · exact (ih later).trans (Nat.le_add_left _ _)
  have all := bound (List.mem_of_getElem? standing)
  rw [moveBound]
  omega

theorem foldl_pollMain (cs : List Nat) (running : Running crews inputs t busy)
    (turn : ∀ c ∈ cs, .main c ∈ busy) (once : cs.Nodup) :
    Running crews inputs (cs.foldl (fun t c => t.pollMain c t.moveBound) t)
        (busy \ {who | ∃ c ∈ cs, who = .main c}) ∧
      t.Pays .mains (cs.foldl (fun t c => t.pollMain c t.moveBound) t) := by
  induction cs generalizing t busy with
  | nil => exact ⟨by simpa using running, .refl⟩
  | cons c cs ih =>
      obtain ⟨new, once⟩ := List.nodup_cons.mp once
      obtain ⟨polled, paid⟩ := running.polled (turn c List.mem_cons_self)
        (fun j k his _ => nomatch his) (fun k standing => running.weight_lt standing)
        (polled_pollMain c t.moveBound t)
      have rest : ∀ c' ∈ cs, (.main c' : Actor) ∈ busy \ {.main c} := by
        intro c' member
        refine ⟨turn c' (List.mem_cons_of_mem _ member), ?_⟩
        rintro same
        cases same
        exact new member
      obtain ⟨ended, more⟩ := ih polled rest once
      refine ⟨?_, paid.trans more⟩
      have all : busy \ {who | ∃ c' ∈ c :: cs, who = .main c'} =
          (busy \ {.main c}) \ {who | ∃ c' ∈ cs, who = .main c'} := by
        ext who
        constructor
        · rintro ⟨inside, outside⟩
          refine ⟨⟨inside, fun here => outside ⟨c, List.mem_cons_self, here⟩⟩, ?_⟩
          rintro ⟨c', member, same⟩
          exact outside ⟨c', List.mem_cons_of_mem _ member, same⟩
        · rintro ⟨⟨inside, apart⟩, outside⟩
          refine ⟨inside, ?_⟩
          rintro ⟨c', member, same⟩
          rcases List.mem_cons.mp member with rfl | later
          · exact apart same
          · exact outside ⟨c', later, same⟩
      rw [all]
      exact ended

theorem pollMains (running : Running crews inputs t Mover.mains.actors) :
    Running crews inputs t.pollMains ∅ ∧ t.Pays .mains t.pollMains := by
  obtain ⟨polled, paid⟩ := running.foldl_pollMain (List.range t.kickoffs.length)
    (fun _ _ => rfl) List.nodup_range
  refine ⟨polled.mono ?_, paid⟩
  -- The main lines of all crews have had their turn.
  rintro who k standing - ⟨main, others⟩ -
  refine absurd ?_ others
  cases who with
  | main c =>
      refine ⟨c, List.mem_range.mpr ?_, rfl⟩
      obtain ⟨below, _⟩ := List.getElem?_eq_some_iff.mp standing
      have count : t.kickoffs.length = crews.length := running.faithful.count
      have still : t.pollMains.kickoffs.length = crews.length := polled.faithful.count
      exact count ▸ still ▸ below
  | job c j => cases main

theorem dismissed (running : Running crews inputs t busy) (turn : who ∈ busy)
    (ended : ∀ k, t.kickoffs[who.crew]? = some k → k.result?.isSome = true) :
    Running crews inputs (t.dismiss who) (busy \ {who}) ∧ (t.dismiss who).debt ≤ t.debt := by
  obtain ⟨watched, wakes, noticed⟩ := running.watched.dismissed turn ended
  have held := held_dismiss (t := t) who
  have kickoffs : (t.dismiss who).kickoffs = t.kickoffs := congrArg Prod.fst held
  have executions : (t.dismiss who).executions = t.executions.filter fun e => e.who ≠ who :=
    congrArg Prod.snd held
  refine ⟨⟨running.timeless, ?_, watched⟩, ?_⟩
  · rw [held]
    exact running.faithful.fewer (List.filter_subset_self _)
  · have cheaper : loads (t.dismiss who).executions t.noticed t.kickoffs ≤
        loads t.executions t.noticed t.kickoffs := by
      refine loads_le fun c k standing => ?_
      by_cases here : c = who.crew
      · have light : load (t.dismiss who).executions t.noticed c k = 0 :=
          if_pos (ended k (here ▸ standing))
        rw [light]
        exact Nat.zero_le _
      · refine (load_congr _ _ fun other crew w => ?_).le
        have apart : other ≠ who := by
          rintro rfl
          exact here crew.symm
        have same : remaining ((t.executions.filter fun e => e.who ≠ who) ++ none.toList) other w =
            remaining t.executions other w := remaining_replaced (by simp) apart w
        rw [executions, ← same, Option.toList_none, List.append_nil]
    have fewer := Nat.mul_le_mul_left fare wakes
    rw [debt, debt, noticed, kickoffs]
    omega

/-- A turn is paid by the fare for which the mover was woken. -/
theorem poll (running : Running crews inputs t m.actors) :
    Running crews inputs (t.poll m) ∅ ∧ (t.poll m).debt ≤ t.debt := by
  let begun : Timeline := { t with left := .full }
  have fresh : Running crews inputs begun m.actors :=
    running.of_calm ⟨rfl, rfl, rfl, rfl, rfl, fun _ => id⟩
  have ofPays : ∀ {last : Timeline}, begun.Pays m last → last.debt ≤ t.debt := by
    intro last pays
    -- Whether the turn was spent before or not, there is a whole fare for it.
    have first : begun.budget m = fare := by
      unfold budget
      split <;> rfl
    have full : begun.turn = fare := rfl
    have paid : last.debt + begun.budget m ≤ t.debt + max fare begun.turn := pays.debt_le
    omega
  cases m with
  | mains =>
      obtain ⟨ended, paid⟩ := fresh.pollMains
      exact ⟨ended, ofPays paid⟩
  | job c j =>
      have alone : ∀ {last : Timeline}, Running crews inputs last (Mover.actors (.job c j) \ {.job c j}) →
          Running crews inputs last ∅ := by
        intro last running
        refine running.mono ?_
        rintro who k _ _ ⟨his, apart⟩ -
        refine absurd ?_ apart
        cases who with
        | main c' => cases his
        | job c' i =>
            cases his
            rfl
      have turn : Actor.job c j ∈ Mover.actors (.job c j) := rfl
      unfold Timeline.poll
      dsimp only
      split
      · next ended =>
          have crewOver : ∀ k, begun.kickoffs[c]? = some k → k.result?.isSome = true := by
            intro k standing
            have ended : begun.isCrewOver c = true := ended
            rw [isCrewOver, standing] at ended
            exact ended
          obtain ⟨left, paid⟩ := fresh.dismissed turn crewOver
          exact ⟨alone left, paid⟩
      · next going =>
          have open' : ∀ i k, Actor.job? (.job c j) = some i → begun.kickoffs[c]? = some k →
              k.result? = none := by
            intro _ k _ standing
            have going : begun.isCrewOver c ≠ true := going
            rw [isCrewOver, standing] at going
            simpa using going
          obtain ⟨ended, paid⟩ := fresh.polled turn open'
            (fun k standing => fresh.weight_lt standing) (polled_pollJob c j begun.moveBound begun)
          exact ⟨alone ended, ofPays paid⟩

theorem drain (n : Nat) (running : Running crews inputs t ∅) :
    Running crews inputs (t.drain n) ∅ ∧ (t.drain n).debt ≤ t.debt ∧
      (n ≠ 0 → t.ready ≠ [] → (t.drain n).debt + fare ≤ t.debt) := by
  induction n generalizing t with
  | zero => exact ⟨running, le_rfl, by simp⟩
  | succ n ih =>
      rw [Timeline.drain]
      split
      · next asleep => exact ⟨running, le_rfl, fun _ awake => absurd asleep awake⟩
      · next m rest awake =>
          have begun : Running crews inputs { t with ready := rest } m.actors := by
            refine running.turn ?_
            rintro m' other (ready | main | spent)
            · rw [awake] at ready
              exact .inl ((List.mem_cons.mp ready).resolve_left other)
            · exact .inr (.inl main)
            · exact .inr (.inr spent)
          have owed : ({ t with ready := rest } : Timeline).debt + fare = t.debt := by
            simp only [debt, wakes, queued, awake, List.length_cons]
            ring
          obtain ⟨polled, paid⟩ := begun.poll
          dsimp only
          split
          · exact ⟨polled, by omega, fun _ _ => by omega⟩
          · obtain ⟨ended, later, _⟩ := ih polled
            exact ⟨ended, by omega, fun _ _ => by omega⟩

/-! ## Rounds -/

theorem moveAhead (running : Running crews inputs t ∅) :
    Running crews inputs t.moveAhead ∅ ∧ t.moveAhead.debt ≤ t.debt ∧
      (t.mainReady = true → t.moveAhead.debt + fare ≤ t.debt) := by
  unfold Timeline.moveAhead
  split
  · next ahead =>
      have begun : Running crews inputs { t with mainReady := false } Mover.mains.actors := by
        refine running.turn ?_
        rintro m' other (ready | ⟨main, _⟩ | spent)
        · exact .inl ready
        · exact absurd main other
        · exact .inr (.inr spent)
      have owed : ({ t with mainReady := false } : Timeline).debt + fare = t.debt := by
        simp only [debt, wakes, queued, ahead, Bool.toNat_true, Bool.toNat_false]
        ring
      obtain ⟨ended, paid⟩ := begun.poll
      exact ⟨ended, by omega, fun _ => by omega⟩
  · next inLine => exact ⟨running, le_rfl, fun ahead => absurd ahead inLine⟩

theorem renew (running : Running crews inputs t ∅) :
    Running crews inputs t.renew ∅ ∧ t.renew.debt ≤ t.debt := by
  obtain ⟨roused, called⟩ := roused_foldl (t := { t with spent := [] }) t.spent
  have calm : t.Calm t.renew := by
    refine ⟨roused.held, roused.now, roused.limiters, roused.alarms, roused.awaited, ?_⟩
    rintro m (ready | main | spent)
    · exact roused.awake m (.inl ready)
    · exact roused.awake m (.inr (.inl main))
    · exact (called m spent).awake
  have owed := roused.debt_le
  refine ⟨running.of_calm calm, ?_⟩
  have before : ({ t with spent := [] } : Timeline).debt + fare * t.spent.toFinset.card = t.debt := by
    simp only [debt, wakes, queued, List.toFinset_nil, Finset.card_empty]
    ring
  change (t.spent.foldl rouse { t with spent := [] }).debt ≤ t.debt
  omega

theorem goTo (running : Running crews inputs t ∅) (time : Nat) :
    Running crews inputs (t.goTo time) ∅ ∧ (t.goTo time).debt ≤ t.debt ∧
      ∀ a ∈ t.alarms, a.1 ≤ time → (t.goTo time).Awake a.2.mover := by
  let due : List (Nat × Actor) := t.alarms.filter fun a => a.1 ≤ time
  let later : List (Nat × Actor) := t.alarms.filter fun a => time < a.1
  let put : Timeline := { t with now := max t.now time, alarms := later }
  obtain ⟨roused, awake⟩ := roused_wakeAll (t := put) (due.map fun a => a.2)
  have woken : ∀ a ∈ t.alarms, a.1 ≤ time → (t.goTo time).Awake a.2.mover := by
    intro a member passed
    exact awake a.2 (List.mem_map_of_mem (List.mem_filter.mpr ⟨member, by simpa using passed⟩))
  have remains : ∀ a ∈ t.alarms, a ∈ (t.goTo time).alarms ∨ a.1 ≤ time := by
    intro a member
    by_cases passed : a.1 ≤ time
    · exact .inr passed
    · refine .inl ?_
      rw [show (t.goTo time).alarms = later from roused.alarms]
      exact List.mem_filter.mpr ⟨member, by simpa using passed⟩
  have now : (t.goTo time).now = max t.now time := roused.now
  have kickoffs : (t.goTo time).kickoffs = t.kickoffs := congrArg Prod.fst roused.held
  have executions : (t.goTo time).executions = t.executions := congrArg Prod.snd roused.held
  have limiters : (t.goTo time).limiters = t.limiters := roused.limiters
  have awaited : (t.goTo time).awaited = t.awaited := roused.awaited
  obtain ⟨sound, manned, stands, once, alarmed, noted, awaiters, waits⟩ := running.watched
  have watched : (t.goTo time).Watched ∅ := by
    refine ⟨limiters ▸ sound, ?_, ?_, executions ▸ once, ?_, awaited ▸ noted, ?_, ?_⟩
    · rw [limiters, executions]
      exact manned
    · rw [limiters, executions]
      exact stands
    · intro e member ends stage
      rw [now]
      rcases alarmed e (executions ▸ member) ends stage with alarm | passed
      · exact (remains _ alarm).imp_right fun passed => passed.trans (le_max_right _ _)
      · exact .inr (passed.trans (le_max_left _ _))
    · rw [awaited, kickoffs]
      exact awaiters
    · rw [kickoffs]
      intro who k standing has idle
      exact (waits who k standing has idle).mono roused.awake executions limiters
        (fun _ alarm => (remains _ alarm).imp_right (woken _ alarm)) fun _ there => awaited ▸ there
  refine ⟨⟨running.timeless, ?_, watched⟩, ?_, woken⟩
  · rw [show (t.goTo time).held = t.held from roused.held]
    exact running.faithful
  · have owed := roused.debt_le
    -- Each alarm that goes off is one wakening less to come, and rouses one mover at most.
    have parted : due.length + later.length = t.alarms.length := by
      have others : later = t.alarms.filter fun a => !decide (a.1 ≤ time) := by
        apply List.filter_congr
        intro a _
        rw [← decide_not, decide_eq_decide]
        exact Nat.not_le.symm
      rw [others]
      exact (List.length_eq_length_filter_add _).symm
    have before : put.debt + fare * due.length = t.debt := by
      have wakes : t.wakes = put.wakes + due.length := by
        simp only [Timeline.wakes, queued, put]
        omega
      rw [debt, debt, wakes, Nat.mul_add]
      change fare * put.wakes + loads t.executions t.noticed t.kickoffs + _ = _
      omega
    rw [List.length_map] at owed
    change (put.wakeAll (due.map fun a => a.2)).debt ≤ t.debt
    omega

end Running

theorem spent_goTo (t : Timeline) (time : Nat) : (t.goTo time).spent = t.spent := by
  rw [goTo]
  exact (roused_wakeAll _).1.spent

theorem isAwake_of_awake {m : Mover} (awake : t.Awake m) (renewed : t.spent = []) :
    t.isAwake = true := by
  rw [isAwake]
  rcases awake with ready | ⟨_, main⟩ | spent
  · cases ready' : t.ready with
    | nil =>
        rw [ready'] at ready
        cases ready
    | cons m rest => simp
  · simp [main]
  · rw [renewed] at spent
    cases spent

namespace Running

/-- As long as crews can pay for no more turns than there are rounds, they end in them. -/
theorem run (n : Nat) (running : Running crews inputs t ∅)
    (few : t.debt + (if t.isAwake then 0 else fare) < fare * n) : (t.run n).isOver = true := by
  induction n generalizing t with
  | zero => omega
  | succ n ih =>
      obtain ⟨ahead, first, main⟩ := running.moveAhead
      rw [Timeline.run]
      dsimp only
      split
      · next ended => exact ended
      · obtain ⟨drained, second, jobs⟩ := ahead.drain turnsBetween
        split
        · next ended => exact ended
        · obtain ⟨renewed, third⟩ := drained.renew
          have spent : (t.moveAhead.drain turnsBetween).renew.spent = [] :=
            (roused_foldl _).1.spent
          -- If anybody was awake, a turn has been paid for; if nobody was, `few` has counted the round.
          have paid : (t.moveAhead.drain turnsBetween).renew.debt < fare * n := by
            rw [Nat.mul_succ] at few
            by_cases awake : t.isAwake = true
            · rw [if_pos awake] at few
              by_cases mains : t.mainReady = true
              · have turn := main mains
                omega
              · have same : t.moveAhead = t := by rw [Timeline.moveAhead, if_neg mains]
                have turn := jobs (by decide) (by simpa [same, isAwake, mains] using awake)
                omega
            · rw [if_neg awake] at few
              omega
          split
          · next awake => exact ih renewed (by rw [if_pos awake]; exact paid)
          · next asleep =>
              split
              · next time soonest =>
                  -- Whoever the alarm is for is awake now, and the next round is paid for by that one.
                  obtain ⟨gone, owed, woken⟩ := renewed.goTo time
                  obtain ⟨a, member, due⟩ := List.mem_map.mp (List.min?_mem soonest)
                  have awake := isAwake_of_awake (woken a member due.le)
                    ((spent_goTo _ time).trans spent)
                  exact ih gone (by rw [if_pos awake]; omega)
              · next quiet =>
                  refine renewed.over_of_idle ?_ ?_
                  · intro m awake
                    exact asleep (isAwake_of_awake awake spent)
                  · rw [nextAlarm?, List.min?_eq_none_iff] at quiet
                    exact List.map_eq_nil_iff.mp quiet

end Running

/-! ## Runs -/

/-- Nobody holds the lock of a limiter, or waits for it. -/
def Idle (limiters : Limiters) : Prop := ∀ e ∈ limiters, e.2.line = []

def fee (crew : Crew) : Nat := taskFee crew * crew.tasks.length + fare * crew.tasks.length

theorem fee_lt_rounds (crew : Crew) : fee crew + fare < fare * roundBound crew := by
  have turns : wages crew ≤
      fare * (crew.agents ++ crew.manager.toList).foldr (fun a n => Agent.turns a + n) 0 := by
    rw [wages]
    induction crew.agents ++ crew.manager.toList with
    | nil => simp
    | cons agent agents ih =>
        rw [List.map_cons, List.sum_cons, List.foldr_cons, Nat.mul_add]
        have paid : wage agent ≤ fare * Agent.turns agent := by
          simp only [wage, Agent.turns, fare, Allowance.full]
          omega
        omega
  simp only [fee, roundBound, taskFee, jobFee]
  revert turns
  generalize crew.tasks.foldr (fun task n => task.context.length + n) 0 = links
  generalize (crew.agents ++ crew.manager.toList).foldr (fun a n => Agent.turns a + n) 0 = turns
  generalize crew.tasks.length = n
  intro paid
  have works := Nat.mul_le_mul_right n paid
  simp only [fare, Allowance.full] at works ⊢
  nlinarith [Nat.zero_le (n * links), Nat.zero_le (n * n)]

theorem sum_fee_lt_rounds {crews : List Crew} (nonempty : crews ≠ []) :
    (crews.map fee).sum + 2 * fare < fare * crews.foldr (fun c n => roundBound c + n) 1 := by
  induction crews with
  | nil => exact absurd rfl nonempty
  | cons crew crews ih =>
      have first := fee_lt_rounds crew
      rw [List.map_cons, List.sum_cons, List.foldr_cons, Nat.mul_add]
      by_cases last : crews = []
      · subst last
        simp only [List.map_nil, List.sum_nil, List.foldr_nil]
        omega
      · have rest := ih last
        omega

section Runs
variable {limiters : Limiters} (idle : Idle limiters) (now : Nat) (rank : Rank) (left : Allowance)

include idle

theorem Idle.line_eq {role : String} {l : Limiter Actor} (found : limiters.lookup role = some l) :
    l.line = [] := by
  obtain ⟨before, after, rfl, _⟩ := List.lookup_eq_some_iff.mp found
  exact idle (role, l) (by simp)

theorem running_start (timeless : Timeless crews) (inputs : Inputs) :
    Running crews inputs (start crews inputs now limiters rank left) Mover.mains.actors := by
  refine ⟨timeless, faithful_start now limiters rank left, ?_, ?_, ?_, ?_, ?_, ?_, ?_, ?_⟩
  · intro role l found
    have nobody : l.line = [] := idle.line_eq found
    refine ⟨fun _ => (List.append_eq_nil_iff.mp nobody).2, ?_⟩
    rw [nobody]
    exact List.nodup_nil
  · intro role l x found member
    have nobody : l.line = [] := idle.line_eq found
    rw [nobody] at member
    cases member
  · intro e member
    cases member
  · exact List.nodup_nil
  · intro e member
    cases member
  · exact List.nodup_nil
  · intro w member
    cases member
  · intro who k standing has apart
    cases who with
    | main c => exact absurd rfl apart
    | job c j =>
        obtain ⟨crew, _, rfl⟩ := List.mem_map.mp (List.mem_of_getElem? standing)
        exact absurd has (Nat.not_lt_zero j)

omit idle in
theorem loads_start (crews : List Crew) (inputs : Inputs) :
    loads [] [] (crews.map fun crew => Kickoff.start crew inputs) = (crews.map fee).sum := by
  have each : ∀ c, ((crews.map fun crew => Kickoff.start crew inputs)[c]?).elim 0 (load [] [] c) =
      (crews[c]?).elim 0 fee := by
    intro c
    rw [List.getElem?_map]
    cases crews[c]? with
    | none => rfl
    | some crew => simp [load, openLoad, loadOf, unnoticed, Kickoff.start, Kickoff.result?, fee]
  simp only [loads, each, List.length_map]
  clear each
  induction crews with
  | nil => rfl
  | cons crew crews ih =>
      rw [List.length_cons, Finset.sum_range_succ', List.map_cons, List.sum_cons, Nat.add_comm, ← ih]
      rfl

theorem debt_start (crews : List Crew) (inputs : Inputs) :
    (start crews inputs now limiters rank left).debt = (crews.map fee).sum := by
  have queued : (start crews inputs now limiters rank left).queued = 0 := by
    apply Finset.sum_eq_zero
    intro role _
    cases found : limiters.lookup role with
    | none =>
        change waitingAt (limiters.lookup role) = 0
        rw [found]
        rfl
    | some l =>
        change waitingAt (limiters.lookup role) = 0
        rw [found]
        exact List.length_eq_zero_iff.mpr (List.append_eq_nil_iff.mp (idle.line_eq found)).2
  have awake : (start crews inputs now limiters rank left).wakes = 0 := by
    rw [wakes, queued]
    rfl
  rw [debt, awake, Nat.mul_zero, Nat.zero_add]
  exact loads_start crews inputs

theorem isOver_run_start (timeless : Timeless crews) (inputs : Inputs) :
    ((start crews inputs now limiters rank left).pollMains.run
      (crews.foldr (fun c n => roundBound c + n) 1)).isOver = true := by
  by_cases nobody : crews = []
  · subst nobody
    rfl
  · have begun := running_start idle now rank left timeless inputs
    obtain ⟨running, paid⟩ := begun.pollMains
    have few := sum_fee_lt_rounds nobody
    have first : (start crews inputs now limiters rank left).budget .mains = left := rfl
    have turn : (start crews inputs now limiters rank left).turn = left := rfl
    have paid := paid.debt_le
    rw [debt_start idle] at paid
    refine running.run _ ?_
    have wait : (if (start crews inputs now limiters rank left).pollMains.isAwake then 0 else fare) ≤
        fare := by
      split
      · exact Nat.zero_le _
      · exact le_rfl
    omega

end Runs

end Timeline

/-- Crews that run side by side, without memory and time limits, come to their end. -/
theorem exists_ending {crews : List Crew} {limiters : Limiters} (idle : Timeline.Idle limiters)
    (timeless : Timeline.Timeless crews) (inputs : Inputs) (now : Nat) (rank : Rank)
    (left : Allowance) : ∃ ending, runAll crews inputs now limiters rank left = some ending := by
  have ends := Timeline.isOver_run_start idle now rank left timeless inputs
  rw [Timeline.isOver, List.all_eq_true] at ends
  obtain ⟨outcomes, each⟩ := exists_forall₂ fun k member => Option.isSome_iff_exists.mp (ends k member)
  exact ⟨_, by rw [runAll, mapM_eq_some.mpr each]; rfl⟩

end CrewFlow.Crew
