import Mathlib
import CrewFlow.Proofs.Crew.Watch
/-!
# Actors at work

An actor that goes on with its work, or is dismissed from it, leaves everybody else watched: whoever gets the lock
of its limiter is woken, and the times at which it is to be woken itself are set as alarms.
-/
set_option autoImplicit false

namespace CrewFlow.Crew

open Agent (Execution Progress)
open Agent.Execution (Passage Stands Rests fare holderOf lineOf purse waitingAt)
open Rate (Allowance Limiter news)

namespace Timeline

variable {t next : Timeline} {k : Kickoff} {who other : Actor} {busy : Set Actor}

/-! ## Work -/

/-- The limiter of a role has been written back: whoever has got its lock since is awake. -/
structure Charged (t : Timeline) (role : String) (l : Option (Limiter Actor)) (left : Nat)
    (next : Timeline) : Prop where
  held : next.held = t.held
  now : next.now = t.now
  left : next.left = left
  noticed : next.noticed = t.noticed
  spent : next.spent = t.spent
  alarms : next.alarms = t.alarms
  awaited : next.awaited = t.awaited
  limiters : ∀ other, next.limiters.lookup other = if other = role then l else t.limiters.lookup other
  awake : ∀ m, t.Awake m → next.Awake m
  woken : ∀ x, holderOf l = some x → holderOf (t.limiters.lookup role) = some x ∨
    next.Awake x.mover
  wakes : next.wakes + waitingAt (t.limiters.lookup role) ≤
    t.wakes + waitingAt l + news (holderOf (t.limiters.lookup role)) (holderOf l)

def withLimiter (t : Timeline) (role : String) (l : Limiter Actor) : Timeline :=
  { t with limiters := t.limiters.map fun e => if e.1 = role then (role, l) else e }

section Limiters
variable {role : String} {before l : Limiter Actor} (found : t.limiters.lookup role = some before)

include found

theorem lookup_withLimiter (other : String) : (t.withLimiter role l).limiters.lookup other =
    if other = role then some l else t.limiters.lookup other := by
  rw [withLimiter, Kickoff.lookup_replaced, found, Option.map_some]

theorem wakes_withLimiter :
    (t.withLimiter role l).wakes + waitingAt (some before) = t.wakes + waitingAt (some l) := by
  have roles : (t.withLimiter role l).limiters.map Prod.fst = t.limiters.map Prod.fst := by
    rw [withLimiter, List.map_map]
    apply List.map_congr_left
    intro e _
    dsimp only [Function.comp]
    split
    · next same => exact same.symm
    · rfl
  have here : role ∈ (t.limiters.map Prod.fst).toFinset := by
    obtain ⟨e, member, same⟩ :=
      List.lookup_isSome_iff.mp (Option.isSome_iff_exists.mpr ⟨before, found⟩)
    exact List.mem_toFinset.mpr (List.mem_map.mpr ⟨e, member, (beq_iff_eq.mp same).symm⟩)
  have others : ∑ x ∈ (t.limiters.map Prod.fst).toFinset.erase role,
      waitingAt ((t.withLimiter role l).limiters.lookup x) =
        ∑ x ∈ (t.limiters.map Prod.fst).toFinset.erase role, waitingAt (t.limiters.lookup x) := by
    apply Finset.sum_congr rfl
    intro x member
    rw [lookup_withLimiter found, if_neg (Finset.ne_of_mem_erase member)]
  have queued : (t.withLimiter role l).queued + waitingAt (some before) =
      t.queued + waitingAt (some l) := by
    rw [Timeline.queued, Timeline.queued, roles, ← Finset.add_sum_erase _ _ here,
      ← Finset.add_sum_erase _ (fun role => waitingAt (t.limiters.lookup role)) here,
      lookup_withLimiter found, if_pos rfl, found]
    omega
  have rest : (t.withLimiter role l).wakes + t.queued = t.wakes + (t.withLimiter role l).queued := by
    simp only [wakes, withLimiter]
    omega
  omega

theorem charged_putLimiter : t.Charged role (some l) t.left (t.putLimiter role before l) := by
  have limiters := @lookup_withLimiter t role before l found
  have wakes := @wakes_withLimiter t role before l found
  unfold putLimiter
  dsimp only
  split
  · next who holds =>
      split
      · next same =>
          refine ⟨rfl, rfl, rfl, rfl, rfl, rfl, rfl, limiters, fun _ => id, ?_, ?_⟩
          · intro x his
            cases holds.symm.trans his
            rw [found]
            exact .inl same
          · rw [found]
            exact wakes.le.trans (Nat.le_add_right _ _)
      · next another =>
          have roused := roused_rouse (t := t.withLimiter role l) who.mover
          refine ⟨roused.held, roused.now, roused.left, roused.noticed, roused.spent, roused.alarms,
            roused.awaited, ?_, roused.awake, ?_, ?_⟩
          · intro other
            rw [← limiters other]
            exact congrArg (List.lookup other) roused.limiters
          · intro x his
            cases holds.symm.trans his
            exact .inr (called_rouse (t := t.withLimiter role l) who.mover).awake
          · have woken := roused.wakes
            have fresh : news (holderOf (t.limiters.lookup role)) (holderOf (some l)) = 1 := by
              rw [found, show holderOf (some l) = some who from holds, news, if_neg]
              rintro (free | same)
              · cases free
              · exact another same.symm
            rw [fresh, found]
            change ((t.withLimiter role l).rouse who.mover).wakes + _ ≤ _
            omega
  · next free =>
      refine ⟨rfl, rfl, rfl, rfl, rfl, rfl, rfl, limiters, fun _ => id, ?_, ?_⟩
      · intro x his
        cases free.symm.trans his
      · rw [found]
        exact wakes.le.trans (Nat.le_add_right _ _)

end Limiters

theorem charged_charge {role : String} {p : Progress Actor}
    (same : p.limiter.isSome = (t.limiters.lookup role).isSome) :
    t.Charged role p.limiter p.left (t.charge role p) := by
  unfold charge
  dsimp only
  split
  · next before l found passed =>
      rw [passed]
      obtain ⟨held, now, left, noticed, spent, alarms, awaited, limiters, awake, woken, wakes⟩ :=
        charged_putLimiter (t := { t with calls := t.calls ++ p.calls, left := p.left }) (l := l) found
      exact ⟨held, now, left, noticed, spent, alarms, awaited, limiters, awake, woken, wakes⟩
  · next unlimited =>
      have none_found : t.limiters.lookup role = none ∧ p.limiter = none := by
        cases found : t.limiters.lookup role with
        | none =>
            rw [found] at same
            exact ⟨rfl, Option.isNone_iff_eq_none.mp (by simpa using same)⟩
        | some before =>
            rw [found] at same
            obtain ⟨l, passed⟩ := Option.isSome_iff_exists.mp same
            exact (unlimited before l found passed).elim
      refine ⟨rfl, rfl, rfl, rfl, rfl, rfl, rfl, ?_, fun _ => id, ?_, ?_⟩
      · intro other
        by_cases his : other = role
        · rw [if_pos his, his, none_found.1, none_found.2]
        · rw [if_neg his]
      · intro x holds
        rw [none_found.2] at holds
        cases holds
      · rw [none_found.1, none_found.2]
        exact Nat.le_add_right _ _

/-- An actor has gone on with its work, and has an execution of its own or none any more. Of the time
that the execution is to be woken at, as far as that is news, and of what else is news, the number is
known. -/
structure Worked (t : Timeline) (who : Actor) (role : String) (l : Option (Limiter Actor)) (left : Nat)
    (mine : Option (Execution Actor)) (more : Nat) (next : Timeline) : Prop where
  kickoffs : next.kickoffs = t.kickoffs
  executions : next.executions = (t.executions.filter fun e => e.who ≠ who) ++ mine.toList
  now : next.now = t.now
  left : next.left = left
  noticed : next.noticed = t.noticed
  spent : next.spent = t.spent
  awaited : next.awaited = t.awaited
  limiters : ∀ other, next.limiters.lookup other = if other = role then l else t.limiters.lookup other
  awake : ∀ m, t.Awake m → next.Awake m
  woken : ∀ x, holderOf l = some x → holderOf (t.limiters.lookup role) = some x ∨
    next.Awake x.mover
  alarms : ∀ a ∈ t.alarms, a.2 ≠ who → a ∈ next.alarms
  alarmed : ∀ e ∈ mine, ∀ ends, e.stage.ends? = some ends →
    (ends, who) ∈ next.alarms ∨ ends ≤ t.now
  wakes : next.wakes + waitingAt (t.limiters.lookup role) ≤
    t.wakes + waitingAt l + news (holderOf (t.limiters.lookup role)) (holderOf l) + more

section Others
variable {role : String} {l : Option (Limiter Actor)} {mine : Option (Execution Actor)} {left more : Nat}

theorem Worked.mem_executions (worked : t.Worked who role l left mine more next) (e : Execution Actor) :
    e ∈ next.executions ↔ (e ∈ t.executions ∧ e.who ≠ who) ∨ e ∈ mine := by
  rw [worked.executions, List.mem_append, List.mem_filter, Option.mem_toList]
  simp

theorem Worked.once (worked : t.Worked who role l left mine more next)
    (once : (t.executions.map (·.who)).Nodup) (his : ∀ e ∈ mine, e.who = who) :
    (next.executions.map (·.who)).Nodup := by
  have fewer : ((t.executions.filter fun e => e.who ≠ who).map (·.who)).Nodup :=
    once.sublist (List.filter_sublist.map _)
  rw [worked.executions]
  cases new : mine with
  | none => simpa using fewer
  | some e =>
      rw [Option.toList_some, List.map_append, List.nodup_append]
      refine ⟨fewer, by simp, ?_⟩
      intro x member y same equal
      obtain ⟨e', there, rfl⟩ := List.mem_map.mp member
      have apart : e'.who ≠ who := by simpa using (List.mem_filter.mp there).2
      obtain rfl : y = e.who := by simpa using same
      exact apart (equal.trans (his e new))

theorem Waits.worked (waits : t.Waits k other) (worked : t.Worked who role l left mine more next)
    (elsewhere : other ≠ who) (his : ∀ e ∈ mine, e.who = who) : next.Waits k other := by
  cases waits with
  | awake awake => exact .awake (worked.awake _ awake)
  | done done => exact .done done
  | dismissed ended nobody =>
      refine .dismissed ended ?_
      intro e member same
      rcases (worked.mem_executions e).mp member with ⟨old, _⟩ | new
      · exact nobody e old same
      · exact elsewhere (same.symm.trans (his e new))
  | @timed e ends member same stage alarm =>
      exact .timed ((worked.mem_executions e).mpr (.inl ⟨member, same ▸ elsewhere⟩)) same stage
        (worked.alarms _ alarm elsewhere)
  | @queued e member same stage behind =>
      have still := (worked.mem_executions e).mpr (.inl ⟨member, same ▸ elsewhere⟩)
      by_cases here : e.agent.role = role
      · by_cases held : holderOf l = some other
        · rcases worked.woken other held with before | awake
          · exact absurd before (here ▸ behind)
          · exact .awake awake
        · refine .queued still same stage ?_
          rw [worked.limiters, if_pos here]
          exact held
      · refine .queued still same stage ?_
        rw [worked.limiters, if_neg here]
        exact behind
  | awaiting awaits below unfinished noted =>
      exact .awaiting awaits below unfinished (worked.awaited ▸ noted)

end Others

theorem Watched.exists_of_mem_lineOf (watched : t.Watched busy) {role : String}
    (inLine : who ∈ lineOf (t.limiters.lookup role)) :
    ∃ e ∈ t.executions, e.who = who ∧ e.agent.role = role := by
  cases standing : t.limiters.lookup role with
  | none =>
      rw [standing] at inLine
      cases inLine
  | some l =>
      rw [standing] at inLine
      exact watched.manned role l who standing inLine

theorem Watched.not_mem_lineOf (watched : t.Watched busy) (nobody : ∀ e ∈ t.executions, e.who ≠ who)
    (role : String) : who ∉ lineOf (t.limiters.lookup role) := by
  intro inLine
  obtain ⟨e, member, same, _⟩ := watched.exists_of_mem_lineOf inLine
  exact nobody e member same

/-- Work of somebody leaves the others watched. -/
theorem Watched.worked {role : String} {l : Option (Limiter Actor)} {mine : Option (Execution Actor)}
    {left left' cost more : Nat} (watched : t.Watched busy) (turn : who ∈ busy)
    (worked : t.Worked who role l left' mine more next)
    (passage : Agent.Execution.Passage who (t.limiters.lookup role) left l left' cost)
    (known : ∀ e ∈ t.executions, e.who = who → e.agent.role = role)
    (his : ∀ e ∈ mine, e.who = who ∧ e.agent.role = role ∧ Stands l e)
    (gone : mine = none → who ∉ lineOf l) : next.Watched busy := by
  have member_iff := worked.mem_executions
  refine ⟨?_, ?_, ?_, ?_, ?_, ?_, ?_, ?_⟩
  · intro other x found
    rw [worked.limiters] at found
    split at found
    · exact passage.sound x found
    · exact watched.sound other x found
  · -- In the line for the role there is nobody new but the actor itself, and it is there only if it has work left.
    intro other x y found member
    rw [worked.limiters] at found
    split at found
    · next same =>
        subst same
        by_cases mover : y = who
        · subst mover
          cases left : mine with
          | none => exact absurd (found ▸ member) (gone left)
          | some e => exact ⟨e, (member_iff e).mpr (.inr left), (his e left).1, (his e left).2.1⟩
        · have before : y ∈ lineOf (t.limiters.lookup other) :=
            (passage.mem_lineOf mover).mp (found ▸ member)
          obtain ⟨e, there, same, role⟩ := watched.exists_of_mem_lineOf before
          exact ⟨e, (member_iff e).mpr (.inl ⟨there, same ▸ mover⟩), same, role⟩
    · next different =>
        obtain ⟨e, there, same, role⟩ := watched.manned other x y found member
        have apart : e.who ≠ who := fun mover => different (role.symm.trans (known e there mover))
        exact ⟨e, (member_iff e).mpr (.inl ⟨there, apart⟩), same, role⟩
  · intro e member
    rw [worked.limiters]
    rcases (member_iff e).mp member with ⟨old, apart⟩ | new
    · have stands := watched.stands e old
      split
      · next here =>
          rw [here] at stands
          exact stands.of_passage passage apart
      · exact stands
    · rw [if_pos (his e new).2.1]
      exact (his e new).2.2
  · exact worked.once watched.once fun e new => (his e new).1
  · intro e member ends stage
    rw [worked.now]
    rcases (member_iff e).mp member with ⟨old, apart⟩ | new
    · rcases watched.alarmed e old ends stage with alarm | passed
      · exact .inl (worked.alarms _ alarm apart)
      · exact .inr passed
    · rw [(his e new).1]
      exact worked.alarmed e new ends stage
  · rw [worked.awaited]
    exact watched.noted
  · rw [worked.awaited, worked.kickoffs]
    exact watched.awaiters
  · rw [worked.kickoffs]
    intro other k standing has idle
    have elsewhere : other ≠ who := fun same => idle (same ▸ turn)
    exact (watched.waits other k standing has idle).worked worked elsewhere fun e new => (his e new).1

/-! ## Turns at work -/

section Work
variable {w : Work} {crews : List Crew} {inputs : Text.Inputs}

theorem underway_cases (who : Actor) (w : Work) :
    (∃ e ∈ t.executions, e.who = who ∧ t.underway who w = e ∧
      t.executions.find? (fun e => e.who = who) = some e) ∨
    (∀ e ∈ t.executions, e.who ≠ who) ∧ (t.underway who w).stage = .arriving ∧
      t.executions.find? (fun e => e.who = who) = none := by
  unfold underway
  cases begun : t.executions.find? fun e => e.who = who with
  | none =>
      refine .inr ⟨?_, rfl, rfl⟩
      intro e member
      simpa using List.find?_eq_none.mp begun e member
  | some e =>
      exact .inl ⟨e, List.mem_of_find?_eq_some begun, by simpa using List.find?_some begun, rfl, rfl⟩

theorem Watched.stands_underway (watched : t.Watched busy) (his : (t.underway who w).who = who)
    (agent : (t.underway who w).agent = w.agent) :
    Stands (t.limiters.lookup w.agent.role) (t.underway who w) := by
  rcases t.underway_cases who w with ⟨e, member, _, same, _⟩ | ⟨nobody, arriving, _⟩
  · have stands := watched.stands e member
    rw [← same, agent] at stands
    exact stands
  · rw [Stands, arriving]
    dsimp only
    rw [his]
    exact watched.not_mem_lineOf nobody w.agent.role

theorem newAlarms_eq (patient : (t.underway who w).deadline = none) {e : Execution Actor}
    (timeless : e.deadline = none) :
    t.newAlarms who e =
      (e.stage.ends?.toList.filter fun time =>
        !(t.underway who w).stage.ends?.toList.contains time).map fun time => (time, who) := by
  have alarms : ∀ e : Execution Actor, e.deadline = none → e.alarms = e.stage.ends?.toList := by
    intro e none
    rw [Agent.Execution.alarms, none, Option.toList_none, List.append_nil]
  unfold newAlarms
  rcases t.underway_cases who w with ⟨begun, _, _, same, found⟩ | ⟨_, arriving, found⟩
  · rw [found, same, alarms e timeless, Option.map_some, Option.getD_some,
      alarms begun (same ▸ patient)]
  · rw [found, arriving, alarms e timeless]
    rfl

theorem length_newAlarms_le (patient : (t.underway who w).deadline = none) {e : Execution Actor}
    (timeless : e.deadline = none) :
    (t.newAlarms who e).length ≤ news (t.underway who w).stage.ends? e.stage.ends? := by
  rw [newAlarms_eq patient timeless, List.length_map]
  cases ends : e.stage.ends? with
  | none => simp
  | some time =>
      unfold news
      split
      · next old =>
          have same : (t.underway who w).stage.ends? = some time := (old.resolve_left (by simp)).symm
          simp [same]
      · exact List.length_filter_le ..

theorem worked_of_finished {p : Progress Actor} {role : String}
    (charged : t.Charged role p.limiter p.left (t.charge role p)) :
    t.Worked who role p.limiter p.left none 0
      { t.charge role p with
        executions := t.executions.filter fun e => e.who ≠ who
        alarms := (t.charge role p).alarms.filter fun a => a.2 ≠ who } := by
  obtain ⟨held, now, left, noticed, spent, alarms, awaited, limiters, awake, woken, wakes⟩ := charged
  refine ⟨congrArg Prod.fst held, by simp, now, left, noticed, spent, awaited, limiters, awake, woken,
    ?_, by simp, ?_⟩
  · intro a member apart
    exact List.mem_filter.mpr ⟨alarms ▸ member, by simpa using apart⟩
  · have fewer := List.length_filter_le (fun a : Nat × Actor => decide (a.2 ≠ who))
      (t.charge role p).alarms
    simp only [Timeline.wakes, queued] at wakes ⊢
    omega

theorem worked_of_waiting {p : Progress Actor} {role : String} {e : Execution Actor}
    {fresh : Nat} (charged : t.Charged role p.limiter p.left (t.charge role p))
    (alarmed : ∀ ends, e.stage.ends? = some ends →
      (ends, who) ∈ t.alarms ++ t.newAlarms who e ∨ ends ≤ t.now)
    (few : (t.newAlarms who e).length ≤ fresh) :
    t.Worked who role p.limiter p.left (some e) fresh
      { t.charge role p with
        executions := (t.executions.filter fun e => e.who ≠ who) ++ [e]
        alarms := (t.charge role p).alarms ++ t.newAlarms who e } := by
  obtain ⟨held, now, left, noticed, spent, alarms, awaited, limiters, awake, woken, wakes⟩ := charged
  refine ⟨congrArg Prod.fst held, rfl, now, left, noticed, spent, awaited, limiters, awake, woken, ?_,
    ?_, ?_⟩
  · intro a member _
    exact List.mem_append_left _ (alarms ▸ member)
  · intro e' his ends stage
    cases his
    rw [← alarms] at alarmed
    exact alarmed ends stage
  · simp only [Timeline.wakes, queued, List.length_append] at wakes ⊢
    omega

def WorkDone (t : Timeline) (who : Actor) (w : Work) (next : Timeline) : Prop :=
  ∃ l left cost, t.Worked who w.agent.role l left none 0 next ∧
    Passage who (t.limiters.lookup w.agent.role) t.left l left cost ∧
    cost ≤ purse (t.underway who w) ∧ who ∉ lineOf l

def WorkLeft (t : Timeline) (who : Actor) (w : Work) (next : Timeline) : Prop :=
  ∃ l left cost e isSpent worked,
    t.Worked who w.agent.role l left (some e)
      (news (t.underway who w).stage.ends? e.stage.ends?) worked ∧
    next = (if isSpent then worked.exhaust who.mover else worked) ∧
    Passage who (t.limiters.lookup w.agent.role) t.left l left cost ∧
    cost + fare * news (t.underway who w).stage.ends? e.stage.ends? + purse e ≤
      purse (t.underway who w) ∧
    e.who = who ∧ e.agent.role = w.agent.role ∧ Stands l e ∧
    (isSpent = true → left = 0) ∧ (isSpent = false → Rests t.now l e)

theorem Watched.work_cases (watched : t.Watched busy) (faithful : Faithful crews inputs t.held)
    (working : workOf? t.kickoffs who = some w) (patient : w.agent.limits.maxTime = none) :
    (∃ next, t.work who w = (next, some (w.answer answers)) ∧ t.WorkDone who w next) ∨
    ∃ next, t.work who w = (next, none) ∧ t.WorkLeft who w next := by
  obtain ⟨his, agent, leads⟩ := faithful.underway working patient
  have sound : ∀ l ∈ t.limiters.lookup w.agent.role, l.Sound := watched.sound w.agent.role
  have stands := watched.stands_underway his agent
  have arrives : (t.underway who w).Arrives (w.answer answers) (t.progress who w).outcome :=
    leads.advance _
  rcases Agent.Execution.advance_cases leads t.now t.left sound stands with
    ⟨result, outcome, ended⟩ | ⟨e, isSpent, outcome, waited⟩
  · obtain ⟨cost, passage, pays⟩ := ended.passage
    have charged : t.Charged w.agent.role (t.progress who w).limiter (t.progress who w).left
        (t.charge w.agent.role (t.progress who w)) := charged_charge passage.same
    have outcome : (t.progress who w).outcome = .finished result := outcome
    rw [outcome] at arrives
    have gone := ended.gone
    rw [his] at passage gone
    left
    rw [work_of_finished outcome, show result.mapError (·.message) = _ from arrives]
    exact ⟨_, rfl, _, _, cost, worked_of_finished charged, passage, pays, gone⟩
  · obtain ⟨cost, passage, pays⟩ := waited.passage
    have charged : t.Charged w.agent.role (t.progress who w).limiter (t.progress who w).left
        (t.charge w.agent.role (t.progress who w)) := charged_charge passage.same
    have outcome : (t.progress who w).outcome = .waiting e isSpent := outcome
    rw [outcome] at arrives
    obtain ⟨onward, sameWho, sameAgent⟩ := arrives
    rw [his] at passage
    have few : (t.newAlarms who e).length ≤ news (t.underway who w).stage.ends? e.stage.ends? :=
      length_newAlarms_le leads.patient onward.patient
    right
    refine ⟨_, work_of_waiting outcome, _, _, cost, e, isSpent, _, worked_of_waiting charged ?_ few,
      rfl, passage, pays, sameWho.trans his, ?_, waited.stands, waited.spent, waited.rests⟩
    · intro ends stage
      -- The end of the stage has an alarm from before, or it is among the new ones.
      by_cases old : (t.underway who w).stage.ends? = some ends
      · rcases t.underway_cases who w with ⟨begun, member, same, equal, _⟩ | ⟨_, arriving, _⟩
        · rw [equal] at old
          have alarmed := watched.alarmed begun member ends old
          rw [same] at alarmed
          exact alarmed.imp_left (List.mem_append_left _)
        · rw [arriving] at old
          cases old
      · refine .inl (List.mem_append_right _ ?_)
        rw [newAlarms_eq leads.patient onward.patient, stage]
        simpa using fun same => old same
    · rw [sameAgent, agent]

theorem Faithful.role_known (faithful : Faithful crews inputs t.held)
    (working : workOf? t.kickoffs who = some w) :
    ∀ e ∈ t.executions, e.who = who → e.agent.role = w.agent.role := by
  intro e member his
  obtain ⟨w', worked, agent, _⟩ := faithful.onTheWay e member
  rw [his] at worked
  cases worked.symm.trans working
  rw [agent]

theorem Watched.workDone (watched : t.Watched busy) (turn : who ∈ busy)
    (faithful : Faithful crews inputs t.held) (working : workOf? t.kickoffs who = some w)
    (done : t.WorkDone who w next) : next.Watched busy := by
  obtain ⟨l, left, cost, worked, passage, _, gone⟩ := done
  exact watched.worked turn worked passage (faithful.role_known working) (by simp) fun _ => gone

theorem Watched.workLeft (watched : t.Watched busy) (turn : who ∈ busy)
    (faithful : Faithful crews inputs t.held) (standing : t.kickoffs[who.crew]? = some k)
    (working : k.workBy? who = some w) (goesOn : t.WorkLeft who w next) :
    next.Watched (busy \ {who}) := by
  obtain ⟨l, left, cost, e, isSpent, mid, worked, rfl, passage, _, his, role, stands, spent, rests⟩ :=
    goesOn
  have mine : ∀ e' ∈ some e, e'.who = who ∧ e'.agent.role = w.agent.role ∧ Stands l e' := by
    intro e' same
    cases same
    exact ⟨his, role, stands⟩
  have onward : mid.Watched busy := watched.worked turn worked passage
    (faithful.role_known (workOf?_eq standing working)) mine (by simp)
  have here : mid.kickoffs[who.crew]? = some k := worked.kickoffs ▸ standing
  cases isSpent with
  | true =>
      obtain ⟨calm, awake⟩ := calm_exhaust (t := mid) who.mover
      exact (onward.of_calm calm).settled here fun _ => .awake awake
  | false =>
      -- The turn is not spent, so there is a lock to wait for, or a time that is still to come.
      refine onward.settled here fun _ => ?_
      have member : e ∈ mid.executions := by
        rw [worked.executions]
        simp
      have rests := rests rfl
      have later : ∀ ends, e.stage.ends? = some ends → t.now < ends → mid.Waits k who := by
        intro ends stage future
        rcases worked.alarmed e rfl ends stage with alarm | passed
        · exact .timed member his stage alarm
        · omega
      unfold Rests at rests
      split at rests
      · next stage =>
          refine .queued member his stage ?_
          rw [worked.limiters, if_pos role, ← his]
          exact rests
      · next ends stage => exact later ends (by rw [stage]; rfl) rests
      · exact rests.elim
      · next ends outcome stage => exact later ends (by rw [stage]; rfl) rests

end Work

/-! ## Dismissal -/

theorem charged_refl (role : String) : t.Charged role (t.limiters.lookup role) t.left t := by
  refine ⟨rfl, rfl, rfl, rfl, rfl, rfl, rfl, ?_, fun _ => id, fun _ => .inl, Nat.le_add_right _ _⟩
  intro other
  split
  · next same => rw [same]
  · rfl

def forget (t : Timeline) (who : Actor) : Timeline :=
  { t with awaited := t.awaited.filter fun w => w.2 ≠ who }

theorem Watched.forget (watched : t.Watched busy) (turn : who ∈ busy) :
    (t.forget who).Watched busy := by
  refine { watched with noted := watched.noted.filter _, awaiters := ?_, waits := ?_ }
  · intro w member
    exact watched.awaiters w (List.mem_of_mem_filter member)
  · intro other k standing has idle
    have apart : other ≠ who := fun same => idle (same ▸ turn)
    exact (watched.waits other k standing has idle).mono (fun _ => id) rfl rfl (fun _ => .inl)
      fun _ noted => List.mem_filter.mpr ⟨noted, by simpa using apart⟩

theorem Watched.worked_dismiss (watched : t.Watched busy) (who : Actor) :
    ∃ role l, (t.forget who).Worked who role l t.left none 0 (t.dismiss who) ∧
      Passage who (t.limiters.lookup role) t.left l t.left 0 ∧ who ∉ lineOf l ∧
      ∀ e ∈ t.executions, e.who = who → e.agent.role = role := by
  have ofCharged : ∀ {role l} {left : Timeline}, t.Charged role l t.left left →
      (t.forget who).Worked who role l t.left none 0
        { left with
          executions := left.executions.filter fun e => e.who ≠ who
          alarms := left.alarms.filter fun a => a.2 ≠ who
          awaited := left.awaited.filter fun w => w.2 ≠ who } := by
    intro role l left charged
    have executions : left.executions = t.executions := congrArg Prod.snd charged.held
    refine ⟨congrArg Prod.fst charged.held, by simp [executions, Timeline.forget], charged.now,
      charged.left, charged.noticed, charged.spent, by simp [charged.awaited, Timeline.forget],
      charged.limiters, charged.awake, charged.woken, ?_, by simp, ?_⟩
    · intro a member apart
      exact List.mem_filter.mpr ⟨charged.alarms ▸ member, by simpa using apart⟩
    · have fewer := List.length_filter_le (fun a : Nat × Actor => decide (a.2 ≠ who)) left.alarms
      have wakes := charged.wakes
      simp only [Timeline.wakes, queued, Timeline.forget] at wakes ⊢
      omega
  have unchanged : ∀ role, Passage who (t.limiters.lookup role) t.left (t.limiters.lookup role)
      t.left 0 := fun role => .refl (watched.sound role)
  unfold dismiss
  split
  · next none_found =>
      have nobody : ∀ e ∈ t.executions, e.who ≠ who := by
        intro e member
        simpa using List.find?_eq_none.mp none_found e member
      -- Nothing is written back, so any role will do.
      refine ⟨"", _, ofCharged (charged_refl ""), unchanged "", watched.not_mem_lineOf nobody "", ?_⟩
      intro e member his
      exact absurd his (nobody e member)
  · next e found =>
      have member : e ∈ t.executions := List.mem_of_find?_eq_some found
      have his : e.who = who := by simpa using List.find?_some found
      have known : ∀ e' ∈ t.executions, e'.who = who → e'.agent.role = e.agent.role := by
        intro e' there same
        rw [List.inj_on_of_nodup_map watched.once there member (same.trans his.symm)]
      split
      · next l limited =>
          have departed := Limiter.departed_withdraw who (watched.sound _ l limited)
          refine ⟨_, _, ofCharged (charged_putLimiter limited), ?_, departed.gone, known⟩
          rw [limited]
          exact Agent.Execution.passage_withdraw (watched.sound _ l limited)
      · next unlimited =>
          refine ⟨_, _, ofCharged (charged_refl e.agent.role), unchanged _, ?_, known⟩
          rw [unlimited]
          exact List.not_mem_nil

theorem Watched.dismissed (watched : t.Watched busy) (turn : who ∈ busy)
    (ended : ∀ k, t.kickoffs[who.crew]? = some k → k.result?.isSome = true) :
    (t.dismiss who).Watched (busy \ {who}) ∧ (t.dismiss who).wakes ≤ t.wakes ∧
      (t.dismiss who).noticed = t.noticed := by
  obtain ⟨role, l, worked, passage, gone, known⟩ := watched.worked_dismiss who
  have still := (watched.forget turn).worked turn worked passage known (by simp) fun _ => gone
  refine ⟨?_, ?_, worked.noticed⟩
  · refine still.mono fun other k standing _ inside outside => ?_
    have same : other = who := by
      by_contra apart
      exact outside ⟨inside, apart⟩
    subst same
    rw [show (t.dismiss other).kickoffs = t.kickoffs from worked.kickoffs] at standing
    refine .dismissed (ended k standing) fun e member his => ?_
    rw [worked.executions] at member
    simp [his] at member
  · have wakes : (t.dismiss who).wakes + waitingAt (t.limiters.lookup role) ≤
        t.wakes + waitingAt l + news (holderOf (t.limiters.lookup role)) (holderOf l) + 0 :=
      worked.wakes
    have paid := passage.paid
    simp only [fare, Allowance.full] at paid
    omega

end Timeline

end CrewFlow.Crew
