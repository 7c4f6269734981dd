import Mathlib
import CrewFlow.Proofs.Crew.Load
/-!
# What a poll costs

Crews that are polled pay for all that happens: from what they still have to pay, and from the turn. A fare
is left for each who is woken.
-/
set_option autoImplicit false

namespace CrewFlow.Crew

open Agent (Execution)
open Agent.Execution (fare purse waitingAt holderOf lineOf)
open Kickoff (Change Linked Step Taken weightFrom)
open Rate (Allowance Limiter)
open Relation (ReflTransGen)
open Text (Inputs)

namespace Kickoff

variable {k : Kickoff} {who : Actor}

theorem result?_or_idle (jobs : ∀ j, who.job? = some j → k.result? = none) :
    k.result? = none ∨ k.moveBy who = none ∧ k.workBy? who = none ∧ k.awaitedBy? who = none := by
  cases who with
  | job c j => exact .inl (jobs j rfl)
  | main c =>
      cases ended : k.result? with
      | none => exact .inl rfl
      | some result =>
          have main := result?_eq_some ended
          refine .inr ⟨?_, ?_, ?_⟩
          · rw [moveBy, moveMain, main]
          · rw [workBy?, mainWork?, main]
          · rw [awaitedBy?, mainAwaits?, main]

end Kickoff

namespace Timeline

variable {crews : List Crew} {inputs : Inputs} {t next : Timeline} {k after : Kickoff} {who : Actor}
variable {busy : Set Actor} {m : Mover} {c : Nat}

def debt (t : Timeline) : Nat := fare * t.wakes + loads t.executions t.noticed t.kickoffs

theorem Roused.debt_le {most : Nat} (roused : t.Roused most next) :
    next.debt ≤ t.debt + fare * most := by
  have kickoffs : next.kickoffs = t.kickoffs := congrArg Prod.fst roused.held
  have executions : next.executions = t.executions := congrArg Prod.snd roused.held
  have woken := Nat.mul_le_mul_left fare roused.wakes
  rw [debt, debt, executions, roused.noticed, kickoffs]
  rw [Nat.mul_add] at woken
  omega

/-- Crews are on their way, and are watched but for those whose turn it is. -/
structure Running (crews : List Crew) (inputs : Inputs) (t : Timeline) (busy : Set Actor) : Prop where
  timeless : Timeless crews
  faithful : Faithful crews inputs t.held
  watched : t.Watched busy

namespace Running

theorem reached (running : Running crews inputs t busy) (standing : t.kickoffs[c]? = some k) :
    ∃ crew, crews[c]? = some crew ∧ crew.embedder = none ∧
      ReflTransGen (Step answers) (Kickoff.start crew inputs) k := by
  obtain ⟨below, _⟩ := List.getElem?_eq_some_iff.mp standing
  have count : t.kickoffs.length = crews.length := running.faithful.count
  obtain ⟨crew, there⟩ : ∃ crew, crews[c]? = some crew :=
    ⟨_, List.getElem?_eq_getElem (count ▸ below)⟩
  obtain ⟨forgetful, _⟩ := running.timeless crew (List.mem_of_getElem? there)
  exact ⟨crew, there, forgetful, running.faithful.followed c k crew standing there⟩

theorem forgetful (running : Running crews inputs t busy) (standing : t.kickoffs[c]? = some k) :
    k.memory = none := by
  obtain ⟨_, _, forgetful, reached⟩ := running.reached standing
  exact (Kickoff.staffed_of_reached forgetful reached).forgetful

theorem few (running : Running crews inputs t busy) (standing : t.kickoffs[c]? = some k) :
    k.jobs.length ≤ k.crew.tasks.length := by
  obtain ⟨_, _, forgetful, reached⟩ := running.reached standing
  exact (Kickoff.taken_of_reached forgetful reached).few

theorem linked (running : Running crews inputs t busy) (standing : t.kickoffs[c]? = some k) :
    Linked k := by
  obtain ⟨_, _, forgetful, reached⟩ := running.reached standing
  exact Kickoff.linked_of_reached forgetful reached

theorem works (running : Running crews inputs t busy) {e : Execution Actor}
    (member : e ∈ t.executions) :
    ∃ k w, t.kickoffs[e.who.crew]? = some k ∧ k.workBy? e.who = some w := by
  obtain ⟨w, working, _⟩ := running.faithful.onTheWay e member
  obtain ⟨k, standing, works⟩ := Option.bind_eq_some_iff.mp working
  exact ⟨k, w, standing, works⟩

theorem fresh (running : Running crews inputs t busy) (standing : t.kickoffs[who.crew]? = some k)
    (moved : k.moveBy who = some after) : ∀ e ∈ t.executions, e.who ≠ who := by
  intro e member his
  obtain ⟨k', w, there, works⟩ := running.works member
  rw [his] at there works
  cases standing.symm.trans there
  cases (Kickoff.moveBy_of_workBy? works).symm.trans moved

end Running

/-! ## Polls -/

theorem lt_of_jobAwaits? {i j : Nat} (linked : Linked k) (awaits : k.jobAwaits? j = some i) :
    i < j := by
  unfold Kickoff.jobAwaits? Kickoff.phase? at awaits
  split at awaits
  · next context other awaited phase =>
      cases awaits
      obtain ⟨job, standing, gathering⟩ := Option.map_eq_some_iff.mp phase
      exact linked.jobs j job standing context _ gathering i List.mem_cons_self
  · cases awaits

theorem lt_of_awaitedBy? {j : Nat} (linked : Linked k) (awaits : k.awaitedBy? who = some j) :
    j < k.jobs.length := by
  have has := Kickoff.has_of_awaitedBy? awaits
  cases who with
  | main c =>
      obtain ⟨name, _, waiting⟩ := Kickoff.pending_of_mainAwaits? awaits
      exact linked.pending name j waiting
  | job c i => exact (lt_of_jobAwaits? linked awaits).trans has

def turn (t : Timeline) : Nat := t.left

def budget (t : Timeline) (m : Mover) : Nat := if m ∈ t.spent then fare else t.turn

/-- All that has happened is paid from what crews still had to pay, and from the turn of a mover. -/
structure Pays (t : Timeline) (m : Mover) (next : Timeline) : Prop where
  within : next.turn ≤ t.turn
  paid : next.debt + t.budget m ≤ t.debt + next.budget m

theorem Pays.refl : t.Pays m t := ⟨le_rfl, le_rfl⟩

theorem Pays.trans {last : Timeline} (first : t.Pays m next) (second : next.Pays m last) :
    t.Pays m last := by
  have paid := first.paid
  have more := second.paid
  exact ⟨second.within.trans first.within, by omega⟩

theorem Pays.debt_le (pays : t.Pays m next) : next.debt + t.budget m ≤ t.debt + max fare t.turn := by
  have within := pays.within
  have paid := pays.paid
  have rest : next.budget m ≤ max fare t.turn := by
    unfold budget
    split <;> omega
  omega

theorem pays_of_turn (spent : next.spent = t.spent) (within : next.turn ≤ t.turn)
    (paid : next.debt + t.turn ≤ t.debt + next.turn) : t.Pays m next := by
  refine ⟨within, ?_⟩
  unfold budget
  rw [spent]
  split <;> omega

theorem pays_exhaust (m : Mover) (nothing : t.turn = 0) : t.Pays m (t.exhaust m) := by
  have wakes := wakes_exhaust (t := t) m
  have after : (t.exhaust m).budget m = fare := if_pos List.mem_cons_self
  refine ⟨le_rfl, ?_⟩
  rw [after, debt, debt, wakes, Nat.mul_add, budget, nothing]
  change fare * t.wakes + _ + loads t.executions t.noticed t.kickoffs + _ ≤ _
  split <;> omega

theorem loads_add_le_self {executions more : List (Execution Actor)} {noticed found : List Actor}
    {kickoffs : List Kickoff} (standing : kickoffs[c]? = some k)
    (others : ∀ c' k', c' ≠ c → kickoffs[c']? = some k' →
      load more found c' k' ≤ load executions noticed c' k') :
    loads more found kickoffs + load executions noticed c k ≤
      loads executions noticed kickoffs + load more found c k := by
  have same : kickoffs.set c k = kickoffs := by
    obtain ⟨below, rfl⟩ := List.getElem?_eq_some_iff.mp standing
    exact List.set_getElem_self below
  have added := loads_add_le k standing others
  rw [same] at added
  exact added

/-- Whoever finds the end of a job pays for it from the turn. -/
theorem pays_of_lookFor {awaits : Option Nat} (standing : t.kickoffs[c]? = some k)
    (looked : t.lookFor c k awaits = some next)
    (below : ∀ j, awaits = some j → j < k.jobs.length ∧ k.result? = none) : t.Pays m next := by
  cases awaits with
  | none =>
      cases looked
      exact .refl
  | some j =>
      obtain ⟨inside, going⟩ := below j rfl
      rw [lookFor] at looked
      unfold look at looked
      split at looked
      · cases looked
        exact .refl
      · next unknown =>
          have unknown : .job c j ∉ t.noticed := by simpa using unknown
          split at looked
          · cases looked
          · next left result turn found =>
              cases looked
              -- One job fewer is unnoticed, which pays for what it takes of the turn.
              have fewer : (unnoticed (.job c j :: t.noticed) c k).card + 1 ≤
                  (unnoticed t.noticed c k).card := by
                apply Finset.card_lt_card
                refine (Finset.ssubset_iff_of_subset ?_).mpr ⟨j, ?_, ?_⟩
                · intro i member
                  obtain ⟨there, other⟩ := Finset.mem_filter.mp member
                  exact Finset.mem_filter.mpr ⟨there, fun known => other (List.mem_cons_of_mem _ known)⟩
                · exact Finset.mem_filter.mpr ⟨Finset.mem_range.mpr inside, unknown⟩
                · simp [unnoticed]
              have others : ∀ c' k', c' ≠ c → t.kickoffs[c']? = some k' →
                  load t.executions (.job c j :: t.noticed) c' k' ≤ load t.executions t.noticed c' k' := by
                intro c' k' apart _
                have same : unnoticed (.job c j :: t.noticed) c' k' = unnoticed t.noticed c' k' := by
                  apply Finset.filter_congr
                  intro i _
                  simp [apart]
                rw [load, load, openLoad, openLoad, same]
              have added := loads_add_le_self standing others
              rw [load_eq_openLoad going, load_eq_openLoad going, openLoad, openLoad] at added
              have turn : t.turn = left + 1 := turn
              refine pays_of_turn rfl (by rw [turn]; exact Nat.le_succ left) ?_
              rw [turn]
              simp only [Timeline.turn, debt, wakes, queued]
              omega
          · cases looked
            exact .refl

theorem turn_of_lookFor {awaits : Option Nat} (spent : t.lookFor c k awaits = none) :
    t.turn = 0 := by
  cases awaits with
  | none => cases spent
  | some j =>
      rw [lookFor] at spent
      unfold look at spent
      split at spent
      · cases spent
      · split at spent
        · next turn => exact turn
        · cases spent
        · cases spent

theorem Worked.pays {role : String} {l : Option (Limiter Actor)} {mine : Option (Execution Actor)}
    {left cost more : Nat} (worked : t.Worked who role l left mine more next)
    (passage : Agent.Execution.Passage who (t.limiters.lookup role) t.left l left cost) :
    next.turn ≤ t.turn ∧
      fare * next.wakes + t.turn ≤ fare * t.wakes + next.turn + cost + fare * more := by
  have turn : next.turn = left := worked.left
  have woken := Nat.mul_le_mul_left fare worked.wakes
  have paid : _ + t.turn ≤ _ := passage.paid
  have within : left ≤ t.turn := passage.within
  simp only [Nat.mul_add] at woken paid
  rw [turn]
  exact ⟨within, by omega⟩

theorem Worked.remaining_eq {role : String} {l : Option (Limiter Actor)}
    {mine : Option (Execution Actor)} {left more : Nat}
    (worked : t.Worked who role l left mine more next) (his : ∀ e ∈ mine, e.who = who) :
    ∀ other, other ≠ who → ∀ w,
      remaining next.executions other w = remaining t.executions other w := by
  intro other apart w
  rw [worked.executions]
  exact remaining_replaced his apart w

theorem Worked.load_le {role : String} {l : Option (Limiter Actor)}
    {mine : Option (Execution Actor)} {left more : Nat}
    (worked : t.Worked who role l left mine more next) (his : ∀ e ∈ mine, e.who = who)
    (noticed : List Actor) (c : Nat) (k : Kickoff) (apart : c ≠ who.crew) :
    load next.executions noticed c k ≤ load t.executions noticed c k := by
  apply le_of_eq
  apply load_congr
  intro other crew
  apply worked.remaining_eq his
  rintro rfl
  exact apart crew.symm

theorem standing_afterBy (standing : t.kickoffs[who.crew]? = some k) (after : Kickoff) :
    (t.afterBy k after who).kickoffs[who.crew]? = some after := by
  obtain ⟨below, _⟩ := List.getElem?_eq_some_iff.mp standing
  rw [kickoffs_afterBy, List.getElem?_set_self below]

namespace Running

theorem mono {fewer : Set Actor} (running : Running crews inputs t busy)
    (waits : ∀ who k, t.kickoffs[who.crew]? = some k → k.Has who → who ∈ busy → who ∉ fewer →
      t.Waits k who) : Running crews inputs t fewer :=
  ⟨running.timeless, running.faithful, running.watched.mono waits⟩

theorem settled (running : Running crews inputs t busy) (standing : t.kickoffs[who.crew]? = some k)
    (waits : k.Has who → t.Waits k who) : Running crews inputs t (busy \ {who}) :=
  ⟨running.timeless, running.faithful, running.watched.settled standing waits⟩

theorem absent (running : Running crews inputs t busy) (nobody : t.kickoffs[who.crew]? = none) :
    Running crews inputs t (busy \ {who}) := by
  apply running.mono
  intro other k standing _ inside outside
  have same : other = who := by
    by_contra apart
    exact outside ⟨inside, apart⟩
  subst same
  cases nobody.symm.trans standing

theorem of_calm (running : Running crews inputs t busy) (calm : t.Calm next) :
    Running crews inputs next busy := by
  refine ⟨running.timeless, ?_, running.watched.of_calm calm⟩
  rw [calm.held]
  exact running.faithful

theorem looked (running : Running crews inputs t busy) (standing : t.kickoffs[who.crew]? = some k)
    (jobs : ∀ j, who.job? = some j → k.result? = none)
    (look : t.lookFor who.crew k (k.awaitedBy? who) = some next) :
    Running crews inputs next busy ∧ next.kickoffs[who.crew]? = some k ∧ t.Pays m next := by
  refine ⟨running.of_calm (calm_of_lookFor look), ?_, pays_of_lookFor standing look ?_⟩
  · rw [kickoffs_of_lookFor look]
    exact standing
  · intro j awaits
    refine ⟨lt_of_awaitedBy? (running.linked standing) awaits, ?_⟩
    rcases Kickoff.result?_or_idle jobs with going | ⟨_, _, alone⟩
    · exact going
    · cases alone.symm.trans awaits

theorem moved (running : Running crews inputs t busy) (turn : who ∈ busy)
    (standing : t.kickoffs[who.crew]? = some k) (jobs : ∀ j, who.job? = some j → k.result? = none)
    (moved : k.moveBy who = some after) :
    Running crews inputs (t.afterBy k after who) busy ∧ t.Pays m (t.afterBy k after who) := by
  have change : Change answers k who.job? after := Kickoff.change_of_moveBy moved
  have written := written_afterBy running.watched standing change
  have going : k.result? = none := by
    rcases Kickoff.result?_or_idle jobs with going | ⟨stuck, _⟩
    · exact going
    · cases stuck.symm.trans moved
  have fee : load t.executions t.noticed who.crew after + fare * wokenBy k after who.job? ≤
      load t.executions t.noticed who.crew k :=
    load_of_moveBy moved rfl going (running.few standing) (running.fresh standing moved)
  have others : ∀ c' k', c' ≠ who.crew → t.kickoffs[c']? = some k' →
      load t.executions t.noticed c' k' ≤ load t.executions t.noticed c' k' := fun _ _ _ _ => le_rfl
  have added := loads_add_le after standing others
  have woken := Nat.mul_le_mul_left fare written.wakes
  have left : (t.afterBy k after who).turn = t.turn := written.left
  rw [Nat.mul_add] at woken
  refine ⟨⟨running.timeless, running.faithful.afterMoved standing moved,
    running.watched.written turn standing change written⟩, pays_of_turn written.spent left.le ?_⟩
  rw [left, debt, debt, written.executions, written.noticed, written.kickoffs]
  omega

theorem answered {worked : Timeline} {w : Work} {answer : Except String String}
    (running : Running crews inputs t busy) (turn : who ∈ busy)
    (standing : t.kickoffs[who.crew]? = some k) (jobs : ∀ j, who.job? = some j → k.result? = none)
    (working : k.workBy? who = some w) (works : t.work who w = (worked, some answer)) :
    Change answers k who.job? (k.answerBy answer who) ∧
      worked.kickoffs[who.crew]? = some k ∧
      Running crews inputs (worked.afterBy k (k.answerBy answer who) who) busy ∧
      t.Pays m (worked.afterBy k (k.answerBy answer who) who) := by
  have his := workOf?_eq standing working
  obtain ⟨reply, faithful⟩ :=
    running.faithful.afterAnswered running.timeless standing working works
  subst reply
  have change : Change answers k who.job? (k.answerBy (w.answer answers) who) :=
    Kickoff.change_of_answerBy (running.forgetful standing) working
  have going : k.result? = none := by
    rcases Kickoff.result?_or_idle jobs with going | ⟨_, idle, _⟩
    · exact going
    · cases idle.symm.trans working
  rcases running.watched.work_cases running.faithful his
    (running.faithful.patient running.timeless his) with ⟨_, answered, done⟩ | ⟨_, waits, _⟩
  · cases works.symm.trans answered
    have watched := running.watched.workDone turn running.faithful his done
    obtain ⟨l, left, cost, worked', passage, pays, _⟩ := done
    have here : worked.kickoffs[who.crew]? = some k := worked'.kickoffs ▸ standing
    have written := written_afterBy watched here change
    obtain ⟨within, spent⟩ := worked'.pays passage
    have left : (worked.afterBy k _ who).turn = worked.turn := written.left
    have fee : load worked.executions t.noticed who.crew (k.answerBy (w.answer answers) who) +
        fare * wokenBy k (k.answerBy (w.answer answers) who) who.job? +
          remaining t.executions who w ≤ load t.executions t.noticed who.crew k :=
      load_of_answerBy change rfl going working (running.few standing)
        (Kickoff.length_jobs_answerBy _) (worked'.remaining_eq (by simp))
    have added := loads_add_le (k.answerBy (w.answer answers) who) standing
      fun c' k' apart _ => worked'.load_le (by simp) t.noticed c' k' apart
    have woken := Nat.mul_le_mul_left fare written.wakes
    rw [Nat.mul_add] at woken
    rw [purse_underway] at pays
    refine ⟨change, here, ⟨running.timeless, faithful, watched.written turn here change written⟩,
      pays_of_turn (written.spent.trans worked'.spent) (left.le.trans within) ?_⟩
    rw [left, debt, debt, written.executions, written.noticed, worked'.noticed, written.kickoffs,
      worked'.kickoffs]
    omega
  · cases works.symm.trans waits

theorem goesOn {w : Work} (running : Running crews inputs t busy) (turn : who ∈ busy)
    (standing : t.kickoffs[who.crew]? = some k) (jobs : ∀ j, who.job? = some j → k.result? = none)
    (working : k.workBy? who = some w) (works : t.work who w = (next, none)) :
    Running crews inputs next (busy \ {who}) ∧ t.Pays who.mover next := by
  have his := workOf?_eq standing working
  have faithful := running.faithful.afterWorking running.timeless standing working works
  have going : k.result? = none := by
    rcases Kickoff.result?_or_idle jobs with going | ⟨_, idle, _⟩
    · exact going
    · cases idle.symm.trans working
  rcases running.watched.work_cases running.faithful his
    (running.faithful.patient running.timeless his) with ⟨_, answers, _⟩ | ⟨_, waits, left⟩
  · cases works.symm.trans answers
  · cases works.symm.trans waits
    refine ⟨⟨running.timeless, faithful,
      running.watched.workLeft turn running.faithful standing working left⟩, ?_⟩
    obtain ⟨l, left, cost, e, isSpent, mid, worked, onward, passage, pays, mine, _, _, spent, _⟩ := left
    obtain ⟨within, fees⟩ := worked.pays passage
    have alone : ∀ e' ∈ some e, e'.who = who := by simpa using mine
    have own : remaining mid.executions who w = purse e := by
      rw [worked.executions]
      exact remaining_of_own mine w
    have fee := load_of_workBy t.noticed working rfl going (worked.remaining_eq alone)
    have added := loads_add_le_self standing
      fun c' k' apart _ => worked.load_le alone t.noticed c' k' apart
    rw [purse_underway] at pays
    have paid : t.Pays who.mover mid := by
      refine pays_of_turn worked.spent within ?_
      rw [debt, debt, worked.noticed, worked.kickoffs]
      omega
    rw [onward]
    cases isSpent with
    | true => exact paid.trans (pays_exhaust _ (worked.left.trans (spent rfl)))
    | false => exact paid

/-- A poll is paid from the load and from the turn. -/
theorem polled {n : Nat} {last : Timeline} (running : Running crews inputs t busy) (turn : who ∈ busy)
    (jobs : ∀ j k, who.job? = some j → t.kickoffs[who.crew]? = some k → k.result? = none)
    (light : ∀ k, t.kickoffs[who.crew]? = some k → k.weight < n) (polled : Polled who n t last) :
    Running crews inputs last (busy \ {who}) ∧ t.Pays who.mover last := by
  -- A job of a crew that is not over leaves it so.
  have stays : ∀ {k after : Kickoff}, (∀ j, who.job? = some j → k.result? = none) →
      Change answers k who.job? after → ∀ j, who.job? = some j → after.result? = none := by
    intro k after before change j his
    rw [his] at change
    obtain ⟨_, phase, _, rfl⟩ := Kickoff.eq_setPhase_of_change change
    exact before j his
  induction polled with
  | @tired t =>
      cases standing : t.kickoffs[who.crew]? with
      | none => exact ⟨running.absent standing, .refl⟩
      | some k => exact absurd (light k standing) (Nat.not_lt_zero _)
  | absent nobody => exact ⟨running.absent nobody, .refl⟩
  | @spent n t k standing spent =>
      obtain ⟨calm, awake⟩ := calm_exhaust (t := t) who.mover
      exact ⟨(running.of_calm calm).settled standing fun _ => .awake awake,
        pays_exhaust _ (turn_of_lookFor spent)⟩
  | @moved n t looked last k after standing look moved rest ih =>
      have open' : ∀ j, who.job? = some j → k.result? = none := fun j his => jobs j k his standing
      obtain ⟨looking, here, found⟩ := running.looked standing open' look
      obtain ⟨onward, moving⟩ := looking.moved turn here open' moved
      have change : Change answers k who.job? after := Kickoff.change_of_moveBy moved
      have lighter := Kickoff.weight_lt_of_change change
      have there := standing_afterBy here after
      obtain ⟨ended, rest⟩ := ih onward
        (fun j k' his same => Option.some.inj (there.symm.trans same) ▸ stays open' change j his)
        (fun k' same => Option.some.inj (there.symm.trans same) ▸
          Nat.lt_of_lt_of_le lighter (Nat.le_of_lt_succ (light k standing)))
      exact ⟨ended, (found.trans moving).trans rest⟩
  | @answered n t looked worked last k w answer standing look working works rest ih =>
      have open' : ∀ j, who.job? = some j → k.result? = none := fun j his => jobs j k his standing
      obtain ⟨looking, here, found⟩ := running.looked standing open' look
      obtain ⟨change, here, onward, answering⟩ := looking.answered turn here open' working works
      have lighter := Kickoff.weight_lt_of_change change
      have there := standing_afterBy here (k.answerBy answer who)
      obtain ⟨ended, rest⟩ := ih onward
        (fun j k' his same => Option.some.inj (there.symm.trans same) ▸ stays open' change j his)
        (fun k' same => Option.some.inj (there.symm.trans same) ▸
          Nat.lt_of_lt_of_le lighter (Nat.le_of_lt_succ (light k standing)))
      exact ⟨ended, (found.trans answering).trans rest⟩
  | @working n t looked last k w standing look working works =>
      have open' : ∀ j, who.job? = some j → k.result? = none := fun j his => jobs j k his standing
      obtain ⟨looking, here, found⟩ := running.looked standing open' look
      obtain ⟨ended, rest⟩ := looking.goesOn turn here open' working works
      exact ⟨ended, found.trans rest⟩
  | @awaiting n j t looked k standing look stuck idle awaits =>
      obtain ⟨looking, here, found⟩ :=
        running.looked standing (fun j his => jobs j k his standing) look
      have watched := looking.watched.await here awaits (lt_of_awaitedBy? (looking.linked here) awaits)
        (Kickoff.jobResult?_of_stuck stuck idle awaits)
      have same : looked.Pays who.mover (looked.await (.job who.crew j) who) := by
        unfold Timeline.await
        split <;> exact ⟨le_rfl, le_rfl⟩
      refine ⟨⟨running.timeless, ?_, watched⟩, found.trans same⟩
      rw [held_await]
      exact looking.faithful
  | @resting n t looked k standing look stuck idle alone =>
      obtain ⟨looking, here, found⟩ :=
        running.looked standing (fun j his => jobs j k his standing) look
      refine ⟨looking.settled here fun has => .done ?_, found⟩
      exact Kickoff.isOver_of_stuck stuck idle alone has

end Running

end Timeline

end CrewFlow.Crew
