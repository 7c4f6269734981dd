import Mathlib
import CrewFlow.Proofs.Agent.Alone
/-!
# Time limits cut off

An execution with a time limit goes the way of the one without, turn by turn, until its time is up. What it
leaves out lies behind that, or in the very turn in which its time is up and which is spent.
-/
set_option autoImplicit false

namespace CrewFlow.Agent

open Rate (Allowance Limiter)

/-- An agent without its time limit. -/
def unlimited (agent : Agent) : Agent := { agent with limits := { agent.limits with maxTime := none } }

variable {α : Type}

namespace Execution

def patient (e : Execution α) : Execution α := { e with agent := e.agent.unlimited, deadline := none }

end Execution

def Outcome.patient : Outcome α → Outcome α
  | .waiting e isSpent => .waiting e.patient isSpent
  | .finished result => .finished result

def Progress.patient (p : Progress α) : Progress α := { p with outcome := p.outcome.patient }

namespace Execution

variable (e : Execution α) (now : Nat)

theorem answered_patient (outcome : Except String String) :
    e.patient.answered outcome = (e.answered outcome).map id patient := by
  cases outcome with
  | error cause => rfl
  | ok reply =>
      simp only [answered, patient]
      cases (e.dialogue.feed reply).run <;> rfl

variable [DecidableEq α]

theorem enter_patient (l : Limiter α) (left : Allowance) : enter l e.patient now left = enter l e now left := by
  cases left <;> rfl

theorem passLimiter_patient (l : Option (Limiter α)) (left : Allowance) :
    passLimiter l e.patient now left = passLimiter l e now left := by
  cases l with
  | none => rfl
  | some l => simp only [passLimiter, enter_patient]

theorem request_patient (l : Option (Limiter α)) (left : Allowance) :
    request l e.patient now left =
      ((request l e now left).1, (request l e now left).2.1, (request l e now left).2.2.1.patient,
        (request l e now left).2.2.2) := by
  by_cases called : ∃ ends outcome, e.stage = .calling ends outcome
  · obtain ⟨who, agent, dialogue, stage, deadline⟩ := e
    obtain ⟨ends, outcome, rfl⟩ := called
    cases left with
    | zero => rfl
    | succ left =>
        simp only [request, patient]
        split <;> rfl
  · have uncalled : ∀ ends outcome, e.stage ≠ .calling ends outcome :=
      fun ends outcome same => called ⟨ends, outcome, same⟩
    have still : ∀ ends outcome, e.patient.stage ≠ .calling ends outcome := uncalled
    rw [request_eq_of_uncalled _ still, request_eq_of_uncalled _ uncalled, passLimiter_patient]
    rcases passLimiter l e now left with ⟨l, left, _ | halt⟩
    · rfl
    · rfl

theorem proceed_patient (n : Nat) (l : Option (Limiter α)) (left : Allowance) :
    proceed now n l left e.patient = (proceed now n l left e).patient := by
  induction n generalizing l left e with
  | zero => rfl
  | succ n ih =>
      simp only [proceed, request_patient]
      rcases request l e now left with ⟨l, left, e, outcome | isSpent⟩
      · simp only [answered_patient]
        rcases e.answered outcome with result | e
        · rfl
        · simp only [Sum.map_inr, ih]
          rfl
      · rfl

theorem going_patient (l : Option (Limiter α)) (left : Allowance) :
    going now l left e.patient = (going now l left e).patient :=
  proceed_patient e now e.dialogue.requestsLeft l left

/-! ## The way without the limit -/

variable {e} {now} {e' : Execution α} {l l' : Option (Limiter α)} {left left' : Nat} {n : Nat} {u : Ending α}

theorem alone_patient_cases (solo : Solo l e) (ready : Ready left e)
    (run : alone (n + 1) now l left e.patient = some u) :
    (∃ result, (going now l left e).outcome = .finished result ∧
      u = ⟨now, result, (going now l left e).calls, (going now l left e).limiter, (going now l left e).left⟩) ∨
    ∃ e' isSpent later u', (going now l left e).outcome = .waiting e' isSpent ∧
      (isSpent = true ∧ later = now ∨ isSpent = false ∧ e'.stage.ends? = some later ∧ now < later) ∧
      alone n later (going now l left e).limiter .full e'.patient = some u' ∧
      u = u'.behind (going now l left e).calls := by
  have cases := alone_cases (e := e.patient) rfl solo ready run
  rw [going_patient] at cases
  cases outcome : (going now l left e).outcome with
  | finished result =>
      have finished : (going now l left e).patient.outcome = .finished result := by
        rw [Progress.patient, outcome]
        rfl
      rcases cases with ⟨result', same, ended⟩ | ⟨e', isSpent, later, u', waiting, -⟩
      · cases finished.symm.trans same
        exact .inl ⟨result, rfl, ended⟩
      · cases finished.symm.trans waiting
  | waiting e' isSpent =>
      have waits : (going now l left e).patient.outcome = .waiting e'.patient isSpent := by
        rw [Progress.patient, outcome]
        rfl
      rcases cases with ⟨result', same, -⟩ | ⟨_, _, later, u', waiting, when, rest, ended⟩
      · cases waits.symm.trans same
      · cases waits.symm.trans waiting
        exact .inr ⟨e', isSpent, later, u', rfl, when, rest, ended⟩

/-- Requests are answered from a time on, the last one at the end. -/
structure Spans (begins : Nat) (u : Ending α) : Prop where
  later : ∀ c ∈ u.calls, begins ≤ c.time
  last : ∃ c ∈ u.calls, c.time = u.time

omit [DecidableEq α] in
theorem Spans.le_time {begins : Nat} (spans : Spans begins u) : begins ≤ u.time := by
  obtain ⟨c, member, same⟩ := spans.last
  rw [← same]
  exact spans.later c member

omit [DecidableEq α] in
theorem Spans.behind {begins : Nat} {calls : List Call} (spans : Spans now u) (first : ∀ c ∈ calls, begins ≤ c.time)
    (next : begins ≤ now) : Spans begins (u.behind calls) := by
  refine ⟨?_, ?_⟩
  · intro c member
    rcases List.mem_append.mp member with before | rest
    · exact first c before
    · exact next.trans (spans.later c rest)
  · obtain ⟨c, member, same⟩ := spans.last
    exact ⟨c, List.mem_append_right calls member, same⟩

theorem spans_of_alone (solo : Solo l e) (ready : Ready left e) (run : alone n now l left e.patient = some u) :
    Spans now u := by
  induction n generalizing e l left now u with
  | zero => cases run
  | succ n ih =>
      have known := turned_going now solo ready
      rcases alone_patient_cases solo ready run with
        ⟨result, finished, rfl⟩ | ⟨e', isSpent, later, u', waiting, when, rest, rfl⟩
      · refine ⟨fun c member => (known.timely c member).ge, ?_⟩
        obtain ⟨c, member⟩ := List.exists_mem_of_ne_nil _ (known.ended result finished)
        exact ⟨c, member, known.timely c member⟩
      · have next := ih (known.paused e' isSpent waiting).solo (.inl full_ne_zero) rest
        apply next.behind
        · intro c member
          exact (known.timely c member).ge
        · rcases when with ⟨-, same⟩ | ⟨-, -, early⟩
          · exact same.ge
          · exact early.le

theorem going_of_early {ends : Nat} (solo : Solo l e) (more : left ≠ 0) (stage : e.stage.ends? = some ends)
    (early : now < ends) : going now l left e = ⟨l, left, [], .waiting e false⟩ := by
  have still : request l e now left = (l, left, e, .stopped false) := by
    obtain ⟨more, rfl⟩ := Nat.exists_eq_succ_of_ne_zero more
    obtain ⟨who, agent, dialogue, stage', deadline⟩ := e
    have waits : ¬ends ≤ now := Nat.not_le_of_lt early
    cases stage' with
    | arriving => cases stage
    | queued => cases stage
    | calling ends' outcome =>
        cases stage
        simp only [request, if_neg waits]
    | resting ends' =>
        cases stage
        obtain ⟨x, rfl, -⟩ := solo
        simp only [request, passLimiter, enter, if_neg waits]
  rw [going, Dialogue.requestsLeft, proceed, still]

/-! ## The cut -/

/-- How many requests may still be answered in the turn in which the time is up: with a limiter, as many as waits
may end in it. That turn is a new one, unless it is the first. -/
def room (limited : Bool) (now due : Nat) (left : Allowance) : Option Nat :=
  if limited then some (if now = due ∧ left ≠ 0 then left else Allowance.full) else none

/-- The requests that are answered when the time is up. -/
def Ending.atLast (u : Ending α) (due : Nat) : List Call := u.calls.filter fun c => c.time = due

/-- An ending is in time: before the time is up, or then and there is room for all that are answered then. -/
def Ending.InTime (u : Ending α) (due : Nat) (most : Option Nat) : Prop :=
  u.time < due ∨ u.time = due ∧ ∀ m ∈ most, (u.atLast due).length ≤ m

/-- The requests that are answered until the time is up. -/
def Ending.within (u : Ending α) (due : Nat) (most : Option Nat) : List Call :=
  (u.calls.filter fun c => c.time < due) ++ most.elim (u.atLast due) (u.atLast due).take

/-- An ending is that of the execution without the limit when it is in time, and else the limit's. -/
structure CutOff (role : String) (limit due : Nat) (most : Option Nat) (u v : Ending α) : Prop where
  inTime : u.InTime due most → v = u
  timedOut : ¬u.InTime due most →
    v.time = due ∧ v.result = .error (.timeout role limit) ∧ v.calls = u.within due most

section Cut
variable {v : Ending α} {role : String} {limit due : Nat} {most : Option Nat} {calls : List Call}

omit [DecidableEq α] in
theorem filter_eq_nil_of_later {calls : List Call} {begins : Nat} (later : ∀ c ∈ calls, begins ≤ c.time)
    (past : due ≤ begins) : (calls.filter fun c => c.time < due) = [] := by
  apply List.filter_eq_nil_iff.mpr
  intro c member
  have := later c member
  simp only [decide_eq_true_eq]
  omega

omit [DecidableEq α] in
theorem filter_eq_self_of_due {calls : List Call} (atDue : ∀ c ∈ calls, c.time = due) :
    (calls.filter fun c => c.time = due) = calls := by
  apply List.filter_eq_self.mpr
  intro c member
  simpa using atDue c member

omit [DecidableEq α] in
theorem CutOff.behind (cut : CutOff role limit due most u v) (before : ∀ c ∈ calls, c.time < due) :
    CutOff role limit due most (u.behind calls) (v.behind calls) := by
  have atLast : (u.behind calls).atLast due = u.atLast due := by
    have none : (calls.filter fun c => c.time = due) = [] := by
      apply List.filter_eq_nil_iff.mpr
      intro c member
      simpa using (before c member).ne
    rw [Ending.atLast, Ending.behind, List.filter_append, none]
    rfl
  have inTime : (u.behind calls).InTime due most ↔ u.InTime due most := by
    rw [Ending.InTime, Ending.InTime, atLast]
    rfl
  have within : (u.behind calls).within due most = calls ++ u.within due most := by
    have all : (calls.filter fun c => c.time < due) = calls := by
      apply List.filter_eq_self.mpr
      intro c member
      simpa using before c member
    rw [Ending.within, atLast, Ending.within, Ending.behind, List.filter_append, all, List.append_assoc]
  refine ⟨?_, ?_⟩
  · intro early
    rw [cut.inTime (inTime.mp early)]
  · intro late
    obtain ⟨time, result, same⟩ := cut.timedOut (late ∘ inTime.mpr)
    refine ⟨time, result, ?_⟩
    rw [within, ← same]
    rfl

omit [DecidableEq α] in
/-- Where there is room for any number, those that were answered when the time was up come first. -/
theorem CutOff.behind_due (cut : CutOff role limit due none u v) (atDue : ∀ c ∈ calls, c.time = due)
    (later : ∀ c ∈ u.calls, due ≤ c.time) : CutOff role limit due none (u.behind calls) (v.behind calls) := by
  have inTime : (u.behind calls).InTime due none ↔ u.InTime due none := by
    simp [Ending.InTime, Ending.behind]
  have within : (u.behind calls).within due none = calls ++ u.within due none := by
    have none : (calls.filter fun c => c.time < due) = [] :=
      filter_eq_nil_of_later (fun c member => (atDue c member).ge) le_rfl
    simp only [Ending.within, Ending.atLast, Ending.behind, List.filter_append, none, filter_eq_self_of_due atDue,
      filter_eq_nil_of_later later le_rfl, Option.elim_none, List.nil_append]
  refine ⟨?_, ?_⟩
  · intro early
    rw [cut.inTime (inTime.mp early)]
  · intro late
    obtain ⟨time, result, same⟩ := cut.timedOut (late ∘ inTime.mpr)
    refine ⟨time, result, ?_⟩
    rw [within, ← same]
    rfl

/-! ## The way with the limit -/

theorem advance_of_late {isSpent : Bool} (solo : Solo l e) (more : left ≠ 0) (deadline : e.deadline = some due)
    (limited : e.agent.limits.maxTime = some limit) (up : due ≤ now)
    (waiting : (going now l left e).outcome = .waiting e' isSpent) :
    advance now l left e =
      { going now l left e with
        limiter := (going now l left e).limiter.map fun x : Limiter α => x.withdraw e.who
        left := (going now l left e).left - 1
        outcome := .finished (.error (.timeout e.agent.role limit)) } := by
  have still : e'.deadline = some due := by
    rw [((turned_going now solo (.inl more)).paused e' isSpent waiting).same]
    exact deadline
  have late : left ≠ 0 ∧ e'.isLate now = true := by
    refine ⟨more, ?_⟩
    simp [isLate, still, up]
  rw [going] at waiting
  rw [advance, waiting]
  dsimp only
  rw [if_pos late, limited]
  rfl

theorem advance_of_early (solo : Solo l e) (ready : Ready left e) (deadline : e.deadline = some due)
    (early : now < due ∨ left = 0) : advance now l left e = going now l left e := by
  apply advance_eq_going
  intro e' isSpent waiting
  have still : e'.deadline = some due := by
    rw [((turned_going now solo ready).paused e' isSpent waiting).same]
    exact deadline
  rcases early with early | none
  · right
    simpa [isLate, still] using early
  · exact .inl none

theorem spans_of_early {ends : Nat} (solo : Solo l e) (more : left ≠ 0) (stage : e.stage.ends? = some ends)
    (early : now < ends) (run : alone n now l left e.patient = some u) : Spans ends u := by
  cases n with
  | zero => cases run
  | succ n =>
      have waits := going_of_early solo more stage early
      rcases alone_patient_cases solo (.inl more) run with
        ⟨result, finished, -⟩ | ⟨e', isSpent, later, u', waiting, when, rest, rfl⟩
      · rw [waits] at finished
        cases finished
      · rw [waits] at waiting rest ⊢
        cases waiting
        rcases when with ⟨spent, -⟩ | ⟨-, same, -⟩
        · cases spent
        · cases stage.symm.trans same
          exact (spans_of_alone solo (.inl full_ne_zero) rest).behind (by simp) le_rfl

omit [DecidableEq α] in
theorem Spans.atLast_eq_nil {begins : Nat} (spans : Spans begins u) (past : due < begins) : u.atLast due = [] := by
  apply List.filter_eq_nil_iff.mpr
  intro c member
  have begun := spans.later c member
  simp only [decide_eq_true_eq]
  omega

omit [DecidableEq α] in
theorem cutOff_of_past {begins : Nat} {v : Ending α} (spans : Spans begins u) (past : due < begins)
    (time : v.time = due) (result : v.result = .error (.timeout role limit)) (none : v.calls = []) :
    CutOff role limit due most u v := by
  have late := spans.le_time
  refine ⟨?_, fun _ => ⟨time, result, ?_⟩⟩
  · rintro (early | ⟨same, -⟩) <;> omega
  · rw [Ending.within, spans.atLast_eq_nil past, filter_eq_nil_of_later spans.later past.le, none]
    cases most <;> simp

/-- What comes behind the turn in which the time is up: the next request, where the turn has been spent on as many
as could be answered in it, or what has still to be waited for. -/
theorem behind_last {isSpent : Bool} {later : Nat} (solo : Solo l e) (more : left ≠ 0)
    (waiting : (going now l left e).outcome = .waiting e' isSpent)
    (rest : alone n later (going now l left e).limiter .full e'.patient = some u)
    (when : isSpent = true ∧ later = now ∨ isSpent = false ∧ e'.stage.ends? = some later ∧ now < later) :
    (Spans now u ∧ l.isSome = true ∧ (going now l left e).calls.length = left) ∨
      ∃ ends, Spans ends u ∧ now < ends := by
  have pauses := (turned_going now solo (.inl more)).paused e' isSpent waiting
  rcases when with ⟨-, rfl⟩ | ⟨-, -, early⟩
  · rcases pauses.why with ⟨-, -, limited, all⟩ | ⟨ends, stage, early⟩
    · exact .inl ⟨spans_of_alone pauses.solo (.inl full_ne_zero) rest, limited, all⟩
    · exact .inr ⟨ends, spans_of_early pauses.solo full_ne_zero stage early rest, early⟩
  · exact .inr ⟨later, spans_of_alone pauses.solo (.inl full_ne_zero) rest, early⟩

/-- In the turn in which the time is up, an execution leaves out what comes behind it. -/
theorem cutOff_of_last {v : Ending α} {isSpent : Bool} {later : Nat} (solo : Solo l e) (more : left ≠ 0)
    (waiting : (going now l left e).outcome = .waiting e' isSpent)
    (rest : alone n later (going now l left e).limiter .full e'.patient = some u)
    (when : isSpent = true ∧ later = now ∨ isSpent = false ∧ e'.stage.ends? = some later ∧ now < later)
    (time : v.time = now) (result : v.result = .error (.timeout role limit))
    (same : v.calls = (going now l left e).calls) :
    CutOff role limit now (room l.isSome now now left) (u.behind (going now l left e).calls) v := by
  have known := turned_going now solo (.inl more)
  have timely := known.timely
  have counted := known.counted
  have behind := behind_last solo more waiting rest when
  rw [room, if_pos (And.intro rfl more)]
  generalize (going now l left e).calls = calls at *
  have atLast : (u.behind calls).atLast now = calls ++ u.atLast now := by
    rw [Ending.atLast, Ending.behind, List.filter_append, filter_eq_self_of_due timely]
    rfl
  rcases behind with ⟨spans, limited, all⟩ | ⟨ends, spans, early⟩
  · have late := spans.le_time
    have none : ((u.behind calls).calls.filter fun c => c.time < now) = [] :=
      filter_eq_nil_of_later (spans.behind (fun c member => (timely c member).ge) le_rfl).later le_rfl
    rw [if_pos limited]
    refine ⟨?_, fun _ => ⟨time, result, ?_⟩⟩
    · rintro (early | ⟨last, few⟩)
      · exact absurd early late.not_gt
      · -- one more is answered now, the one that ends the execution
        obtain ⟨c, member, sameTime⟩ := spans.last
        have there : c ∈ u.atLast now := List.mem_filter.mpr ⟨member, by simpa using sameTime.trans last⟩
        have one := List.length_pos_of_mem there
        have fewer := few left rfl
        rw [atLast, List.length_append] at fewer
        omega
    · rw [same, Ending.within, none, atLast, List.nil_append, Option.elim_some, List.take_left' all]
  · have late := spans.le_time
    have none : ((u.behind calls).calls.filter fun c => c.time < now) = [] :=
      filter_eq_nil_of_later (spans.behind (fun c member => (timely c member).ge) early.le).later le_rfl
    rw [spans.atLast_eq_nil early, List.append_nil] at atLast
    refine ⟨?_, fun _ => ⟨time, result, ?_⟩⟩
    · rintro (past | ⟨last, -⟩)
      · exact absurd past (early.le.trans late).not_gt
      · exact absurd last (early.trans_le late).ne'
    · rw [same, Ending.within, none, atLast, List.nil_append]
      by_cases limited : l.isSome = true
      · have few := counted limited
        rw [if_pos limited, Option.elim_some, List.take_of_length_le (by omega)]
      · rw [if_neg limited, Option.elim_none]

theorem inTime_of_finished (result : Except AgentError String) (solo : Solo l e) (ready : Ready left e)
    (soon : now ≤ due) :
    Ending.InTime ⟨now, result, (going now l left e).calls, (going now l left e).limiter, (going now l left e).left⟩
      due (room l.isSome now due left) := by
  have counted := (turned_going now solo ready).counted
  rcases soon.lt_or_eq with early | last
  · exact .inl early
  · refine .inr ⟨last, fun m member => ?_⟩
    have some := List.length_filter_le (fun c : Call => decide (c.time = due)) (going now l left e).calls
    by_cases limited : l.isSome = true
    · have few := counted limited
      rw [room, if_pos limited] at member
      by_cases more : left ≠ 0
      · rw [if_pos ⟨last, more⟩] at member
        cases member
        exact some.trans (by omega)
      · have none : left = 0 := not_not.mp more
        exact some.trans (by omega)
    · rw [room, if_neg limited] at member
      cases member

theorem room_eq_of_early (limited : Bool) (early : now < due ∨ left = 0) (later : Nat) :
    room limited later due .full = room limited now due left := by
  have fresh : ¬(now = due ∧ left ≠ 0) := by omega
  rw [room, room, if_neg fresh, ite_self]

omit [DecidableEq α] in
theorem next?_of_deadline {ends : Nat} (deadline : e.deadline = some due) (stage : e.stage.ends? = some ends)
    (early : now < ends) (soon : now ≤ due) : e.next? now false = some (min ends due) := by
  have latest : max now (min ends due) = min ends due := by omega
  simp [next?, alarms, stage, deadline, List.min?_cons, latest]

theorem CutOff.behind_going {v : Ending α} (cut : CutOff role limit due (room l.isSome now due left) u v)
    (known : Turned now l left e (going now l left e)) (early : now < due ∨ left = 0) (soon : now ≤ due)
    (spans : Spans now u) :
    CutOff role limit due (room l.isSome now due left) (u.behind (going now l left e).calls)
      (v.behind (going now l left e).calls) := by
  rcases soon.lt_or_eq with inside | rfl
  · apply cut.behind
    intro c member
    rw [known.timely c member]
    exact inside
  · have none : left = 0 := early.resolve_left (lt_irrefl now)
    by_cases limited : l.isSome = true
    · have counted := known.counted limited
      apply cut.behind
      rw [List.length_eq_zero_iff.mp (by omega : (going now l left e).calls.length = 0)]
      simp
    · rw [room, if_neg limited] at cut ⊢
      exact cut.behind_due known.timely spans.later

/-- The time is up while an execution waits. -/
theorem cutOff_of_waiting {ends : Nat} (solo : Solo l e) (deadline : e.deadline = some due)
    (limited : e.agent.limits.maxTime = some limit) (stage : e.stage.ends? = some ends) (past : due < ends)
    (run : alone n ends l .full e.patient = some u) :
    ∃ v, alone n due l .full e = some v ∧ CutOff e.agent.role limit due most u v := by
  have spans := spans_of_alone solo (.inl full_ne_zero) run
  have waits := going_of_early solo full_ne_zero stage past
  have idle : (going due l .full e).outcome = .waiting e false := by rw [waits]
  have last := advance_of_late solo full_ne_zero deadline limited le_rfl idle
  rw [waits] at last
  cases n with
  | zero => cases run
  | succ n => exact ⟨_, alone_of_finished n last rfl, cutOff_of_past spans past rfl rfl rfl⟩

/-- An execution with a time limit goes the way of the one without until its time is up. -/
theorem cutOff_of_alone (solo : Solo l e) (ready : Ready left e) (deadline : e.deadline = some due)
    (limited : e.agent.limits.maxTime = some limit) (soon : now ≤ due)
    (run : alone n now l left e.patient = some u) :
    ∃ v, alone n now l left e = some v ∧
      CutOff e.agent.role limit due (room l.isSome now due left) u v := by
  induction n generalizing e l left now u with
  | zero => cases run
  | succ n ih =>
      have known := turned_going now solo ready
      rcases alone_patient_cases solo ready run with
        ⟨result, finished, rfl⟩ | ⟨e', isSpent, later, u', waiting, when, rest, rfl⟩
      · have turn : advance now l left e = going now l left e := by
          apply advance_eq_going
          intro e' isSpent waiting
          cases finished.symm.trans waiting
        have inTime := inTime_of_finished result solo ready soon
        exact ⟨_, alone_of_finished n turn finished, fun _ => rfl, fun late => absurd inTime late⟩
      · -- the time is looked at only at the end of a turn that was not spent from the beginning
        by_cases up : now = due ∧ left ≠ 0
        · obtain ⟨rfl, more⟩ := up
          have turn := advance_of_late solo more deadline limited le_rfl waiting
          exact ⟨_, alone_of_finished n turn rfl, cutOff_of_last solo more waiting rest when rfl rfl rfl⟩
        · have early : now < due ∨ left = 0 := by omega
          have turn := advance_of_early solo ready deadline early
          have pauses := known.paused e' isSpent waiting
          have still : e'.deadline = some due := by
            rw [pauses.same]
            exact deadline
          have agent : e'.agent = e.agent := by rw [pauses.same]
          have limitedStill : e'.agent.limits.maxTime = some limit := agent ▸ limited
          rcases when with ⟨rfl, rfl⟩ | ⟨rfl, stage, wait⟩
          · obtain ⟨v, again, cut⟩ := ih pauses.solo (.inl full_ne_zero) still limitedStill soon rest
            have spans := spans_of_alone pauses.solo (.inl full_ne_zero) rest
            rw [agent, pauses.kept, room_eq_of_early l.isSome early later] at cut
            refine ⟨v.behind (going later l left e).calls, ?_, cut.behind_going known early soon spans⟩
            rw [alone_of_waiting n turn waiting rfl, again, Option.map_some]
          · have more : left ≠ 0 := by
              intro none
              have within := pauses.within
              cases pauses.spent.mpr (by omega)
            have next := next?_of_deadline still stage wait soon
            have inside : now < due := early.resolve_right more
            have timely : ∀ c ∈ (going now l left e).calls, c.time < due := by
              intro c member
              rw [known.timely c member]
              exact inside
            -- the next turn comes with the end of the wait, or before it with that of the time
            rcases Nat.lt_or_ge due later with past | within
            · rw [Nat.min_eq_right past.le] at next
              obtain ⟨v, again, cut⟩ := cutOff_of_waiting pauses.solo still limitedStill stage past rest
              rw [agent] at cut
              refine ⟨v.behind (going now l left e).calls, ?_, cut.behind timely⟩
              rw [alone_of_waiting n turn waiting next, again, Option.map_some]
            · rw [Nat.min_eq_left within] at next
              obtain ⟨v, again, cut⟩ := ih pauses.solo (.inl full_ne_zero) still limitedStill within rest
              rw [agent, pauses.kept, room_eq_of_early l.isSome early later] at cut
              refine ⟨v.behind (going now l left e).calls, ?_, cut.behind timely⟩
              rw [alone_of_waiting n turn waiting next, again, Option.map_some]

end Cut

end Execution

open CrewFlow.Agent.Execution (CutOff room)

/-- The time limit of an agent that has its limiter to itself only cuts off. It comes to the same end, with the same
requests at the same times, as without the limit, when that end is in time; else it ends exactly when its time is
up, with the requests that are answered until then. Only of those that are answered just then a rate-limited agent
leaves out what does not fit into the turn. -/
theorem time_limit_cuts_off {agent : Agent} {limit : Nat} (limited : agent.limits.maxTime = some limit)
    {l : Option (Limiter Unit)} (free : ∀ x ∈ l, x.Free) (extra : List Tool.LocalTool) (prompt : String)
    (now : Nat) (left : Allowance) :
    ∃ u v, execute agent.unlimited extra prompt now l left = some u ∧
      execute agent extra prompt now l left = some v ∧
      CutOff agent.role limit (now + limit) (room l.isSome now (now + limit) left) u v := by
  have ends : (execute agent.unlimited extra prompt now l left).isSome :=
    isSome_execute rfl free extra prompt now left
  obtain ⟨u, run⟩ := Option.isSome_iff_exists.mp ends
  have deadline : (Execution.start () agent extra prompt now).deadline = some (now + limit) := by
    rw [Execution.start, limited]
    rfl
  obtain ⟨v, ended, cut⟩ := Execution.cutOff_of_alone (e := Execution.start () agent extra prompt now) free
    (.inr rfl) deadline limited (Nat.le_add_right now limit) run
  exact ⟨u, v, run, ended, cut⟩

/-- An agent whose model answers after an hour, with a limit of five seconds and one of ten requests per minute. -/
def slow : Agent :=
  ⟨"Researcher", "g", "b", ⟨"slow", fun _ => ⟨3600000, .ok "Final Answer: late"⟩⟩, [], ⟨25, some 5000, some 10⟩,
    false⟩

theorem slow_cut_off :
    ∃ v, execute slow [] "go" 0 (limiter? Unit slow 0) .full = some v ∧ v.time = 5000 ∧
      v.result = .error (.timeout "Researcher" 5000) ∧ v.calls = [] := by
  have free : ∀ x ∈ limiter? Unit slow 0, x.Free := by
    intro x member
    cases member
    exact ⟨rfl, rfl⟩
  have unlimited : (execute slow.unlimited [] "go" 0 (limiter? Unit slow 0) .full).map
      (fun u => (u.time, u.calls.map (·.time))) = some (3600000, [3600000]) := by decide +kernel
  have cutOff : ∃ u v, execute slow.unlimited [] "go" 0 (limiter? Unit slow 0) .full = some u ∧
      execute slow [] "go" 0 (limiter? Unit slow 0) .full = some v ∧
      CutOff "Researcher" 5000 5000 (some 128) u v := time_limit_cuts_off rfl free [] "go" 0 .full
  obtain ⟨u, v, run, ended, cut⟩ := cutOff
  rw [run] at unlimited
  obtain ⟨time, times⟩ := Prod.mk.inj (Option.some.inj unlimited)
  have late : ¬u.InTime 5000 (some 128) := by
    rintro (early | ⟨last, -⟩) <;> omega
  obtain ⟨upAt, result, kept⟩ := cut.timedOut late
  obtain ⟨c, calls, answered⟩ := List.map_eq_singleton_iff.mp times
  refine ⟨v, ended, upAt, result, ?_⟩
  rw [kept]
  simp [Execution.Ending.within, Execution.Ending.atLast, calls, answered]

def echo : Tool.LocalTool := ⟨"echo", "", pure (.ok ()), fun v => pure (.ok v)⟩

def hurried : Agent :=
  ⟨"R", "g", "b", ⟨"quick", fun messages => ⟨if messages.length = 2 then 1000 else 0, .ok "x"⟩⟩, [echo],
    ⟨128, some 1000, some 1000⟩, false⟩

/-- An end just when the time is up need not be in time: the turn is spent on the first 128 of 129 requests. -/
theorem hurried_left_out :
    ¬∀ (agent : Agent) (limit : Nat) (l : Option (Limiter Unit)) (extra : List Tool.LocalTool) (prompt : String)
      (now : Nat) (u v : Execution.Ending Unit), agent.limits.maxTime = some limit → (∀ x ∈ l, x.Free) →
        execute agent.unlimited extra prompt now l .full = some u →
        execute agent extra prompt now l .full = some v →
        u.time ≤ now + limit → v.time = u.time ∧ v.result = u.result := by
  intro all
  have free : ∀ x ∈ limiter? Unit hurried 0, x.Free := by
    intro x member
    cases member
    exact ⟨rfl, rfl⟩
  have unlimited : (execute hurried.unlimited [] "p" 0 (limiter? Unit hurried 0) .full).map
      (fun u => (u.time, u.result.toOption)) = some (1000, some "x") := by decide +kernel
  have limited : (execute hurried [] "p" 0 (limiter? Unit hurried 0) .full).map
      (fun v => (v.time, v.result.toOption)) = some (1000, none) := by decide +kernel
  obtain ⟨u, run, same⟩ := Option.map_eq_some_iff.mp unlimited
  obtain ⟨v, ended, cut⟩ := Option.map_eq_some_iff.mp limited
  obtain ⟨time, answer⟩ := Prod.mk.inj same
  obtain ⟨-, noAnswer⟩ := Prod.mk.inj cut
  obtain ⟨-, result⟩ := all hurried 1000 _ [] "p" 0 u v rfl free run ended time.le
  rw [result, answer] at noAnswer
  cases noAnswer

end CrewFlow.Agent
