import Mathlib
import CrewFlow.Proofs.Agent.Turns
/-!
# Executions of their own

An execution that has the limiter of its agent to itself is never in the queue: it gets the lock when it asks,
and waits only for a window or for its model. What it waits for is still to come, unless its turn is spent, and
every turn brings it further, so it comes to its end.
-/
set_option autoImplicit false

namespace CrewFlow

namespace Rate.Limiter

variable {α : Type}

/-- Nobody has the lock, and nobody waits for it. -/
structure Free (l : Limiter α) : Prop where
  unheld : l.holder = none
  unawaited : l.queue = []

end Rate.Limiter

namespace Agent

open Rate (Allowance Limiter)

namespace Execution

variable {α : Type} [DecidableEq α] {l l' : Option (Limiter α)} {left left' : Nat}
variable {e e' : Execution α} {now : Nat}

/-! ## Where it stands -/

/-- An execution has the limiter to itself: it has the lock while it waits for a window, and else the lock is
free. -/
def Solo (l : Option (Limiter α)) (e : Execution α) : Prop :=
  match e.stage with
  | .queued => False
  | .resting _ => ∃ x, l = some x ∧ x.holder = some e.who ∧ x.queue = []
  | .arriving | .calling .. => ∀ x ∈ l, x.Free

def Ready (left : Nat) (e : Execution α) : Prop := left ≠ 0 ∨ e.stage = .arriving

def Due (now : Nat) (e : Execution α) : Prop := ∀ ends ∈ e.stage.ends?, ends ≤ now

def rank : Stage → Nat
  | .arriving | .queued => 3
  | .resting _ => 2
  | .calling .. => 1

def waits (e : Execution α) : Nat := 3 * e.dialogue.left + rank e.stage

/-- An execution stops: because its turn is spent before it could go to the limiter, after so many requests, or
because it waits for a time to come. -/
structure Pauses (now : Nat) (l : Option (Limiter α)) (left : Nat) (e : Execution α)
    (l' : Option (Limiter α)) (left' : Nat) (e' : Execution α) (isSpent : Bool) (made : Nat) : Prop where
  same : e' = { e with dialogue := e'.dialogue, stage := e'.stage }
  solo : Solo l' e'
  kept : l'.isSome = l.isSome
  within : left' ≤ left
  spent : isSpent = true ↔ left' = 0
  paid : waits e' + left ≤ waits e + left'
  moved : left ≠ 0 → Due now e → waits e' < waits e
  why : (e'.stage = .arriving ∧ isSpent = true ∧ l.isSome = true ∧ made = left) ∨
    ∃ ends, e'.stage.ends? = some ends ∧ now < ends

/-- A request is answered. Only without a limiter it may have cost nothing. -/
structure Replied (l : Option (Limiter α)) (left : Nat) (e : Execution α) (l' : Option (Limiter α))
    (left' : Nat) (e' : Execution α) : Prop where
  same : e' = { e with stage := e'.stage }
  free : ∀ x ∈ l', x.Free
  kept : l'.isSome = l.isSome
  within : left' ≤ left
  cost : left ≤ left' + 1
  counted : l.isSome = true → left = left' + 1

/-! ## At the limiter -/

theorem free_of_departed {who : α} {before after : Limiter α} (departed : Limiter.Departed who before after)
    (holds : before.holder = some who) (queue : before.queue = []) : after.Free := by
  have handed := departed.handed
  rw [queue, holds, List.length_nil] at handed
  refine ⟨?_, List.length_eq_zero_iff.mp (by omega)⟩
  cases holder : after.holder with
  | none => rfl
  | some next =>
      have other : next ≠ who := by
        rintro rfl
        exact departed.gone (Limiter.mem_line_of_holder holder)
      simp [holder, Rate.news, other] at handed

/-- The lock is free, so it is had at once. The request is counted, or has to wait for the end of the window. -/
theorem tryLock_ask {x : Limiter α} (free : x.Free) (e : Execution α) (now left : Nat) :
    (∃ after, tryLock (x.ask e.who) e now left = (after, left, none) ∧ after.Free) ∨
    ∃ after ends, tryLock (x.ask e.who) e now left = (after, left, some ⟨.resting ends, left == 0⟩) ∧
      now < ends ∧ after.holder = some e.who ∧ after.queue = [] := by
  have asked : x.ask e.who = { x with holder := some e.who } := by rw [Limiter.ask, free.unheld]
  have holds : (x.ask e.who).holder = some e.who := by rw [asked]
  have queue : (x.ask e.who).queue = [] := by
    rw [asked]
    exact free.unawaited
  have sound : (x.ask e.who).Sound := by
    refine ⟨fun _ => queue, ?_⟩
    simp [Limiter.line, holds, queue]
  rw [tryLock, if_pos holds, pass]
  rcases Limiter.pass_cases now sound holds with
    ⟨after, passed, departed⟩ | ⟨after, ends, full, later, _, still, same⟩
  · rw [passed]
    exact .inl ⟨after, rfl, free_of_departed departed holds queue⟩
  · rw [full]
    exact .inr ⟨after, ends, rfl, later, still, same.trans queue⟩

theorem free_reopen {x : Limiter α} {who : α} (holds : x.holder = some who) (queue : x.queue = []) (now : Nat) :
    (x.reopen now).Free := by
  have sound : x.Sound := by
    refine ⟨fun _ => queue, ?_⟩
    simp [Limiter.line, holds, queue]
  exact free_of_departed (Limiter.departed_release sound holds _) holds queue

/-! ## One request -/

def Goes (now : Nat) (l : Option (Limiter α)) (left : Nat) (e : Execution α) : Prop :=
  (∃ l' left' e' outcome, request l e now left = (l', left', e', .answered outcome) ∧
    Replied l left e l' left' e') ∨
  ∃ l' left' e' isSpent, request l e now left = (l', left', e', .stopped isSpent) ∧
    Pauses now l left e l' left' e' isSpent 0

theorem goes_of_passed (uncalled : ∀ ends outcome, e.stage ≠ .calling ends outcome)
    (passed : passLimiter l e now left = (l', left', none)) (free : ∀ x ∈ l', x.Free)
    (kept : l'.isSome = l.isSome) (within : left' ≤ left) (cost : left ≤ left' + 1)
    (counted : l.isSome = true → left = left' + 1) : Goes now l left e := by
  have early : 2 ≤ rank e.stage := by
    cases stage : e.stage with
    | calling ends outcome => exact absurd stage (uncalled ends outcome)
    | _ => simp [rank]
  unfold Goes
  rw [request_eq_of_uncalled l uncalled, passed]
  dsimp only
  by_cases atOnce : (e.agent.model.respond e.dialogue.request).delay = 0
  · rw [if_pos atOnce]
    exact .inl ⟨l', left', _, _, rfl, rfl, free, kept, within, cost, counted⟩
  · rw [if_neg atOnce]
    refine .inr ⟨l', left', _, _, rfl, rfl, free, kept, within, by simp, ?_, ?_, .inr ⟨_, rfl, ?_⟩⟩
    · change 3 * e.dialogue.left + 1 + left ≤ 3 * e.dialogue.left + rank e.stage + left'
      omega
    · intro _ _
      change 3 * e.dialogue.left + 1 < 3 * e.dialogue.left + rank e.stage
      omega
    · exact Nat.lt_add_of_pos_right (Nat.pos_of_ne_zero atOnce)

theorem goes_of_halted {halt : Halt} (uncalled : ∀ ends outcome, e.stage ≠ .calling ends outcome)
    (stopped : passLimiter l e now left = (l', left', some halt))
    (pauses : Pauses now l left e l' left' { e with stage := halt.stage } halt.isSpent 0) :
    Goes now l left e := by
  unfold Goes
  rw [request_eq_of_uncalled l uncalled, stopped]
  exact .inr ⟨l', left', _, _, rfl, pauses⟩

theorem goes_of_calling {ends : Nat} {outcome : Except String String} (stage : e.stage = .calling ends outcome)
    (solo : Solo l e) (more : left ≠ 0) : Goes now l left e := by
  have free : ∀ x ∈ l, x.Free := by simpa [Solo, stage] using solo
  unfold Goes
  cases left with
  | zero => exact absurd rfl more
  | succ left =>
      by_cases due : ends ≤ now
      · refine .inl ⟨l, left, e, outcome, ?_, rfl, free, rfl, Nat.le_succ left, le_rfl, fun _ => rfl⟩
        simp only [request, stage, if_pos due]
      · have early : now < ends := Nat.lt_of_not_le due
        refine .inr ⟨l, left + 1, e, false, ?_, rfl, solo, rfl, le_rfl, by simp, le_rfl, ?_, .inr ⟨ends, ?_, early⟩⟩
        · simp only [request, stage, if_neg due]
        · intro _ isDue
          exact absurd (isDue ends (by rw [stage]; rfl)) due
        · rw [stage]
          rfl

theorem goes_of_resting {ends : Nat} (stage : e.stage = .resting ends) (solo : Solo l e) (more : left ≠ 0) :
    Goes now l left e := by
  have uncalled : ∀ ends outcome, e.stage ≠ .calling ends outcome := by simp [stage]
  obtain ⟨x, rfl, holds, queue⟩ : ∃ x, l = some x ∧ x.holder = some e.who ∧ x.queue = [] := by
    simpa [Solo, stage] using solo
  cases left with
  | zero => exact absurd rfl more
  | succ left =>
      by_cases due : ends ≤ now
      · have passed : passLimiter (some x) e now (left + 1) = (some (x.reopen now), left, none) := by
          simp only [passLimiter, enter, stage, if_pos due]
        refine goes_of_passed uncalled passed ?_ rfl (Nat.le_succ left) le_rfl fun _ => rfl
        intro y same
        cases same
        exact free_reopen holds queue now
      · have early : now < ends := Nat.lt_of_not_le due
        have stopped : passLimiter (some x) e now (left + 1) =
            (some x, left + 1, some ⟨.resting ends, false⟩) := by
          simp only [passLimiter, enter, stage, if_neg due]
        refine goes_of_halted uncalled stopped
          ⟨rfl, ⟨x, rfl, holds, queue⟩, rfl, le_rfl, by simp, ?_, ?_, .inr ⟨ends, rfl, early⟩⟩
        · simp [waits, stage]
        · intro _ isDue
          exact absurd (isDue ends (by rw [stage]; rfl)) due

theorem goes_of_arriving (stage : e.stage = .arriving) (solo : Solo l e) : Goes now l left e := by
  have uncalled : ∀ ends outcome, e.stage ≠ .calling ends outcome := by simp [stage]
  have free : ∀ x ∈ l, x.Free := by simpa [Solo, stage] using solo
  cases l with
  | none => exact goes_of_passed uncalled rfl free rfl le_rfl (Nat.le_succ left) (by simp)
  | some x =>
      cases left with
      | zero =>
          have stopped : passLimiter (some x) e now 0 = (some x, 0, some ⟨e.stage, true⟩) := rfl
          exact goes_of_halted uncalled stopped
            ⟨rfl, solo, rfl, le_rfl, by simp, le_rfl, fun none => absurd rfl none, .inl ⟨stage, rfl, rfl, rfl⟩⟩
      | succ left =>
          rcases tryLock_ask (free x rfl) e now left with
            ⟨after, tried, free⟩ | ⟨after, ends, tried, later, holds, queue⟩
          · have passed : passLimiter (some x) e now (left + 1) = (some after, left, none) := by
              rw [passLimiter, enter_of_arriving stage, tried]
            refine goes_of_passed uncalled passed ?_ rfl (Nat.le_succ left) le_rfl fun _ => rfl
            intro y same
            cases same
            exact free
          · have stopped : passLimiter (some x) e now (left + 1) =
                (some after, left, some ⟨.resting ends, left == 0⟩) := by
              rw [passLimiter, enter_of_arriving stage, tried]
            refine goes_of_halted uncalled stopped
              ⟨rfl, ⟨after, rfl, holds, queue⟩, rfl, Nat.le_succ left, by simp, ?_, ?_, .inr ⟨ends, rfl, later⟩⟩
            · simp only [waits, stage, rank]
              omega
            · intro _ _
              simp only [waits, stage, rank]
              omega

theorem goes (now : Nat) (solo : Solo l e) (ready : Ready left e) : Goes now l left e := by
  cases stage : e.stage with
  | arriving => exact goes_of_arriving stage solo
  | queued => exact absurd solo (by simp [Solo, stage])
  | resting ends => exact goes_of_resting stage solo (ready.resolve_right (by simp [stage]))
  | calling ends outcome => exact goes_of_calling stage solo (ready.resolve_right (by simp [stage]))

/-! ## One turn -/

omit [DecidableEq α] in
theorem same_of_answered {outcome : Except String String} (again : e.answered outcome = .inr e') :
    e' = { e with dialogue := e'.dialogue, stage := .arriving } := by
  unfold answered at again
  split at again
  · cases again
  · split at again
    · cases again
    · cases again
      rfl

/-- What is known of a turn: its requests are answered at once, each at the cost of a wait where there is a
limiter, and when the execution does not end it has to stop. -/
structure Turned (now : Nat) (l : Option (Limiter α)) (left : Nat) (e : Execution α) (p : Progress α) : Prop where
  timely : ∀ c ∈ p.calls, c.time = now
  counted : l.isSome = true → p.calls.length + p.left ≤ left
  ended : ∀ result, p.outcome = .finished result → p.calls ≠ []
  paused : ∀ e' isSpent, p.outcome = .waiting e' isSpent →
    Pauses now l left e p.limiter p.left e' isSpent p.calls.length

omit [DecidableEq α] in
theorem Replied.next {e'' : Execution α} {outcome : Except String String} (replied : Replied l left e l' left' e')
    (again : e'.answered outcome = .inr e'') :
    Solo l' e'' ∧ e''.stage = .arriving ∧ e.dialogue.left = e''.dialogue.left + 1 := by
  obtain ⟨-, arriving, fewer⟩ := again_of_answered again
  refine ⟨?_, arriving, ?_⟩
  · rw [Solo, arriving]
    exact replied.free
  · rw [replied.same] at fewer
    exact fewer

omit [DecidableEq α] in
theorem Pauses.after {e'' next : Execution α} {l'' : Option (Limiter α)} {left'' made : Nat} {isSpent : Bool}
    {outcome : Except String String} (replied : Replied l left e l' left' e')
    (again : e'.answered outcome = .inr e'')
    (pauses : Pauses now l' left' e'' l'' left'' next isSpent made) :
    Pauses now l left e l'' left'' next isSpent (made + 1) := by
  have same := same_of_answered again
  obtain ⟨-, arriving, fewer⟩ := replied.next again
  have paidHere : waits e'' + 1 ≤ waits e := by
    have positive : 1 ≤ rank e.stage := by cases e.stage <;> simp [rank]
    rw [waits, waits, arriving, fewer]
    change 3 * e''.dialogue.left + 3 + 1 ≤ 3 * (e''.dialogue.left + 1) + rank e.stage
    omega
  have within := pauses.within
  have withinHere := replied.within
  have paid := pauses.paid
  have cost := replied.cost
  refine ⟨?_, pauses.solo, pauses.kept.trans replied.kept, within.trans withinHere, pauses.spent, ?_, ?_, ?_⟩
  · rw [pauses.same, same, replied.same]
  · omega
  · intro _ _
    omega
  · rcases pauses.why with ⟨stage, spent, limited, all⟩ | waits
    · have limitedHere : l.isSome = true := replied.kept ▸ limited
      have counted := replied.counted limitedHere
      exact .inl ⟨stage, spent, limitedHere, by omega⟩
    · exact .inr waits

theorem turned (n : Nat) (enough : e.dialogue.requestsLeft ≤ n) (solo : Solo l e) (ready : Ready left e) :
    Turned now l left e (proceed now n l left e) := by
  induction n generalizing e l left with
  | zero => cases enough
  | succ n ih =>
      rw [proceed]
      rcases goes now solo ready with
        ⟨l', left', e', outcome, reached, replied⟩ | ⟨l', left', e', isSpent, reached, pauses⟩
      · rw [reached]
        dsimp only
        cases turn : e'.answered outcome with
        | inl result =>
            dsimp only
            refine ⟨by simp [call], ?_, by simp, by simp⟩
            intro limited
            have counted := replied.counted limited
            simp only [List.length_singleton]
            omega
        | inr e'' =>
            obtain ⟨next, arriving, fewer⟩ := replied.next turn
            have fewerLeft : e''.dialogue.requestsLeft ≤ n := by
              rw [Dialogue.requestsLeft] at enough ⊢
              omega
            have rest : Turned now l' left' e'' _ := ih fewerLeft next (.inr arriving)
            refine ⟨?_, ?_, by simp, ?_⟩
            · intro c member
              rcases List.mem_cons.mp member with rfl | later
              · rfl
              · exact rest.timely c later
            · intro limited
              have counted := replied.counted limited
              have others := rest.counted (replied.kept.symm ▸ limited)
              simp only [List.length_cons]
              omega
            · intro next isSpent waits
              exact .after replied turn (rest.paused next isSpent waits)
      · rw [reached]
        refine ⟨by simp, ?_, by simp, ?_⟩
        · intro _
          simpa using pauses.within
        · intro next isSpent' waits
          cases waits
          exact pauses

def going (now : Nat) (l : Option (Limiter α)) (left : Allowance) (e : Execution α) : Progress α :=
  proceed now e.dialogue.requestsLeft l left e

theorem turned_going (now : Nat) (solo : Solo l e) (ready : Ready left e) : Turned now l left e (going now l left e) :=
  turned e.dialogue.requestsLeft le_rfl solo ready

/-- As long as its time is not up, an execution goes on as far as it can. -/
theorem advance_eq_going
    (early : ∀ e' isSpent, (going now l left e).outcome = .waiting e' isSpent → left = 0 ∨ e'.isLate now = false) :
    advance now l left e = going now l left e := by
  unfold advance
  dsimp only
  split
  · rfl
  · next e' isSpent outcome =>
      rw [if_neg]
      · rfl
      · rintro ⟨some, late⟩
        rcases early e' isSpent outcome with none | inTime
        · exact some none
        · cases late.symm.trans inTime

/-! ## All turns -/

def Ending.behind (calls : List Call) (u : Ending α) : Ending α := { u with calls := calls ++ u.calls }

def next? (now : Nat) (e : Execution α) (isSpent : Bool) : Option Nat :=
  if isSpent then some now else e.alarms.min?.map (max now)

theorem alone_of_finished {p : Progress α} {result : Except AgentError String} (n : Nat)
    (turn : advance now l left e = p) (finished : p.outcome = .finished result) :
    alone (n + 1) now l left e = some ⟨now, result, p.calls, p.limiter, p.left⟩ := by
  rw [alone, turn, finished]

theorem alone_of_waiting {p : Progress α} {isSpent : Bool} {later : Nat} (n : Nat)
    (turn : advance now l left e = p) (waiting : p.outcome = .waiting e' isSpent)
    (next : next? now e' isSpent = some later) :
    alone (n + 1) now l left e = (alone n later p.limiter .full e').map (Ending.behind p.calls) := by
  rw [alone, turn, waiting]
  dsimp only
  cases isSpent with
  | true =>
      cases next
      rw [if_pos rfl]
      change (alone n now p.limiter .full e').bind _ = _
      cases alone n now p.limiter .full e' <;> rfl
  | false =>
      change e'.alarms.min?.map (max now) = some later at next
      rw [if_neg Bool.false_ne_true, next]
      change (alone n later p.limiter .full e').bind _ = _
      cases alone n later p.limiter .full e' <;> rfl

omit [DecidableEq α] in
/-- The next turn of an execution without a time limit: at once when its turn is spent, else when its wait is
over. -/
theorem Pauses.next? {isSpent : Bool} {made : Nat} (pauses : Pauses now l left e l' left' e' isSpent made)
    (patient : e.deadline = none) :
    (isSpent = true ∧ e'.next? now isSpent = some now) ∨
    ∃ ends, isSpent = false ∧ e'.stage.ends? = some ends ∧ now < ends ∧ e'.next? now isSpent = some ends := by
  have still : e'.deadline = none := by
    rw [pauses.same]
    exact patient
  cases isSpent with
  | true => exact .inl ⟨rfl, rfl⟩
  | false =>
      rcases pauses.why with ⟨_, spent, _⟩ | ⟨ends, stage, later⟩
      · cases spent
      · refine .inr ⟨ends, rfl, stage, later, ?_⟩
        have latest : max now ends = ends := by omega
        simp [Execution.next?, alarms, stage, still, latest]

theorem advance_of_patient (now : Nat) (patient : e.deadline = none) (solo : Solo l e) (ready : Ready left e) :
    advance now l left e = going now l left e := by
  apply advance_eq_going
  intro e' isSpent waiting
  have still : e'.deadline = none := by
    rw [((turned_going now solo ready).paused e' isSpent waiting).same]
    exact patient
  right
  rw [isLate, still]
  rfl

theorem alone_cases {n : Nat} {u : Ending α} (patient : e.deadline = none) (solo : Solo l e) (ready : Ready left e)
    (run : alone (n + 1) now l left e = some u) :
    (∃ result, (going now l left e).outcome = .finished result ∧
      u = ⟨now, result, (going now l left e).calls, (going now l left e).limiter, (going now l left e).left⟩) ∨
    ∃ e' isSpent later u', (going now l left e).outcome = .waiting e' isSpent ∧
      (isSpent = true ∧ later = now ∨ isSpent = false ∧ e'.stage.ends? = some later ∧ now < later) ∧
      alone n later (going now l left e).limiter .full e' = some u' ∧ u = u'.behind (going now l left e).calls := by
  have turn := advance_of_patient now patient solo ready
  cases outcome : (going now l left e).outcome with
  | finished result =>
      rw [alone_of_finished n turn outcome] at run
      exact .inl ⟨result, rfl, (Option.some.inj run).symm⟩
  | waiting e' isSpent =>
      have pauses := (turned_going now solo ready).paused e' isSpent outcome
      rcases pauses.next? patient with ⟨spent, next⟩ | ⟨ends, unspent, stage, later, next⟩
      · rw [alone_of_waiting n turn outcome next] at run
        obtain ⟨u', rest, same⟩ := Option.map_eq_some_iff.mp run
        exact .inr ⟨e', isSpent, now, u', rfl, .inl ⟨spent, rfl⟩, rest, same.symm⟩
      · rw [alone_of_waiting n turn outcome next] at run
        obtain ⟨u', rest, same⟩ := Option.map_eq_some_iff.mp run
        exact .inr ⟨e', isSpent, ends, u', rfl, .inr ⟨unspent, stage, later⟩, rest, same.symm⟩

theorem full_ne_zero : Allowance.full ≠ 0 := by decide

/-- An execution without a time limit comes to its end, when it has a turn for each of its waits, and one more
where it is not due. -/
theorem isSome_alone (n : Nat) (patient : e.deadline = none) (solo : Solo l e)
    (enough : Due now e ∧ waits e < n ∨ waits e + 1 < n) : (alone n now l .full e).isSome := by
  induction n generalizing e l now with
  | zero => omega
  | succ n ih =>
      have ready : Ready Allowance.full e := .inl full_ne_zero
      have turn := advance_of_patient now patient solo ready
      have known := turned_going now solo ready
      cases outcome : (going now l .full e).outcome with
      | finished result =>
          rw [alone_of_finished n turn outcome]
          rfl
      | waiting e' isSpent =>
          have pauses := known.paused e' isSpent outcome
          have still : e'.deadline = none := by
            rw [pauses.same]
            exact patient
          have paid := pauses.paid
          have within := pauses.within
          rcases pauses.next? patient with ⟨spent, next⟩ | ⟨ends, -, stage, later, next⟩
          · rw [alone_of_waiting n turn outcome next, Option.isSome_map]
            apply ih still pauses.solo
            -- a turn that is spent has seen the ends of more waits than two
            have used := pauses.spent.mp spent
            simp only [Allowance.full] at paid used
            right
            omega
          · rw [alone_of_waiting n turn outcome next, Option.isSome_map]
            have due : Due ends e' := by
              intro ends' same
              rw [stage] at same
              cases same
              exact le_rfl
            apply ih still pauses.solo
            left
            refine ⟨due, ?_⟩
            rcases enough with ⟨isDue, enough⟩ | enough
            · have moved := pauses.moved full_ne_zero isDue
              omega
            · omega

theorem isSome_alone_of_arriving (n : Nat) (patient : e.deadline = none) (solo : Solo l e)
    (arriving : e.stage = .arriving) (enough : waits e + 2 < n) : (alone n now l left e).isSome := by
  cases n with
  | zero => omega
  | succ n =>
      have ready : Ready left e := .inr arriving
      have turn := advance_of_patient now patient solo ready
      have known := turned_going now solo ready
      cases outcome : (going now l left e).outcome with
      | finished result =>
          rw [alone_of_finished n turn outcome]
          rfl
      | waiting e' isSpent =>
          have pauses := known.paused e' isSpent outcome
          have still : e'.deadline = none := by
            rw [pauses.same]
            exact patient
          have paid := pauses.paid
          have within := pauses.within
          rcases pauses.next? patient with ⟨-, next⟩ | ⟨ends, -, -, -, next⟩
          · rw [alone_of_waiting n turn outcome next, Option.isSome_map]
            exact isSome_alone n still pauses.solo (.inr (by omega))
          · rw [alone_of_waiting n turn outcome next, Option.isSome_map]
            exact isSome_alone n still pauses.solo (.inr (by omega))

end Execution

/-- An agent without a time limit that has its limiter to itself comes to an answer, or learns that its model
fails. -/
theorem isSome_execute {agent : Agent} {l : Option (Limiter Unit)} (patient : agent.limits.maxTime = none)
    (free : ∀ x ∈ l, x.Free) (extra : List Tool.LocalTool) (prompt : String) (now : Nat) (left : Allowance) :
    (execute agent extra prompt now l left).isSome := by
  apply Execution.isSome_alone_of_arriving
  · rw [Execution.start, patient]
    rfl
  · exact free
  · rfl
  · change 3 * agent.limits.maxIter + 3 + 2 < turns agent
    rw [turns]
    omega

end Agent

end CrewFlow
