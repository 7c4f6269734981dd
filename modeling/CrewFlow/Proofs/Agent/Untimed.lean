import Mathlib
import CrewFlow.Agent.Execution
/-!
# Executions without a time limit

What an agent answers, when its time is not limited, is what the dialogue with its model comes to. How
long the model takes, for whom the limiter of the agent is open and where turns end make no difference.
-/
set_option autoImplicit false

namespace CrewFlow.Agent

open Rate (Allowance Limiter)
open Tool (LocalTool)

/-! ## Dialogues -/

namespace Dialogue

variable {d next : Dialogue Id} {reply : String}

theorem requestsLeft_of_again (again : (d.feed reply).run = .again next) :
    d.requestsLeft = next.requestsLeft + 1 := by
  have recorded : ∀ feedback, d.left ≠ 0 →
      d.requestsLeft = (d.record reply feedback).requestsLeft + 1 := by
    intro feedback more
    simp only [requestsLeft, record]
    omega
  unfold feed at again
  split at again
  · cases again
  · split at again
    · cases again
    · next more =>
        cases again
        exact recorded _ more
  · split at again
    · cases again
    · next more =>
        cases again
        exact recorded _ fun none_left => more (by simp [none_left])

theorem converse_succ (ask : List Message → Except String String) (n : Nat) (d : Dialogue Id) :
    (d.converse ask (n + 1)).run =
      match ask d.request with
      | .error cause => some (.error cause)
      | .ok reply =>
        match (d.feed reply).run with
        | .answer text => some (.ok text)
        | .again next => (next.converse ask n).run := by
  rw [converse, Id.run_bind]
  cases ask d.request with
  | error cause => rfl
  | ok reply =>
      simp only [Id.run, pure, bind]
      rcases d.feed reply with next | text
      · rfl
      · rfl

theorem isSome_converse (ask : List Message → Except String String) (d : Dialogue Id) :
    (d.converse ask d.requestsLeft).run.isSome := by
  induction count : d.requestsLeft generalizing d with
  | zero => cases count
  | succ n ih =>
      rw [converse_succ]
      split
      · rfl
      · split
        · rfl
        · next next again =>
            have fewer := requestsLeft_of_again again
            have same : next.requestsLeft = n := by omega
            exact same ▸ ih next same

/-- What a dialogue comes to. -/
def outcome (ask : List Message → Except String String) (d : Dialogue Id) : Except String String :=
  (d.converse ask d.requestsLeft).run.get (isSome_converse ask d)

theorem outcome_eq (ask : List Message → Except String String) (d : Dialogue Id) :
    d.outcome ask =
      match ask d.request with
      | .error cause => .error cause
      | .ok reply =>
        match (d.feed reply).run with
        | .answer text => .ok text
        | .again next => next.outcome ask := by
  apply Option.some.inj
  rw [outcome, Option.some_get, requestsLeft, converse_succ]
  cases ask d.request with
  | error cause => rfl
  | ok reply =>
      dsimp only
      cases turn : (d.feed reply).run with
      | answer text => rfl
      | again next =>
          have fewer := requestsLeft_of_again turn
          have same : d.left = next.requestsLeft := Nat.succ.inj fewer
          dsimp only
          rw [outcome, Option.some_get, same]

end Dialogue

/-- What a model replies, whenever it does. -/
def replies (agent : Agent) (messages : List Message) : Except String String :=
  (agent.model.respond messages).outcome

/-- The answer to which a dialogue with a model leads. -/
def settle (agent : Agent) (d : Dialogue Id) : Except String String :=
  (d.outcome agent.replies).mapError fun cause => (AgentError.model agent.role cause).message

/-- What an agent answers to a prompt. -/
def reply (agent : Agent) (extra : List LocalTool) (prompt : String) : Except String String :=
  agent.settle (Dialogue.start agent extra prompt)

/-! ## Executions -/

namespace Execution

variable {α : Type} [DecidableEq α] {e : Execution α} {now : Nat} {left : Allowance}
variable {answer : Except String String}

/-- The execution has no time limit, and leads to an answer. A request that has been made to the model is
that of its dialogue. -/
structure Leads (e : Execution α) (answer : Except String String) : Prop where
  patient : e.deadline = none
  toAnswer : e.agent.settle e.dialogue = answer
  called : ∀ ends outcome, e.stage = .calling ends outcome →
    outcome = e.agent.replies e.dialogue.request

omit [DecidableEq α] in
theorem leads_start {who : α} {agent : Agent} (extra : List LocalTool) (prompt : String)
    (patient : agent.limits.maxTime = none) :
    (start who agent extra prompt now).Leads (agent.reply extra prompt) := by
  refine ⟨?_, rfl, ?_⟩
  · rw [start, patient, Option.map_none]
  · intro ends outcome calling
    cases calling

omit [DecidableEq α] in
theorem Leads.withStage (leads : e.Leads answer) {stage : Stage}
    (called : ∀ ends outcome, stage = .calling ends outcome →
      outcome = e.agent.replies e.dialogue.request) : Leads { e with stage } answer :=
  ⟨leads.patient, leads.toAnswer, called⟩

omit [DecidableEq α] in
theorem stage_of_pass {l : Limiter α} {halt : Halt} (halted : (pass l now left).2 = some halt) :
    ∃ ends, halt.stage = .resting ends := by
  unfold pass at halted
  split at halted
  · cases halted
  · cases halted
    exact ⟨_, rfl⟩

theorem stage_of_enter {l : Limiter α} {halt : Halt} (halted : (enter l e now left).2.2 = some halt)
    {ends : Nat} {outcome : Except String String} (calling : halt.stage = .calling ends outcome) :
    e.stage = .calling ends outcome := by
  have unlocked : ∀ {lock lock' : Limiter α} {more count : Allowance},
      (if lock.holder = some e.who then (lock', count, (pass lock now more).2)
        else (lock, more + 1, some ⟨.queued, false⟩)).2.2 = some halt → False := by
    intro lock lock' more count stopped
    split at stopped
    · obtain ⟨ends', resting⟩ := stage_of_pass stopped
      cases resting.symm.trans calling
    · cases stopped
      cases calling
  cases left with
  | zero =>
      cases halted
      exact calling
  | succ more =>
      cases stage : e.stage with
      | arriving =>
          simp only [enter, stage] at halted
          exact (unlocked halted).elim
      | queued =>
          simp only [enter, stage] at halted
          exact (unlocked halted).elim
      | resting ends' =>
          simp only [enter, stage] at halted
          split at halted
          · cases halted
          · cases halted
            cases calling
      | calling ends' outcome' =>
          simp only [enter, stage] at halted
          cases halted
          exact calling

theorem stage_of_passLimiter {l : Option (Limiter α)} {halt : Halt}
    (halted : (passLimiter l e now left).2.2 = some halt) {ends : Nat}
    {outcome : Except String String} (calling : halt.stage = .calling ends outcome) :
    e.stage = .calling ends outcome := by
  cases l with
  | none => cases halted
  | some l => exact stage_of_enter halted calling

theorem request_eq_of_uncalled (l : Option (Limiter α))
    (uncalled : ∀ ends outcome, e.stage ≠ .calling ends outcome) :
    request l e now left =
      match passLimiter l e now left with
      | (l, left, some halt) => (l, left, { e with stage := halt.stage }, .stopped halt.isSpent)
      | (l, left, none) =>
        let a := e.agent.model.respond e.dialogue.request
        let e := { e with stage := .calling (now + a.delay) a.outcome }
        (l, left, e, if a.delay = 0 then .answered a.outcome else .stopped (left == 0)) := by
  unfold Execution.request
  split
  · next calling => exact absurd calling (uncalled _ _)
  · next calling => exact absurd calling (uncalled _ _)
  · rfl

/-- A request keeps to what the execution leads to. When it is answered, then by the model. -/
theorem Leads.request (leads : e.Leads answer) (l : Option (Limiter α)) (now : Nat)
    (left : Allowance) :
    (request l e now left).2.2.1.Leads answer ∧ (request l e now left).2.2.1.who = e.who ∧
      (request l e now left).2.2.1.agent = e.agent ∧
      ∀ outcome, (request l e now left).2.2.2 = .answered outcome →
        outcome = e.agent.replies (request l e now left).2.2.1.dialogue.request := by
  by_cases calls : ∃ ends outcome, e.stage = .calling ends outcome
  · obtain ⟨ends, outcome, calling⟩ := calls
    cases left with
    | zero =>
        simp only [Execution.request, calling]
        exact ⟨leads, by simp⟩
    | succ more =>
        simp only [Execution.request, calling]
        split
        · refine ⟨leads, rfl, rfl, ?_⟩
          intro outcome' answered
          cases answered
          exact leads.called ends outcome calling
        · exact ⟨leads, rfl, rfl, by simp⟩
  · rw [request_eq_of_uncalled l fun ends outcome calling => calls ⟨ends, outcome, calling⟩]
    split
    · next l' left' halt halted =>
        have stopped : (passLimiter l e now left).2.2 = some halt := by rw [halted]
        refine ⟨leads.withStage ?_, rfl, rfl, by simp⟩
        intro ends outcome calling
        exact leads.called ends outcome (stage_of_passLimiter stopped calling)
    · next l' left' halted =>
        refine ⟨leads.withStage ?_, rfl, rfl, ?_⟩
        · intro ends outcome calling
          cases calling
          rfl
        · intro outcome answered
          dsimp only at answered
          split at answered
          · cases answered
            rfl
          · cases answered

omit [DecidableEq α] in
theorem Leads.answered (leads : e.Leads answer) {outcome : Except String String}
    (model : outcome = e.agent.replies e.dialogue.request) :
    match e.answered outcome with
    | .inl result => result.mapError AgentError.message = answer
    | .inr next => next.Leads answer ∧ next.who = e.who ∧ next.agent = e.agent := by
  have toAnswer := leads.toAnswer
  rw [settle, Dialogue.outcome_eq, ← model] at toAnswer
  unfold Execution.answered
  cases outcome with
  | error cause => exact toAnswer
  | ok reply =>
      dsimp only at toAnswer ⊢
      cases turn : (e.dialogue.feed reply).run with
      | answer text =>
          rw [turn] at toAnswer
          exact toAnswer
      | again next =>
          rw [turn] at toAnswer
          refine ⟨⟨leads.patient, toAnswer, ?_⟩, rfl, rfl⟩
          intro ends outcome calling
          cases calling

/-- What an execution that leads to an answer comes to: it waits and still leads there, or it is the
answer. -/
def Arrives (e : Execution α) (answer : Except String String) : Outcome α → Prop
  | .waiting next _ => next.Leads answer ∧ next.who = e.who ∧ next.agent = e.agent
  | .finished result => result.mapError AgentError.message = answer

omit [DecidableEq α] in
theorem Arrives.of_eq {before : Execution α} {outcome : Outcome α} (who : e.who = before.who)
    (agent : e.agent = before.agent) (arrives : e.Arrives answer outcome) :
    before.Arrives answer outcome := by
  cases outcome with
  | waiting next isSpent =>
      obtain ⟨leads, sameWho, sameAgent⟩ := arrives
      exact ⟨leads, sameWho.trans who, sameAgent.trans agent⟩
  | finished result => exact arrives

theorem Leads.proceed (n : Nat) (leads : e.Leads answer) (l : Option (Limiter α)) (now : Nat)
    (left : Allowance) :
    e.Arrives answer (proceed now n l left e).outcome := by
  induction n generalizing e l left with
  | zero => exact ⟨leads, rfl, rfl⟩
  | succ n ih =>
      have asked := leads.request l now left
      unfold Execution.proceed
      split
      · next l' left' waiting isSpent reached =>
          rw [reached] at asked
          exact ⟨asked.1, asked.2.1, asked.2.2.1⟩
      · next l' left' waiting outcome reached =>
          rw [reached] at asked
          obtain ⟨still, who, agent, answered⟩ := asked
          have model : outcome = waiting.agent.replies waiting.dialogue.request := by
            rw [show waiting.agent = e.agent from agent]
            exact answered outcome rfl
          have turn := Leads.answered still model
          dsimp only
          split
          · next result ended =>
              rw [ended] at turn
              exact turn
          · next next goesOn =>
              rw [goesOn] at turn
              obtain ⟨leads, sameWho, sameAgent⟩ := turn
              exact (ih leads l' left').of_eq (sameWho.trans who) (sameAgent.trans agent)

/-- Without a time limit a turn goes on as far as it can. -/
theorem Leads.advance_eq (leads : e.Leads answer) (l : Option (Limiter α)) :
    Execution.advance now l left e = Execution.proceed now e.dialogue.requestsLeft l left e := by
  have arrives := leads.proceed e.dialogue.requestsLeft l now left
  unfold Execution.advance
  dsimp only
  split
  · rfl
  · next waiting isSpent outcome =>
      rw [outcome] at arrives
      have patient : waiting.isLate now = false := by
        rw [isLate, arrives.1.patient]
        rfl
      rw [if_neg (by simp [patient])]

theorem Leads.advance (leads : e.Leads answer) (l : Option (Limiter α)) :
    e.Arrives answer (advance now l left e).outcome := by
  rw [leads.advance_eq]
  exact leads.proceed e.dialogue.requestsLeft l now left

end Execution

end CrewFlow.Agent
