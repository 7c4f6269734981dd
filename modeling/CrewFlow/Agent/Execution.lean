import CrewFlow.Agent.Dialogue
import CrewFlow.Rate.Allowance
import CrewFlow.Rate.Limiter
/-!
# Executions in time

An execution is a dialogue that takes time: each request first passes the limiter of the agent, if it
has one, and then takes as long as the model does. It goes on until it has to wait or its turn is spent,
and when its time is up it ends. One that would end just when its time is up is in time, unless it needs
another turn.
-/
namespace CrewFlow.Agent

open Rate (Allowance Limiter)

/-- A request that has been answered, with the time at which it was. -/
structure Call where
  model : String
  time : Nat
  messages : List Message
  outcome : Except String String

/-- Where an execution stands with its next request. -/
inductive Stage where
  | arriving
  | queued
  | resting (ends : Nat)
  | calling (ends : Nat) (outcome : Except String String)

/-- The time at which a stage is over, if it ends by itself. -/
def Stage.ends? : Stage → Option Nat
  | .resting ends => some ends
  | .calling ends _ => some ends
  | _ => none

/-- An agent at work on a prompt, on behalf of a client of its limiter. -/
structure Execution (α : Type) where
  who : α
  agent : Agent
  dialogue : Dialogue Id
  stage : Stage
  deadline : Option Nat

/-- What an execution comes to in a turn. `isSpent` says that it waits for the next turn. -/
inductive Outcome (α : Type) where
  | waiting (e : Execution α) (isSpent : Bool)
  | finished (result : Except AgentError String)

/-- The limiter and the allowance after an execution has gone on, the requests that were answered and
what it came to. -/
structure Progress (α : Type) where
  limiter : Option (Limiter α)
  left : Allowance
  calls : List Call
  outcome : Outcome α

namespace Execution

variable {α : Type} [DecidableEq α]

def start (who : α) (agent : Agent) (extra : List Tool.LocalTool) (prompt : String) (now : Nat) :
    Execution α :=
  ⟨who, agent, Dialogue.start agent extra prompt, .arriving, agent.limits.maxTime.map (now + ·)⟩

/-! ## One request -/

/-- Where a request has to stop: in which stage, and whether only because the turn is spent. -/
structure Halt where
  stage : Stage
  isSpent : Bool

/-- The holder of the lock tries the window. It has to stop when the window is full. -/
def pass (l : Limiter α) (now : Nat) (left : Allowance) : Limiter α × Option Halt :=
  match l.pass now with
  | (l, none) => (l, none)
  | (l, some ends) => (l, some ⟨.resting ends, left == 0⟩)

/-- Goes to the limiter with a request. Getting the lock is the end of a wait, and so is the end of a
window. -/
def enter (l : Limiter α) (e : Execution α) (now : Nat) :
    Allowance → Limiter α × Allowance × Option Halt
  -- With the turn spent the lock is not even asked for, and no place in its queue is taken.
  | 0 => (l, 0, some ⟨e.stage, true⟩)
  | left + 1 =>
    let take (l : Limiter α) : Limiter α × Allowance × Option Halt :=
      if l.holder = some e.who then
        let (l, halt) := pass l now left
        (l, left, halt)
      else (l, left + 1, some ⟨.queued, false⟩)
    match e.stage with
    | .arriving => take (l.ask e.who)
    | .queued => take l
    | .resting ends =>
      if ends ≤ now then (l.reopen now, left, none) else (l, left + 1, some ⟨.resting ends, false⟩)
    | .calling ends outcome => (l, left + 1, some ⟨.calling ends outcome, false⟩)

def passLimiter (l : Option (Limiter α)) (e : Execution α) (now : Nat) (left : Allowance) :
    Option (Limiter α) × Allowance × Option Halt :=
  match l with
  | none => (none, left, none)
  | some l =>
    let (l, left, halt) := enter l e now left
    (some l, left, halt)

def answered (e : Execution α) (outcome : Except String String) :
    Except AgentError String ⊕ Execution α :=
  match outcome with
  | .error cause => .inl (.error (.model e.agent.role cause))
  | .ok reply =>
    match (e.dialogue.feed reply).run with
    | .answer text => .inl (.ok text)
    | .again d => .inr { e with dialogue := d, stage := .arriving }

/-- How far a request comes: it is answered, or it has to stop. -/
inductive Reach where
  | answered (outcome : Except String String)
  | stopped (isSpent : Bool)

/-- Takes up the next request as far as it can: the limiter, then the model. A model that takes time is
waited for. -/
def request (l : Option (Limiter α)) (e : Execution α) (now : Nat) (left : Allowance) :
    Option (Limiter α) × Allowance × Execution α × Reach :=
  match e.stage, left with
  | .calling .., 0 => (l, 0, e, .stopped true)
  | .calling ends outcome, left + 1 =>
    if ends ≤ now then (l, left, e, .answered outcome) else (l, left + 1, e, .stopped false)
  -- Without a limiter the request is sent whatever is left of the turn.
  | _, _ =>
    match passLimiter l e now left with
    | (l, left, some halt) => (l, left, { e with stage := halt.stage }, .stopped halt.isSpent)
    | (l, left, none) =>
      let a := e.agent.model.respond e.dialogue.request
      let e := { e with stage := .calling (now + a.delay) a.outcome }
      (l, left, e, if a.delay = 0 then .answered a.outcome else .stopped (left == 0))

def call (e : Execution α) (now : Nat) (outcome : Except String String) : Call :=
  ⟨e.agent.model.name, now, e.dialogue.request, outcome⟩

/-! ## One turn -/

def proceed (now : Nat) : Nat → Option (Limiter α) → Allowance → Execution α → Progress α
  | 0, l, left, e => ⟨l, left, [], .waiting e false⟩
  | n + 1, l, left, e =>
    match request l e now left with
    | (l, left, e, .stopped isSpent) => ⟨l, left, [], .waiting e isSpent⟩
    | (l, left, e, .answered outcome) =>
      let call := e.call now outcome
      match e.answered outcome with
      | .inl result => ⟨l, left, [call], .finished result⟩
      | .inr e =>
        let rest := proceed now n l left e
        { rest with calls := call :: rest.calls }

def isLate (e : Execution α) (now : Nat) : Bool := e.deadline.any (· ≤ now)

/-- Goes on until it has to stop, or ends when its time is up. That is not looked at in a turn that is
spent from the beginning; else it is, also when the turn has been spent in the meantime. -/
def advance (now : Nat) (l : Option (Limiter α)) (left : Allowance) (e : Execution α) : Progress α :=
  let p := proceed now e.dialogue.requestsLeft l left e
  match p.outcome with
  | .finished _ => p
  | .waiting waiting _ =>
    if left ≠ 0 ∧ waiting.isLate now then
      { p with
        limiter := p.limiter.map (·.withdraw e.who)
        -- To see that the time is up is the end of a wait, too.
        left := p.left - 1
        outcome := .finished (.error (.timeout e.agent.role (e.agent.limits.maxTime.getD 0))) }
    else p

/-- The times at which a waiting execution goes on by itself: when its stage is over, and when its
time is up. -/
def alarms (e : Execution α) : List Nat := e.stage.ends?.toList ++ e.deadline.toList

/-! ## All turns -/

/-- How an execution of its own ended: when, what with, its requests, the limiter and what is left of
its last turn. -/
structure Ending (α : Type) where
  time : Nat
  result : Except AgentError String
  calls : List Call
  limiter : Option (Limiter α)
  left : Allowance

/-- An execution of its own, from a turn at some time to its end. The count is how many turns it may
take. -/
def alone : Nat → Nat → Option (Limiter α) → Allowance → Execution α → Option (Ending α)
  | 0, _, _, _, _ => none
  | n + 1, now, l, left, e =>
    let p := e.advance now l left
    match p.outcome with
    | .finished result => some ⟨now, result, p.calls, p.limiter, p.left⟩
    | .waiting waiting isSpent => do
      -- A turn that was spent is followed by the next one at once.
      let next ← if isSpent then some now else waiting.alarms.min?.map (max now)
      let rest ← alone n next p.limiter .full waiting
      return { rest with calls := p.calls ++ rest.calls }

end Execution

/-- How many turns an execution may take: one for each wait, for the limiter, a window and the model at
every request, and one more where a turn has been spent. -/
def turns (agent : Agent) : Nat := 4 * (agent.limits.maxIter + 1) + 2

def limiter? (α : Type) [DecidableEq α] (agent : Agent) (now : Nat) : Option (Limiter α) :=
  agent.limits.maxRpm.map fun most => Limiter.start most now

/-- Lets an agent work on a prompt with nothing else going on. -/
def execute (agent : Agent) (extra : List Tool.LocalTool) (prompt : String) (now : Nat)
    (l : Option (Limiter Unit)) (left : Allowance) : Option (Execution.Ending Unit) :=
  (Execution.start () agent extra prompt now).alone (turns agent) now l left

end CrewFlow.Agent
