import CrewFlow.Agent.Execution
import CrewFlow.Crew.Kickoff
/-!
# Timelines

Crews side by side in time. Turns are taken by the main lines of the crews, which move together, and by
each job. Nobody is woken before the thing that they wait for has happened: the end of a request or of a
window, the end of a job, the lock of a limiter, the end of their time. Those who are awake move in the
order in which they were woken, but main lines may have a rank of their own and come before jobs. A mover
whose turn is spent is woken when the others have moved. When nobody is awake, time goes on to the next
alarm. The jobs of a crew that is over are woken once more, to be dismissed.
-/
namespace CrewFlow.Crew

open Agent (Call Execution)
open Rate (Allowance Limiter)
open Text (Inputs)

/-- Who waits for things: the main line of a crew, or one of its jobs. -/
inductive Actor where
  | main (crew : Nat)
  | job (crew j : Nat)
  deriving DecidableEq, Repr

/-- Who takes turns: the main lines of all crews together, or a job. -/
inductive Mover where
  | mains
  | job (crew j : Nat)
  deriving DecidableEq, Repr

def Actor.mover : Actor → Mover
  | .main _ => .mains
  | .job c j => .job c j

/-- When the main lines move: ahead of the jobs that are awake, or in line with them. -/
inductive Rank where
  | ahead
  | inLine
  deriving DecidableEq, Repr

abbrev Limiters := List (String × Limiter Actor)

def Limiters.ofAgents (agents : List Agent) (now : Nat) : Limiters :=
  agents.reverse.filterMap fun a => (Agent.limiter? Actor a now).map fun l => (a.role, l)

/-- Crews at some time, in a turn with an allowance. `awaited` tells who waits for which job, `noticed`
the jobs whose end somebody has found, `ready` who is awake, `mainReady` that main lines ahead of the
jobs are, and `spent` whose turn has been spent, the last one first. -/
structure Timeline where
  now : Nat
  rank : Rank
  left : Allowance
  kickoffs : List Kickoff
  limiters : Limiters
  executions : List (Execution Actor)
  alarms : List (Nat × Actor)
  awaited : List (Actor × Actor)
  noticed : List Actor
  ready : List Mover
  mainReady : Bool
  spent : List Mover
  calls : List Call

namespace Timeline

def start (crews : List Crew) (inputs : Inputs) (now : Nat) (limiters : Limiters) (rank : Rank)
    (left : Allowance) : Timeline :=
  { now, rank, left, limiters
    kickoffs := crews.map fun c => Kickoff.start c inputs
    executions := []
    alarms := []
    awaited := []
    noticed := []
    ready := []
    mainReady := false
    spent := []
    calls := [] }

def rouse (t : Timeline) (m : Mover) : Timeline :=
  if m = .mains ∧ t.rank = .ahead then { t with mainReady := true }
  else if t.ready.contains m then t
  else { t with ready := t.ready ++ [m] }

def wake (t : Timeline) (a : Actor) : Timeline := t.rouse a.mover

def exhaust (t : Timeline) (m : Mover) : Timeline := { t with spent := m :: t.spent }

def renew (t : Timeline) : Timeline := t.spent.foldl rouse { t with spent := [] }

def wakeAll (t : Timeline) (actors : List Actor) : Timeline := actors.foldl wake t

def await (t : Timeline) (job who : Actor) : Timeline :=
  if t.awaited.contains (job, who) then t else { t with awaited := t.awaited ++ [(job, who)] }

def wakeAwaiting (t : Timeline) (job : Actor) : Timeline :=
  let woken := (t.awaited.filter fun w => w.1 = job).map (·.2)
  { t with awaited := t.awaited.filter fun w => w.1 ≠ job }.wakeAll woken

/-- Writes a limiter back, and wakes the client who got its lock from another. -/
def putLimiter (t : Timeline) (role : String) (before after : Limiter Actor) : Timeline :=
  let t := { t with limiters := t.limiters.map fun e => if e.1 = role then (role, after) else e }
  -- A holder that stays is going on already, or rests until its own alarm.
  match after.holder with
  | some who => if before.holder = some who then t else t.wake who
  | none => t

/-- Ends what an actor does: its execution, its alarms and its place at a limiter. -/
def dismiss (t : Timeline) (who : Actor) : Timeline :=
  -- It may hold the lock, and then the next client is woken.
  let t := match t.executions.find? fun e => e.who = who with
    | none => t
    | some e =>
      match t.limiters.lookup e.agent.role with
      | some l => t.putLimiter e.agent.role l (l.withdraw who)
      | none => t
  { t with
    executions := t.executions.filter fun e => e.who ≠ who
    alarms := t.alarms.filter fun a => a.2 ≠ who
    awaited := t.awaited.filter fun w => w.2 ≠ who }

def putKickoff (t : Timeline) (c : Nat) (k : Kickoff) : Timeline :=
  { t with kickoffs := t.kickoffs.set c k }

/-- Writes the kickoff of a crew back after its main line has moved: new jobs are woken, and when the
run is over all its open jobs are. -/
def afterMain (t : Timeline) (c : Nat) (before after : Kickoff) : Timeline :=
  let woken :=
    if after.result?.isSome then after.openJobs
    else List.range' before.jobs.length (after.jobs.length - before.jobs.length)
  (t.putKickoff c after).wakeAll (woken.map (Actor.job c))

/-- Writes the kickoff of a crew back after a job has moved, and wakes those who wait for the job when
it is over. -/
def afterJob (t : Timeline) (c j : Nat) (after : Kickoff) : Timeline :=
  let t := t.putKickoff c after
  if (after.jobResult? j).isSome then t.wakeAwaiting (.job c j) else t

/-- Looks for the end of a job. Whoever finds it first has waited for it; none when the turn is spent
before. -/
def look (t : Timeline) (c : Nat) (k : Kickoff) (j : Nat) : Option Timeline :=
  if t.noticed.contains (.job c j) then some t
  else
    match t.left, k.jobResult? j with
    | 0, _ => none
    | left + 1, some _ => some { t with left, noticed := .job c j :: t.noticed }
    | _ + 1, none => some t

def lookFor (t : Timeline) (c : Nat) (k : Kickoff) : Option Nat → Option Timeline
  | some j => t.look c k j
  | none => some t

/-- Lets an actor go on with its work, which it begins if it has not yet; `some` is the answer. -/
def work (t : Timeline) (who : Actor) (w : Work) : Timeline × Option (Except String String) :=
  let begun := t.executions.find? fun e => e.who = who
  let e := begun.getD (Execution.start who w.agent w.task.tools w.prompt t.now)
  let role := w.agent.role
  let before := t.limiters.lookup role
  let p := e.advance t.now before t.left
  let others := t.executions.filter fun e => e.who ≠ who
  let t := { t with calls := t.calls ++ p.calls, left := p.left }
  let t := match before, p.limiter with
    | some before, some after => t.putLimiter role before after
    | _, _ => t
  match p.outcome with
  | .finished result =>
    ({ t with executions := others, alarms := t.alarms.filter fun a => a.2 ≠ who },
      some (result.mapError (·.message)))
  | .waiting e' isSpent =>
    -- The deadline of an execution stays the same; it must not be set again at every turn.
    let known := (begun.map Execution.alarms).getD []
    let news := e'.alarms.filter fun time => !known.contains time
    let t := { t with
      executions := others ++ [e']
      alarms := t.alarms ++ news.map fun time => (time, who) }
    (if isSpent then t.exhaust who.mover else t, none)

def pollMain (c : Nat) : Nat → Timeline → Timeline
  | 0, t => t
  | n + 1, t =>
    match t.kickoffs[c]? with
    | none => t
    | some k =>
      -- Finding the end of a job takes something of the turn, so it is looked for before the move.
      match t.lookFor c k k.mainAwaits? with
      | none => t.exhaust .mains
      | some t =>
        match k.moveMain with
        | some after => pollMain c n (t.afterMain c k after)
        | none =>
          match k.mainWork?, k.mainAwaits? with
          | some w, _ =>
            match t.work (.main c) w with
            | (t, some answer) => pollMain c n (t.afterMain c k (k.answerMain answer))
            | (t, none) => t
          | none, some j => t.await (.job c j) (.main c)
          | none, none => t

def pollJob (c j : Nat) : Nat → Timeline → Timeline
  | 0, t => t
  | n + 1, t =>
    match t.kickoffs[c]? with
    | none => t
    | some k =>
      match t.lookFor c k (k.jobAwaits? j) with
      | none => t.exhaust (.job c j)
      | some t =>
        match k.moveJob j with
        | some after => pollJob c j n (t.afterJob c j after)
        | none =>
          match k.jobWork? j, k.jobAwaits? j with
          | some w, _ =>
            match t.work (.job c j) w with
            | (t, some answer) => pollJob c j n (t.afterJob c j (k.answerJob j answer))
            | (t, none) => t
          | none, some other => t.await (.job c other) (.job c j)
          | none, none => t

/-- More moves than a crew can make without waiting. -/
def crewMoves (c : Crew) : Nat :=
  let links := c.tasks.foldr (fun task n => task.context.length + n) 0
  (c.tasks.length + 2) * (2 * c.tasks.length + links + 8)

/-- More moves than any crew can make without waiting. -/
def moveBound (t : Timeline) : Nat := t.kickoffs.foldr (fun k n => crewMoves k.crew + n) 0

def pollMains (t : Timeline) : Timeline :=
  (List.range t.kickoffs.length).foldl (fun t c => t.pollMain c t.moveBound) t

def isCrewOver (t : Timeline) (c : Nat) : Bool := (t.kickoffs[c]?).all fun k => k.result?.isSome

/-- Gives a mover a turn. A job of a crew that is over is dismissed in it. -/
def poll (t : Timeline) (m : Mover) : Timeline :=
  let t := { t with left := .full }
  match m with
  | .mains => t.pollMains
  | .job c j => if t.isCrewOver c then t.dismiss (.job c j) else t.pollJob c j t.moveBound

def isOver (t : Timeline) : Bool := t.kickoffs.all fun k => k.result?.isSome

/-- Gives turns in the order in which movers were woken, up to a number of them and until all crews are
over. -/
def drain : Nat → Timeline → Timeline
  | 0, t => t
  | n + 1, t =>
    match t.ready with
    | [] => t
    | m :: rest =>
      let t := { t with ready := rest }.poll m
      if t.isOver then t else drain n t

def isAwake (t : Timeline) : Bool := t.mainReady || !t.ready.isEmpty

def nextAlarm? (t : Timeline) : Option Nat := (t.alarms.map (·.1)).min?

def goTo (t : Timeline) (time : Nat) : Timeline :=
  let due : List (Nat × Actor) := t.alarms.filter fun a => a.1 ≤ time
  let later : List (Nat × Actor) := t.alarms.filter fun a => time < a.1
  wakeAll { t with now := max t.now time, alarms := later } (due.map fun a => a.2)

/-- How many turns others get before main lines ahead of them do. -/
def turnsBetween : Nat := 61

def moveAhead (t : Timeline) : Timeline :=
  if t.mainReady then { t with mainReady := false }.poll .mains else t

/-- Runs until all crews are over or nobody can move, up to a number of rounds. -/
def run : Nat → Timeline → Timeline
  | 0, t => t
  | n + 1, t =>
    let t := t.moveAhead
    if t.isOver then t
    else
      let t := t.drain turnsBetween
      if t.isOver then t
      else
        -- No time passes while somebody whose turn was spent can still go on.
        let t := t.renew
        if t.isAwake then run n t
        else
          match t.nextAlarm? with
          | some time => run n (t.goTo time)
          | none => t

def clear (t : Timeline) : Timeline :=
  t.kickoffs.zipIdx.foldl (fun t (k, c) => k.openJobs.foldl (fun t j => t.dismiss (.job c j)) t) t

end Timeline

/-- More rounds than a crew can take: for every task as many as its agent may have to wait, and as many
as there are tasks to wait for. -/
def roundBound (c : Crew) : Nat :=
  let turns := (c.agents ++ c.manager.toList).foldr (fun a n => Agent.turns a + n) 0
  let links := c.tasks.foldr (fun task n => task.context.length + n) 0
  (c.tasks.length + 1) * (turns + 2 * c.tasks.length + links + 8)

/-- What runs of crews came to: the outcomes in the order of the crews, the time at the end, the
limiters, what is left of the last turn and the answered requests. -/
structure Ending where
  outcomes : List (Except ExecutionError CrewOutput)
  now : Nat
  limiters : Limiters
  left : Allowance
  calls : List Call

/-- Runs crews side by side from a turn at some time on. -/
def runAll (crews : List Crew) (inputs : Inputs) (now : Nat) (limiters : Limiters) (rank : Rank)
    (left : Allowance) : Option Ending := do
  let rounds := crews.foldr (fun c n => roundBound c + n) 1
  let t := (Timeline.start crews inputs now limiters rank left).pollMains.run rounds
  let outcomes ← t.kickoffs.mapM Kickoff.result?
  return ⟨outcomes, t.now, t.clear.limiters, t.left, t.calls⟩

end CrewFlow.Crew
