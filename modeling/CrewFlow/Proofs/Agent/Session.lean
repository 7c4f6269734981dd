import Mathlib
import CrewFlow.Proofs.Agent.Untimed
/-!
# Sessions

A session is the dialogue of an agent with its model, watched: every request and every call of a tool is noted
when it happens, and what a tool returns may depend on all that has happened before. A session is a number of
rounds, each of which asks for a tool or for advice, and one more request, whose reply ends it.
-/
set_option autoImplicit false

namespace CrewFlow.Agent

open Json (Value)
open Tool (Capability ToolError)

/-! ## Watching -/

/-- A request that has been answered, or a call of the tool at some place. -/
inductive Event where
  | asked (messages : List Message) (outcome : Except String String)
  | invoked (place : Nat) (input : Value)

abbrev History := List Event

/-- A tool that may return anything on each of its calls. -/
structure Device where
  name : String
  description : String
  respond : History → Value → Except ToolError Value

/-- A tool whose calls are noted with its place. -/
def Device.watched (d : Device) (place : Nat) : Capability (StateM History) where
  name := d.name
  description := d.description
  validate := pure (.ok ())
  invoke input := do
    let before ← get
    set (before ++ [.invoked place input])
    return d.respond before input

/-- Tools, each with its place. -/
def watch (devices : List Device) : List (Capability (StateM History)) :=
  devices.mapIdx fun place d => d.watched place

theorem isEmpty_watch (devices : List Device) : (watch devices).isEmpty = devices.isEmpty := by
  cases devices with
  | nil => rfl
  | cons d devices => simp [watch]

/-- The model of an agent, whose requests are noted. -/
def ask (agent : Agent) (messages : List Message) : StateM History (Except String String) := do
  modify (· ++ [.asked messages (agent.replies messages)])
  return agent.replies messages

/-- The dialogue of an agent that has some tools, with all that happens in it. -/
def session (agent : Agent) (devices : List Device) (prompt : String) :
    Option (Except String String) × History :=
  (Dialogue.converse agent.ask (agent.limits.maxIter + 1) (.equipped agent (watch devices) prompt)).run []

/-! ## Rounds -/

/-- A tool is the first of its name. -/
structure Picks (devices : List Device) (name : String) (place : Nat) (d : Device) : Prop where
  there : devices[place]? = some d
  named : d.name = name
  first : ∀ j < place, ∀ other, devices[j]? = some other → other.name ≠ name

/-- A request whose reply does not end the session: the tool that it calls, if it does, and what the model is told. -/
structure Round where
  request : List Message
  reply : String
  call : Option (Nat × Value)
  feedback : String

namespace Round

/-- What a round adds to the messages. -/
def notes (r : Round) : List Message := [⟨.assistant, r.reply⟩, ⟨.user, r.feedback⟩]

/-- What happens in a round. -/
def events (r : Round) : History :=
  .asked r.request (.ok r.reply) :: r.call.toList.map fun c => .invoked c.1 c.2

/-- A reply that names a tool calls it, once, and its result is told or how it failed. Where it names none that
exists, or cannot be read though there are tools, nothing is called. -/
def Follows (devices : List Device) (before : History) (r : Round) : Prop :=
  match Reply.read r.reply with
  | .ok (.finish ..) => False
  | .ok (.action _ tool input) =>
    (∃ place d, Picks devices tool place d ∧ r.call = some (place, toolInput input) ∧
      r.feedback = "Observation: " ++ resultText tool
        (d.respond (before ++ [.asked r.request (.ok r.reply)]) (toolInput input))) ∨
    ((∀ d ∈ devices, d.name ≠ tool) ∧ r.call = none ∧
      r.feedback = "Observation: " ++ missingText (watch devices) tool)
  | .error fault => devices ≠ [] ∧ r.call = none ∧ r.feedback = fault.advice

end Round

/-- The reply that ends a session, and its answer: a final answer, or as it stands when it is the last that there
may be, or when it cannot be read and there are no tools. -/
def Settles (devices : List Device) (isLast : Prop) (reply text : String) : Prop :=
  match Reply.read reply with
  | .ok (.finish _ output) => text = output
  | .ok (.action ..) => isLast ∧ text = Text.trim reply
  | .error _ => (isLast ∨ devices = []) ∧ text = Text.trim reply

/-- The end of a session: the answer that its last reply settles, or the failure of the model. -/
def Concludes (devices : List Device) (isLast : Prop) (outcome answer : Except String String) : Prop :=
  match outcome with
  | .error cause => answer = .error cause
  | .ok reply => ∃ text, answer = .ok text ∧ Settles devices isLast reply text

/-! ## One reply -/

section Feed
variable {devices : List Device} {d : Dialogue (StateM History)} {reply : String} {before : History}

theorem getElem?_watch (devices : List Device) (place : Nat) :
    (watch devices)[place]? = devices[place]?.map fun d => d.watched place := by
  rw [watch, List.getElem?_mapIdx]

theorem find?_watch (devices : List Device) (name : String) :
    (∃ place d, Picks devices name place d ∧
      ((watch devices).find? fun t => t.name == name) = some (d.watched place)) ∨
    ((∀ d ∈ devices, d.name ≠ name) ∧ ((watch devices).find? fun t => t.name == name) = none) := by
  cases found : (watch devices).find? fun t => t.name == name with
  | none =>
      refine .inr ⟨?_, rfl⟩
      intro d member named
      obtain ⟨place, there⟩ := List.mem_iff_getElem?.mp member
      have watched : d.watched place ∈ watch devices := by
        apply List.mem_of_getElem?
        rw [getElem?_watch, there]
        rfl
      have other := List.find?_eq_none.mp found _ watched
      exact other (beq_iff_eq.mpr named)
  | some t =>
      obtain ⟨named, place, short, same, first⟩ := List.find?_eq_some_iff_getElem.mp found
      have there : (watch devices)[place]? = some t := by rw [List.getElem?_eq_getElem short, same]
      rw [getElem?_watch] at there
      obtain ⟨d, known, rfl⟩ := Option.map_eq_some_iff.mp there
      refine .inl ⟨place, d, ⟨known, beq_iff_eq.mp named, ?_⟩, rfl⟩
      intro j earlier other before same
      have watched : (watch devices)[j]? = some (other.watched j) := by
        rw [getElem?_watch, before]
        rfl
      have unnamed := first j earlier
      rw [List.getElem_of_getElem? watched |>.2] at unnamed
      simp [Device.watched, same] at unnamed

theorem run_observation (devices : List Device) (name input : String) (before : History) :
    (∃ place d, Picks devices name place d ∧
      (observation (watch devices) name input).run before =
        (resultText name (d.respond before (toolInput input)), before ++ [.invoked place (toolInput input)])) ∨
    ((∀ d ∈ devices, d.name ≠ name) ∧
      (observation (watch devices) name input).run before = (missingText (watch devices) name, before)) := by
  unfold observation
  rcases find?_watch devices name with ⟨place, d, picks, found⟩ | ⟨absent, found⟩
  · rw [found]
    exact .inl ⟨place, d, picks, rfl⟩
  · rw [found]
    exact .inr ⟨absent, rfl⟩

/-- A reply ends the session, or it makes a round. -/
theorem run_feed (tools : d.tools = watch devices) (reply : String) (before : History) (request : List Message) :
    (∃ text, (d.feed reply).run (before ++ [.asked request (.ok reply)]) =
        (.answer text, before ++ [.asked request (.ok reply)]) ∧ Settles devices (d.left = 0) reply text) ∨
    ∃ r : Round, r.request = request ∧ r.reply = reply ∧ r.Follows devices before ∧ d.left ≠ 0 ∧
      (d.feed reply).run (before ++ [.asked request (.ok reply)]) =
        (.again (d.record reply r.feedback), before ++ r.events) := by
  have noTools : d.tools.isEmpty = true ↔ devices = [] := by
    rw [tools, isEmpty_watch, List.isEmpty_iff]
  unfold Dialogue.feed
  cases read : Reply.read reply with
  | error fault =>
      dsimp only
      by_cases ends : (d.left = 0 || d.tools.isEmpty) = true
      · rw [if_pos ends]
        refine .inl ⟨Text.trim reply, rfl, ?_⟩
        rw [Settles, read]
        exact ⟨by simpa [noTools] using ends, rfl⟩
      · rw [if_neg ends]
        have goesOn : d.left ≠ 0 ∧ devices ≠ [] := by simpa [noTools] using ends
        refine .inr ⟨⟨request, reply, none, fault.advice⟩, rfl, rfl, ?_, goesOn.1, rfl⟩
        rw [Round.Follows, read]
        exact ⟨goesOn.2, rfl, rfl⟩
  | ok said =>
      cases said with
      | finish thought output =>
          refine .inl ⟨output, rfl, ?_⟩
          rw [Settles, read]
      | action thought tool input =>
          dsimp only
          by_cases last : d.left = 0
          · rw [if_pos last]
            refine .inl ⟨Text.trim reply, rfl, ?_⟩
            rw [Settles, read]
            exact ⟨last, rfl⟩
          · rw [if_neg last, tools]
            -- The tool is called once with what happened before, or it does not exist and nothing happens.
            rcases run_observation devices tool input (before ++ [.asked request (.ok reply)]) with
              ⟨place, device, picks, observed⟩ | ⟨absent, observed⟩
            · let told := resultText tool (device.respond (before ++ [.asked request (.ok reply)]) (toolInput input))
              refine .inr ⟨⟨request, reply, some (place, toolInput input), "Observation: " ++ told⟩, rfl, rfl, ?_,
                last, ?_⟩
              · rw [Round.Follows, read]
                exact .inl ⟨place, device, picks, rfl, rfl⟩
              · rw [StateT.run_bind, observed, List.append_assoc]
                rfl
            · let told := missingText (watch devices) tool
              refine .inr ⟨⟨request, reply, none, "Observation: " ++ told⟩, rfl, rfl, ?_, last, ?_⟩
              · rw [Round.Follows, read]
                exact .inr ⟨absent, rfl, rfl⟩
              · rw [StateT.run_bind, observed]
                rfl

end Feed

/-! ## A whole session -/

/-- A session from some messages and some history on, with so many rounds still to make. Each request has the
messages of all rounds before it, and the last one is told so when no round is left. -/
structure Course (agent : Agent) (devices : List Device) (messages : List Message) (left : Nat) (before : History)
    (rounds : List Round) (request : List Message) (outcome answer : Except String String) : Prop where
  bounded : rounds.length ≤ left
  asked : ∀ k r, rounds[k]? = some r →
    r.request = messages ++ (rounds.take k).flatMap Round.notes ∧ agent.replies r.request = .ok r.reply ∧
      r.Follows devices (before ++ (rounds.take k).flatMap Round.events)
  last : request = messages ++ rounds.flatMap Round.notes ++
    if rounds.length = left then [⟨.user, lastChance⟩] else []
  replied : agent.replies request = outcome
  concludes : Concludes devices (rounds.length = left) outcome answer

section Course
variable {agent : Agent} {devices : List Device} {messages : List Message} {left n : Nat} {before : History}
variable {d : Dialogue (StateM History)}

theorem Course.cons {r : Round} {rounds : List Round} {request : List Message} {outcome answer : Except String String}
    (course : Course agent devices (messages ++ r.notes) left (before ++ r.events) rounds request outcome answer)
    (same : r.request = messages) (replied : agent.replies messages = .ok r.reply)
    (follows : r.Follows devices before) :
    Course agent devices messages (left + 1) before (r :: rounds) request outcome answer := by
  have ends : (r :: rounds).length = left + 1 ↔ rounds.length = left := by simp
  refine ⟨?_, ?_, ?_, course.replied, ?_⟩
  · simpa using course.bounded
  · intro k other there
    cases k with
    | zero =>
        cases there
        refine ⟨?_, ?_, ?_⟩
        · simpa using same
        · rw [same]
          exact replied
        · simpa using follows
    | succ k =>
        have later := course.asked k other there
        simpa [List.append_assoc] using later
  · have last := course.last
    simpa [List.append_assoc, ends] using last
  · rw [ends]
    exact course.concludes

theorem run_ask (messages : List Message) (before : History) :
    (agent.ask messages).run before = (agent.replies messages, before ++ [.asked messages (agent.replies messages)]) :=
  rfl

theorem run_converse_succ (n : Nat) (d : Dialogue (StateM History)) (before : History) :
    (d.converse agent.ask (n + 1)).run before =
      match agent.replies d.request with
      | .error cause => (some (.error cause), before ++ [.asked d.request (.error cause)])
      | .ok reply =>
        match (d.feed reply).run (before ++ [.asked d.request (.ok reply)]) with
        | (.answer text, after) => (some (.ok text), after)
        | (.again next, after) => (next.converse agent.ask n).run after := by
  rw [Dialogue.converse, StateT.run_bind, run_ask]
  cases agent.replies d.request with
  | error cause => rfl
  | ok reply =>
      change (d.feed reply >>= _).run (before ++ [.asked d.request (.ok reply)]) = _
      obtain ⟨turn, after, fed⟩ : ∃ turn after,
          (d.feed reply).run (before ++ [.asked d.request (.ok reply)]) = (turn, after) := ⟨_, _, rfl⟩
      dsimp only
      rw [StateT.run_bind, fed]
      cases turn with
      | again next => rfl
      | answer text => rfl

theorem course_nil {outcome answer : Except String String} (replied : agent.replies d.request = outcome)
    (concludes : Concludes devices (d.left = 0) outcome answer) :
    Course agent devices d.messages d.left before [] d.request outcome answer := by
  have none : ([] : List Round).length = d.left ↔ d.left = 0 := by simp [eq_comm]
  refine ⟨Nat.zero_le _, by simp, ?_, replied, ?_⟩
  · simp only [none, List.flatMap_nil, List.append_nil, Dialogue.request]
    split <;> simp
  · rw [none]
    exact concludes

variable (agent) in
/-- A dialogue with tools that are watched makes a session. -/
theorem course_of_converse (tools : d.tools = watch devices) (n : Nat) (enough : d.left + 1 = n) (before : History) :
    ∃ rounds request outcome answer,
      (d.converse agent.ask n).run before =
        (some answer, before ++ rounds.flatMap Round.events ++ [.asked request outcome]) ∧
      Course agent devices d.messages d.left before rounds request outcome answer := by
  induction n generalizing d before with
  | zero => omega
  | succ n ih =>
      rw [run_converse_succ]
      cases replied : agent.replies d.request with
      | error cause => exact ⟨[], d.request, .error cause, .error cause, by simp, course_nil replied rfl⟩
      | ok reply =>
          dsimp only
          rcases run_feed tools reply before d.request with
            ⟨text, fed, settles⟩ | ⟨r, request, rfl, follows, more, fed⟩
          · rw [fed]
            exact ⟨[], d.request, .ok reply, .ok text, by simp, course_nil replied ⟨text, rfl, settles⟩⟩
          · rw [fed]
            obtain ⟨left, same⟩ := Nat.exists_eq_succ_of_ne_zero more
            have fewer : (d.record r.reply r.feedback).left = left := by simp [Dialogue.record, same]
            obtain ⟨rounds, last, outcome, answer, run, course⟩ :=
              ih (d := d.record r.reply r.feedback) tools (by omega) (before ++ r.events)
            have asks : d.request = d.messages := if_neg more
            refine ⟨r :: rounds, last, outcome, answer, ?_, ?_⟩
            · dsimp only
              rw [run]
              simp [List.append_assoc]
            · rw [fewer] at course
              rw [same]
              exact course.cons (request.trans asks) (asks ▸ replied) follows

end Course

end CrewFlow.Agent
