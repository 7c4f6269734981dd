import Mathlib
import CrewFlow.Proofs.Agent.Alone
import CrewFlow.Proofs.Agent.Session
/-!
# The loop of an agent

An agent without a time limit, at work on its own, makes the session of its dialogue: the same requests with the
same replies, and the same answer, wherever its turns end and whatever it waits for.
-/
set_option autoImplicit false

namespace CrewFlow.Agent

open Json (Value)
open Rate (Allowance Limiter)
open Tool (LocalTool)

/-- A request with what came of it. -/
abbrev Exchange := List Message × Except String String

def Event.exchange? : Event → Option Exchange
  | .asked messages outcome => some (messages, outcome)
  | .invoked .. => none

def Call.exchange (c : Call) : Exchange := (c.messages, c.outcome)

def Round.exchange (r : Round) : Exchange := (r.request, .ok r.reply)

/-- A tool without effects, as one that may return anything. -/
def Device.plain (t : LocalTool) : Device := ⟨t.name, t.description, fun _ input => (t.invoke input).run⟩

/-! ## Tools without effects -/

section Plain
variable {tools : List LocalTool} {before : History}

theorem getElem?_plain (tools : List LocalTool) (place : Nat) :
    (watch (tools.map Device.plain))[place]? = tools[place]?.map fun t => (Device.plain t).watched place := by
  rw [getElem?_watch, List.getElem?_map, Option.map_map]
  rfl

theorem map_watch {β : Type} (f : Tool.Capability (StateM History) → β) (g : LocalTool → β)
    (same : ∀ t place, f ((Device.plain t).watched place) = g t) (tools : List LocalTool) :
    (watch (tools.map Device.plain)).map f = tools.map g := by
  apply List.ext_getElem?
  intro place
  rw [List.getElem?_map, getElem?_plain, List.getElem?_map, Option.map_map]
  congr 1
  funext t
  exact same t place

theorem toolNames_watch (tools : List LocalTool) : toolNames (watch (tools.map Device.plain)) = toolNames tools := by
  rw [toolNames, toolNames, map_watch (·.name) (·.name) fun _ _ => rfl]

theorem toolInstructions_watch (tools : List LocalTool) :
    toolInstructions (watch (tools.map Device.plain)) = toolInstructions tools := by
  have lines : (watch (tools.map Device.plain)).map
        (fun t => "Tool Name: " ++ t.name ++ "\nTool Description: " ++ t.description ++ "\n") =
      tools.map fun t => "Tool Name: " ++ t.name ++ "\nTool Description: " ++ t.description ++ "\n" :=
    map_watch _ _ (fun _ _ => rfl) tools
  unfold toolInstructions
  dsimp only
  rw [toolNames_watch, lines]

theorem systemPrompt_watch (agent : Agent) (tools : List LocalTool) :
    systemPrompt agent (watch (tools.map Device.plain)) = systemPrompt agent tools := by
  unfold systemPrompt
  rw [toolInstructions_watch, isEmpty_watch, List.isEmpty_map]

theorem find?_of_picks {name : String} {place : Nat} {d : Device}
    (picks : Picks (tools.map Device.plain) name place d) :
    ∃ t, d = .plain t ∧ (tools.find? fun t => t.name == name) = some t := by
  obtain ⟨there, named, first⟩ := picks
  rw [List.getElem?_map] at there
  obtain ⟨t, known, rfl⟩ := Option.map_eq_some_iff.mp there
  refine ⟨t, rfl, ?_⟩
  obtain ⟨short, same⟩ := List.getElem?_eq_some_iff.mp known
  apply List.find?_eq_some_iff_getElem.mpr
  refine ⟨beq_iff_eq.mpr named, place, short, same, ?_⟩
  intro j earlier
  have other := first j earlier (.plain tools[j]) (by simp [List.getElem?_eq_getElem (earlier.trans short)])
  simpa [Device.plain] using other

def exchanges (history : History) : List Exchange := history.filterMap Event.exchange?

theorem exchanges_cons (messages : List Message) (outcome : Except String String) (history : History) :
    exchanges (.asked messages outcome :: history) = (messages, outcome) :: exchanges history := rfl

theorem exchanges_append (first second : History) :
    exchanges (first ++ second) = exchanges first ++ exchanges second := List.filterMap_append

theorem run_observation_plain (tools : List LocalTool) (name input : String) (before : History) :
    ∃ calls, exchanges calls = [] ∧ (observation (watch (tools.map Device.plain)) name input).run before =
      ((observation tools name input).run, before ++ calls) := by
  rcases run_observation (tools.map Device.plain) name input before with
    ⟨place, d, picks, observed⟩ | ⟨absent, observed⟩
  · obtain ⟨t, rfl, found⟩ := find?_of_picks picks
    refine ⟨[.invoked place (toolInput input)], rfl, ?_⟩
    rw [observed, observation, found]
    rfl
  · have none : (tools.find? fun t => t.name == name) = none := by
      apply List.find?_eq_none.mpr
      intro t member
      have other := absent _ (List.mem_map_of_mem member)
      simpa [Device.plain] using other
    refine ⟨[], rfl, ?_⟩
    rw [observed, observation, none, List.append_nil]
    have same : missingText (watch (tools.map Device.plain)) name = missingText tools name := by
      rw [missingText, missingText, toolNames_watch]
    rw [same]
    rfl

def Dialogue.watched (d : Dialogue Id) : Dialogue (StateM History) :=
  ⟨watch (d.tools.map Device.plain), d.messages, d.left⟩

def Turn.watched : Turn Id → Turn (StateM History)
  | .again d => .again d.watched
  | .answer text => .answer text

theorem run_feed_watched (d : Dialogue Id) (reply : String) (before : History) :
    ∃ calls, exchanges calls = [] ∧
      (d.watched.feed reply).run before = ((d.feed reply).run.watched, before ++ calls) := by
  have noTools : d.watched.tools.isEmpty = d.tools.isEmpty := by
    rw [Dialogue.watched, isEmpty_watch, List.isEmpty_map]
  have left : d.watched.left = d.left := rfl
  unfold Dialogue.feed
  cases Reply.read reply with
  | error fault =>
      dsimp only
      rw [noTools, left]
      split
      · exact ⟨[], rfl, by rw [List.append_nil]; rfl⟩
      · exact ⟨[], rfl, by rw [List.append_nil]; rfl⟩
  | ok said =>
      cases said with
      | finish thought output => exact ⟨[], rfl, by rw [List.append_nil]; rfl⟩
      | action thought tool input =>
          dsimp only
          rw [left]
          split
          · exact ⟨[], rfl, by rw [List.append_nil]; rfl⟩
          · obtain ⟨calls, none, observed⟩ := run_observation_plain d.tools tool input before
            refine ⟨calls, none, ?_⟩
            rw [StateT.run_bind, Dialogue.watched, observed]
            rfl

end Plain

/-! ## What is said -/

/-- The requests that a dialogue still makes, what came of them and the answer. -/
inductive Talks (agent : Agent) : Dialogue Id → List Exchange → Except String String → Prop where
  | fails {d : Dialogue Id} {cause : String} (failed : agent.replies d.request = .error cause) :
      Talks agent d [(d.request, .error cause)] (.error cause)
  | answers {d : Dialogue Id} {reply text : String} (replied : agent.replies d.request = .ok reply)
      (turn : (d.feed reply).run = .answer text) : Talks agent d [(d.request, .ok reply)] (.ok text)
  | again {d next : Dialogue Id} {reply : String} {rest : List Exchange} {answer : Except String String}
      (replied : agent.replies d.request = .ok reply) (turn : (d.feed reply).run = .again next)
      (later : Talks agent next rest answer) : Talks agent d ((d.request, .ok reply) :: rest) answer

theorem talks_of_converse (agent : Agent) (n : Nat) {d : Dialogue Id} (enough : d.requestsLeft = n)
    (before : History) :
    ∃ answer history, (d.watched.converse agent.ask n).run before = (some answer, before ++ history) ∧
      Talks agent d (exchanges history) answer := by
  induction n generalizing d before with
  | zero => cases enough
  | succ n ih =>
      have request : d.watched.request = d.request := rfl
      rw [run_converse_succ, request]
      cases replied : agent.replies d.request with
      | error cause => exact ⟨.error cause, [.asked d.request (.error cause)], rfl, .fails replied⟩
      | ok reply =>
          dsimp only
          obtain ⟨calls, none, fed⟩ := run_feed_watched d reply (before ++ [.asked d.request (.ok reply)])
          rw [fed]
          cases turn : (d.feed reply).run with
          | answer text =>
              refine ⟨.ok text, .asked d.request (.ok reply) :: calls, by simp [Turn.watched], ?_⟩
              rw [exchanges_cons, none]
              exact .answers replied turn
          | again next =>
              have fewer := Dialogue.requestsLeft_of_again turn
              obtain ⟨answer, history, run, later⟩ :=
                ih (d := next) (by omega) (before ++ [.asked d.request (.ok reply)] ++ calls)
              refine ⟨answer, .asked d.request (.ok reply) :: (calls ++ history), ?_, ?_⟩
              · dsimp only [Turn.watched]
                rw [run]
                simp
              · rw [exchanges_cons, exchanges_append, none, List.nil_append]
                exact .again replied turn later

namespace Execution

variable {e e' : Execution Unit} {l : Option (Limiter Unit)} {left now n : Nat}
variable {said : List Exchange} {answer : Except String String}

/-- An execution has no time limit, and makes the requests of its dialogue. -/
structure Makes (e : Execution Unit) (said : List Exchange) (answer : Except String String) : Prop where
  patient : e.deadline = none
  called : ∀ ends outcome, e.stage = .calling ends outcome → outcome = e.agent.replies e.dialogue.request
  talks : Talks e.agent e.dialogue said answer

theorem answered_of_talks {outcome : Except String String} (talks : Talks e.agent e.dialogue said answer)
    (model : e.agent.replies e.dialogue.request = outcome) :
    (e.answered outcome = .inl (answer.mapError (.model e.agent.role)) ∧
      said = [(e.dialogue.request, outcome)]) ∨
    ∃ next rest, e.answered outcome = .inr next ∧ said = (e.dialogue.request, outcome) :: rest ∧
      Talks next.agent next.dialogue rest answer := by
  unfold answered
  cases talks with
  | fails failed =>
      cases model.symm.trans failed
      exact .inl ⟨rfl, rfl⟩
  | answers replied turn =>
      cases model.symm.trans replied
      refine .inl ⟨?_, rfl⟩
      dsimp only
      rw [turn]
      rfl
  | again replied turn later =>
      cases model.symm.trans replied
      dsimp only
      rw [turn]
      exact .inr ⟨_, _, rfl, rfl, later⟩

def Does (e : Execution Unit) (said : List Exchange) (answer : Except String String) (p : Progress Unit) : Prop :=
  match p.outcome with
  | .finished result => p.calls.map Call.exchange = said ∧ result = answer.mapError (.model e.agent.role)
  | .waiting e' _ => ∃ rest, said = p.calls.map Call.exchange ++ rest ∧ e'.Makes rest answer ∧ e'.agent = e.agent

theorem dialogue_request (l : Option (Limiter Unit)) (e : Execution Unit) (now left : Nat) :
    (request l e now left).2.2.1.dialogue = e.dialogue := by
  by_cases calls : ∃ ends outcome, e.stage = .calling ends outcome
  · obtain ⟨ends, outcome, calling⟩ := calls
    cases left with
    | zero => simp only [request, calling]
    | succ left =>
        simp only [request, calling]
        split <;> rfl
  · rw [request_eq_of_uncalled l fun ends outcome calling => calls ⟨ends, outcome, calling⟩]
    split <;> rfl

theorem Does.cons {next : Execution Unit} {rest : List Exchange} {p : Progress Unit} {c : Call}
    (does : next.Does rest answer p) (agent : next.agent = e.agent) (same : said = c.exchange :: rest) :
    e.Does said answer { p with calls := c :: p.calls } := by
  unfold Does at does ⊢
  cases outcome : p.outcome with
  | finished result =>
      rw [outcome] at does
      dsimp only at does ⊢
      rw [List.map_cons, does.1, ← agent]
      exact ⟨same.symm, does.2⟩
  | waiting e' isSpent =>
      rw [outcome] at does
      obtain ⟨later, split, makes, still⟩ := does
      refine ⟨later, ?_, makes, still.trans agent⟩
      rw [same, split]
      rfl

theorem does_proceed (now n : Nat) (enough : e.dialogue.requestsLeft ≤ n) (solo : Solo l e) (ready : Ready left e)
    (makes : e.Makes said answer) : e.Does said answer (proceed now n l left e) := by
  -- over the requests that the dialogue still has: each answered one is the first of `said`
  induction n generalizing e l left said with
  | zero => cases enough
  | succ n ih =>
      have leads : e.Leads (e.agent.settle e.dialogue) := ⟨makes.patient, rfl, makes.called⟩
      have asked := leads.request l now left
      have dialogue := dialogue_request l e now left
      rw [proceed]
      rcases goes now solo ready with
        ⟨l', left', e', outcome, reached, replied⟩ | ⟨l', left', e', isSpent, reached, pauses⟩
      · rw [reached] at asked dialogue ⊢
        obtain ⟨still, -, agent, answered⟩ := asked
        dsimp only at still agent answered dialogue ⊢
        have model : e'.agent.replies e'.dialogue.request = outcome := by
          rw [agent]
          exact (answered outcome rfl).symm
        have talks : Talks e'.agent e'.dialogue said answer := by
          rw [agent, dialogue]
          exact makes.talks
        rcases answered_of_talks talks model with ⟨ended, same⟩ | ⟨next, rest, again, same, later⟩
        · rw [ended, agent]
          exact ⟨same.symm, rfl⟩
        · rw [again]
          dsimp only
          have shape := same_of_answered again
          obtain ⟨line, arriving, fewer⟩ := replied.next again
          have fewerLeft : next.dialogue.requestsLeft ≤ n := by
            rw [Dialogue.requestsLeft] at enough ⊢
            omega
          have sameAgent : next.agent = e.agent := by rw [shape, agent]
          have goesOn : next.Makes rest answer := by
            refine ⟨?_, ?_, later⟩
            · rw [shape]
              exact still.patient
            · intro ends outcome' calling
              cases arriving.symm.trans calling
          exact (ih fewerLeft line (.inr arriving) goesOn).cons sameAgent same
      · rw [reached] at asked dialogue ⊢
        obtain ⟨still, -, agent, -⟩ := asked
        dsimp only at still agent dialogue
        refine ⟨said, rfl, ⟨still.patient, still.called, ?_⟩, agent⟩
        rw [agent, dialogue]
        exact makes.talks

/-- An execution of its own makes all requests of its dialogue, and comes to its answer. -/
theorem calls_of_alone {u : Ending Unit} (solo : Solo l e) (ready : Ready left e) (makes : e.Makes said answer)
    (run : alone n now l left e = some u) :
    u.calls.map Call.exchange = said ∧ u.result = answer.mapError (.model e.agent.role) := by
  induction n generalizing e l left now u said with
  | zero => cases run
  | succ n ih =>
      have does : e.Does said answer (going now l left e) := does_proceed now _ le_rfl solo ready makes
      unfold Does at does
      rcases alone_cases makes.patient solo ready run with
        ⟨result, finished, rfl⟩ | ⟨e', isSpent, later, u', waiting, -, rest, rfl⟩
      · rw [finished] at does
        exact does
      · rw [waiting] at does
        obtain ⟨others, split, goesOn, agent⟩ := does
        have pauses := (turned_going now solo ready).paused e' isSpent waiting
        obtain ⟨calls, result⟩ := ih pauses.solo (.inl full_ne_zero) goesOn rest
        refine ⟨?_, ?_⟩
        · change ((going now l left e).calls ++ u'.calls).map Call.exchange = said
          rw [List.map_append, calls, split]
        · change u'.result = _
          rw [result, agent]

end Execution

/-! ## Whole runs -/

section Session
variable {agent : Agent} {devices : List Device} {messages request : List Message} {most : Nat} {before : History}
variable {rounds : List Round} {outcome answer : Except String String}

theorem length_notes (rounds : List Round) : (rounds.flatMap Round.notes).length = 2 * rounds.length := by
  induction rounds with
  | nil => rfl
  | cons r rounds ih =>
      rw [List.flatMap_cons, List.length_append, ih, List.length_cons, Round.notes]
      simp only [List.length_cons, List.length_nil]
      omega

theorem exchanges_events (rounds : List Round) :
    exchanges (rounds.flatMap Round.events) = rounds.map Round.exchange := by
  induction rounds with
  | nil => rfl
  | cons r rounds ih =>
      have calls : exchanges (r.call.toList.map fun c => .invoked c.1 c.2) = [] := by
        cases r.call <;> rfl
      rw [List.flatMap_cons, exchanges_append, ih, Round.events, exchanges_cons, calls]
      rfl

theorem Course.length_asked (course : Course agent devices messages most before rounds request outcome answer)
    {k : Nat} {r : Round} (there : rounds[k]? = some r) : r.request.length = messages.length + 2 * k := by
  have short : k < rounds.length := (List.getElem?_eq_some_iff.mp there).1
  rw [(course.asked k r there).1, List.length_append, length_notes, List.length_take, Nat.min_eq_left short.le]

theorem Course.length_last (course : Course agent devices messages most before rounds request outcome answer) :
    request.length = messages.length + 2 * rounds.length + if rounds.length = most then 1 else 0 := by
  rw [course.last, List.length_append, List.length_append, length_notes]
  congr 1
  split <;> rfl

end Session

theorem equipped_watch (agent : Agent) (tools : List LocalTool) (prompt : String) :
    Dialogue.equipped agent (watch (tools.map Device.plain)) prompt =
      (Dialogue.equipped agent tools prompt).watched := by
  rw [Dialogue.equipped, opening, systemPrompt_watch]
  rfl

/-- An agent whose tools have no effects makes the requests of its session and comes to its answer, whatever its
turns and its limiter make it wait for. -/
theorem execute_of_session {agent : Agent} {tools : List LocalTool} {prompt : String}
    {answer : Except String String} {history : History}
    (run : session agent ((agent.tools ++ tools).map .plain) prompt = (some answer, history))
    (patient : agent.limits.maxTime = none) {l : Option (Limiter Unit)} (free : ∀ x ∈ l, x.Free) (now : Nat)
    (left : Allowance) :
    ∃ u, execute agent tools prompt now l left = some u ∧
      u.result = answer.mapError (.model agent.role) ∧ u.calls.map Call.exchange = exchanges history := by
  obtain ⟨u, ended⟩ := Option.isSome_iff_exists.mp (isSome_execute patient free tools prompt now left)
  obtain ⟨answer', history', talked, talks⟩ :=
    talks_of_converse agent (d := .start agent tools prompt) (agent.limits.maxIter + 1) rfl []
  rw [session, equipped_watch] at run
  obtain ⟨same, rfl⟩ := Prod.mk.inj (run.symm.trans talked)
  cases same
  have makes : (Execution.start () agent tools prompt now).Makes (exchanges history) answer := by
    refine ⟨?_, by simp [Execution.start], talks⟩
    rw [Execution.start, patient]
    rfl
  obtain ⟨calls, result⟩ :=
    Execution.calls_of_alone (e := Execution.start () agent tools prompt now) free (.inr rfl) makes ended
  exact ⟨u, ended, result, calls⟩

/-- An agent makes a number of rounds, at most its limit, and one more request, whose reply settles the answer.
Each request has the messages of the rounds before it, two for each, and one more when the limit is reached. Of
its own and the added tools it calls the first that a reply names. Without a time limit the agent, at work on its
own, makes just these requests. -/
theorem loop_is_bounded (agent : Agent) (own extra : List Device) (prompt : String) :
    ∃ rounds request outcome answer,
      session agent (own ++ extra) prompt = (some answer, rounds.flatMap Round.events ++ [.asked request outcome]) ∧
      Course agent (own ++ extra) (opening agent (watch (own ++ extra)) prompt) agent.limits.maxIter []
        rounds request outcome answer ∧
      (∀ k r, rounds[k]? = some r → r.request.length = 2 * (k + 1)) ∧
      (request.length = if rounds.length = agent.limits.maxIter then 2 * agent.limits.maxIter + 3
        else 2 * (rounds.length + 1)) ∧
      ∀ (tools : List LocalTool) (l : Option (Limiter Unit)) (now : Nat) (left : Allowance),
        agent.limits.maxTime = none → own = agent.tools.map .plain → extra = tools.map .plain →
        (∀ x ∈ l, x.Free) →
        ∃ u, execute agent tools prompt now l left = some u ∧
          u.result = answer.mapError (.model agent.role) ∧
          u.calls.map Call.exchange = rounds.map Round.exchange ++ [(request, outcome)] := by
  obtain ⟨rounds, request, outcome, answer, run, course⟩ :=
    course_of_converse agent (d := .equipped agent (watch (own ++ extra)) prompt) rfl
      (agent.limits.maxIter + 1) rfl []
  rw [List.nil_append] at run
  refine ⟨rounds, request, outcome, answer, run, course, ?_, ?_, ?_⟩
  · intro k r there
    rw [course.length_asked there]
    change 2 + 2 * k = 2 * (k + 1)
    omega
  · rw [course.length_last]
    change 2 + 2 * rounds.length + (if rounds.length = agent.limits.maxIter then 1 else 0) = _
    split <;> omega
  · rintro tools l now left patient rfl rfl free
    rw [← List.map_append] at run
    have executes := execute_of_session run patient free now left
    rw [exchanges_append, exchanges_events] at executes
    exact executes

def lookup (found : String) : LocalTool := ⟨"lookup", "d", pure (.ok ()), fun _ => pure (.ok (.str found))⟩

/-- An agent that looks something up, and answers what it is told. -/
def clerk : Agent :=
  let reply (messages : List Message) : String :=
    if messages.length = 2 then "Action: lookup\nAction Input: x"
    else "Final Answer: " ++ (messages.getLast?.map (·.content)).getD ""
  ⟨"Clerk", "g", "b", ⟨"m", fun messages => ⟨0, .ok (reply messages)⟩⟩, [lookup "own"], ⟨25, none, none⟩,
    false⟩

theorem clerk_looks_up :
    ∃ rounds request outcome answer u,
      Course clerk ([.plain (lookup "own")] ++ [.plain (lookup "added")])
        (opening clerk (watch [.plain (lookup "own"), .plain (lookup "added")]) "go") 25 []
        rounds request outcome answer ∧
      rounds.length = 1 ∧ request.length = 4 ∧ answer = .ok "Observation: own" ∧
      execute clerk [lookup "added"] "go" 0 none .full = some u ∧
      u.calls.map Call.exchange = rounds.map Round.exchange ++ [(request, outcome)] := by
  have run : (execute clerk [lookup "added"] "go" 0 none .full).map (fun u => (u.result, u.calls.length)) =
      some (.ok "Observation: own", 2) := by decide +kernel
  obtain ⟨rounds, request, outcome, answer, -, course, -, size, executes⟩ :=
    loop_is_bounded clerk [.plain (lookup "own")] [.plain (lookup "added")] "go"
  obtain ⟨u, ended, result, calls⟩ := executes [lookup "added"] none 0 .full rfl rfl rfl (by simp)
  rw [ended] at run
  obtain ⟨answered, twice⟩ := Prod.mk.inj (Option.some.inj run)
  have one : rounds.length = 1 := by
    have both := congrArg List.length calls
    rw [List.length_append, List.length_map, List.length_map] at both
    simp only [List.length_singleton] at both
    omega
  have told : answer = .ok "Observation: own" := by
    rw [result] at answered
    cases answer with
    | error cause => cases answered
    | ok text =>
        cases answered
        rfl
  rw [one] at size
  exact ⟨rounds, request, outcome, answer, u, course, one, size, told, ended, calls⟩

end CrewFlow.Agent
