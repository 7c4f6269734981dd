import CrewFlow.Json.Parser
import CrewFlow.Json.Printer
import CrewFlow.Remote.Http
import CrewFlow.Spec.Document
/-!
# Chat completions

A client of a service that completes chats. A request that does not get through, is sent too often or
meets a fault of the service is sent again, after a wait that doubles each time. The first other reply
decides.
-/
namespace CrewFlow.Remote

open Json (Value)
open Spec (LlmSpec)

/-- Why a chat was not completed. `splitCharacter` is a body that is no JSON and whose excerpt would end
inside a character. -/
inductive ChatError where
  | noKey
  | transport (cause : String)
  | unavailable (status : Nat)
  | refused (status : Nat) (body : String)
  | invalid (excerpt : String)
  | splitCharacter
  | noMessage
  deriving DecidableEq, Repr

def ChatError.message : ChatError → String
  | .noKey => "OPENAI_API_KEY is not set"
  | .transport cause => cause
  | .unavailable status => "chat completion endpoint returned " ++ statusText status
  | .refused status body => "chat completion error (" ++ statusText status ++ "): " ++ body
  | .invalid excerpt => "invalid chat completion response: " ++ excerpt
  | .splitCharacter => "the excerpt of an invalid chat completion response splits a character"
  | .noMessage => "no message in chat completion response"

/-- A client for one model. -/
structure ChatClient where
  model : String
  temperature : Option Float
  key : Option String
  address : String
  retries : Nat
  deriving Repr

def defaultAddress : String := "https://api.openai.com/v1"

def defaultRetries : Nat := 2

/-- The milliseconds before a request is sent again for the first time. -/
def firstWait : Nat := 500

/-- The most bytes of an invalid body that are told. -/
def excerptBytes : Nat := 500

namespace ChatClient

def make (model : String) (key address : Option String) : ChatClient :=
  ⟨model, none, key, trimAddress (address.getD defaultAddress), defaultRetries⟩

def requestBody (c : ChatClient) (messages : List (String × String)) : Value :=
  let lines := messages.map fun m => Value.obj [("role", .str m.1), ("content", .str m.2)]
  let heat := (c.temperature.map fun x => [("temperature", Value.ofFloat x)]).getD []
  .obj ([("model", .str c.model), ("messages", .arr lines)] ++ heat)

def request (c : ChatClient) (key : String) (messages : List (String × String)) : Outgoing :=
  ⟨.post, c.address ++ "/chat/completions", some key, some (c.requestBody messages)⟩

end ChatClient

/-! ## Replies -/

/-- The characters at the front of a text whose bytes are exactly so many; none when the count ends
inside a character. -/
def takeBytes? : Nat → List Char → Option (List Char)
  | 0, _ => some []
  | _ + 1, [] => none
  | n + 1, c :: cs =>
    if c.utf8Size ≤ n + 1 then (takeBytes? (n + 1 - c.utf8Size) cs).map (c :: ·) else none

/-- The part of an invalid body that is told: its first bytes, or all of it when it is shorter. -/
def excerpt? (body : String) : Option String :=
  (takeBytes? (min body.utf8ByteSize excerptBytes) body.toList).map String.ofList

/-- The text of the first choice of a completion. A content that is no text counts as empty. -/
def completionText (v : Value) : Except ChatError String :=
  let first := ((v.get? "choices").bind Value.items?).bind fun choices => choices[0]?
  match first.bind fun choice => choice.get? "message" with
  | some message => .ok (((message.get? "content").bind Value.text?).getD "")
  | none => .error .noMessage

def readBody (body : String) : Except ChatError String :=
  match Json.parse? body with
  | some v => completionText v
  | none =>
    match excerpt? body with
    | some excerpt => .error (.invalid excerpt)
    | none => .error .splitCharacter

/-- What an attempt comes to: it decides, or it is made again. -/
inductive Attempt where
  | decided (result : Except ChatError String)
  | failed (error : ChatError)
  deriving Repr

def tooManyRequests : Nat := 429

def Attempt.ofOutcome : Except String Reply → Attempt
  | .error cause => .failed (.transport cause)
  | .ok r =>
    -- `tooManyRequests` is a fault of the client by its number, so it is told apart first.
    if r.status = tooManyRequests || r.isServerError then .failed (.unavailable r.status)
    else if r.isClientError then .decided (.error (.refused r.status r.body))
    else .decided (readBody r.body)

/-! ## Attempts -/

variable {m : Type → Type} [Monad m]

/-- Sends until an outcome decides, at most `more` times after the first. -/
def attempts (send : m (Except String Reply)) (sleep : Nat → m Unit) (wait : Nat) :
    Nat → m (Except ChatError String)
  -- Behind the last attempt there is no wait.
  | 0 => do
    match Attempt.ofOutcome (← send) with
    | .decided result => return result
    | .failed e => return .error e
  | more + 1 => do
    match Attempt.ofOutcome (← send) with
    | .decided result => return result
    | .failed _ =>
      sleep wait
      attempts send sleep (2 * wait) more

/-- Completes a chat. Without a key nothing is sent. -/
def ChatClient.complete (c : ChatClient) (transport : Transport m) (sleep : Nat → m Unit)
    (messages : List (String × String)) : m (Except ChatError String) :=
  match c.key with
  | none => return .error .noKey
  | some key => attempts (transport (c.request key messages)) sleep firstWait c.retries

/-! ## Provider -/

/-- Gives clients to agents: what an agent does not say is taken from here. -/
structure ChatProvider where
  defaultModel : String
  key : Option String
  address : Option String
  deriving Repr

def extraAddress? (llm : LlmSpec) : Option String := (llm.extra.get? "base_url").bind Value.text?

def ChatProvider.client (p : ChatProvider) (llm : Option LlmSpec) : ChatClient :=
  let model := (llm.bind (·.model)).getD p.defaultModel
  let address := (llm.bind extraAddress?).or p.address
  { ChatClient.make model p.key address with temperature := llm.bind (·.temperature) }

end CrewFlow.Remote
