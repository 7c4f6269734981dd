import CrewFlow.Json.Parser
import CrewFlow.Remote.Http
import CrewFlow.Tool.Registry
/-!
# Tool servers

A tool server lists its tools, tells whether it is well and calls a tool with a JSON input. The list of
a server is kept until it is dropped; a list that could not be had is not kept.
-/
namespace CrewFlow.Remote

open Json (Value)
open Tool (Capability ToolError)

structure Offer where
  name : String
  description : String
  deriving DecidableEq, Repr

namespace Offer

/-- Reads a tool of a list: an object with a name, or a list of name and description. -/
def ofJson? : Value → Option Offer
  | .obj fields => do
    let name ← (Json.Fields.get? fields "name").bind Value.text?
    match Json.Fields.get? fields "description" with
    | none => return ⟨name, ""⟩
    | some (.str description) => return ⟨name, description⟩
    | some _ => none
  | .arr [.str name] => some ⟨name, ""⟩
  | .arr [.str name, .str description] => some ⟨name, description⟩
  | _ => none

/-- Reads the tools of a server: a list, or an object that has it under `tools`. -/
def listOfJson? : Value → Option (List Offer)
  | .arr items => items.mapM ofJson?
  | .obj fields => do
    let items ← (Json.Fields.get? fields "tools").bind Value.items?
    items.mapM ofJson?
  | _ => none

end Offer

structure Directory where
  addresses : List (String × String)
  deriving Repr

def Directory.ofList (servers : List (String × String)) : Directory :=
  ⟨servers.map fun s => (s.1, trimAddress s.2)⟩

/-- The lists that are kept. -/
structure Listings where
  entries : List (String × List Offer)
  deriving Repr

namespace Listings

def empty : Listings := ⟨[]⟩

def get? (l : Listings) (server : String) : Option (List Offer) := l.entries.lookup server

def has (l : Listings) (server : String) : Bool := (l.get? server).isSome

def drop (l : Listings) (server : String) : Listings :=
  ⟨l.entries.filter fun e => e.1 ≠ server⟩

def keep (l : Listings) (server : String) (offers : List Offer) : Listings :=
  ⟨(server, offers) :: (l.drop server).entries⟩

end Listings

/-! ## Texts -/

def unreachable (server cause : String) : ToolError :=
  .connectivity ("server '" ++ server ++ "' unreachable: " ++ cause)

/-- What stands for the cause of a body that cannot be read. -/
def unreadable : String := "<detail>"

/-! ## Requests -/

variable {m : Type → Type} [Monad m]

def offersOf (server : String) : Except String Reply → Except ToolError (List Offer)
  | .error cause => .error (unreachable server cause)
  | .ok r =>
    if !r.isSuccess then
      .error (.connectivity
        ("server '" ++ server ++ "' returned " ++ statusText r.status ++ " listing tools"))
    else
      match (Json.parse? r.body).bind Offer.listOfJson? with
      | some offers => .ok offers
      | none =>
        .error (.connectivity
          ("server '" ++ server ++ "' sent an invalid tool list: " ++ unreadable))

def healthOf (server : String) : Except String Reply → Except ToolError Unit
  | .error cause => .error (unreachable server cause)
  | .ok r =>
    if r.isSuccess then .ok ()
    else
      .error (.connectivity
        ("server '" ++ server ++ "' health check returned " ++ statusText r.status))

def resultOf (tool : String) : Except String Reply → Except ToolError Value
  | .error cause => .error (.invocation (tool ++ ": " ++ cause))
  | .ok r =>
    if !r.isSuccess then
      .error (.invocation (tool ++ " returned " ++ statusText r.status ++ ": " ++ r.body))
    else
      match Json.parse? r.body with
      | some v => .ok v
      | none => .error (.invocation (tool ++ ": invalid response: " ++ unreadable))

def Offer.capability (transport : Transport m) (server address : String) (o : Offer) :
    Capability m where
  name := o.name
  description := o.description
  validate := do return healthOf server (← transport ⟨.get, address ++ "/health", none, none⟩)
  invoke input := do
    return resultOf o.name
      (← transport ⟨.post, address ++ "/tools/" ++ o.name, none, some input⟩)

/-- The tools of a server, from the list that is kept if there is one. -/
def Directory.offers (d : Directory) (transport : Transport m) (server : String) (kept : Listings) :
    m (Except ToolError (String × List Offer) × Listings) :=
  match d.addresses.lookup server, kept.get? server with
  -- A list that is kept does not help where there is no address to call.
  | none, _ => return (.error (.connectivity ("unknown tool server '" ++ server ++ "'")), kept)
  | some address, some offers => return (.ok (address, offers), kept)
  | some address, none => do
    match offersOf server (← transport ⟨.get, address ++ "/tools", none, none⟩) with
    | .ok offers => return (.ok (address, offers), kept.keep server offers)
    | .error e => return (.error e, kept)

def Directory.tools (d : Directory) (transport : Transport m) (server : String) :
    StateT Listings m (Except ToolError (List (Capability (StateT Listings m)))) := do
  let kept ← get
  let (found, kept) ← StateT.lift (d.offers transport server kept)
  set kept
  match found with
  | .ok (address, offers) =>
    return .ok (offers.map (Offer.capability (fun r => StateT.lift (transport r)) server address))
  | .error e => return .error e

end CrewFlow.Remote
