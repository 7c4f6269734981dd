import CrewFlow.Spec.Tool
import CrewFlow.Tool.Capability
/-!
# Tool registry

A registry turns a declaration into capabilities: native and custom tools come from factories, the
tools of servers from a directory of servers.
-/
namespace CrewFlow.Tool

open Spec (ToolSpec)

/-- The tools at hand. Factories take the declared parameters; that of a custom tool also takes the
declared name. `servers` lists the tools of a server. -/
structure Registry (m : Type → Type) where
  native : String → Option (Json.Fields → Except ToolError (Capability m))
  custom : String → Option (Option String → Json.Fields → Except ToolError (Capability m))
  servers : Option (String → m (Except ToolError (List (Capability m))))

namespace Registry

variable {m : Type → Type} [Monad m]

def serverTools (r : Registry m) (host : String) : m (Except ToolError (List (Capability m))) :=
  match r.servers with
  | some list => list host
  | none =>
    pure (.error (.connectivity
      ("no tool server registry configured (needed for '" ++ host ++ "')")))

/-- The offered tools that are allowed, in the order of the offer. Every allowed name must be
offered. -/
def allowedOf (host : String) (allowed : List String) (offered : List (Capability m)) :
    Except ToolError (List (Capability m)) :=
  let lacking := allowed.filter fun name => !offered.any fun t => t.name == name
  if lacking.isEmpty then .ok (offered.filter fun t => allowed.contains t.name)
  else
    .error (.connectivity
      ("server '" ++ host ++ "' does not offer: " ++ ", ".intercalate lacking))

def resolve (r : Registry m) : ToolSpec → m (Except ToolError (List (Capability m)))
  | .native name params =>
    match r.native name with
    | some make => pure ((make params).map ([·]))
    | none => pure (.error (.config ("unknown native tool '" ++ name ++ "'")))
  | .custom implementation name params =>
    match r.custom implementation with
    | some make => pure ((make name params).map ([·]))
    | none =>
      pure (.error (.config ("unknown custom implementation '" ++ implementation ++ "'")))
  | .hosted host tool => do
    match ← r.serverTools host with
    | .error e => return .error e
    | .ok offered =>
      match offered.find? fun t => t.name == tool with
      | some t => return .ok [t]
      | none =>
        return .error (.connectivity
          ("server '" ++ host ++ "' does not offer tool '" ++ tool ++ "'"))
  | .server host allowed => do
    match ← r.serverTools host, allowed with
    | .error e, _ => return .error e
    | .ok offered, none => return .ok offered
    | .ok offered, some allowed => return allowedOf host allowed offered

end Registry

end CrewFlow.Tool
