import CrewFlow.Json.Decode
import CrewFlow.Text.Blank
/-!
# Tool declarations

A declaration refers to a tool: a native one by name, a custom one by its implementation, one tool
of a hosted server, or all tools of a server with or without a list of allowed names. In a document
it is a bare name or a mapping with a `type`.
-/
namespace CrewFlow.Spec

inductive ToolSpec where
  | native (name : String) (params : Json.Fields)
  | custom (implementation : String) (name : Option String) (params : Json.Fields)
  | hosted (host tool : String)
  | server (host : String) (allowed : Option (List String))
  deriving Repr

/-- Why a declaration is not one. -/
inductive ToolFault where
  | emptyName
  | missingType
  | wrongKind (kind : String)
  | malformed (cause : Json.DecodeError)
  | nativeWithoutName
  | customWithoutImplementation
  | hostedWithoutTarget
  | serverWithoutName
  deriving Repr

def ToolFault.message : ToolFault → String
  | .emptyName => "tool name must not be empty"
  | .missingType => "tool mapping is missing 'type'"
  | .wrongKind kind => "tool must be a string or a mapping, got " ++ kind
  | .malformed cause => cause.message
  | .nativeWithoutName => "native tool needs a name"
  | .customWithoutImplementation => "custom tool needs an implementation"
  | .hostedWithoutTarget => "hosted tool needs a server and a tool"
  | .serverWithoutName => "server reference needs a server"

namespace ToolSpec

open Json (Value Fields Decoded DecodeError)

def codeInterpreter : String := "code_interpreter"

def variants : List String := ["native", "custom", "hosted", "server"]

def asked (variant name : String) : Option (Value → Decoded Unit) :=
  match variant, name with
  | "native", "name" => some (Json.Decode.test Json.Decode.text)
  | "native", "params" => some (Json.Decode.test Json.Decode.fields)
  | "custom", "implementation" => some (Json.Decode.test Json.Decode.text)
  | "custom", "name" => some (Json.Decode.test (Json.Decode.optional Json.Decode.text))
  | "custom", "params" => some (Json.Decode.test Json.Decode.fields)
  | "hosted", "server" => some (Json.Decode.test Json.Decode.text)
  | "hosted", "tool" => some (Json.Decode.test Json.Decode.text)
  | "server", "server" => some (Json.Decode.test Json.Decode.text)
  | "server", "tools" =>
    some (Json.Decode.test (Json.Decode.optional (Json.Decode.items Json.Decode.text)))
  | _, _ => none

def variantOf : Value → Decoded String
  | .str s =>
    if variants.contains s then .ok s else .error (DecodeError.unknownVariant s variants)
  | v => .error (.invalidType v "variant identifier")

def ofFields (fields : Fields) : Decoded ToolSpec := do
  let variant ← Json.Decode.required fields "type" variantOf
  Json.Decode.check fields (asked variant)
  if variant = "native" then
    let name ← Json.Decode.required fields "name" Json.Decode.text
    let params ← Json.Decode.defaulted fields "params" Json.Decode.fields []
    return .native name params
  else if variant = "custom" then
    let implementation ← Json.Decode.required fields "implementation" Json.Decode.text
    let name ← Json.Decode.defaulted fields "name" (Json.Decode.optional Json.Decode.text) none
    let params ← Json.Decode.defaulted fields "params" Json.Decode.fields []
    return .custom implementation name params
  else if variant = "hosted" then
    let host ← Json.Decode.required fields "server" Json.Decode.text
    let tool ← Json.Decode.required fields "tool" Json.Decode.text
    return .hosted host tool
  else
    let host ← Json.Decode.required fields "server" Json.Decode.text
    let allowed ← Json.Decode.defaulted fields "tools"
      (Json.Decode.optional (Json.Decode.items Json.Decode.text)) none
    return .server host allowed

/-- The fields of a variant in their order, and how many of them a list must give. -/
def layout (variant : String) : Json.Decode.Layout × Nat :=
  match variant with
  | "native" => (⟨"struct variant ToolSpec::Native", ["name", "params"]⟩, 1)
  | "custom" => (⟨"struct variant ToolSpec::Custom", ["implementation", "name", "params"]⟩, 1)
  | "hosted" => (⟨"struct variant ToolSpec::Hosted", ["server", "tool"]⟩, 2)
  | _ => (⟨"struct variant ToolSpec::Server", ["server", "tools"]⟩, 1)

/-- Decodes the form with a `type`; a list gives the `type` first. -/
def ofJson : Value → Decoded ToolSpec
  | .obj fields => ofFields fields
  | .arr (tag :: items) => do
    let variant ← variantOf tag
    let (layout, least) := layout variant
    ofFields (("type", .str variant) :: (← Json.Decode.record layout least (.arr items)))
  | .arr [] => .error (.missingField "type")
  | v => .error (.invalidType v "internally tagged enum ToolSpec")

def declared : Value → Except ToolFault ToolSpec
  | .str name =>
    if Text.isBlankText name then .error .emptyName else .ok (.native (Text.trim name) [])
  | .obj fields =>
    if Json.Fields.has fields "type" then (ofFields fields).mapError .malformed else .error .missingType
  | v => .error (.wrongKind v.kind)

def blankField? : ToolSpec → Option ToolFault
  | .native name _ => if Text.isBlankText name then some .nativeWithoutName else none
  | .custom implementation _ _ =>
    if Text.isBlankText implementation then some .customWithoutImplementation else none
  | .hosted host tool =>
    if Text.isBlankText host || Text.isBlankText tool then some .hostedWithoutTarget else none
  | .server host _ => if Text.isBlankText host then some .serverWithoutName else none

def identifier : ToolSpec → String
  | .native name _ => name
  | .custom implementation name _ => name.getD implementation
  | .hosted host tool => host ++ "/" ++ tool
  | .server host _ => host ++ "/*"

def isCodeInterpreter : ToolSpec → Bool
  | .native name _ => name == codeInterpreter
  | _ => false

def isExternal : ToolSpec → Bool
  | .hosted .. | .server .. => true
  | _ => false

def toJson : ToolSpec → Value
  | .native name params =>
    .obj [("type", .str "native"), ("name", .str name), ("params", .obj params)]
  | .custom implementation name params =>
    .obj [("type", .str "custom"), ("implementation", .str implementation),
      ("name", .ofText? name), ("params", .obj params)]
  | .hosted host tool =>
    .obj [("type", .str "hosted"), ("server", .str host), ("tool", .str tool)]
  | .server host allowed =>
    .obj [("type", .str "server"), ("server", .str host),
      ("tools", (allowed.map Value.ofTexts).getD .null)]

end ToolSpec

end CrewFlow.Spec
