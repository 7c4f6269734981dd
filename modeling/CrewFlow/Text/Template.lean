import CrewFlow.Text.Blank
/-!
# Placeholders in templates

A placeholder is an identifier between braces. A template is read once from left to right into
pieces, literal characters and placeholders; interpolation writes the pieces back with the inputs
in place of the names they give. Inserted text is never read again.
-/
namespace CrewFlow.Text

/-- Named texts; the first entry of a name counts. -/
abbrev Inputs := List (String × String)

def Inputs.get? (inputs : Inputs) (name : String) : Option String := inputs.lookup name

def Inputs.put (inputs : Inputs) (name text : String) : Inputs :=
  (name, text) :: inputs.filter fun entry => entry.1 ≠ name

def isNameStart (c : Char) : Bool := c.isAlpha || c == '_'

/-- An ASCII letter or digit, an underscore or a hyphen. -/
def isNamePart (c : Char) : Bool := c.isAlphanum || c == '_' || c == '-'

inductive Piece where
  | literal (c : Char)
  | placeholder (name : List Char)
  deriving DecidableEq, Repr

/-- The identifier and its closing brace that follow an opening brace, if they do. -/
def placeholderAt? : List Char → Option (List Char)
  | [] => none
  | c :: cs =>
    let name := cs.takeWhile isNamePart
    if isNameStart c && (cs.drop name.length).head? == some '}' then some (c :: name) else none

/-- The pieces of a template; `skip` characters still belong to the last placeholder. -/
def piecesFrom : Nat → List Char → List Piece
  | _, [] => []
  | skip + 1, _ :: cs => piecesFrom skip cs
  | 0, c :: cs =>
    if c = '{' then
      match placeholderAt? cs with
      | some name => .placeholder name :: piecesFrom (name.length + 1) cs
      | none => .literal c :: piecesFrom 0 cs
    else .literal c :: piecesFrom 0 cs

def templatePieces (template : String) : List Piece := piecesFrom 0 template.toList

def Piece.source : Piece → List Char
  | .literal c => [c]
  | .placeholder name => '{' :: name ++ ['}']

def Piece.fill (inputs : Inputs) : Piece → List Char
  | .literal c => [c]
  | .placeholder name =>
    match inputs.get? (String.ofList name) with
    | some text => text.toList
    | none => (Piece.placeholder name).source

/-- Every placeholder that names an input replaced by it. A template that cannot change is
returned without being read. -/
def interpolate (template : String) (inputs : Inputs) : String :=
  if inputs.isEmpty || !template.toList.contains '{' then template
  else String.ofList ((templatePieces template).flatMap (Piece.fill inputs))

def Piece.name? : Piece → Option String
  | .literal _ => none
  | .placeholder name => some (String.ofList name)

/-- The names of a template's placeholders in order of first appearance. -/
def placeholders (template : String) : List String :=
  ((templatePieces template).filterMap Piece.name?).eraseDups

end CrewFlow.Text
