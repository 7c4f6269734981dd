import CrewFlow.Text.Search
/-!
# Media types

The type of a body as its sender tells it: a type and a subtype of token characters, which may be
followed by parameters. The subtype may end in a suffix behind a plus sign.
-/
namespace CrewFlow.Service

def isTokenChar (c : Char) : Bool := c.isAlphanum || "!#$%&'*+-.^_\x60|~".toList.contains c

/-- A character of a quoted value: one of ASCII that can be printed. -/
def isQuotedChar (c : Char) : Bool := 31 < c.toNat && c.toNat < 127

/-- What follows a quoted value and its closing quote. A value has at least one character, and the
first may be a quote. -/
def afterQuoted? : List Char → Option (List Char)
  | [] => none
  | first :: rest =>
    let more := rest.takeWhile fun c => isQuotedChar c && c ≠ '"'
    match rest.drop more.length with
    | '"' :: rest => if isQuotedChar first then some rest else none
    | _ => none

def afterValue? (cs : List Char) : Option (List Char) :=
  match cs with
  | '"' :: rest => do
    match (← afterQuoted? rest).dropWhile (· == ' ') with
    | [] => some []
    | ';' :: rest => some rest
    | _ => none
  | cs =>
    let value := cs.takeWhile isTokenChar
    match cs.drop value.length with
    | [] => some []
    | ';' :: rest => if value.isEmpty then none else some rest
    | _ => none

def parametersFit : Nat → List Char → Bool
  | 0, _ => false
  | fuel + 1, cs =>
    match cs.dropWhile (· == ' ') with
    | [] => true
    | cs =>
      let name := cs.takeWhile isTokenChar
      match cs.drop name.length with
      | '=' :: rest =>
        if name.isEmpty then false
        else
          match afterValue? rest with
          | some rest => parametersFit fuel rest
          | none => false
      | _ => false

/-- A subtype without its suffix, and the suffix: what follows its last plus sign, unless that comes
first. -/
def subtypeParts (subtype : List Char) : List Char × Option (List Char) :=
  match Text.splitLast? ['+'] subtype with
  | some ([], _) => (subtype, none)
  | some (base, suffix) => (base, some suffix)
  | none => (subtype, none)

/-- Whether a subtype names JSON, by itself or by its suffix. -/
def namesJson (subtype : List Char) : Bool :=
  let (base, suffix) := subtypeParts subtype
  base == "json".toList || suffix == some "json".toList

def isJsonMedia (media : String) : Bool :=
  let cs := (Text.lowerAscii media).toList
  let kind := cs.takeWhile isTokenChar
  match cs.drop kind.length with
  | '/' :: rest =>
    let subtype := rest.takeWhile isTokenChar
    let isWanted := kind == "application".toList && namesJson subtype
    match rest.drop subtype.length with
    | [] => isWanted
    | ';' :: parameters => isWanted && parametersFit (parameters.length + 1) parameters
    | _ => false
  | _ => false

end CrewFlow.Service
