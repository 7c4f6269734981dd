import CrewFlow.Yaml.Scalar
/-!
# Token stream of a YAML text

The tokens of a whole text, with the tokens that indentation stands for and the key tokens in front
of simple keys. A simple key is one whose colon shows up later: its place is remembered while the
text runs on, at most for one line and 1024 octets.
-/
namespace CrewFlow.Yaml

/-- A place that may turn out to be a key: the number of its first token, and whether the
indentation demands a key there. -/
structure SimpleKey where
  token : Nat
  mark : Mark
  required : Bool

/-- The state of the scan. `indent` is absent at the top; `keys` holds one possible key for each
level of flow collections, the innermost first. -/
structure Stream where
  cursor : Cursor
  indent : Option Nat
  outer : List (Option Nat)
  keyAllowed : Bool
  keys : List (Option SimpleKey)
  tokens : Array Token

namespace Stream

def ofList (cs : List Char) : Stream :=
  ⟨.ofList cs, none, [], true, [none], #[.streamStart]⟩

def inFlow (s : Stream) : Bool := 1 < s.keys.length

def emit (s : Stream) (t : Token) : Stream := { s with tokens := s.tokens.push t }

def moveTo (s : Stream) (c : Cursor) : Stream := { s with cursor := c }

def deeper (s : Stream) (column : Nat) : Bool := s.indent.all (· < column)

/-- Opens a block collection at a column that lies deeper, with its token at place `number`, or at
the end. -/
def roll (s : Stream) (column : Nat) (number : Option Nat) (t : Token) : Stream :=
  if !s.inFlow && s.deeper column then
    { s with
      outer := s.indent :: s.outer
      indent := some column
      tokens := match number with
        | some n => s.tokens.insertIdx! n t
        | none => s.tokens.push t }
  else s

/-- Closes the block collections deeper than a column; without a column, all of them. -/
def unroll (column : Option Nat) (s : Stream) : Stream :=
  if s.inFlow then s else go s s.indent s.outer
where
  /-- Closes one block collection after the other. -/
  go (s : Stream) : Option Nat → List (Option Nat) → Stream
    | some n, above :: outer =>
      if column.all (· < n) then
        go { s with indent := above, outer, tokens := s.tokens.push .blockEnd } above outer
      else s
    | _, _ => s

/-- Forgets the innermost possible key; a required one must not be forgotten. -/
def dropKey? (s : Stream) : Option Stream :=
  match s.keys with
  | some key :: rest => if key.required then none else some { s with keys := none :: rest }
  | _ => some s

def saveKey? (s : Stream) : Option Stream :=
  if s.keyAllowed then do
    let required := !s.inFlow && s.indent == some s.cursor.mark.column
    let s ← s.dropKey?
    return { s with keys := some ⟨s.tokens.size, s.cursor.mark, required⟩ :: s.keys.drop 1 }
  else some s

/-- Forgets a possible key that lies on an earlier line or too far back. -/
def expireKey? (here : Mark) : Option SimpleKey → Option (Option SimpleKey)
  | some key =>
    if key.mark.line < here.line || key.mark.index + 1024 < here.index then
      if key.required then none else some none
    else some (some key)
  | none => some none

def expireKeys? (s : Stream) : Option Stream := do
  let keys ← s.keys.mapM (expireKey? s.cursor.mark)
  return { s with keys }

/-- Moves to the next token, over white space, comments and line breaks; a byte order mark may start
a line. A line break outside flow collections allows keys again, and a tab is white space only where
no key may stand. -/
def toToken : Nat → Stream → Stream
  | 0, s => s
  | fuel + 1, s =>
    let c := s.cursor
    let c := if c.mark.column = 0 ∧ c.at? '\ufeff' then c.skip else c
    let c := c.skipWhile fun x => x == ' ' || (x == '\t' && (s.inFlow || !s.keyAllowed))
    let c := if c.at? '#' then c.skipWhile fun x => !isBreak x else c
    if c.head?.any isBreak then
      toToken fuel { s with cursor := c.skipBreak, keyAllowed := s.keyAllowed || !s.inFlow }
    else s.moveTo c

/-- A token of `width` characters that ends every block collection. -/
def topLevel? (s : Stream) (width : Nat) (t : Token) : Option Stream := do
  let s ← (s.unroll none).dropKey?
  return { s.emit t with keyAllowed := false, cursor := s.cursor.advance width }

def openFlow? (s : Stream) (t : Token) : Option Stream := do
  let s ← s.saveKey?
  return { s.emit t with keys := none :: s.keys, keyAllowed := true, cursor := s.cursor.skip }

def closeFlow? (s : Stream) (t : Token) : Option Stream := do
  let s ← s.dropKey?
  let keys := if s.inFlow then s.keys.drop 1 else s.keys
  return { s.emit t with keys, keyAllowed := false, cursor := s.cursor.skip }

def flowEntry? (s : Stream) : Option Stream := do
  let s ← s.dropKey?
  return { s.emit .flowEntry with keyAllowed := true, cursor := s.cursor.skip }

def blockEntry? (s : Stream) : Option Stream := do
  let s ←
    if s.inFlow then some s
    else if s.keyAllowed then some (s.roll s.cursor.mark.column none .blockSequenceStart)
    else none
  let s ← s.dropKey?
  return { s.emit .blockEntry with keyAllowed := true, cursor := s.cursor.skip }

def explicitKey? (s : Stream) : Option Stream := do
  let s ←
    if s.inFlow then some s
    else if s.keyAllowed then some (s.roll s.cursor.mark.column none .blockMappingStart)
    else none
  let s ← s.dropKey?
  return { s.emit .key with keyAllowed := !s.inFlow, cursor := s.cursor.skip }

/-- A colon: behind a simple key the key token goes in front of it, elsewhere it follows a complex
key. -/
def value? (s : Stream) : Option Stream := do
  let s ← match s.keys with
    | some key :: rest =>
      -- The mapping token is put in later and at the same place, so it stands in front of this one.
      let s := { s with tokens := s.tokens.insertIdx! key.token .key }
      let s := s.roll key.mark.column (some key.token) .blockMappingStart
      some { s with keys := none :: rest, keyAllowed := false }
    | _ =>
      if s.inFlow then some { s with keyAllowed := false }
      else if s.keyAllowed then
        some { s.roll s.cursor.mark.column none .blockMappingStart with keyAllowed := true }
      else none
  return { s.emit .value with cursor := s.cursor.skip }

def keyed? (s : Stream) (scan? : Cursor → Option (Token × Cursor)) : Option Stream := do
  let s ← s.saveKey?
  let (t, c) ← scan? s.cursor
  return { s.emit t with keyAllowed := false, cursor := c }

def blockScalar? (s : Stream) (literal : Bool) : Option Stream := do
  let s ← s.dropKey?
  let (t, c) ← Scalar.block? literal s.indent s.cursor
  return { s.emit t with keyAllowed := true, cursor := c }

/-- A plain scalar; line breaks at its end allow a key behind it. -/
def plainScalar? (s : Stream) : Option Stream := do
  let s ← s.saveKey?
  let least := match s.indent with
    | some n => n + 1
    | none => 0
  let (t, broken, c) ← Scalar.plain? s.inFlow least s.cursor
  return { s.emit t with keyAllowed := broken, cursor := c }

def directive? (s : Stream) : Option Stream := do
  let s ← (s.unroll none).dropKey?
  let (t, c) ← Token.scanDirective? s.cursor
  return { s.emit t with keyAllowed := false, cursor := c }

def startsPlain (inFlow : Bool) (x : Char) (next : Option Char) : Bool :=
  !("-?:,[]\x7b\x7d#&*!|>'\"%@\x60".toList.contains x || isSpace x || isBreak x) ||
    (x == '-' && !(next.any isSpace)) ||
    (!inFlow && (x == '?' || x == ':') && !isGap? next)

def token? (s : Stream) (x : Char) : Option Stream :=
  let c := s.cursor
  let next := c.peek? 1
  if c.mark.column = 0 ∧ x = '%' then s.directive?
  else if c.atMarker '-' then s.topLevel? 3 .documentStart
  else if c.atMarker '.' then s.topLevel? 3 .documentEnd
  else if x = '[' then s.openFlow? .flowSequenceStart
  else if x = '{' then s.openFlow? .flowMappingStart
  else if x = ']' then s.closeFlow? .flowSequenceEnd
  else if x = '}' then s.closeFlow? .flowMappingEnd
  else if x = ',' then s.flowEntry?
  else if x = '-' ∧ isGap? next then s.blockEntry?
  else if x = '?' ∧ (s.inFlow || isGap? next) then s.explicitKey?
  else if x = ':' ∧ (s.inFlow || isGap? next) then s.value?
  else if x = '*' then
    s.keyed? fun c => (Token.scanName? c).map fun (name, c) => (.reference name, c)
  else if x = '&' then
    s.keyed? fun c => (Token.scanName? c).map fun (name, c) => (.anchor name, c)
  else if x = '!' then s.keyed? (Token.scanTag? s.inFlow)
  else if x = '|' ∧ !s.inFlow then s.blockScalar? true
  else if x = '>' ∧ !s.inFlow then s.blockScalar? false
  else if x = '\'' then s.keyed? (Scalar.quoted? true)
  else if x = '"' then s.keyed? (Scalar.quoted? false)
  else if startsPlain s.inFlow x next then s.plainScalar?
  else none

def run? : Nat → Stream → Option (List Token)
  | 0, _ => none
  | fuel + 1, s => do
    let s := toToken (s.cursor.rest.length + 1) s
    let s ← s.expireKeys?
    let s := s.unroll (some s.cursor.mark.column)
    match s.cursor.head? with
    | none =>
      let s ← (s.unroll none).dropKey?
      return (s.emit .streamEnd).tokens.toList
    | some x =>
      let s ← s.token? x
      run? fuel s

end Stream

def tokens? (text : String) : Option (List Token) :=
  let cs := text.toList
  if cs.all isAllowed then (Stream.ofList cs).run? (cs.length + 2) else none

end CrewFlow.Yaml
