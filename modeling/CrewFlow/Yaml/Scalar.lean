import CrewFlow.Yaml.Token
/-!
# Scalars of a YAML text

Scanning of plain, quoted and block scalars: line breaks inside a scalar are folded, escapes and
indentation are taken away.
-/
namespace CrewFlow.Yaml

/-- White space inside a scalar: spaces of one line, or line breaks with the first one apart. -/
structure Gap where
  spaces : List Char
  firstBreak : List Char
  moreBreaks : List Char
  broken : Bool

def Gap.none : Gap := ⟨[], [], [], false⟩

/-- What white space becomes: spaces stay, a single line feed is a space, of several line feeds the
first is dropped, and other breaks stay. -/
def Gap.folded (g : Gap) : List Char :=
  if g.broken then
    if g.firstBreak.head? == some '\n' then
      if g.moreBreaks.isEmpty then [' '] else g.moreBreaks
    else g.firstBreak ++ g.moreBreaks
  else g.spaces

/-- Reads spaces and line breaks. A tab left of `indent` at the start of a line is an error when
`indent` is given. -/
def Gap.scan? (indent : Option Nat) : Nat → Gap → Cursor → Option (Gap × Cursor)
  | 0, _, _ => Option.none
  | fuel + 1, g, c =>
    match c.head? with
    | some x =>
      if isSpace x then
        if g.broken then
          if x == '\t' && indent.any (c.mark.column < ·) then Option.none
          else Gap.scan? indent fuel g c.skip
        else Gap.scan? indent fuel { g with spaces := g.spaces ++ [x] } c.skip
      else if isBreak x then
        let (text, c) := c.takeBreak
        if g.broken then
          Gap.scan? indent fuel { g with moreBreaks := g.moreBreaks ++ text } c
        else Gap.scan? indent fuel { g with spaces := [], firstBreak := text, broken := true } c
      else some (g, c)
    | Option.none => some (g, c)

namespace Scalar

/-! ## Quoted scalars -/

def escape? (c : Char) : Option Char :=
  match c with
  | '0' => some '\x00'
  | 'a' => some '\x07'
  | 'b' => some '\x08'
  | 't' => some '\t'
  | '\t' => some '\t'
  | 'n' => some '\n'
  | 'v' => some '\x0b'
  | 'f' => some '\x0c'
  | 'r' => some '\r'
  | 'e' => some '\x1b'
  | ' ' => some ' '
  | '"' => some '"'
  | '/' => some '/'
  | '\\' => some '\\'
  | 'N' => some '\u0085'
  | '_' => some '\u00a0'
  | 'L' => some '\u2028'
  | 'P' => some '\u2029'
  | _ => none

def escapeWidth? (c : Char) : Option Nat :=
  match c with
  | 'x' => some 2
  | 'u' => some 4
  | 'U' => some 8
  | _ => none

def codeChar? (digits : List Char) : Option Char := do
  let values ← digits.mapM Token.hexValue?
  let code := values.foldl (fun n d => n * 16 + d) 0
  if code.isValidChar then return Char.ofNat code else none

/-- The characters of a quoted scalar up to white space or its closing quote, put behind `seen`,
last first. The Boolean tells of an escaped line break at the end. -/
def quotedRun? (single : Bool) (seen : List Char) :
    Nat → Cursor → Option (List Char × Bool × Cursor)
  | 0, _ => none
  | fuel + 1, c =>
    match c.head? with
    | none => some (seen, false, c)
    | some x =>
      if isSpace x || isBreak x then some (seen, false, c)
      else if single then
        if x = '\'' then
          if c.peek? 1 = some '\'' then quotedRun? single ('\'' :: seen) fuel (c.advance 2)
          else some (seen, false, c)
        else quotedRun? single (x :: seen) fuel c.skip
      else if x = '"' then some (seen, false, c)
      else if x = '\\' then
        match c.peek? 1 with
        | none => none
        | some e =>
          if isBreak e then some (seen, true, c.skip.skipBreak)
          else
            match escape? e, escapeWidth? e with
            | some d, _ => quotedRun? single (d :: seen) fuel (c.advance 2)
            | none, some width =>
              let digits := (c.rest.drop 2).take width
              if digits.length = width then
                match codeChar? digits with
                | some d => quotedRun? single (d :: seen) fuel (c.advance (2 + width))
                | none => none
              else none
            | none, none => none
      else quotedRun? single (x :: seen) fuel c.skip

/-- A quoted scalar behind its opening quote, put behind `seen`, last character first. -/
def quotedTail? (single : Bool) (seen : List Char) :
    Nat → Cursor → Option (List Char × Cursor)
  | 0, _ => none
  | fuel + 1, c => do
    if c.atDocumentMarker || c.rest.isEmpty then none
    let (seen, escaped, c) ← quotedRun? single seen (c.rest.length + 1) c
    if c.at? (if single then '\'' else '"') then return (seen.reverse, c.skip)
    let (gap, c) ← Gap.scan? none (c.rest.length + 1) { Gap.none with broken := escaped } c
    quotedTail? single (gap.folded.reverse ++ seen) fuel c

def quoted? (single : Bool) (c : Cursor) : Option (Token × Cursor) :=
  (quotedTail? single [] (c.rest.length + 1) c.skip).map fun (text, c) => (.scalar text .quoted, c)

/-! ## Plain scalars -/

def isFlowIndicator (c : Char) : Bool := ",[]\x7b\x7d".toList.contains c

/-- The characters of a plain scalar up to white space or an indicator that ends it. A colon
straight before a flow indicator is an error inside flow collections. -/
def plainRun? (flow : Bool) (seen : List Char) : Nat → Cursor → Option (List Char × Cursor)
  | 0, _ => none
  | fuel + 1, c =>
    match c.head? with
    | none => some (seen, c)
    | some x =>
      if isSpace x || isBreak x then some (seen, c)
      else
        let next := c.peek? 1
        if flow && x == ':' && next.any (fun y => isFlowIndicator y || y == '?') then none
        else if (x == ':' && isGap? next) || (flow && isFlowIndicator x) then some (seen, c)
        else plainRun? flow (x :: seen) fuel c.skip

/-- The rest of a plain scalar behind `seen`, last character first, and the white space `gap` after
it. Also tells whether the scalar ends in line breaks. -/
def plainTail? (flow : Bool) (indent : Nat) (seen : List Char) (gap : Gap) :
    Nat → Cursor → Option (List Char × Bool × Cursor)
  | 0, _ => none
  | fuel + 1, c => do
    if c.atDocumentMarker || c.at? '#' then return (seen.reverse, gap.broken, c)
    let (run, after) ← plainRun? flow [] (c.rest.length + 1) c
    let (seen, gap) :=
      if run.isEmpty then (seen, gap) else (run ++ gap.folded.reverse ++ seen, Gap.none)
    if after.rest.isEmpty || !isGap? after.head? then return (seen.reverse, gap.broken, after)
    let (gap, c) ← Gap.scan? (some indent) (after.rest.length + 1) gap after
    if !flow && c.mark.column < indent then return (seen.reverse, gap.broken, c)
    plainTail? flow indent seen gap fuel c

/-- A plain scalar that must be indented by `indent`; tells whether it ends in line breaks. -/
def plain? (flow : Bool) (indent : Nat) (c : Cursor) : Option (Token × Bool × Cursor) :=
  (plainTail? flow indent [] Gap.none (c.rest.length + 1) c).map fun (text, broken, c) =>
    (.scalar text .plain, broken, c)

/-! ## Block scalars -/

/-- What happens to the line breaks at the end of a block scalar. -/
inductive Chomping where
  | strip
  | clip
  | keep
  deriving DecidableEq, Repr

def chomping? : Option Char → Option Chomping
  | some '+' => some .keep
  | some '-' => some .strip
  | _ => none

def indentation? : Option Char → Option Nat
  | some c => if c.isDigit then some (c.toNat - 48) else none
  | none => none

/-- The indicators of a block scalar in either order. Zero is no indentation. -/
def blockHeader? (c : Cursor) : Option (Chomping × Option Nat × Cursor) :=
  match chomping? c.head? with
  | some chomping =>
    match indentation? c.skip.head? with
    | some 0 => none
    | some n => some (chomping, some n, c.skip.skip)
    | none => some (chomping, none, c.skip)
  | none =>
    match indentation? c.head? with
    | some 0 => none
    | some n =>
      match chomping? c.skip.head? with
      | some chomping => some (chomping, some n, c.skip.skip)
      | none => some (.clip, some n, c.skip)
    | none => some (.clip, none, c)

/-- Indentation and empty lines before a line of a block scalar; also the deepest column seen. A
tab in place of indentation is an error. -/
def blockBreaks? (indent : Option Nat) (breaks : List Char) (deepest : Nat) :
    Nat → Cursor → Option (List Char × Nat × Cursor)
  | 0, _ => none
  | fuel + 1, c =>
    let room := match indent with
      | some n => n - c.mark.column
      | none => c.rest.length
    let c := c.advance (min room (c.rest.takeWhile (· == ' ')).length)
    let deepest := max deepest c.mark.column
    if indent.all (c.mark.column < ·) && c.at? '\t' then none
    else if c.head?.any isBreak then
      let (text, c) := c.takeBreak
      blockBreaks? indent (breaks ++ text) deepest fuel c
    else some (breaks, deepest, c)

/-- The lines of a block scalar: `lead` is the break behind the last line, `breaks` are those of
empty lines after it, and `wasBlank` says that the last line began with white space. -/
def blockLines? (literal : Bool) (indent : Nat) (seen lead breaks : List Char) (wasBlank : Bool) :
    Nat → Cursor → Option (List Char × List Char × List Char × Cursor)
  | 0, _ => none
  | fuel + 1, c =>
    if c.mark.column = indent ∧ !c.rest.isEmpty then do
      let blank := c.head?.any isSpace
      let joined :=
        if !literal && lead.head? == some '\n' && !wasBlank && !blank then
          if breaks.isEmpty then [' '] else breaks
        else lead ++ breaks
      let (line, c) := c.takeWhile fun x => !isBreak x
      let (lead, c) := c.takeBreak
      let (breaks, _, c) ← blockBreaks? (some indent) [] 0 (c.rest.length + 1) c
      blockLines? literal indent (line.reverse ++ joined.reverse ++ seen) lead breaks blank fuel c
    else some (seen, lead, breaks, c)

/-- A block scalar inside a collection indented by `parent`, if any. -/
def block? (literal : Bool) (parent : Option Nat) (c : Cursor) : Option (Token × Cursor) := do
  let (chomping, given, c) ← blockHeader? c.skip
  let c := c.skipComment
  if !isLineEnd? c.head? then none
  let c := c.skipBreak
  let indent := given.map (parent.getD 0 + ·)
  let (breaks, deepest, c) ← blockBreaks? indent [] 0 (c.rest.length + 1) c
  let least := match parent with
    | some n => n + 1
    | none => 1
  -- Where none is given, it is that of the first line, unless an empty line before it goes deeper.
  let indent := indent.getD (max deepest least)
  let (seen, lead, breaks, c) ←
    blockLines? literal indent [] [] breaks false (c.rest.length + 1) c
  let tail := match chomping with
    | .strip => []
    | .clip => lead
    | .keep => lead ++ breaks
  return (.scalar (seen.reverse ++ tail) (if literal then .literal else .folded), c)

end Scalar

end CrewFlow.Yaml
