/-!
# Position in a YAML text

The rest of a text together with its place, and the classes of characters that the tokens are made
of. The end of the text counts as a blank and as a break wherever a class says so.
-/
namespace CrewFlow.Yaml

/-- A place in a text: the octets before it, its line and its column, all counted from zero. -/
structure Mark where
  index : Nat
  line : Nat
  column : Nat
  deriving DecidableEq, Repr

/-- What is left of a text, and where it stands. -/
structure Cursor where
  rest : List Char
  mark : Mark

def isSpace (c : Char) : Bool := c == ' ' || c == '\t'

def isBreak (c : Char) : Bool :=
  c == '\n' || c == '\r' || c == '\u0085' || c == '\u2028' || c == '\u2029'

def isGap? : Option Char → Bool
  | some c => isSpace c || isBreak c
  | none => true

def isLineEnd? : Option Char → Bool
  | some c => isBreak c
  | none => true

/-- A letter of a handle, an anchor or a directive: ASCII letters, digits, underscore, hyphen. -/
def isWordChar (c : Char) : Bool := c.isAlphanum || c == '_' || c == '-'

def isAllowed (c : Char) : Bool :=
  let n := c.toNat
  n == 0x09 || n == 0x0A || n == 0x0D || (0x20 ≤ n && n ≤ 0x7E) || n == 0x85 ||
    (0xA0 ≤ n && n ≤ 0xFFFD) || 0x10000 ≤ n

namespace Cursor

def ofList (cs : List Char) : Cursor := ⟨cs, ⟨0, 0, 0⟩⟩

def peek? (c : Cursor) (n : Nat) : Option Char := c.rest[n]?

def head? (c : Cursor) : Option Char := c.rest.head?

def at? (c : Cursor) (x : Char) : Bool := c.head? == some x

def octetCount (cs : List Char) : Nat := cs.foldl (fun n x => n + x.utf8Size) 0

/-- Moves over `n` characters of one line. -/
def advance (c : Cursor) (n : Nat) : Cursor :=
  let passed := c.rest.take n
  let mark :=
    { c.mark with
      index := c.mark.index + octetCount passed
      column := c.mark.column + passed.length }
  ⟨c.rest.drop n, mark⟩

def skip (c : Cursor) : Cursor := c.advance 1

def takeWhile (c : Cursor) (p : Char → Bool) : List Char × Cursor :=
  let taken := c.rest.takeWhile p
  (taken, c.advance taken.length)

def skipWhile (c : Cursor) (p : Char → Bool) : Cursor := (c.takeWhile p).2

/-- A line break as it enters a scalar, and the place behind it: all breaks become line feeds but
the line and paragraph separators, which stay. -/
def takeBreak (c : Cursor) : List Char × Cursor :=
  let next (n : Nat) : Cursor :=
    ⟨c.rest.drop n, ⟨c.mark.index + octetCount (c.rest.take n), c.mark.line + 1, 0⟩⟩
  match c.rest with
  | '\r' :: '\n' :: _ => (['\n'], next 2)
  | x :: _ =>
    if x = '\u2028' ∨ x = '\u2029' then ([x], next 1)
    else if isBreak x then (['\n'], next 1)
    else ([], c)
  | [] => ([], c)

def skipBreak (c : Cursor) : Cursor := c.takeBreak.2

def skipComment (c : Cursor) : Cursor :=
  let c := c.skipWhile isSpace
  if c.at? '#' then c.skipWhile fun x => !isBreak x else c

/-- Whether a line starts here with the three characters of a document marker. -/
def atMarker (c : Cursor) (x : Char) : Bool :=
  c.mark.column == 0 && c.rest.take 3 == [x, x, x] && isGap? (c.peek? 3)

def atDocumentMarker (c : Cursor) : Bool := c.atMarker '-' || c.atMarker '.'

end Cursor

end CrewFlow.Yaml
