import CrewFlow.Text.Blank
/-!
# Search in texts

Occurrences of one text in another, scanned from the left without overlap: containment, the split
at the first and at the last occurrence, replacement and counting. All of them work on lists of
characters; the versions on `String` are wrappers.
-/
namespace CrewFlow.Text

def stripFront? : List Char → List Char → Option (List Char)
  | [], s => some s
  | _ :: _, [] => none
  | p :: ps, c :: cs => if p = c then stripFront? ps cs else none

def splitFirst? (pattern : List Char) : List Char → Option (List Char × List Char)
  | [] => (stripFront? pattern []).map ([], ·)
  | c :: cs =>
    match stripFront? pattern (c :: cs) with
    | some rest => some ([], rest)
    | none => (splitFirst? pattern cs).map fun (before, rest) => (c :: before, rest)

def splitLast? (pattern : List Char) : List Char → Option (List Char × List Char)
  | [] => (stripFront? pattern []).map ([], ·)
  | c :: cs =>
    match splitLast? pattern cs with
    | some (before, rest) => some (c :: before, rest)
    | none => (stripFront? pattern (c :: cs)).map ([], ·)

/-- Scans for `pattern` from the left; `skip` characters still belong to the last occurrence. -/
def replaceFrom (pattern replacement : List Char) : Nat → List Char → List Char
  | _, [] => []
  | skip + 1, _ :: cs => replaceFrom pattern replacement skip cs
  | 0, c :: cs =>
    match stripFront? pattern (c :: cs) with
    | some _ => replacement ++ replaceFrom pattern replacement (pattern.length - 1) cs
    | none => c :: replaceFrom pattern replacement 0 cs

/-- The number of occurrences without overlap, with `skip` as in `replaceFrom`. -/
def countFrom (pattern : List Char) : Nat → List Char → Nat
  | _, [] => 0
  | skip + 1, _ :: cs => countFrom pattern skip cs
  | 0, c :: cs =>
    match stripFront? pattern (c :: cs) with
    | some _ => countFrom pattern (pattern.length - 1) cs + 1
    | none => countFrom pattern 0 cs

def contains (s pattern : String) : Bool := (splitFirst? pattern.toList s.toList).isSome

/-- Every occurrence of `pattern`, which is not empty, replaced. -/
def replaceAll (s pattern replacement : String) : String :=
  String.ofList (replaceFrom pattern.toList replacement.toList 0 s.toList)

def count (s pattern : String) : Nat := countFrom pattern.toList 0 s.toList

def splitOnce? (s pattern : String) : Option (String × String) :=
  (splitFirst? pattern.toList s.toList).map fun (a, b) => (String.ofList a, String.ofList b)

def pieces (separator : Char) : List Char → List (List Char)
  | [] => [[]]
  | c :: cs =>
    if c = separator then [] :: pieces separator cs
    else
      match pieces separator cs with
      | [] => [[c]]
      | p :: ps => (c :: p) :: ps

/-- The first line: up to a line feed, without a carriage return before it. -/
def firstLine (s : String) : String :=
  let cs := s.toList
  let line := cs.takeWhile (· ≠ '\n')
  let line := if line.getLast? = some '\r' then line.dropLast else line
  String.ofList line

def dropBack (c : Char) (s : List Char) : List Char :=
  (s.reverse.dropWhile (· == c)).reverse

def dropEnds (c : Char) (s : List Char) : List Char := dropBack c (s.dropWhile (· == c))

def lowerAscii (s : String) : String := String.ofList (s.toList.map Char.toLower)

def upperAscii (s : String) : String := String.ofList (s.toList.map Char.toUpper)

end CrewFlow.Text
