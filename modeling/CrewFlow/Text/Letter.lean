import CrewFlow.Text.LetterTable
/-!
# Letters, digits and case

Which characters belong to words, which are decimal digits, and the lower case of a text. The
tables hold the characters beyond ASCII.
-/
namespace CrewFlow.Text

def inRanges (ranges : Array (Nat × Nat)) (n : Nat) : Bool :=
  ranges.any fun r => r.1 ≤ n && n ≤ r.2

def isWordLetter (c : Char) : Bool :=
  if c.toNat < 0x80 then c.isAlphanum else inRanges wordRanges c.toNat

def isDecimalDigit (c : Char) : Bool :=
  if c.toNat < 0x80 then c.isDigit else inRanges digitRanges c.toNat

def isCased (c : Char) : Bool :=
  if c.toNat < 0x80 then c.isAlpha else inRanges casedRanges c.toNat

def lowerChar (c : Char) : List Char :=
  let n := c.toNat
  if n < 0x80 then [c.toLower]
  else if c = '\u0130' then ['i', '\u0307']
  else
    match lowerRanges.find? fun (low, high, step, _) =>
        low ≤ n && n ≤ high && (n - low) % step == 0 with
    | some (_, _, _, distance) => [Char.ofNat (n + distance).toNat]
    | none => [c]

/-- A character that counts for nothing when the case of a word is told. -/
def isCaseless (c : Char) : Bool := inRanges caselessRanges c.toNat

def startsCased (cs : List Char) : Bool := (cs.dropWhile isCaseless).head?.any isCased

/-- The lower case of a text behind the characters `before`, the last of them first. A capital sigma
that ends a word becomes a final sigma. -/
def lowerFrom (before : List Char) : List Char → List Char
  | [] => []
  | c :: cs =>
    let lowered :=
      if c = '\u03a3' then
        if startsCased before && !startsCased cs then ['\u03c2'] else ['\u03c3']
      else lowerChar c
    lowered ++ lowerFrom (c :: before) cs

def lower (s : List Char) : List Char := lowerFrom [] s

/-- The maximal runs of word letters; `word` holds the run that is being read, last first. -/
def letterRunsFrom (word : List Char) : List Char → List (List Char)
  | [] => if word.isEmpty then [] else [word.reverse]
  | c :: cs =>
    if isWordLetter c then letterRunsFrom (c :: word) cs
    else if word.isEmpty then letterRunsFrom [] cs
    else word.reverse :: letterRunsFrom [] cs

/-- The maximal runs of word letters in a text. -/
def letterRuns (s : String) : List (List Char) := letterRunsFrom [] s.toList

end CrewFlow.Text
