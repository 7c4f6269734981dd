import CrewFlow.Yaml.Cursor
/-!
# Tokens of a YAML text

The tokens, and the scanning of those that are not scalars: directives, anchors, aliases and tags.
A scan that fails yields nothing; why it failed is never told.
-/
namespace CrewFlow.Yaml

/-- How a scalar is written. -/
inductive Style where
  | plain
  | quoted
  | literal
  | folded
  deriving DecidableEq, Repr

/-- The address of a tag in octets. Escapes may put any octet into it. -/
abbrev Address := List UInt8

/-- The part of an address that counts: what is in front of the first zero octet. -/
def counted (address : Address) : Address := address.takeWhile (· ≠ 0)

inductive Token where
  | streamStart
  | streamEnd
  | versionDirective (major minor : Nat)
  | tagDirective (handle : List Char) (lead : Address)
  | documentStart
  | documentEnd
  | blockSequenceStart
  | blockMappingStart
  | blockEnd
  | flowSequenceStart
  | flowSequenceEnd
  | flowMappingStart
  | flowMappingEnd
  | blockEntry
  | flowEntry
  | key
  | value
  | reference (name : List Char)
  | anchor (name : List Char)
  | tag (handle : List Char) (suffix : Address)
  | scalar (text : List Char) (style : Style)
  deriving DecidableEq, Repr

namespace Token

/-- A run of at most nine digits. -/
def scanVersionNumber? (c : Cursor) : Option (Nat × Cursor) :=
  let (digits, c) := c.takeWhile Char.isDigit
  if digits.isEmpty || 9 < digits.length then none
  else some (digits.foldl (fun n d => n * 10 + (d.toNat - 48)) 0, c)

def hexValue? (c : Char) : Option Nat :=
  if '0' ≤ c ∧ c ≤ '9' then some (c.toNat - 48)
  else if 'a' ≤ c ∧ c ≤ 'f' then some (c.toNat - 87)
  else if 'A' ≤ c ∧ c ≤ 'F' then some (c.toNat - 55)
  else none

def scanOctet? (c : Cursor) : Option (UInt8 × Cursor) :=
  match c.rest with
  | '%' :: a :: b :: _ => do
    let a ← hexValue? a
    let b ← hexValue? b
    return (UInt8.ofNat (a * 16 + b), c.advance 3)
  | _ => none

def trailingCount? (lead : UInt8) : Option Nat :=
  if lead < 0x80 then some 0
  else if lead / 32 = 6 then some 1
  else if lead / 16 = 14 then some 2
  else if lead / 8 = 30 then some 3
  else none

/-- Trailing octets of an escaped character, put behind those in `seen`, the last first. -/
def scanTrailing? (seen : Address) : Nat → Cursor → Option (Address × Cursor)
  | 0, c => some (seen, c)
  | n + 1, c => do
    let (octet, c) ← scanOctet? c
    if octet / 64 = 2 then scanTrailing? (octet :: seen) n c else none

/-- The octets of an escaped character, put behind those in `seen`, the last first. They need the
shape of a character in UTF-8, but may stand for none. -/
def scanEscaped? (seen : Address) (c : Cursor) : Option (Address × Cursor) := do
  let (lead, c) ← scanOctet? c
  scanTrailing? (lead :: seen) (← trailingCount? lead) c

/-- The characters of a tag's address; a verbatim address also holds flow indicators. -/
def isAddressChar (verbatim : Bool) (c : Char) : Bool :=
  isWordChar c || ";/?:@&=+$.%!~*'()".toList.contains c || (verbatim && ",[]".toList.contains c)

/-- The address of a tag, put behind `seen`, the last octet first. -/
def scanAddress? (verbatim : Bool) (seen : Address) : Nat → Cursor → Option (Address × Cursor)
  | 0, _ => none
  | fuel + 1, c =>
    match c.head? with
    | some x =>
      if x = '%' then do
        let (seen, c) ← scanEscaped? seen c
        scanAddress? verbatim seen fuel c
      else if isAddressChar verbatim x then scanAddress? verbatim (x.toUInt8 :: seen) fuel c.skip
      else some (seen.reverse, c)
    | none => some (seen.reverse, c)

/-- A tag's address behind the part of it that was read as a handle. It may be empty only when
that part was there. -/
def scanSuffix? (verbatim : Bool) (head : List Char) (c : Cursor) : Option (Address × Cursor) := do
  let (more, c') ← scanAddress? verbatim [] (c.rest.length + 1) c
  if head.isEmpty && more.isEmpty then none
  else return ((head.drop 1).map Char.toUInt8 ++ more, c')

/-- An exclamation mark, a word and, when it is there, a second mark. -/
def scanHandle? (c : Cursor) : Option (List Char × Cursor) :=
  if c.at? '!' then
    let (word, c) := c.skip.takeWhile isWordChar
    if c.at? '!' then some ('!' :: word ++ ['!'], c.skip) else some ('!' :: word, c)
  else none

/-- A directive: `%YAML` or `%TAG`, to the end of its line. -/
def scanDirective? (c : Cursor) : Option (Token × Cursor) := do
  let (name, c) := c.skip.takeWhile isWordChar
  if name.isEmpty || !isGap? c.head? then none
  let c := c.skipWhile isSpace
  let (token, c) ←
    if name = "YAML".toList then do
      let (major, c) ← scanVersionNumber? c
      if !c.at? '.' then none
      let (minor, c) ← scanVersionNumber? c.skip
      some (Token.versionDirective major minor, c)
    else if name = "TAG".toList then do
      let (handle, c) ← scanHandle? c
      if handle ≠ ['!'] && (handle.length < 2 || handle.getLast? ≠ some '!') then none
      if !(c.head?.any isSpace) then none
      let (lead, c) ← scanSuffix? true [] (c.skipWhile isSpace)
      if !isGap? c.head? then none
      some (Token.tagDirective handle lead, c)
    else none
  let c := c.skipComment
  if isLineEnd? c.head? then return (token, c.skipBreak) else none

def scanName? (c : Cursor) : Option (List Char × Cursor) :=
  let (name, c) := c.skip.takeWhile isWordChar
  if !name.isEmpty && (isGap? c.head? || c.head?.any fun x => "?:,]\x7d%@\x60".toList.contains x) then
    some (name, c)
  else none

/-- A tag: verbatim, or a handle with a suffix. A lone exclamation mark has no handle. -/
def scanTag? (flow : Bool) (c : Cursor) : Option (Token × Cursor) := do
  let (handle, suffix, c) ←
    if c.peek? 1 = some '<' then do
      let (suffix, c) ← scanSuffix? true [] (c.advance 2)
      if !c.at? '>' then none
      some ([], suffix, c.skip)
    else do
      let (handle, c) ← scanHandle? c
      if 2 ≤ handle.length && handle.getLast? = some '!' then do
        let (suffix, c) ← scanSuffix? false [] c
        some (handle, suffix, c)
      else do
        let (suffix, c) ← scanSuffix? false handle c
        if (counted suffix).isEmpty then some ([], [0x21], c) else some (['!'], suffix, c)
  if isGap? c.head? || (flow && c.at? ',') then return (.tag handle suffix, c) else none

end Token

end CrewFlow.Yaml
