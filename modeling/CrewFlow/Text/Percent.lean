import CrewFlow.Json.Parser
import CrewFlow.Text.Search
/-!
# Percent coding

Texts in which a percent sign and two hexadecimal digits stand for a byte, as in paths and queries of
web addresses. A percent sign without digits behind it stands for itself.
-/
namespace CrewFlow.Text

def percentBytes : List Char → List UInt8
  | [] => []
  | '%' :: a :: b :: rest =>
    match Json.hexValue? a, Json.hexValue? b with
    | some high, some low => UInt8.ofNat (high * 16 + low) :: percentBytes rest
    | _, _ => '%'.toUInt8 :: percentBytes (a :: b :: rest)
  | c :: rest => (String.singleton c).toUTF8.toList ++ percentBytes rest

/-- The text that a coded text stands for, if its bytes are one. -/
def percentDecode? (s : String) : Option String :=
  String.fromUTF8? (percentBytes s.toList).toByteArray

/-- The text that a part of a query stands for: a plus sign is a space there. -/
def queryDecode? (cs : List Char) : Option String :=
  percentDecode? (String.ofList (cs.map fun c => if c = '+' then ' ' else c))

/-- The names and values of a query, which are separated by ampersands. A part that is no text is
none. -/
def queryEntries (query : String) : List (Option String × Option String) :=
  ((pieces '&' query.toList).filter fun p => !p.isEmpty).map fun p =>
    (queryDecode? (p.takeWhile (· ≠ '=')), queryDecode? ((p.dropWhile (· ≠ '=')).drop 1))

end CrewFlow.Text
