import CrewFlow.Text.HiddenTable
/-!
# Quoted texts in messages

A text in double quotes for a message: quotes, backslashes and characters that do not show are
written as escapes.
-/
namespace CrewFlow.Text

def hexText (n : Nat) : String := String.ofList (Nat.toDigits 16 n)

def showChar (c : Char) : String :=
  if c = '"' then "\\\""
  else if c = '\\' then "\\\\"
  else if c = '\t' then "\\t"
  else if c = '\r' then "\\r"
  else if c = '\n' then "\\n"
  else if c = '\x00' then "\\0"
  else if hiddenRanges.any fun r => r.1 ≤ c.toNat && c.toNat ≤ r.2 then
    "\\u\x7b" ++ hexText c.toNat ++ "\x7d"
  else c.toString

def quoted (s : String) : String := "\"" ++ String.join (s.toList.map showChar) ++ "\""

end CrewFlow.Text
