/-!
# Spans of time

Lengths of time in whole milliseconds and their text in messages: seconds with the decimals they
need, or milliseconds below one second.
-/
namespace CrewFlow.Time

def trimZeros (digits : List Char) : List Char := (digits.reverse.dropWhile (· == '0')).reverse

def spanText (ms : Nat) : String :=
  if ms = 0 then "0ns"
  else if ms < 1000 then toString ms ++ "ms"
  else
    let rest := ms % 1000
    let decimals := trimZeros ((toString (1000 + rest)).toList.drop 1)
    toString (ms / 1000) ++
      (if decimals.isEmpty then "" else "." ++ String.ofList decimals) ++ "s"

end CrewFlow.Time
