import CrewFlow.Json.Parser
/-!
# Skipping JSON values

What follows a value that nobody wants. Only the form of the value is checked: numbers may be as
large, escaped characters as odd and nesting as deep as they like.
-/
namespace CrewFlow.Json

def skipString? : Nat → List Char → Option (List Char)
  | 0, _ => none
  | _, [] => none
  | fuel + 1, c :: cs =>
    if c = '"' then some cs
    else if c = '\\' then
      match cs with
      | 'u' :: rest => do skipString? fuel (← hexQuad? rest).2
      | e :: rest => if (simpleEscape? e).isSome then skipString? fuel rest else none
      | [] => none
    else if c.toNat < 0x20 then none
    else skipString? fuel cs

/-- What follows digits; there must be one. -/
def skipDigits? (cs : List Char) : Option (List Char) :=
  let rest := cs.dropWhile Char.isDigit
  if rest.length < cs.length then some rest else none

def skipPower? : List Char → Option (List Char)
  | c :: rest =>
    if c = 'e' ∨ c = 'E' then skipDigits? (Decimal.takeSign rest).2 else some (c :: rest)
  | [] => some []

def skipNumber? (cs : List Char) : Option (List Char) := do
  let rest ← match cs with
    | '0' :: rest => if (rest.head?.map Char.isDigit).getD false then none else some rest
    | _ => skipDigits? cs
  match rest with
  | '.' :: rest => skipPower? (← skipDigits? rest)
  | _ => skipPower? rest

mutual

def skip? (fuel : Nat) (cs : List Char) : Option (List Char) :=
  match fuel with
  | 0 => none
  | fuel + 1 =>
    match skipSpace cs with
    | [] => none
    | c :: rest =>
      if c = '"' then skipString? (rest.length + 1) rest
      else if c = '-' then skipNumber? rest
      else if c.isDigit then skipNumber? (c :: rest)
      else if c = '[' then
        match skipSpace rest with
        | ']' :: rest => some rest
        | rest => skipItems? fuel rest
      else if c = '{' then
        match skipSpace rest with
        | '}' :: rest => some rest
        | rest => skipFields? fuel rest
      else (value? 1 0 (c :: rest)).map (·.2)

def skipItems? (fuel : Nat) (cs : List Char) : Option (List Char) :=
  match fuel with
  | 0 => none
  | fuel + 1 => do
    match skipSpace (← skip? fuel cs) with
    | ',' :: rest => skipItems? fuel rest
    | ']' :: rest => some rest
    | _ => none

def skipFields? (fuel : Nat) (cs : List Char) : Option (List Char) :=
  match fuel with
  | 0 => none
  | fuel + 1 => do
    match skipSpace cs with
    | '"' :: rest =>
      match skipSpace (← skipString? (rest.length + 1) rest) with
      | ':' :: rest =>
        match skipSpace (← skip? fuel rest) with
        | ',' :: rest => skipFields? fuel rest
        | '}' :: rest => some rest
        | _ => none
      | _ => none
    | _ => none

end

def skipValue? (cs : List Char) : Option (List Char) := skip? (2 * cs.length + 2) cs

end CrewFlow.Json
