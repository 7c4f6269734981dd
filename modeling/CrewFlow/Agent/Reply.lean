import CrewFlow.Json.Parser
import CrewFlow.Text.Letter
import CrewFlow.Text.Search
/-!
# Replies of a model

A reply asks for a tool or gives the final answer. A final answer wins over everything else in the
reply; a call of a tool is the word `Action` with the name of the tool and, on a later line, the
words `Action Input` with its input. Anything else is answered with advice on the format.
-/
namespace CrewFlow.Agent

open Text (isBlank isDecimalDigit trim trimChars)

/-- A reply that has been read. -/
inductive Reply where
  | action (thought tool input : String)
  | finish (thought output : String)
  deriving DecidableEq, Repr

/-- What is wrong with a reply that follows neither format. -/
inductive ReplyFault where
  | noAction
  | noInput
  | unclear
  deriving DecidableEq, Repr

def ReplyFault.advice : ReplyFault → String
  | .noAction =>
    "I couldn't find an Action after the Thought.\nYou MUST use the following format:\nThought: [your thought]\nFinal Answer: [your final answer]"
  | .noInput => "I found an Action but couldn't find a valid Action Input right after it."
  | .unclear => "Could not parse the output. Please use the correct format."

def finalAnswer : String := "Final Answer:"

def fence : String := "```"

def skipCount (s : List Char) : List Char :=
  ((s.dropWhile isBlank).dropWhile isDecimalDigit).dropWhile isBlank

def afterColon? : List Char → Option (List Char)
  | ':' :: rest => some rest
  | _ => none

/-- What follows `Action`, a number if there is one, and a colon at the front of a text. -/
def afterAction? (s : List Char) : Option (List Char) :=
  (Text.stripFront? "Action".toList s).bind fun rest => afterColon? (skipCount rest)

/-- What follows `Action Input`, with numbers if there are any, and a colon at the front. -/
def afterInput? (s : List Char) : Option (List Char) :=
  (Text.stripFront? "Action".toList s).bind fun rest =>
    (Text.stripFront? "Input".toList (skipCount rest)).bind fun rest => afterColon? (skipCount rest)

/-- What follows `Action Input:` at the start of a line, with white space in front of that line. -/
def inputLine? (s : List Char) : Option (List Char) :=
  let blanks := s.takeWhile isBlank
  if blanks.getLast? = some '\n' ∨ blanks.getLast? = some '\r' then
    afterInput? (s.drop blanks.length)
  else none

/-- The shortest text of at least one character before a line with `Action Input:`, behind `seen`,
and what follows that line's colon. -/
def upToInput? (seen : List Char) : List Char → Option (List Char × List Char)
  | [] => none
  | c :: cs =>
    match inputLine? cs with
    | some rest => some ((c :: seen).reverse, rest)
    | none => upToInput? (c :: seen) cs

/-- Tries to leave out the white space in front of a text, then ever less of it. -/
def toolAndInput? (s : List Char) : Nat → Option (List Char × List Char)
  | 0 => upToInput? [] s
  | n + 1 =>
    match upToInput? [] (s.drop (n + 1)) with
    | some found => some found
    | none => toolAndInput? s n

def call? : List Char → Option (List Char × List Char)
  | [] => none
  | c :: cs =>
    let here := (afterAction? (c :: cs)).bind fun rest =>
      toolAndInput? rest (rest.takeWhile isBlank).length
    match here with
    | some found => some found
    | none => call? cs

def somewhere (test : List Char → Bool) : List Char → Bool
  | [] => test []
  | c :: cs => test (c :: cs) || somewhere test cs

/-- The text before the first line that starts with `Action`, else with `Final Answer`, without
fences and white space around it. -/
def thoughtOf (text : String) : String :=
  match (Text.splitOnce? text "\nAction").or (Text.splitOnce? text "\nFinal Answer") with
  | some (before, _) => trim (Text.replaceAll before fence "")
  | none => ""

/-- Drops a fence at the end that closes nothing. -/
def dropLoneFence (s : String) : String :=
  if fence.toList.isSuffixOf s.toList && Text.count s fence % 2 ≠ 0 then
    String.ofList (Text.trimEnd (s.toList.take (s.toList.length - 3)))
  else s

/-- Replaces triple quotes by single ones where that gives JSON. A text in brackets stays. -/
def repairJson (input : String) : String :=
  if input.toList.head? = some '[' ∧ input.toList.getLast? = some ']' then input
  else
    let cleaned := Text.replaceAll input "\"\"\"" "\""
    if (Json.parse? cleaned).isSome then cleaned else input

def cleanTool (s : List Char) : String :=
  String.ofList (trimChars (Text.dropEnds '*' (trimChars s)))

/-- The input of a tool without white space, quotes around it and triple quotes in it. -/
def cleanInput (s : List Char) : String :=
  repairJson (String.ofList (Text.dropEnds '"' (trimChars s)))

def Reply.read (text : String) : Except ReplyFault Reply :=
  let thought := thoughtOf text
  match Text.splitLast? finalAnswer.toList text.toList with
  | some (_, answer) =>
    .ok (.finish thought (dropLoneFence (String.ofList (trimChars answer))))
  | none =>
    match call? text.toList with
    | some (tool, input) => .ok (.action thought (cleanTool tool) (cleanInput input))
    | none =>
      -- Only the advice is at stake now: which half of a call cannot be found.
      if !somewhere (fun s => (afterAction? s).isSome) text.toList then .error .noAction
      else if !somewhere (fun s => (afterInput? s).isSome) text.toList then .error .noInput
      else .error .unclear

end CrewFlow.Agent
