import Mathlib
import CrewFlow.Agent.Dialogue
import CrewFlow.Proofs.Json.Quotes
import CrewFlow.Proofs.Json.Text
/-!
# Replies in the two formats

A reply written in the format of a call is read as that call, with the very input, and one written in the
format of a final answer as that answer. The call is found where it was written: the word `Action` is not in
the thought, and the line of the input is the first behind the name of the tool.
-/
set_option autoImplicit false

namespace CrewFlow.Agent

open Text (isBlank isBlank_of_getLast? isBlank_of_head? trim trimChars trimChars_of_trim)
open Json (Value)

/-- The format of a call. -/
def callText (thought tool input : String) : String :=
  "Thought: " ++ thought ++ "\nAction: " ++ tool ++ "\nAction Input: " ++ input

/-- The format of a final answer, behind any text. -/
def answerText (before gap answer : String) : String := before ++ finalAnswer ++ gap ++ answer

/-- A name of a tool as a call can carry it: on one line, with neither white space nor stars around it. -/
structure Callable (tool : String) : Prop where
  nonempty : tool ≠ ""
  trimmed : trim tool = tool
  noFeed : '\n' ∉ tool.toList
  noReturn : '\r' ∉ tool.toList
  noStarFront : tool.toList.head? ≠ some '*'
  noStarBack : tool.toList.getLast? ≠ some '*'

/-! ## The line of the input -/

section Scan
variable {before tool input : List Char} {c d : Char}

theorem skipCount_cons {s : List Char} (solid : isBlank c = false) (noDigit : Text.isDecimalDigit c = false) :
    skipCount (c :: s) = c :: s := by
  simp [skipCount, solid, noDigit]

theorem afterAction?_colon (rest : List Char) : afterAction? ("Action:".toList ++ rest) = some rest := by
  have found : Text.stripFront? "Action".toList ("Action:".toList ++ rest) = some (':' :: rest) :=
    Text.stripFront?_eq_some_iff.mpr rfl
  rw [afterAction?, found, Option.bind_some, skipCount_cons (by decide) (by decide)]
  rfl

theorem afterInput?_colon (rest : List Char) : afterInput? ("Action Input:".toList ++ rest) = some rest := by
  have action : Text.stripFront? "Action".toList ("Action Input:".toList ++ rest) =
      some (' ' :: ("Input:".toList ++ rest)) := Text.stripFront?_eq_some_iff.mpr rfl
  have skipped : skipCount (' ' :: ("Input:".toList ++ rest)) = "Input:".toList ++ rest := rfl
  have word : Text.stripFront? "Input".toList ("Input:".toList ++ rest) = some (':' :: rest) :=
    Text.stripFront?_eq_some_iff.mpr rfl
  rw [afterInput?, action, Option.bind_some, skipped, word, Option.bind_some,
    skipCount_cons (by decide) (by decide)]
  rfl

theorem inputLine?_input (input : List Char) :
    inputLine? ("\nAction Input: ".toList ++ input) = some (' ' :: input) := by
  have blanks : ("\nAction Input: ".toList ++ input).takeWhile isBlank = ['\n'] := by
    rfl
  rw [inputLine?, blanks, if_pos (by decide)]
  exact afterInput?_colon (' ' :: input)

theorem inputLine?_eq_none {s : List Char} (oneLine : '\n' ∉ tool ∧ '\r' ∉ tool)
    (solid : ∃ c ∈ tool, isBlank c = false) : inputLine? (tool ++ s) = none := by
  have inside : (tool ++ s).takeWhile isBlank = tool.takeWhile isBlank := by
    obtain ⟨c, member, word⟩ := solid
    have short : (tool.takeWhile isBlank).length ≠ tool.length := by
      intro all
      have whole := (List.takeWhile_prefix isBlank (l := tool)).eq_of_length all
      have blank : isBlank c = true := List.mem_takeWhile_imp (whole.symm ▸ member)
      cases blank.symm.trans word
    rw [List.takeWhile_append, if_neg short]
  have stays (c : Char) (absent : c ∉ tool) : (tool.takeWhile isBlank).getLast? ≠ some c := by
    intro last
    exact absent ((List.takeWhile_prefix isBlank).subset (List.mem_of_getLast? last))
  rw [inputLine?, inside, if_neg]
  rintro (last | last)
  · exact stays '\n' oneLine.1 last
  · exact stays '\r' oneLine.2 last

theorem upToInput?_append (seen : List Char) (oneLine : '\n' ∉ c :: tool ∧ '\r' ∉ c :: tool)
    (tight : ∀ d ∈ (c :: tool).getLast?, isBlank d = false) :
    upToInput? seen (c :: tool ++ ("\nAction Input: ".toList ++ input)) =
      some (seen.reverse ++ c :: tool, ' ' :: input) := by
  induction tool generalizing c seen with
  | nil =>
      rw [List.cons_append, List.nil_append, upToInput?, inputLine?_input]
      simp
  | cons d tool ih =>
      have rest : '\n' ∉ d :: tool ∧ '\r' ∉ d :: tool :=
        ⟨fun member => oneLine.1 (List.mem_cons_of_mem c member),
          fun member => oneLine.2 (List.mem_cons_of_mem c member)⟩
      have restTight : ∀ e ∈ (d :: tool).getLast?, isBlank e = false := by simpa using tight
      have solid : ∃ e ∈ d :: tool, isBlank e = false := by
        have last := List.getLast?_eq_some_getLast (List.cons_ne_nil d tool)
        exact ⟨_, List.getLast_mem _, restTight _ last⟩
      rw [List.cons_append, upToInput?, inputLine?_eq_none rest solid]
      dsimp only
      rw [ih (c :: seen) rest restTight]
      simp

/-- No call begins on lines without the word `Action`. -/
theorem call?_append {rest : List Char} (absent : ¬"Action".toList <:+: before) :
    call? (before ++ '\n' :: rest) = call? ('\n' :: rest) := by
  induction before with
  | nil => rfl
  | cons c before ih =>
      have later : ¬"Action".toList <:+: before := fun later => absent (List.infix_cons later)
      have front : ¬"Action".toList <+: c :: (before ++ '\n' :: rest) := by
        intro front
        have inside : "Action".toList <+: c :: before := Text.prefix_of_prefix_append (by decide) front
        exact absent inside.isInfix
      rw [List.cons_append, call?, afterAction?, Text.stripFront?_eq_none front]
      exact ih later

theorem call?_line (oneLine : '\n' ∉ c :: tool ∧ '\r' ∉ c :: tool) (front : isBlank c = false)
    (tight : ∀ d ∈ (c :: tool).getLast?, isBlank d = false) :
    call? ("\nAction: ".toList ++ (c :: tool ++ ("\nAction Input: ".toList ++ input))) =
      some (c :: tool, ' ' :: input) := by
  have reached : upToInput? [] (c :: tool ++ ("\nAction Input: ".toList ++ input)) =
      some (c :: tool, ' ' :: input) := upToInput?_append [] oneLine tight
  generalize behind : tool ++ ("\nAction Input: ".toList ++ input) = rest at reached
  rw [List.cons_append, behind] at reached ⊢
  have action : afterAction? ("Action: ".toList ++ c :: rest) = some (' ' :: c :: rest) :=
    afterAction?_colon (' ' :: c :: rest)
  have oneBlank : ((' ' :: c :: rest).takeWhile isBlank).length = 1 := by
    rw [List.takeWhile_cons_of_pos (by decide), List.takeWhile_cons_of_neg (by simp [front])]
    rfl
  have found : toolAndInput? (' ' :: c :: rest) 1 = some (c :: tool, ' ' :: input) := by
    rw [toolAndInput?, List.drop_succ_cons, List.drop_zero, reached]
  -- the line feed begins no call
  have line : call? ("\nAction: ".toList ++ c :: rest) = call? ("Action: ".toList ++ c :: rest) := rfl
  have word : "Action: ".toList ++ c :: rest = 'A' :: ("ction: ".toList ++ c :: rest) := rfl
  rw [line, word, call?, ← word, action, Option.bind_some, oneBlank, found]

end Scan

/-! ## What is cleaned -/

section Clean
variable {tool input : String} {v : Value}

theorem Callable.cleanTool_eq (callable : Callable tool) : cleanTool tool.toList = tool := by
  have trimmed := trimChars_of_trim callable.trimmed
  rw [cleanTool, trimmed, Text.dropEnds_eq_self callable.noStarFront callable.noStarBack, trimmed,
    String.ofList_toList]

theorem isBlank_of_isJsonSpace {c : Char} (space : Json.isJsonSpace c = true) : isBlank c = true := by
  simp only [Json.isJsonSpace, Bool.or_eq_true, beq_iff_eq] at space
  rcases space with ((rfl | rfl) | rfl) | rfl <;> decide

theorem repairJson_eq_self (read : Json.parse? input = some v) : repairJson input = input := by
  have absent : ¬"\"\"\"".toList <:+: input.toList := Json.untripled_of_parse? read
  unfold repairJson
  dsimp only
  rw [Text.replaceAll_eq_self "\"" absent]
  simp

theorem cleanInput_eq (trimmed : trim input = input) (read : Json.parse? input = some v) (nested : v.Nested) :
    cleanInput (' ' :: input.toList) = input := by
  have tight : ∀ c ∈ input.toList.getLast?, Json.isJsonSpace c = false := by
    intro c last
    by_contra space
    have blank := isBlank_of_isJsonSpace (Bool.not_eq_false _ ▸ space)
    cases blank.symm.trans (isBlank_of_getLast? trimmed last)
  obtain ⟨front, back⟩ := nested.ends_ne_quote read tight
  have inside : trimChars ([' '] ++ input.toList) = input.toList :=
    Text.trimChars_append (List.forall_mem_singleton.mpr (by decide)) (trimChars_of_trim trimmed)
  rw [cleanInput, show ' ' :: input.toList = [' '] ++ input.toList from rfl, inside,
    Text.dropEnds_eq_self front back, String.ofList_toList, repairJson_eq_self read]

theorem toolInput_eq (read : Json.parse? input = some v) (nested : v.Nested) : toolInput input = v := by
  rw [toolInput, read]
  cases v with
  | arr _ => rfl
  | obj _ => rfl
  | _ => exact nested.elim

theorem dropLoneFence_eq_self {s : String} (paired : ¬fence.toList <:+ s.toList ∨ Even (Text.count s fence)) :
    dropLoneFence s = s := by
  rw [dropLoneFence, if_neg]
  intro lone
  obtain ⟨ended, odd⟩ := (Bool.and_eq_true_iff).mp lone
  rcases paired with apart | even
  · exact apart (List.isSuffixOf_iff_suffix.mp ended)
  · exact absurd (Nat.even_iff.mp even) (by simpa using odd)

end Clean

/-! ## Replies -/

section Replies
variable {thought tool input : String}

theorem call_cons (rest : List Char) : "\nAction: ".toList ++ rest = '\n' :: ("Action: ".toList ++ rest) := rfl

theorem toList_callText : (callText thought tool input).toList =
    "Thought: ".toList ++ thought.toList ++
      ("\nAction: ".toList ++ (tool.toList ++ ("\nAction Input: ".toList ++ input.toList))) := by
  simp only [callText, String.toList_append, List.append_assoc]

theorem noAction_before (absent : ¬"Action".toList <:+: thought.toList) :
    ¬"Action".toList <:+: "Thought: ".toList ++ thought.toList :=
  fun occurs => absent (Text.infix_of_infix_append (by decide) occurs)

theorem call?_callText (absent : ¬"Action".toList <:+: thought.toList) (callable : Callable tool) :
    call? (callText thought tool input).toList = some (tool.toList, ' ' :: input.toList) := by
  rw [toList_callText, call_cons, call?_append (noAction_before absent), ← call_cons]
  cases name : tool.toList with
  | nil => exact absurd (String.toList_eq_nil_iff.mp name) callable.nonempty
  | cons c rest =>
      apply call?_line
      · rw [← name]
        exact ⟨callable.noFeed, callable.noReturn⟩
      · exact isBlank_of_head? callable.trimmed (by rw [name]; rfl)
      · intro d last
        exact isBlank_of_getLast? callable.trimmed (by rw [name]; exact last)

theorem thoughtOf_callText (absent : ¬"Action".toList <:+: thought.toList) :
    thoughtOf (callText thought tool input) = trim (Text.replaceAll ("Thought: " ++ thought) fence "") := by
  let behind := ": ".toList ++ (tool.toList ++ ("\nAction Input: ".toList ++ input.toList))
  have word : "\nAction".toList = '\n' :: "Action".toList := rfl
  have whole : (callText thought tool input).toList =
      ("Thought: " ++ thought).toList ++ '\n' :: "Action".toList ++ behind := by
    have line : "\nAction: ".toList = '\n' :: "Action".toList ++ ": ".toList := rfl
    rw [toList_callText, line, String.toList_append]
    simp only [behind, List.append_assoc, List.cons_append]
  have before : ¬"Action".toList <:+: ("Thought: " ++ thought).toList := by
    rw [String.toList_append]
    exact noAction_before absent
  have split : Text.splitFirst? ('\n' :: "Action".toList)
      (("Thought: " ++ thought).toList ++ '\n' :: "Action".toList ++ behind) =
        some (("Thought: " ++ thought).toList, behind) := Text.splitFirst?_append (by decide) before
  rw [thoughtOf, Text.splitOnce?, word, whole, split]
  dsimp only [Option.map_some]
  rw [String.ofList_toList, Option.some_or]

theorem read_callText {v : Value} (absent : ¬"Action".toList <:+: thought.toList) (callable : Callable tool)
    (trimmed : trim input = input) (read : Json.parse? input = some v) (nested : v.Nested)
    (unfinished : ¬finalAnswer.toList <:+: (callText thought tool input).toList) :
    Reply.read (callText thought tool input) =
      .ok (.action (trim (Text.replaceAll ("Thought: " ++ thought) fence "")) tool input) := by
  rw [Reply.read, Text.splitLast?_eq_none unfinished, thoughtOf_callText absent]
  dsimp only
  rw [call?_callText absent callable]
  dsimp only
  rw [callable.cleanTool_eq, cleanInput_eq trimmed read nested]

theorem read_answerText {before gap answer : String} (blank : Text.isBlankText gap = true)
    (trimmed : trim answer = answer) (absent : ¬finalAnswer.toList <:+: answer.toList)
    (paired : ¬fence.toList <:+ answer.toList ∨ Even (Text.count answer fence)) :
    Reply.read (answerText before gap answer) = .ok (.finish (thoughtOf (answerText before gap answer)) answer) := by
  have split : Text.splitLast? finalAnswer.toList (answerText before gap answer).toList =
      some (before.toList, gap.toList ++ answer.toList) := by
    have foreign : 'F' ∉ "inal Answer:".toList ++ gap.toList := by
      intro member
      rcases List.mem_append.mp member with tail | inGap
      · exact absurd tail (by decide)
      · exact absurd (List.all_eq_true.mp blank _ inGap) (by decide)
    have word : finalAnswer.toList = 'F' :: "inal Answer:".toList := rfl
    have whole : (answerText before gap answer).toList =
        before.toList ++ 'F' :: "inal Answer:".toList ++ (gap.toList ++ answer.toList) := by
      simp only [answerText, String.toList_append, word, List.append_assoc, List.cons_append]
    rw [word] at absent ⊢
    rw [whole]
    apply Text.splitLast?_append
    intro occurs
    rw [← List.append_assoc] at occurs
    exact absent (Text.infix_of_infix_append foreign occurs)
  rw [Reply.read, split]
  dsimp only
  rw [Text.trimChars_append (List.all_eq_true.mp blank) (trimChars_of_trim trimmed), String.ofList_toList,
    dropLoneFence_eq_self paired]

end Replies

/-- Both formats are read back: a call as its tool and input, whose value the tool gets, and a final answer as
its text, whatever stands in front of it. -/
theorem formats_read_back :
    (∀ (thought tool input : String) (v : Value), ¬"Action".toList <:+: thought.toList → Callable tool →
      trim input = input → Json.parse? input = some v → v.Nested →
      ¬finalAnswer.toList <:+: (callText thought tool input).toList →
        Reply.read (callText thought tool input) =
            .ok (.action (trim (Text.replaceAll ("Thought: " ++ thought) fence "")) tool input) ∧
          toolInput input = v) ∧
    ∀ before gap answer : String, Text.isBlankText gap = true → trim answer = answer →
      ¬finalAnswer.toList <:+: answer.toList →
      ¬fence.toList <:+ answer.toList ∨ Even (Text.count answer fence) →
        Reply.read (answerText before gap answer) =
          .ok (.finish (thoughtOf (answerText before gap answer)) answer) := by
  constructor
  · intro thought tool input v absent callable trimmed read nested unfinished
    exact ⟨read_callText absent callable trimmed read nested unfinished, toolInput_eq read nested⟩
  · intro before gap answer blank trimmed absent paired
    exact read_answerText blank trimmed absent paired

/-- A search with an object as its input, and an answer behind the text of that call. -/
theorem search_and_answer_read_back :
    (Reply.read (callText "I look" "web search" "\x7b\"q\":\"maps\"\x7d") =
        .ok (.action "Thought: I look" "web search" "\x7b\"q\":\"maps\"\x7d") ∧
      toolInput "\x7b\"q\":\"maps\"\x7d" = .obj [("q", .str "maps")]) ∧
    Reply.read (answerText (callText "I look" "web search" "\x7b\x7d") " " "42") =
      .ok (.finish "Thought: I look" "42") := by
  constructor
  · have callable : Callable "web search" :=
      ⟨by decide, by decide, by decide, by decide, by decide, by decide⟩
    have held : (Value.obj [("q", .str "maps")]).Held := .obj (by decide) (by simp)
    have legible : (Value.obj [("q", .str "maps")]).Legible Json.nestingLimit :=
      .obj (List.forall_mem_singleton.mpr (.str "maps"))
    have text : (Value.obj [("q", .str "maps")]).text = "\x7b\"q\":\"maps\"\x7d" := by decide
    have read := legible.parse?_text held
    rw [text] at read
    have thought : trim (Text.replaceAll ("Thought: " ++ "I look") fence "") = "Thought: I look" := by decide
    have back := formats_read_back.1 "I look" "web search" _ _ (by decide) callable (by decide) read trivial
      (by decide)
    rwa [thought] at back
  · have thought : thoughtOf (answerText (callText "I look" "web search" "\x7b\x7d") " " "42") =
        "Thought: I look" := by decide
    have back := formats_read_back.2 (callText "I look" "web search" "\x7b\x7d") " " "42" (by decide) (by decide)
      (by decide) (.inl (by decide))
    rwa [thought] at back

end CrewFlow.Agent
