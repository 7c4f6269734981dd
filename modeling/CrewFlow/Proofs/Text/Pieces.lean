import Mathlib
import CrewFlow.Proofs.Text.Search
/-!
# Pieces

A text is cut at a separator in exactly one way. White space is dropped from the two sides of a solid character
separately, and what has lost a character at its end gives the text again when that character is put back.
-/
set_option autoImplicit false

namespace CrewFlow.Text

/-! ## Cuts -/

/-- The parts that give a text when they are joined by a separator, which none of them has. -/
structure CutAt (separator : Char) (text : String) (parts : List String) : Prop where
  nonempty : parts ≠ []
  apart : ∀ part ∈ parts, separator ∉ part.toList
  joined : text = (String.singleton separator).intercalate parts

section Cuts
variable {separator : Char} {text : String} {parts : List String} {s before behind : List Char}

theorem pieces_eq_splitOn (separator : Char) (s : List Char) : pieces separator s = s.splitOn separator := by
  induction s with
  | nil => rfl
  | cons c s ih =>
      rw [pieces, List.splitOn_cons_eq_if_modifyHead, ih]
      by_cases here : c = separator
      · rw [if_pos here, if_pos (by simpa using here)]
      · rw [if_neg here, if_neg (by simpa using here)]
        cases rest : s.splitOn separator with
        | nil => exact absurd rest (List.splitOn_ne_nil _ _)
        | cons piece pieces => rfl

theorem not_mem_of_mem_pieces {piece : List Char} (member : piece ∈ pieces separator s) : separator ∉ piece := by
  induction s generalizing piece with
  | nil =>
      rw [List.mem_singleton.mp member]
      exact List.not_mem_nil
  | cons c s ih =>
      rw [pieces] at member
      split at member
      · rcases List.mem_cons.mp member with rfl | later
        · exact List.not_mem_nil
        · exact ih later
      · next other =>
        cases rest : pieces separator s with
        | nil => exact absurd (rest.symm.trans (pieces_eq_splitOn _ _)).symm (List.splitOn_ne_nil _ _)
        | cons first others =>
            rw [rest] at member ih
            rcases List.mem_cons.mp member with rfl | later
            · rintro (_ | ⟨_, inside⟩)
              · exact other rfl
              · exact ih List.mem_cons_self inside
            · exact ih (List.mem_cons_of_mem first later)

theorem toList_joined (separator : Char) (parts : List String) :
    ((String.singleton separator).intercalate parts).toList = [separator].intercalate (parts.map String.toList) := by
  rw [String.toList_intercalate, String.toList_singleton]

theorem CutAt.pieces_eq (cut : CutAt separator text parts) :
    (pieces separator text.toList).map String.ofList = parts := by
  have plain : ∀ piece ∈ parts.map String.toList, separator ∉ piece := by
    intro piece member
    obtain ⟨part, there, rfl⟩ := List.mem_map.mp member
    exact cut.apart part there
  rw [pieces_eq_splitOn, cut.joined, toList_joined,
    List.splitOn_intercalate separator plain (by simpa using cut.nonempty), List.map_map]
  simp

theorem cutAt_pieces (separator : Char) (text : String) :
    CutAt separator text ((pieces separator text.toList).map String.ofList) where
  nonempty := by
    rw [pieces_eq_splitOn, Ne, List.map_eq_nil_iff]
    exact List.splitOn_ne_nil _ _
  apart := by
    intro part member
    obtain ⟨piece, there, rfl⟩ := List.mem_map.mp member
    rw [String.toList_ofList]
    exact not_mem_of_mem_pieces there
  joined := by
    apply String.toList_inj.mp
    rw [toList_joined, List.map_map, pieces_eq_splitOn]
    simp [List.intercalate_splitOn]

theorem existsUnique_cutAt (separator : Char) (text : String) : ∃! parts, CutAt separator text parts :=
  ⟨_, cutAt_pieces separator text, fun _ cut => cut.pieces_eq.symm⟩

theorem splitFirst?_eq_some_iff :
    splitFirst? [separator] s = some (before, behind) ↔ s = before ++ separator :: behind ∧ separator ∉ before := by
  induction s generalizing before with
  | nil => simp [splitFirst?, stripFront?]
  | cons c s ih =>
      rw [splitFirst?, stripFront?]
      by_cases here : separator = c
      · rw [if_pos here, stripFront?]
        cases before with
        | nil => simp [here]
        | cons d before =>
            refine iff_of_false (by simp) ?_
            rintro ⟨same, absent⟩
            rw [here, (List.cons.inj same).1] at absent
            exact absent List.mem_cons_self
      · rw [if_neg here]
        cases before with
        | nil => simp [Ne.symm here]
        | cons d before =>
            simp only [Option.map_eq_some_iff, Prod.mk.injEq, Prod.exists, List.cons.injEq, List.cons_append,
              List.mem_cons, not_or]
            constructor
            · rintro ⟨front, rest, found, ⟨rfl, rfl⟩, rfl⟩
              obtain ⟨same, absent⟩ := ih.mp found
              exact ⟨⟨rfl, same⟩, here, absent⟩
            · rintro ⟨⟨rfl, same⟩, -, absent⟩
              exact ⟨before, behind, ih.mpr ⟨same, absent⟩, ⟨rfl, rfl⟩, rfl⟩

theorem splitFirst?_eq_none (absent : separator ∉ s) : splitFirst? [separator] s = none := by
  cases found : splitFirst? [separator] s with
  | none => rfl
  | some parts => exact absurd (by simp [(splitFirst?_eq_some_iff.mp found).1]) absent

end Cuts

/-! ## White space at the ends -/

section Trim
variable {s before behind : List Char} {c : Char}

theorem trimStart_append (solid : isBlank c = false) :
    trimStart (before ++ c :: behind) = trimStart before ++ c :: behind := by
  rw [trimStart, List.dropWhile_append, List.dropWhile_cons_of_neg (by simp [solid])]
  split
  · next blank => rw [trimStart, List.isEmpty_iff.mp blank, List.nil_append]
  · rfl

theorem trimEnd_append (solid : isBlank c = false) :
    trimEnd (before ++ c :: behind) = before ++ c :: trimEnd behind := by
  induction before with
  | nil => exact trimEnd_cons solid
  | cons d before ih =>
      rw [List.cons_append, trimEnd, ih]
      cases before <;> rfl

theorem trimChars_append_cons (solid : isBlank c = false) :
    trimChars (before ++ c :: behind) = trimStart before ++ c :: trimEnd behind := by
  rw [trimChars, trimStart_append solid, trimEnd_append solid]

theorem trimChars_trimStart (s : List Char) : trimChars (trimStart s) = trimChars s := by
  rw [trimChars, trimStart, trimStart, List.dropWhile_idempotent]
  rfl

theorem trimChars_trimEnd (s : List Char) : trimChars (trimEnd s) = trimChars s := by
  induction s with
  | nil => rfl
  | cons c s ih =>
      by_cases blank : isBlank c = true
      · have front (t : List Char) : trimChars (c :: t) = trimChars t := by
          rw [trimChars, trimStart, List.dropWhile_cons_of_pos blank]
          rfl
        rw [front, ← ih, trimEnd]
        cases trimEnd s with
        | nil => simp [blank]
        | cons d t => exact front _
      · have solid : isBlank c = false := by simpa using blank
        have front (t : List Char) : trimChars (c :: t) = trimEnd (c :: t) := by
          rw [trimChars, trimStart, List.dropWhile_cons_of_neg blank]
        rw [trimEnd_cons solid, front, front, ← trimEnd_cons solid, trimEnd_trimEnd]

theorem trimEnd_sublist (s : List Char) : (trimEnd s).Sublist s := by
  induction s with
  | nil => exact List.Sublist.slnil
  | cons c s ih =>
      rw [trimEnd]
      cases rest : trimEnd s with
      | nil => by_cases blank : isBlank c = true <;> simp [blank]
      | cons d t => exact (rest ▸ ih).cons_cons c

theorem mem_of_mem_trim {s : String} (member : c ∈ (trim s).toList) : c ∈ s.toList := by
  rw [trim, String.toList_ofList] at member
  exact (List.dropWhile_sublist _).subset ((trimEnd_sublist _).subset member)

end Trim

/-! ## A character at the end -/

section Back
variable {s : List Char}

theorem exists_append_of_dropBack (c : Char) (s : List Char) : ∃ n, s = dropBack c s ++ List.replicate n c := by
  have run : s.rtakeWhile (· == c) = List.replicate (s.rtakeWhile (· == c)).length c := by
    refine List.eq_replicate_iff.mpr ⟨rfl, fun d member => ?_⟩
    simpa using List.mem_rtakeWhile_imp member
  refine ⟨(s.rtakeWhile (· == c)).length, ?_⟩
  rw [← run]
  exact List.rdropWhile_append_rtakeWhile.symm

theorem getLast?_dropBack (c : Char) (s : List Char) : (dropBack c s).getLast? ≠ some c := by
  intro last
  have given : dropBack c s ≠ [] := by
    intro nothing
    rw [nothing] at last
    cases last
  have final := Option.some.inj ((List.getLast?_eq_some_getLast given).symm.trans last)
  exact List.rdropWhile_last_not (· == c) s given (beq_iff_eq.mpr final)

theorem dropBack_append {c : Char} (back : s.getLast? ≠ some c) (n : Nat) :
    dropBack c (s ++ List.replicate n c) = s := by
  induction n with
  | zero => rw [List.replicate_zero, List.append_nil, dropBack_eq_self back]
  | succ n ih =>
      rw [List.replicate_succ', ← List.append_assoc]
      exact (List.rdropWhile_concat_pos (· == c) _ c (beq_self_eq_true c)).trans ih

end Back
end CrewFlow.Text
