import Mathlib
import CrewFlow.Text.Search
/-!
# Occurrences

What the scans of a text say of the places where a pattern occurs: one that finds nothing knows that there is
no such place, and the last one splits the text there.
-/
set_option autoImplicit false

namespace CrewFlow.Text

variable {pattern s rest : List Char}

/-! ## Where a pattern may stand -/

theorem not_prefix_cons {a b : Char} (apart : a ≠ b) : ¬a :: pattern <+: b :: s := by
  rintro ⟨tail, same⟩
  exact apart (List.cons.inj same).1

theorem infix_of_infix_append {c : Char} {before : List Char} (foreign : c ∉ before)
    (occurs : c :: pattern <:+: before ++ s) : c :: pattern <:+: s := by
  induction before with
  | nil => exact occurs
  | cons d before ih =>
      have apart : c ≠ d := fun same => foreign (same ▸ List.mem_cons_self)
      rcases List.infix_cons_iff.mp occurs with front | later
      · exact absurd front (not_prefix_cons apart)
      · exact ih (fun member => foreign (List.mem_cons_of_mem d member)) later

theorem prefix_of_prefix_append {c : Char} {before : List Char} (foreign : c ∉ pattern)
    (front : pattern <+: before ++ c :: rest) : pattern <+: before := by
  induction before generalizing pattern with
  | nil =>
      cases pattern with
      | nil => exact List.nil_prefix
      | cons p pattern =>
          have apart : p ≠ c := fun same => foreign (same ▸ List.mem_cons_self)
          exact absurd front (not_prefix_cons apart)
  | cons d before ih =>
      cases pattern with
      | nil => exact List.nil_prefix
      | cons p pattern =>
          obtain ⟨same, front⟩ := List.cons_prefix_cons.mp front
          rw [same]
          apply List.cons_prefix_cons.mpr
          exact ⟨rfl, ih (fun member => foreign (List.mem_cons_of_mem p member)) front⟩

/-! ## Scans -/

theorem stripFront?_eq_some_iff : stripFront? pattern s = some rest ↔ s = pattern ++ rest := by
  induction pattern generalizing s with
  | nil => simp [stripFront?]
  | cons p pattern ih =>
      cases s with
      | nil => simp [stripFront?]
      | cons c s =>
          rw [stripFront?]
          by_cases same : p = c
          · rw [if_pos same, ih, same]
            simp
          · rw [if_neg same]
            simp [Ne.symm same]

theorem stripFront?_eq_none (absent : ¬pattern <+: s) : stripFront? pattern s = none := by
  cases found : stripFront? pattern s with
  | none => rfl
  | some rest => exact absurd ⟨rest, (stripFront?_eq_some_iff.mp found).symm⟩ absent

/-- A text is split where the pattern occurs first, when it cannot begin once more inside itself. -/
theorem splitFirst?_append {p : Char} {before : List Char} (foreign : p ∉ pattern)
    (absent : ¬pattern <:+: before) :
    splitFirst? (p :: pattern) (before ++ p :: pattern ++ rest) = some (before, rest) := by
  induction before with
  | nil =>
      have found : stripFront? (p :: pattern) (p :: (pattern ++ rest)) = some rest :=
        stripFront?_eq_some_iff.mpr rfl
      rw [List.nil_append, List.cons_append, splitFirst?, found]
  | cons c before ih =>
      have later : ¬pattern <:+: before := fun later => absent (List.infix_cons later)
      have front : ¬p :: pattern <+: c :: (before ++ p :: pattern ++ rest) := by
        intro front
        have reach : pattern <+: before ++ p :: (pattern ++ rest) := by
          simpa using (List.cons_prefix_cons.mp front).2
        exact later (prefix_of_prefix_append foreign reach).isInfix
      rw [List.cons_append, List.cons_append, splitFirst?, stripFront?_eq_none front, ih later]
      rfl

theorem splitLast?_eq_none (absent : ¬pattern <:+: s) : splitLast? pattern s = none := by
  induction s with
  | nil =>
      have front : ¬pattern <+: [] := fun front => absent front.isInfix
      rw [splitLast?, stripFront?_eq_none front]
      rfl
  | cons c s ih =>
      have front : ¬pattern <+: c :: s := fun front => absent front.isInfix
      have later : ¬pattern <:+: s := fun later => absent (List.infix_cons later)
      rw [splitLast?, ih later, stripFront?_eq_none front]
      rfl

/-- A text is split where the pattern occurs and does not occur again. -/
theorem splitLast?_append {p : Char} (before : List Char) (absent : ¬p :: pattern <:+: pattern ++ rest) :
    splitLast? (p :: pattern) (before ++ p :: pattern ++ rest) = some (before, rest) := by
  induction before with
  | nil =>
      have found : stripFront? (p :: pattern) (p :: (pattern ++ rest)) = some rest :=
        stripFront?_eq_some_iff.mpr rfl
      rw [List.nil_append, List.cons_append, splitLast?, splitLast?_eq_none absent, found]
      rfl
  | cons c before ih =>
      rw [List.cons_append, List.cons_append, splitLast?, ih]

theorem replaceFrom_eq_self (replacement : List Char) (absent : ¬pattern <:+: s) :
    replaceFrom pattern replacement 0 s = s := by
  induction s with
  | nil => rfl
  | cons c s ih =>
      have front : ¬pattern <+: c :: s := fun front => absent front.isInfix
      have later : ¬pattern <:+: s := fun later => absent (List.infix_cons later)
      rw [replaceFrom, stripFront?_eq_none front]
      dsimp only
      rw [ih later]

theorem replaceAll_eq_self {s pattern : String} (replacement : String)
    (absent : ¬pattern.toList <:+: s.toList) : replaceAll s pattern replacement = s := by
  rw [replaceAll, replaceFrom_eq_self _ absent, String.ofList_toList]

/-! ## Ends -/

theorem getLast?_trimEnd {s : List Char} {c : Char} (last : (trimEnd s).getLast? = some c) :
    isBlank c = false := by
  induction s with
  | nil => simp [trimEnd] at last
  | cons d s ih =>
      rw [trimEnd] at last
      cases rest : trimEnd s with
      | nil =>
          rw [rest] at last
          by_cases blank : isBlank d = true
          · simp [blank] at last
          · simp_all
      | cons e ended =>
          rw [rest] at last ih
          exact ih (by simpa using last)

theorem getLast?_trimChars {s : List Char} {c : Char} (last : (trimChars s).getLast? = some c) :
    isBlank c = false :=
  getLast?_trimEnd last

theorem isBlank_of_isDigit {c : Char} (digit : c.isDigit = true) : isBlank c = false := by
  have range : 48 ≤ c.toNat ∧ c.toNat ≤ 57 := by
    simpa [Char.isDigit, UInt32.le_iff_toNat_le] using digit
  have space : c ≠ ' ' := by
    rintro rfl
    exact absurd digit (by decide)
  have low : ¬c.toNat ≤ 13 := by omega
  have high : ¬128 ≤ c.toNat := by omega
  simp [isBlank, space, low, high]

theorem trimEnd_cons {c : Char} (solid : isBlank c = false) : trimEnd (c :: s) = c :: trimEnd s := by
  rw [trimEnd]
  cases trimEnd s with
  | nil => simp [solid]
  | cons d t => rfl

theorem trimEnd_eq_self (back : ∀ c ∈ s.getLast?, isBlank c = false) : trimEnd s = s := by
  induction s with
  | nil => rfl
  | cons c s ih =>
      cases s with
      | nil => exact trimEnd_cons (back c rfl)
      | cons d s => rw [trimEnd, ih (by simpa using back)]

theorem trim_eq_self {s : String} (front : ∀ c ∈ s.toList.head?, isBlank c = false)
    (back : ∀ c ∈ s.toList.getLast?, isBlank c = false) : trim s = s := by
  rw [trim, trimChars, trimStart_eq_self_of_head front, trimEnd_eq_self back, String.ofList_toList]

theorem trimChars_of_trim {s : String} (trimmed : trim s = s) : trimChars s.toList = s.toList := by
  have lists := congrArg String.toList trimmed
  rwa [trim, String.toList_ofList] at lists

theorem isBlank_of_head? {s : String} (trimmed : trim s = s) {c : Char} (first : s.toList.head? = some c) :
    isBlank c = false := by
  rw [← trimChars_of_trim trimmed] at first
  exact head?_trimChars first

theorem isBlank_of_getLast? {s : String} (trimmed : trim s = s) {c : Char}
    (last : s.toList.getLast? = some c) : isBlank c = false := by
  rw [← trimChars_of_trim trimmed] at last
  exact getLast?_trimChars last

theorem trimChars_append {gap : List Char} (blank : ∀ c ∈ gap, isBlank c = true) (tight : trimChars s = s) :
    trimChars (gap ++ s) = s := by
  have front : trimStart (gap ++ s) = trimStart s := List.dropWhile_append_of_pos blank
  rw [trimChars, front]
  exact tight

theorem dropBack_eq_self {c : Char} (back : s.getLast? ≠ some c) : dropBack c s = s := by
  have kept : s.reverse.dropWhile (· == c) = s.reverse := by
    cases reversed : s.reverse with
    | nil => rfl
    | cons d rest =>
        have last : s.getLast? = some d := by
          rw [← List.head?_reverse, reversed]
          rfl
        have apart : (d == c) = false := by
          rw [last] at back
          simpa using back
        simp [apart]
  rw [dropBack, kept, List.reverse_reverse]

theorem dropEnds_eq_self {c : Char} (front : s.head? ≠ some c) (back : s.getLast? ≠ some c) :
    dropEnds c s = s := by
  have kept : s.dropWhile (· == c) = s := by
    cases s with
    | nil => rfl
    | cons d s =>
        have apart : (d == c) = false := by simpa using front
        simp [apart]
  rw [dropEnds, kept, dropBack_eq_self back]

end CrewFlow.Text
