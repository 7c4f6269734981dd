import Mathlib
import CrewFlow.Proofs.Text.Search
import CrewFlow.Text.Template
/-!
# Templates are read once

There is one way to read a template from left to right into literal characters and placeholders. Interpolation
writes down what was read, so the text that takes the place of a placeholder is never read itself.
-/
set_option autoImplicit false

namespace CrewFlow.Text

/-! ## Readings -/

/-- A letter or an underscore, and then letters, digits, underscores and hyphens. -/
def Identifier (name : List Char) : Prop :=
  ∃ c cs, name = c :: cs ∧ isNameStart c = true ∧ ∀ d ∈ cs, isNamePart d = true

/-- A text read from left to right. Where an identifier between braces begins it is a placeholder, and reading goes
on behind it. Everywhere else one character is read. -/
inductive Reading : List Char → List Piece → Prop where
  | done : Reading [] []
  | placeholder {name rest : List Char} {pieces : List Piece} (identifier : Identifier name)
      (later : Reading rest pieces) : Reading ('{' :: (name ++ '}' :: rest)) (.placeholder name :: pieces)
  | literal {c : Char} {rest : List Char} {pieces : List Piece}
      (plain : ∀ name after, Identifier name → c :: rest ≠ '{' :: (name ++ '}' :: after))
      (later : Reading rest pieces) : Reading (c :: rest) (.literal c :: pieces)

theorem isNamePart_of_isNameStart {c : Char} (start : isNameStart c = true) : isNamePart c = true := by
  simp only [isNameStart, isNamePart, Char.isAlphanum, Bool.or_eq_true] at start ⊢
  tauto

theorem Identifier.isNamePart {name : List Char} (identifier : Identifier name) {c : Char} (member : c ∈ name) :
    isNamePart c = true := by
  obtain ⟨first, others, rfl, start, parts⟩ := identifier
  rcases List.mem_cons.mp member with rfl | other
  · exact isNamePart_of_isNameStart start
  · exact parts c other

theorem Identifier.brace_not_mem {name : List Char} (identifier : Identifier name) : '{' ∉ name := by
  intro member
  have part := identifier.isNamePart member
  exact absurd part (by decide)

theorem placeholderAt?_eq_some_iff {cs name : List Char} :
    placeholderAt? cs = some name ↔ Identifier name ∧ ∃ rest, cs = name ++ '}' :: rest := by
  cases cs with
  | nil => simp [placeholderAt?]
  | cons c cs =>
      simp only [placeholderAt?]
      constructor
      · intro found
        split at found
        · next closed =>
          cases found
          obtain ⟨start, brace⟩ := Bool.and_eq_true_iff.mp closed
          obtain ⟨rest, behind⟩ := List.head?_eq_some_iff.mp (beq_iff_eq.mp brace)
          have parts := List.prefix_iff_eq_append.mp (List.takeWhile_prefix (l := cs) isNamePart)
          refine ⟨⟨c, _, rfl, start, fun d member => List.mem_takeWhile_imp member⟩, rest, ?_⟩
          rw [List.cons_append, ← behind, parts]
        · cases found
      · rintro ⟨⟨first, others, rfl, start, parts⟩, rest, same⟩
        obtain ⟨rfl, rfl⟩ := List.cons.inj same
        have taken : (others ++ '}' :: rest).takeWhile isNamePart = others := by
          rw [List.takeWhile_append_of_pos parts, List.takeWhile_cons_of_neg (by decide), List.append_nil]
        simp [taken, start]

theorem piecesFrom_drop (skip : Nat) (cs : List Char) : piecesFrom skip cs = piecesFrom 0 (cs.drop skip) := by
  induction cs generalizing skip with
  | nil => simp [piecesFrom]
  | cons c cs ih =>
      cases skip with
      | zero => rfl
      | succ skip => rw [piecesFrom, ih, List.drop_succ_cons]

theorem reading_piecesFrom (skip : Nat) (cs : List Char) : Reading (cs.drop skip) (piecesFrom skip cs) := by
  -- The characters that are skipped belong to a placeholder that has been read.
  fun_induction piecesFrom skip cs with
  | case1 skip =>
      rw [List.drop_nil]
      exact .done
  | case2 c cs skip ih => exact ih
  | case3 cs name found ih =>
      obtain ⟨identifier, rest, rfl⟩ := placeholderAt?_eq_some_iff.mp found
      refine .placeholder identifier ?_
      simpa using ih
  | case4 cs absent ih =>
      refine .literal (fun name after identifier same => ?_) ih
      have found := placeholderAt?_eq_some_iff.mpr ⟨identifier, after, (List.cons.inj same).2⟩
      rw [absent] at found
      cases found
  | case5 c cs other ih =>
      exact .literal (fun name after _ same => other (List.cons.inj same).1) ih

theorem Reading.eq_piecesFrom {cs : List Char} {pieces : List Piece} (reading : Reading cs pieces) :
    pieces = piecesFrom 0 cs := by
  induction reading with
  | done => rfl
  | @placeholder name rest pieces identifier _ ih =>
      have found : placeholderAt? (name ++ '}' :: rest) = some name :=
        placeholderAt?_eq_some_iff.mpr ⟨identifier, rest, rfl⟩
      have behind : (name ++ '}' :: rest).drop (name.length + 1) = rest := by simp
      rw [piecesFrom, if_pos rfl, found]
      dsimp only
      rw [piecesFrom_drop (name.length + 1), behind, ih]
  | @literal c rest pieces plain _ ih =>
      have absent : c = '{' → placeholderAt? rest = none := by
        rintro rfl
        refine Option.eq_none_iff_forall_ne_some.mpr fun name found => ?_
        obtain ⟨identifier, after, rfl⟩ := placeholderAt?_eq_some_iff.mp found
        exact plain name after identifier rfl
      by_cases brace : c = '{'
      · rw [piecesFrom, if_pos brace, absent brace, ih]
      · rw [piecesFrom, if_neg brace, ih]

/-- There is one way to read a text. -/
theorem reading_iff {cs : List Char} {pieces : List Piece} : Reading cs pieces ↔ pieces = piecesFrom 0 cs := by
  refine ⟨Reading.eq_piecesFrom, ?_⟩
  rintro rfl
  exact reading_piecesFrom 0 cs

/-- Nothing is lost in reading. -/
theorem Reading.source {cs : List Char} {pieces : List Piece} (reading : Reading cs pieces) :
    pieces.flatMap Piece.source = cs := by
  induction reading with
  | done => rfl
  | placeholder _ _ ih => simp [Piece.source, ih]
  | literal _ _ ih => simp [Piece.source, ih]

/-- An opening brace ends what is read before it, since it is in no placeholder. -/
theorem Reading.append {before rest : List Char} {first second : List Piece} (reading : Reading before first)
    (later : Reading ('{' :: rest) second) : Reading (before ++ '{' :: rest) (first ++ second) := by
  induction reading with
  | done => exact later
  | placeholder identifier _ ih =>
      rw [List.cons_append, List.append_assoc]
      exact .placeholder identifier ih
  | @literal c chars pieces plain _ ih =>
      -- A placeholder that begins here does not reach over the opening brace, so it would begin here without it.
      refine .literal (fun name after identifier same => ?_) ih
      obtain ⟨brace, same⟩ := List.cons.inj same
      have foreign : '{' ∉ name ++ ['}'] := by
        simp [identifier.brace_not_mem]
      have front : name ++ ['}'] <+: chars ++ '{' :: rest := by
        refine ⟨after, ?_⟩
        rw [List.append_assoc]
        exact same.symm
      obtain ⟨between, whole⟩ := prefix_of_prefix_append foreign front
      refine plain name between identifier ?_
      rw [brace, ← whole, List.append_assoc]
      rfl

/-! ## Interpolation -/

section Filling
variable {template : String} {inputs others : Inputs} {pieces : List Piece}

theorem reading_templatePieces (template : String) : Reading template.toList (templatePieces template) :=
  reading_iff.mpr rfl

theorem fill_eq_source {piece : Piece} (absent : ∀ name ∈ piece.name?, inputs.get? name = none) :
    piece.fill inputs = piece.source := by
  cases piece with
  | literal c => rfl
  | placeholder name => rw [Piece.fill, absent (String.ofList name) rfl]

theorem flatMap_fill_eq_source (absent : ∀ piece ∈ pieces, ∀ name ∈ piece.name?, inputs.get? name = none) :
    pieces.flatMap (Piece.fill inputs) = pieces.flatMap Piece.source :=
  List.flatMap_congr fun piece member => fill_eq_source (absent piece member)

theorem fill_congr {piece : Piece} (same : ∀ name ∈ piece.name?, inputs.get? name = others.get? name) :
    piece.fill inputs = piece.fill others := by
  cases piece with
  | literal c => rfl
  | placeholder name => rw [Piece.fill, Piece.fill, same (String.ofList name) rfl]

theorem brace_mem_source {piece : Piece} {name : String} (named : piece.name? = some name) : '{' ∈ piece.source := by
  cases piece with
  | literal c => cases named
  | placeholder name => exact List.mem_cons_self

/-- What is returned without being read is what reading would have made of it. -/
theorem toList_interpolate (template : String) (inputs : Inputs) :
    (interpolate template inputs).toList = (templatePieces template).flatMap (Piece.fill inputs) := by
  have source := (reading_templatePieces template).source
  unfold interpolate
  split
  · next unread =>
      rw [flatMap_fill_eq_source, source]
      intro piece member name named
      rcases Bool.or_eq_true_iff.mp unread with empty | unopened
      · rw [List.isEmpty_iff.mp empty]
        rfl
      · have opened : '{' ∈ template.toList :=
          source ▸ List.mem_flatMap.mpr ⟨piece, member, brace_mem_source named⟩
        simp [opened] at unopened
  · rw [String.toList_ofList]

theorem mem_placeholders {name : String} :
    name ∈ placeholders template ↔ ∃ piece ∈ templatePieces template, piece.name? = some name := by
  rw [placeholders, List.mem_eraseDups, List.mem_filterMap]

theorem interpolate_congr (same : ∀ name ∈ placeholders template, inputs.get? name = others.get? name) :
    interpolate template inputs = interpolate template others := by
  rw [← String.toList_inj, toList_interpolate, toList_interpolate]
  refine List.flatMap_congr fun piece member => fill_congr fun name named => ?_
  exact same name (mem_placeholders.mpr ⟨piece, member, named⟩)

theorem interpolate_eq_self (absent : ∀ name ∈ placeholders template, inputs.get? name = none) :
    interpolate template inputs = template := by
  rw [← String.toList_inj, toList_interpolate, flatMap_fill_eq_source, (reading_templatePieces template).source]
  exact fun piece member name named => absent name (mem_placeholders.mpr ⟨piece, member, named⟩)

/-- A placeholder is replaced where it stands, whatever takes its place, and the text on either side is interpolated
as if it stood alone. -/
theorem interpolate_append (before after : String) {name : List Char} (identifier : Identifier name)
    (inputs : Inputs) :
    interpolate (before ++ String.ofList (Piece.placeholder name).source ++ after) inputs =
      interpolate before inputs ++ (inputs.get? (String.ofList name)).getD
        (String.ofList (Piece.placeholder name).source) ++ interpolate after inputs := by
  have text : (before ++ String.ofList (Piece.placeholder name).source ++ after).toList =
      before.toList ++ '{' :: (name ++ '}' :: after.toList) := by
    simp [Piece.source]
  have reading := (reading_templatePieces before).append (.placeholder identifier (reading_templatePieces after))
  have pieces : templatePieces (before ++ String.ofList (Piece.placeholder name).source ++ after) =
      templatePieces before ++ .placeholder name :: templatePieces after := by
    rw [templatePieces, text, ← reading.eq_piecesFrom]
  have filled : (Piece.placeholder name).fill inputs = ((inputs.get? (String.ofList name)).getD
      (String.ofList (Piece.placeholder name).source)).toList := by
    rw [Piece.fill]
    cases inputs.get? (String.ofList name) <;> simp
  rw [← String.toList_inj, toList_interpolate, pieces, List.flatMap_append, List.flatMap_cons, filled,
    String.toList_append, String.toList_append, toList_interpolate, toList_interpolate, List.append_assoc]

end Filling

/-- A template is read in one way, and what was read decides what inputs make of it. -/
structure ReadOnce (template : String) (pieces : List Piece) : Prop where
  reading : ∀ others, Reading template.toList others ↔ others = pieces
  whole : pieces.flatMap Piece.source = template.toList
  filled : ∀ inputs, (interpolate template inputs).toList = pieces.flatMap (Piece.fill inputs)
  named : ∀ name, name ∈ placeholders template ↔ ∃ piece ∈ pieces, piece.name? = some name
  depends : ∀ inputs others, (∀ name ∈ placeholders template, inputs.get? name = others.get? name) →
    interpolate template inputs = interpolate template others
  untouched : ∀ inputs, (∀ name ∈ placeholders template, inputs.get? name = none) →
    interpolate template inputs = template

/-- Interpolation is one pass over the template, and never over what it inserts. -/
theorem interpolation_is_one_pass :
    (∀ template, ∃ pieces, ReadOnce template pieces) ∧
      ∀ before after name inputs, Identifier name →
        interpolate (before ++ String.ofList (Piece.placeholder name).source ++ after) inputs =
          interpolate before inputs ++ (inputs.get? (String.ofList name)).getD
            (String.ofList (Piece.placeholder name).source) ++ interpolate after inputs := by
  refine ⟨fun template => ⟨templatePieces template, ?_⟩, fun before after name inputs identifier => ?_⟩
  · exact {
      reading := fun _ => reading_iff
      whole := (reading_templatePieces template).source
      filled := toList_interpolate template
      named := fun _ => mem_placeholders
      depends := fun _ _ => interpolate_congr
      untouched := fun _ => interpolate_eq_self }
  · exact interpolate_append before after identifier inputs

/-- The text for one placeholder is another placeholder, which has an input too. -/
theorem inserted_placeholder_stays :
    interpolate "\x7ba\x7d\x7b\x7bb\x7d\x7d" [("a", "\x7bb\x7d"), ("b", "x")] = "\x7bb\x7d\x7bx\x7d" := by
  have identifier : Identifier ['a'] := ⟨'a', [], rfl, by decide, nofun⟩
  have inserted := interpolation_is_one_pass.2 "" "\x7b\x7bb\x7d\x7d" ['a'] [("a", "\x7bb\x7d"), ("b", "x")] identifier
  exact inserted.trans (by cbv)

end CrewFlow.Text
