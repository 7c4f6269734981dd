import Mathlib
import CrewFlow.Json.Parser
import CrewFlow.Proofs.Text.Search
/-!
# Quotes in JSON texts

Three quotes in a row stand nowhere in a JSON text: a string is followed by something else than a string, and
a quote inside a string has a backslash before it.
-/
set_option autoImplicit false

namespace CrewFlow.Json

def Untripled (s : List Char) : Prop := ¬['"', '"', '"'] <:+: s

section Quotes
variable {s t : List Char} {c : Char}

theorem untripled_nil : Untripled [] := by simp [Untripled]

theorem Untripled.cons (untripled : Untripled s) (other : c ≠ '"') : Untripled (c :: s) := by
  intro triple
  rcases List.infix_cons_iff.mp triple with front | later
  · exact other (List.cons_prefix_cons.mp front).1.symm
  · exact untripled later

theorem Untripled.of_cons (untripled : Untripled (c :: s)) : Untripled s :=
  fun triple => untripled (List.infix_cons triple)

theorem Untripled.append_cons (first : Untripled s) (other : c ≠ '"') (second : Untripled t) :
    Untripled (s ++ c :: t) := by
  induction s with
  | nil => exact second.cons other
  | cons d s ih =>
      intro triple
      rcases List.infix_cons_iff.mp triple with front | later
      · -- three quotes do not reach over `c`
        have foreign : c ∉ ['"', '"', '"'] := by simpa using other
        have before : ['"', '"', '"'] <+: d :: s := Text.prefix_of_prefix_append foreign front
        exact first before.isInfix
      · exact ih first.of_cons later

theorem untripled_of_none (none : '"' ∉ s) : Untripled s :=
  fun triple => none (triple.subset List.mem_cons_self)

theorem Untripled.append_none (first : Untripled s) (none : '"' ∉ t) : Untripled (s ++ t) := by
  cases t with
  | nil => rwa [List.append_nil]
  | cons c t =>
      have other : c ≠ '"' := fun same => none (same ▸ List.mem_cons_self)
      exact first.append_cons other (untripled_of_none fun member => none (List.mem_cons_of_mem c member))

theorem Untripled.none_append (none : '"' ∉ s) (second : Untripled t) : Untripled (s ++ t) := by
  induction s with
  | nil => exact second
  | cons c s ih =>
      have other : c ≠ '"' := fun same => none (same ▸ List.mem_cons_self)
      exact (ih fun member => none (List.mem_cons_of_mem c member)).cons other

end Quotes

/-! ## Strings -/

/-- The rest of a string with its closing quote: behind the opening quote it makes no three in a row. -/
structure Closing (s : List Char) : Prop where
  untripled : Untripled s
  single : ¬['"', '"'] <+: s

theorem closing_quote : Closing ['"'] := by
  refine ⟨?_, by simp⟩
  intro triple
  have short := triple.length_le
  simp at short

theorem Closing.cons {s : List Char} (closing : Closing s) {c : Char} (other : c ≠ '"') : Closing (c :: s) := by
  refine ⟨closing.untripled.cons other, ?_⟩
  intro double
  exact other (List.cons_prefix_cons.mp double).1.symm

theorem Closing.none_append {s t : List Char} (none : '"' ∉ s) (closing : Closing t) : Closing (s ++ t) := by
  induction s with
  | nil => exact closing
  | cons c s ih =>
      have other : c ≠ '"' := fun same => none (same ▸ List.mem_cons_self)
      exact (ih fun member => none (List.mem_cons_of_mem c member)).cons other

theorem Closing.escaped {s : List Char} (closing : Closing s) (c : Char) : Closing ('\\' :: c :: s) := by
  have untripled : Untripled (c :: s) := by
    intro triple
    rcases List.infix_cons_iff.mp triple with front | later
    · exact closing.single (List.cons_prefix_cons.mp front).2
    · exact closing.untripled later
  refine ⟨untripled.cons (by decide), ?_⟩
  intro double
  exact absurd (List.cons_prefix_cons.mp double).1 (by decide)

theorem Closing.opened {s : List Char} (closing : Closing s) : Untripled ('"' :: s) := by
  intro triple
  rcases List.infix_cons_iff.mp triple with front | later
  · exact closing.single (List.cons_prefix_cons.mp front).2
  · exact closing.untripled later

/-! ## What the readers take -/

section Readers
variable {cs rest : List Char}

theorem ne_quote_of_hexValue? {c : Char} {n : Nat} (digit : hexValue? c = some n) : c ≠ '"' := by
  rintro rfl
  have none : hexValue? '"' = none := by decide
  cases none.symm.trans digit

theorem hexQuad?_used {n : Nat} (read : hexQuad? cs = some (n, rest)) :
    ∃ used, cs = used ++ rest ∧ '"' ∉ used := by
  unfold hexQuad? at read
  split at read
  · next a b c d behind =>
      obtain ⟨_, first, read⟩ := Option.bind_eq_some_iff.mp read
      obtain ⟨_, second, read⟩ := Option.bind_eq_some_iff.mp read
      obtain ⟨_, third, read⟩ := Option.bind_eq_some_iff.mp read
      obtain ⟨_, fourth, read⟩ := Option.bind_eq_some_iff.mp read
      cases read
      refine ⟨[a, b, c, d], rfl, ?_⟩
      simp [(ne_quote_of_hexValue? first).symm, (ne_quote_of_hexValue? second).symm,
        (ne_quote_of_hexValue? third).symm, (ne_quote_of_hexValue? fourth).symm]
  · cases read

theorem unicodeEscape?_used {c : Char} (read : unicodeEscape? cs = some (c, rest)) :
    ∃ used, cs = used ++ rest ∧ '"' ∉ used := by
  obtain ⟨⟨high, behind⟩, first, read⟩ := Option.bind_eq_some_iff.mp read
  obtain ⟨used, same, plain⟩ := hexQuad?_used first
  rw [same]
  dsimp only at read
  split_ifs at read
  · split at read
    · next more =>
        obtain ⟨⟨low, last⟩, second, read⟩ := Option.bind_eq_some_iff.mp read
        obtain ⟨others, again, alsoPlain⟩ := hexQuad?_used second
        dsimp only at read
        split_ifs at read
        obtain ⟨-, rfl⟩ := Prod.mk.inj (Option.some.inj read)
        refine ⟨used ++ '\\' :: 'u' :: others, by simp [again], ?_⟩
        simp [plain, alsoPlain]
    · cases read
  · cases read
    exact ⟨used, rfl, plain⟩

theorem stringTail?_used {seen : List Char} {fuel : Nat} {text : String}
    (read : stringTail? seen fuel cs = some (text, rest)) :
    ∃ body, cs = body ++ '"' :: rest ∧ Closing (body ++ ['"']) := by
  induction fuel generalizing seen cs with
  | zero => simp [stringTail?] at read
  | succ fuel ih =>
      cases cs with
      | nil => simp [stringTail?] at read
      | cons c cs =>
          unfold stringTail? at read
          split_ifs at read with quote escape
          · cases read
            exact ⟨[], by rw [quote]; rfl, closing_quote⟩
          · split at read
            · next behind =>
                obtain ⟨⟨d, others⟩, code, further⟩ := Option.bind_eq_some_iff.mp read
                obtain ⟨used, rfl, plain⟩ := unicodeEscape?_used code
                obtain ⟨body, rfl, closing⟩ := ih further
                refine ⟨c :: 'u' :: (used ++ body), by simp, ?_⟩
                have inner := (closing.none_append plain).escaped 'u'
                rw [escape]
                simpa using inner
            · next e behind _ =>
                obtain ⟨d, _, read⟩ := Option.bind_eq_some_iff.mp read
                obtain ⟨body, rfl, closing⟩ := ih read
                refine ⟨c :: e :: body, rfl, ?_⟩
                rw [escape]
                exact closing.escaped e
            · cases read
          · obtain ⟨body, rfl, closing⟩ := ih read
            exact ⟨c :: body, rfl, closing.cons quote⟩

theorem ne_quote_of_isDigit {c : Char} (digit : c.isDigit = true) : c ≠ '"' := by
  rintro rfl
  exact absurd digit (by decide)

theorem quote_not_mem_digits (cs : List Char) : '"' ∉ cs.takeWhile Char.isDigit :=
  fun member => ne_quote_of_isDigit (List.mem_takeWhile_imp member) rfl

theorem takeWhile_append_drop (cs : List Char) :
    cs.takeWhile Char.isDigit ++ cs.drop (cs.takeWhile Char.isDigit).length = cs :=
  List.prefix_iff_eq_append.mp (List.takeWhile_prefix _)

theorem takeSign_used (cs : List Char) :
    ∃ used, cs = used ++ (Decimal.takeSign cs).2 ∧ '"' ∉ used := by
  unfold Decimal.takeSign
  split
  · exact ⟨['+'], rfl, by decide⟩
  · exact ⟨['-'], rfl, by decide⟩
  · exact ⟨[], rfl, by decide⟩

theorem exponent?_used {down : Bool} {power : Nat} (read : exponent? cs = some (down, power, rest)) :
    ∃ used, cs = used ++ rest ∧ '"' ∉ used := by
  obtain ⟨sign, same, plain⟩ := takeSign_used cs
  unfold exponent? at read
  dsimp only at read
  split_ifs at read
  cases read
  refine ⟨sign ++ (Decimal.takeSign cs).2.takeWhile Char.isDigit, ?_, ?_⟩
  · rw [List.append_assoc, takeWhile_append_drop]
    exact same
  · simp [plain, quote_not_mem_digits]

theorem finishFloat?_used {negative : Bool} {g : Gathered} {n : Number}
    (read : finishFloat? negative g cs = some (n, rest)) : ∃ used, cs = used ++ rest ∧ '"' ∉ used := by
  cases cs with
  | nil =>
      obtain ⟨x, value, same⟩ := Option.bind_eq_some_iff.mp read
      exact ⟨[], (Prod.mk.inj (Option.some.inj same)).2, by simp⟩
  | cons c cs =>
      by_cases power : c = 'e' ∨ c = 'E'
      · simp only [finishFloat?, if_pos power] at read
        obtain ⟨⟨down, amount, behind⟩, exponent, read⟩ := Option.bind_eq_some_iff.mp read
        obtain ⟨used, same, plain⟩ := exponent?_used exponent
        have left : behind = rest := by
          dsimp only at read
          by_cases large : maxPower < amount
          · rw [if_pos large] at read
            by_cases lost : g.significand ≠ 0 ∧ !down
            · rw [if_pos lost] at read
              cases read
            · rw [if_neg lost] at read
              exact (Prod.mk.inj (Option.some.inj read)).2
          · rw [if_neg large] at read
            obtain ⟨x, value, read⟩ := Option.bind_eq_some_iff.mp read
            exact (Prod.mk.inj (Option.some.inj read)).2
        have other : '"' ≠ c := by
          rintro rfl
          exact absurd power (by decide)
        refine ⟨c :: used, by rw [same, left]; rfl, ?_⟩
        simp [other, plain]
      · simp only [finishFloat?, if_neg power] at read
        obtain ⟨x, value, same⟩ := Option.bind_eq_some_iff.mp read
        exact ⟨[], (Prod.mk.inj (Option.some.inj same)).2, by simp⟩

theorem number?_used {negative : Bool} {n : Number} (read : number? negative cs = some (n, rest)) :
    ∃ used, cs = used ++ rest ∧ '"' ∉ used := by
  have split := takeWhile_append_drop cs
  have plain := quote_not_mem_digits cs
  suffices behind : ∃ used, cs.drop (cs.takeWhile Char.isDigit).length = used ++ rest ∧ '"' ∉ used by
    obtain ⟨used, same, alsoPlain⟩ := behind
    refine ⟨cs.takeWhile Char.isDigit ++ used, ?_, by simp [plain, alsoPlain]⟩
    rw [List.append_assoc, ← same, split]
  simp only [number?] at read
  generalize cs.drop (cs.takeWhile Char.isDigit).length = behind at read ⊢
  generalize cs.takeWhile Char.isDigit = whole at read
  generalize whole.foldl (fun (g : Gathered) c => g.digit c false) ⟨0, 0, false⟩ = g at read
  by_cases malformed : whole.isEmpty || (whole.head? == some '0' && whole.length ≠ 1)
  · rw [if_pos malformed] at read
    cases read
  · rw [if_neg malformed] at read
    simp only [Option.pure_def] at read
    split at read
    · next fraction =>
        split at read
        · cases read
        · obtain ⟨used, same, alsoPlain⟩ := finishFloat?_used read
          refine ⟨'.' :: (fraction.takeWhile Char.isDigit ++ used), ?_, ?_⟩
          · rw [List.cons_append, List.append_assoc, ← same, takeWhile_append_drop]
          · simp [alsoPlain, quote_not_mem_digits]
    · next c tail _ =>
        split at read
        · exact finishFloat?_used read
        · exact ⟨[], (Prod.mk.inj (Option.some.inj read)).2, by simp⟩
    · split at read
      · exact finishFloat?_used read
      · exact ⟨[], (Prod.mk.inj (Option.some.inj read)).2, by simp⟩

theorem literal?_used {word : List Char} {v w : Value} (plain : '"' ∉ word)
    (read : literal? word v cs = some (w, rest)) : w = v ∧ ∃ used, cs = used ++ rest ∧ '"' ∉ used := by
  unfold literal? at read
  split at read
  · next front =>
      obtain ⟨tail, rfl⟩ := List.isPrefixOf_iff_prefix.mp front
      rw [List.drop_left] at read
      cases read
      exact ⟨rfl, word, rfl, plain⟩
  · cases read

theorem skipSpace_used (cs : List Char) : ∃ used, cs = used ++ skipSpace cs ∧ '"' ∉ used := by
  refine ⟨cs.takeWhile isJsonSpace, List.takeWhile_append_dropWhile.symm, ?_⟩
  intro member
  exact absurd (List.mem_takeWhile_imp member) (by decide)

end Readers

/-! ## Values -/

def ClosedAs (v : Value) (used : List Char) : Prop :=
  match v with
  | .arr _ => used.getLast? = some ']'
  | .obj _ => used.getLast? = some '}'
  | _ => True

/-- What the three readers take with so much fuel has no three quotes in a row. -/
structure TakesUntripled (fuel : Nat) : Prop where
  value : ∀ {depth : Nat} {cs rest : List Char} {v : Value}, value? fuel depth cs = some (v, rest) →
    ∃ used, cs = used ++ rest ∧ Untripled used ∧ ClosedAs v used
  items : ∀ {depth : Nat} {cs rest : List Char} {vs : List Value},
    items? fuel depth cs = some (vs, rest) → ∃ used, cs = used ++ ']' :: rest ∧ Untripled used
  fields : ∀ {depth : Nat} {seen fields : Fields} {cs rest : List Char},
    fields? fuel depth seen cs = some (fields, rest) → ∃ used, cs = used ++ '}' :: rest ∧ Untripled used

section Values
variable {fuel depth : Nat} {cs rest : List Char}

theorem TakesUntripled.items_succ (takes : TakesUntripled fuel) {vs : List Value}
    (read : items? (fuel + 1) depth cs = some (vs, rest)) :
    ∃ used, cs = used ++ ']' :: rest ∧ Untripled used := by
  rw [items?] at read
  obtain ⟨⟨v, behind⟩, first, further⟩ := Option.bind_eq_some_iff.mp read
  obtain ⟨used, rfl, untripled, -⟩ := takes.value first
  obtain ⟨space, gap, plain⟩ := skipSpace_used behind
  rw [gap]
  dsimp only at further
  split at further
  · next more comma =>
      obtain ⟨⟨others, last⟩, later, same⟩ := Option.bind_eq_some_iff.mp further
      cases same
      obtain ⟨tail, rfl, alsoUntripled⟩ := takes.items later
      refine ⟨used ++ space ++ ',' :: tail, by rw [comma]; simp, ?_⟩
      exact (untripled.append_none plain).append_cons (by decide) alsoUntripled
  · next more bracket =>
      cases further
      exact ⟨used ++ space, by rw [bracket]; simp, untripled.append_none plain⟩
  · cases further

theorem TakesUntripled.fields_succ (takes : TakesUntripled fuel) {seen fields : Fields}
    (read : fields? (fuel + 1) depth seen cs = some (fields, rest)) :
    ∃ used, cs = used ++ '}' :: rest ∧ Untripled used := by
  obtain ⟨space, front, plain⟩ := skipSpace_used cs
  rw [fields?] at read
  split at read
  · next inside opened =>
      obtain ⟨⟨key, afterKey⟩, name, further⟩ := Option.bind_eq_some_iff.mp read
      obtain ⟨body, string, closing⟩ := stringTail?_used name
      obtain ⟨gap, gapped, plainGap⟩ := skipSpace_used afterKey
      dsimp only at further
      split at further
      · next afterColon colon =>
          obtain ⟨⟨v, behind⟩, value, last⟩ := Option.bind_eq_some_iff.mp further
          obtain ⟨used, taken, untripled, -⟩ := takes.value value
          obtain ⟨tail, tailed, plainTail⟩ := skipSpace_used behind
          -- blanks, the key, blanks, a colon, the value and blanks
          let field := space ++ '"' :: (body ++ ['"']) ++ gap ++ ':' :: (used ++ tail)
          have shape : cs = field ++ skipSpace behind := by
            calc cs = space ++ '"' :: (body ++ '"' :: (gap ++ ':' :: (used ++ behind))) := by
                    rw [front, opened, string, gapped, colon, taken]
              _ = space ++ '"' :: (body ++ '"' :: (gap ++ ':' :: (used ++ (tail ++ skipSpace behind)))) := by
                    rw [← tailed]
              _ = field ++ skipSpace behind := by simp [field]
          have whole : Untripled field := by
            apply Untripled.append_cons _ (by decide) (untripled.append_none plainTail)
            exact (closing.opened.none_append plain).append_none plainGap
          dsimp only at last
          split at last
          · next more comma =>
              obtain ⟨others, same, alsoUntripled⟩ := takes.fields last
              refine ⟨field ++ ',' :: others, ?_, whole.append_cons (by decide) alsoUntripled⟩
              rw [shape, comma, same]
              simp
          · next more brace =>
              cases last
              exact ⟨field, by rw [shape, brace], whole⟩
          · cases last
      · cases further
  · cases read

theorem ClosedAs.append_left {v : Value} {used : List Char} (closed : ClosedAs v used) (before : List Char) :
    ClosedAs v (before ++ used) := by
  cases v with
  | arr _ => simp_all [ClosedAs, List.getLast?_append]
  | obj _ => simp_all [ClosedAs, List.getLast?_append]
  | _ => trivial

theorem Untripled.enclosed {gap used : List Char} {c d : Char} (untripled : Untripled used) (plain : '"' ∉ gap)
    (first : c ≠ '"') (last : d ≠ '"') : Untripled (c :: (gap ++ used ++ [d])) :=
  ((untripled.none_append plain).append_none (by simpa using last.symm)).cons first

theorem TakesUntripled.value_succ (takes : TakesUntripled fuel) {v : Value}
    (read : value? (fuel + 1) depth cs = some (v, rest)) :
    ∃ used, cs = used ++ rest ∧ Untripled used ∧ ClosedAs v used := by
  obtain ⟨space, front, plain⟩ := skipSpace_used cs
  suffices behindSpace : ∃ used, skipSpace cs = used ++ rest ∧ Untripled used ∧ ClosedAs v used by
    obtain ⟨used, taken, untripled, closed⟩ := behindSpace
    refine ⟨space ++ used, ?_, untripled.none_append plain, closed.append_left space⟩
    rw [List.append_assoc, ← taken]
    exact front
  rw [value?] at read
  split at read
  · cases read
  · next c behind opening =>
      rw [opening]
      -- a literal or a number takes no quote
      have simple {w : Value} (taken : ∃ used, c :: behind = used ++ rest ∧ '"' ∉ used)
          (scalar : ∀ used, ClosedAs w used) :
          ∃ used, c :: behind = used ++ rest ∧ Untripled used ∧ ClosedAs w used := by
        obtain ⟨used, whole, none⟩ := taken
        exact ⟨used, whole, untripled_of_none none, scalar used⟩
      split_ifs at read with isNull isTrue isFalse isMinus digit isQuote isBracket isBrace
      · obtain ⟨rfl, taken⟩ := literal?_used (by decide) read
        exact simple taken fun _ => trivial
      · obtain ⟨rfl, taken⟩ := literal?_used (by decide) read
        exact simple taken fun _ => trivial
      · obtain ⟨rfl, taken⟩ := literal?_used (by decide) read
        exact simple taken fun _ => trivial
      · obtain ⟨⟨n, r⟩, number, same⟩ := Option.map_eq_some_iff.mp read
        cases same
        obtain ⟨used, whole, none⟩ := number?_used number
        have plainNumber : '"' ∉ c :: used := by simp [isMinus, none]
        exact simple ⟨c :: used, by rw [whole, List.cons_append], plainNumber⟩ fun _ => trivial
      · obtain ⟨⟨n, r⟩, number, same⟩ := Option.map_eq_some_iff.mp read
        cases same
        exact simple (number?_used number) fun _ => trivial
      · obtain ⟨⟨text, r⟩, string, same⟩ := Option.map_eq_some_iff.mp read
        cases same
        obtain ⟨body, whole, closing⟩ := stringTail?_used string
        refine ⟨c :: (body ++ ['"']), by simp [whole], ?_, trivial⟩
        rw [isQuote]
        exact closing.opened
      · obtain ⟨gap, gapped, plainGap⟩ := skipSpace_used behind
        cases depth with
        | zero => cases read
        | succ depth =>
            dsimp only at read
            split at read
            · next more bracket =>
                cases read
                refine ⟨c :: (gap ++ [] ++ [']']), by rw [gapped, bracket]; simp, ?_, ?_⟩
                · exact untripled_nil.enclosed plainGap (by simp [isBracket]) (by decide)
                · simp [ClosedAs, List.getLast?_cons]
            · obtain ⟨⟨vs, r⟩, items, same⟩ := Option.map_eq_some_iff.mp read
              cases same
              obtain ⟨used, whole, untripled⟩ := takes.items items
              refine ⟨c :: (gap ++ used ++ [']']), by rw [gapped, whole]; simp, ?_, ?_⟩
              · exact untripled.enclosed plainGap (by simp [isBracket]) (by decide)
              · simp [ClosedAs, List.getLast?_cons]
      · obtain ⟨gap, gapped, plainGap⟩ := skipSpace_used behind
        cases depth with
        | zero => cases read
        | succ depth =>
            dsimp only at read
            split at read
            · next more brace =>
                cases read
                refine ⟨c :: (gap ++ [] ++ ['}']), by rw [gapped, brace]; simp, ?_, ?_⟩
                · exact untripled_nil.enclosed plainGap (by simp [isBrace]) (by decide)
                · simp [ClosedAs, List.getLast?_cons]
            · obtain ⟨⟨fs, r⟩, fields, same⟩ := Option.map_eq_some_iff.mp read
              cases same
              obtain ⟨used, whole, untripled⟩ := takes.fields fields
              refine ⟨c :: (gap ++ used ++ ['}']), by rw [gapped, whole]; simp, ?_, ?_⟩
              · exact untripled.enclosed plainGap (by simp [isBrace]) (by decide)
              · simp [ClosedAs, List.getLast?_cons]

theorem takesUntripled (fuel : Nat) : TakesUntripled fuel := by
  induction fuel with
  | zero =>
      constructor
      · intro depth cs rest v read
        rw [value?] at read
        cases read
      · intro depth cs rest vs read
        rw [items?] at read
        cases read
      · intro depth seen fields cs rest read
        rw [fields?] at read
        cases read
  | succ fuel ih => exact ⟨ih.value_succ, ih.items_succ, ih.fields_succ⟩

end Values

/-! ## Texts -/

section Texts
variable {s : String} {v : Value}

theorem parse?_used (read : parse? s = some v) :
    ∃ used space, s.toList = used ++ space ∧ Untripled used ∧ ClosedAs v used ∧
      ∀ c ∈ space, isJsonSpace c = true := by
  unfold parse? at read
  dsimp only at read
  split at read
  · next w rest found =>
      split_ifs at read with blank
      cases read
      obtain ⟨used, whole, untripled, closed⟩ := (takesUntripled _).value found
      refine ⟨used, rest, whole, untripled, closed, ?_⟩
      exact List.dropWhile_eq_nil_iff.mp (List.isEmpty_iff.mp blank)
  · cases read

theorem untripled_of_parse? (read : parse? s = some v) : Untripled s.toList := by
  obtain ⟨used, space, whole, untripled, -, blank⟩ := parse?_used read
  rw [whole]
  apply untripled.append_none
  intro member
  exact absurd (blank _ member) (by decide)

/-- A text without a blank at its end ends as its value does. -/
theorem closedAs_of_parse? (read : parse? s = some v)
    (tight : ∀ c ∈ s.toList.getLast?, isJsonSpace c = false) : ClosedAs v s.toList := by
  obtain ⟨used, space, whole, -, closed, blank⟩ := parse?_used read
  cases List.eq_nil_or_concat space with
  | inl empty => rwa [whole, empty, List.append_nil]
  | inr ended =>
      obtain ⟨front, c, rfl⟩ := ended
      have last : c ∈ s.toList.getLast? := by simp [whole]
      have absurdity := (blank c (by simp)).symm.trans (tight c last)
      cases absurdity

theorem isString_of_parse? {rest : List Char} (quote : s.toList = '"' :: rest) (read : parse? s = some v) :
    ∃ text, v = .str text := by
  have front : skipSpace s.toList = '"' :: rest := by
    rw [quote]
    rfl
  unfold parse? at read
  dsimp only at read
  split at read
  · next w behind found =>
      split_ifs at read
      cases read
      rw [value?, front] at found
      obtain ⟨⟨text, _⟩, -, same⟩ := Option.map_eq_some_iff.mp found
      cases same
      exact ⟨text, rfl⟩
  · cases read

/-- A list or an object. -/
def Value.Nested : Value → Prop
  | .arr _ | .obj _ => True
  | _ => False

/-- The text of a list or an object has no quote at its ends. -/
theorem Value.Nested.ends_ne_quote (nested : v.Nested) (read : parse? s = some v)
    (tight : ∀ c ∈ s.toList.getLast?, isJsonSpace c = false) :
    s.toList.head? ≠ some '"' ∧ s.toList.getLast? ≠ some '"' := by
  have closed := closedAs_of_parse? read tight
  constructor
  · intro first
    obtain ⟨rest, quote⟩ := List.head?_eq_some_iff.mp first
    obtain ⟨text, rfl⟩ := isString_of_parse? quote read
    exact nested
  · intro last
    cases v with
    | arr _ => cases last.symm.trans closed
    | obj _ => cases last.symm.trans closed
    | _ => exact nested

end Texts

end CrewFlow.Json
