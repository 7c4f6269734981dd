import Mathlib
import CrewFlow.Json.Parser
import CrewFlow.Json.Printer
import CrewFlow.Proofs.Json.Finite
/-!
# Texts read back

The text of a value, read again, is the value. What has to be asked of the value is what the reader asks of a
text: that lists and objects are not nested too deep, and that each of its doubles is read back from its own
text.
-/
set_option autoImplicit false

namespace CrewFlow.Json

/-! ## Strings -/

theorem hexValue?_hexDigit : ∀ n < 16, hexValue? (hexDigit n) = some n := by
  decide

theorem hexQuad?_control {n : Nat} (control : n < 32) (rest : List Char) :
    hexQuad? ('0' :: '0' :: hexDigit (n / 16) :: hexDigit (n % 16) :: rest) = some (n, rest) := by
  have zero : hexValue? '0' = some 0 := by decide
  have high := hexValue?_hexDigit (n / 16) (by omega)
  have low := hexValue?_hexDigit (n % 16) (by omega)
  have whole : 0 * 4096 + 0 * 256 + n / 16 * 16 + n % 16 = n := by omega
  simp only [hexQuad?, zero, high, low, bind, Option.bind, pure, whole]

theorem unicodeEscape?_control {c : Char} (control : c.toNat < 32) (rest : List Char) :
    unicodeEscape? ('0' :: '0' :: hexDigit (c.toNat / 16) :: hexDigit (c.toNat % 16) :: rest) =
      some (c, rest) := by
  have noHigh : ¬(0xD800 ≤ c.toNat ∧ c.toNat < 0xDC00) := by omega
  have noLow : ¬(0xDC00 ≤ c.toNat ∧ c.toNat < 0xE000) := by omega
  simp only [unicodeEscape?, hexQuad?_control control, bind, Option.bind, if_neg noHigh, if_neg noLow, pure,
    Char.ofNat_toNat]

theorem stringTail?_escapeChar (seen : List Char) (c : Char) (fuel : Nat) (rest : List Char) :
    stringTail? seen (fuel + 1) (escapeChar c ++ rest) = stringTail? (c :: seen) fuel rest := by
  unfold escapeChar
  split_ifs with quote slash line back tab eight page control
  · subst quote
    rfl
  · subst slash
    rfl
  · subst line
    rfl
  · subst back
    rfl
  · subst tab
    rfl
  · subst eight
    rfl
  · subst page
    rfl
  · simp only [List.cons_append, List.nil_append, stringTail?]
    simp [unicodeEscape?_control control]
  · simp [stringTail?, quote, slash, control]

theorem stringTail?_escaped (s : List Char) (seen : List Char) {fuel : Nat} (enough : s.length < fuel)
    (rest : List Char) :
    stringTail? seen fuel (s.flatMap escapeChar ++ '"' :: rest) =
      some (String.ofList (seen.reverse ++ s), rest) := by
  induction s generalizing seen fuel with
  | nil =>
      cases fuel with
      | zero => cases enough
      | succ fuel => simp [stringTail?]
  | cons c s ih =>
      cases fuel with
      | zero => cases enough
      | succ fuel =>
          rw [List.flatMap_cons, List.append_assoc, stringTail?_escapeChar,
            ih (c :: seen) (by simpa using enough)]
          simp

theorem length_le_escaped (s : List Char) : s.length ≤ (s.flatMap escapeChar).length := by
  induction s with
  | nil => simp
  | cons c s ih =>
      have one : 1 ≤ (escapeChar c).length := by
        unfold escapeChar
        split_ifs <;> simp
      simp only [List.flatMap_cons, List.length_append, List.length_cons]
      omega

theorem stringTail?_quoted (s : String) (rest : List Char) :
    stringTail? [] ((s.toList.flatMap escapeChar ++ '"' :: rest).length + 1)
      (s.toList.flatMap escapeChar ++ '"' :: rest) = some (s, rest) := by
  have longer := length_le_escaped s.toList
  have enough : s.toList.length < (s.toList.flatMap escapeChar ++ '"' :: rest).length + 1 := by
    rw [List.length_append]
    omega
  rw [stringTail?_escaped s.toList [] enough]
  simp

/-! ## Numbers -/

def Stops (rest : List Char) : Prop :=
  ∀ c ∈ rest.head?, c.isDigit = false ∧ c ≠ '.' ∧ c ≠ 'e' ∧ c ≠ 'E'

theorem stops_nil : Stops [] := by simp [Stops]

section Append
variable {tail : List Char}

theorem Stops.takeWhile (stops : Stops tail) (cs : List Char) :
    (cs ++ tail).takeWhile Char.isDigit = cs.takeWhile Char.isDigit := by
  have none : tail.takeWhile Char.isDigit = [] := by
    cases tail with
    | nil => rfl
    | cons c tail => simp [(stops c rfl).1]
  rw [List.takeWhile_append]
  split
  · next all =>
      rw [none, List.append_nil]
      exact ((List.takeWhile_prefix _).eq_of_length all).symm
  · rfl

theorem drop_takeWhile_append (cs : List Char) :
    (cs ++ tail).drop (cs.takeWhile Char.isDigit).length =
      cs.drop (cs.takeWhile Char.isDigit).length ++ tail :=
  List.drop_append_of_le_length (List.takeWhile_prefix _).length_le

theorem takeSign_append {cs : List Char} (given : cs ≠ []) :
    Decimal.takeSign (cs ++ tail) = ((Decimal.takeSign cs).1, (Decimal.takeSign cs).2 ++ tail) := by
  cases cs with
  | nil => contradiction
  | cons c cs =>
      rw [List.cons_append]
      unfold Decimal.takeSign
      split <;> simp_all

theorem exponent?_append (stops : Stops tail) {cs rest : List Char} {negative : Bool} {power : Nat}
    (read : exponent? cs = some (negative, power, rest)) :
    exponent? (cs ++ tail) = some (negative, power, rest ++ tail) := by
  have given : cs ≠ [] := by
    rintro rfl
    cases read
  simp only [exponent?] at read ⊢
  rw [takeSign_append given]
  simp only [stops.takeWhile, drop_takeWhile_append]
  split at read
  · cases read
  · next digits =>
      cases read
      rw [if_neg digits]

theorem finishFloat?_append (stops : Stops tail) {cs rest : List Char} {negative : Bool} {g : Gathered}
    {n : Number} (read : finishFloat? negative g cs = some (n, rest)) :
    finishFloat? negative g (cs ++ tail) = some (n, rest ++ tail) := by
  cases cs with
  | nil =>
      obtain ⟨x, value, same⟩ := Option.bind_eq_some_iff.mp read
      cases same
      cases tail with
      | nil => exact read
      | cons c tail =>
          have plain : ¬(c = 'e' ∨ c = 'E') := not_or.mpr (stops c rfl).2.2
          simp only [finishFloat?, List.nil_append, if_neg plain, value]
          rfl
  | cons c cs =>
      by_cases power : c = 'e' ∨ c = 'E'
      · simp only [finishFloat?, List.cons_append, if_pos power] at read ⊢
        obtain ⟨⟨down, amount, behind⟩, exponent, read⟩ := Option.bind_eq_some_iff.mp read
        rw [exponent?_append stops exponent]
        simp only [Option.bind_eq_bind, Option.bind_some] at read ⊢
        by_cases large : maxPower < amount
        · rw [if_pos large] at read ⊢
          by_cases lost : g.significand ≠ 0 ∧ !down
          · rw [if_pos lost] at read
            cases read
          · rw [if_neg lost] at read ⊢
            cases read
            rfl
        · rw [if_neg large] at read ⊢
          obtain ⟨x, value, same⟩ := Option.bind_eq_some_iff.mp read
          cases same
          simp only [value]
          rfl
      · simp only [finishFloat?, List.cons_append, if_neg power] at read ⊢
        obtain ⟨x, value, same⟩ := Option.bind_eq_some_iff.mp read
        cases same
        simp only [value]
        rfl

theorem number?_append (stops : Stops tail) {cs rest : List Char} {negative : Bool} {n : Number}
    (read : number? negative cs = some (n, rest)) :
    number? negative (cs ++ tail) = some (n, rest ++ tail) := by
  simp only [number?, stops.takeWhile, drop_takeWhile_append] at read ⊢
  generalize cs.drop (cs.takeWhile Char.isDigit).length = behind at read ⊢
  generalize cs.takeWhile Char.isDigit = whole at read ⊢
  generalize whole.foldl (fun (g : Gathered) c => g.digit c false) ⟨0, 0, false⟩ = g at read ⊢
  by_cases malformed : whole.isEmpty || (whole.head? == some '0' && whole.length ≠ 1)
  · rw [if_pos malformed] at read
    cases read
  · rw [if_neg malformed] at read ⊢
    simp only [Option.pure_def] at read ⊢
    cases behind with
    | nil =>
        rw [List.nil_append]
        cases tail with
        | nil => simpa using read
        | cons c tail =>
            -- The number ends where the tail begins; the tail must not be taken for more of it.
            obtain ⟨_, noPoint, noPower, noCapital⟩ := stops c rfl
            split
            · next same =>
                cases same
                exact absurd rfl noPoint
            · next same =>
                cases same
                simp only [noPower, noCapital, Bool.or_false, beq_eq_false_iff_ne.mpr, ne_eq,
                  not_false_eq_true] at read ⊢
                by_cases full : g.full
                · rw [if_pos full] at read ⊢
                  exact finishFloat?_append stops read
                · rw [if_neg full] at read ⊢
                  cases read
                  rfl
            · next same => cases same
    | cons c behind =>
        rw [List.cons_append]
        by_cases point : c = '.'
        · subst point
          simp only [stops.takeWhile, drop_takeWhile_append] at read ⊢
          split at read
          · cases read
          · next digits =>
              rw [if_neg digits]
              exact finishFloat?_append stops read
        · split at read
          · next same =>
              cases same
              exact absurd rfl point
          · next same =>
              cases same
              by_cases float : (g.full || c == 'e' || c == 'E') = true
              · simp only [if_pos float] at read ⊢
                exact finishFloat?_append stops read
              · simp only [if_neg float] at read ⊢
                cases read
                rfl
          · next same => cases same

end Append

theorem Gathered.digit_digitChar {m k : Nat} (digit : k < 10) (small : 10 * m + k ≤ maxWord) :
    Gathered.digit ⟨m, 0, false⟩ k.digitChar false = ⟨10 * m + k, 0, false⟩ := by
  have value : m * 10 + (k.digitChar.toNat - 48) = 10 * m + k := by
    rw [Nat.toNat_digitChar_sub_48_of_lt_ten digit]
    omega
  simp [Gathered.digit, value, small]

theorem gathered_toDigits {n : Nat} (small : n ≤ maxWord) :
    (Nat.toDigits 10 n).foldl (fun g c => g.digit c false) ⟨0, 0, false⟩ = Gathered.mk n 0 false := by
  induction n using Nat.base_induction 10 (by decide) with
  | single k digit =>
      rw [Nat.toDigits_of_lt_base digit]
      simpa using Gathered.digit_digitChar (m := 0) digit (by simpa using small)
  | digit m k digit positive ih =>
      rw [← Nat.toDigits_append_toDigits (by decide) positive digit, List.foldl_append, ih (by omega),
        Nat.toDigits_of_lt_base digit]
      exact Gathered.digit_digitChar digit small

theorem eq_zero_of_head?_toDigits {n : Nat} (leading : (Nat.toDigits 10 n).head? = some '0') : n = 0 := by
  induction n using Nat.base_induction 10 (by decide) with
  | single k digit => simpa [Nat.toDigits_of_lt_base digit] using leading
  | digit m k digit positive ih =>
      rw [← Nat.toDigits_append_toDigits (by decide) positive digit,
        List.head?_append_of_ne_nil _ Nat.toDigits_ne_nil] at leading
      have zero := ih leading
      omega

theorem number?_toDigits {n : Nat} (small : n ≤ maxWord) (negative : Bool) :
    number? negative (Nat.toDigits 10 n) = some (ofWord negative n, []) := by
  have digits : ∀ c ∈ Nat.toDigits 10 n, c.isDigit = true :=
    fun c => Nat.isDigit_of_mem_toDigits (by decide) (by decide)
  have whole : (Nat.toDigits 10 n).takeWhile Char.isDigit = Nat.toDigits 10 n :=
    List.takeWhile_eq_self_iff.mpr digits
  have formed : ¬((Nat.toDigits 10 n).isEmpty ||
      ((Nat.toDigits 10 n).head? == some '0' && (Nat.toDigits 10 n).length ≠ 1)) = true := by
    intro malformed
    simp only [Bool.or_eq_true, List.isEmpty_iff, Nat.toDigits_ne_nil, false_or, Bool.and_eq_true, beq_iff_eq,
      decide_eq_true_eq] at malformed
    obtain ⟨leading, long⟩ := malformed
    obtain rfl := eq_zero_of_head?_toDigits leading
    exact long (by simp)
  simp only [number?, whole, List.drop_length, gathered_toDigits small, if_neg formed]
  rfl

/-! ## Numbers read back -/

/-- The text of a number is read as that number. -/
def Number.ReadsBack (n : Number) : Prop := value? 1 0 n.text.toList = some (.num n, [])

theorem value?_digits {ds : List Char} (given : ds ≠ []) (digits : ∀ c ∈ ds, c.isDigit = true)
    (fuel depth : Nat) : value? (fuel + 1) depth ds = (number? false ds).map fun (n, r) => (.num n, r) := by
  cases ds with
  | nil => contradiction
  | cons d ds =>
      have digit : d.isDigit = true := digits d List.mem_cons_self
      have other {c : Char} (plain : c.isDigit = false) : d ≠ c := by
        rintro rfl
        rw [digit] at plain
        cases plain
      have solid : isJsonSpace d = false := by
        simp [isJsonSpace, other (c := ' ') (by decide), other (c := '\n') (by decide),
          other (c := '\r') (by decide), other (c := '\t') (by decide)]
      have first : skipSpace (d :: ds) = d :: ds := by
        rw [skipSpace, List.dropWhile_cons_of_neg (by simp [solid])]
      simp only [value?, first, if_neg (other (c := 'n') (by decide)), if_neg (other (c := 't') (by decide)),
        if_neg (other (c := 'f') (by decide)), if_neg (other (c := '-') (by decide)), if_pos digit]

theorem Number.Held.readsBack {n : Int} (held : (Number.int n).Held) : (Number.int n).ReadsBack := by
  obtain ⟨least, size⟩ : -9223372036854775808 ≤ n ∧ n < 18446744073709551616 := by
    cases held with
    | int least size => exact ⟨least, size⟩
  have most : maxWord = 18446744073709551615 := rfl
  rw [ReadsBack, Number.text, Int.toString_eq_repr, Int.repr_eq_if]
  by_cases natural : 0 ≤ n
  · rw [if_pos natural, Nat.toList_repr, value?_digits Nat.toDigits_ne_nil
      fun c => Nat.isDigit_of_mem_toDigits (by decide) (by decide), number?_toDigits (by omega)]
    simp [ofWord, natural]
  · have word : ofWord true (-n).toNat = .int n := by
      have large : Decimal.Word.size 63 = 9223372036854775808 := rfl
      have positive : ¬((-n).toNat = 0 ∨ Decimal.Word.size 63 < (-n).toNat) := by omega
      rw [ofWord, if_pos rfl, if_neg positive]
      congr 1
      omega
    have signed : ("-" ++ (-n).toNat.repr).toList = '-' :: Nat.toDigits 10 (-n).toNat := by simp
    rw [if_neg natural, signed, value?]
    change (number? true (Nat.toDigits 10 (-n).toNat)).map _ = _
    rw [number?_toDigits (by omega), word]
    rfl

theorem skipSpace_append {cs rest : List Char} {c : Char} (first : skipSpace cs = c :: rest)
    (tail : List Char) : skipSpace (cs ++ tail) = c :: (rest ++ tail) := by
  rw [skipSpace] at first ⊢
  rw [List.dropWhile_append, first]
  rfl

theorem eq_of_literal? {word cs rest : List Char} {v w : Value} (read : literal? word v cs = some (w, rest)) :
    w = v := by
  unfold literal? at read
  split at read
  · cases read
    rfl
  · cases read

theorem Number.ReadsBack.append {n : Number} (reads : n.ReadsBack) {tail : List Char} (stops : Stops tail)
    (fuel depth : Nat) : value? (fuel + 1) depth (n.text.toList ++ tail) = some (.num n, tail) := by
  rw [Number.ReadsBack, value?] at reads
  rw [value?]
  split at reads
  · cases reads
  · next c rest first =>
      rw [skipSpace_append first]
      simp only
      split_ifs at reads ⊢ with null yes no minus digit quote list object
      · cases eq_of_literal? reads
      · cases eq_of_literal? reads
      · cases eq_of_literal? reads
      · obtain ⟨⟨m, behind⟩, number, same⟩ := Option.map_eq_some_iff.mp reads
        cases same
        simp [number?_append stops number]
      · obtain ⟨⟨m, behind⟩, number, same⟩ := Option.map_eq_some_iff.mp reads
        cases same
        rw [← List.cons_append, number?_append stops number]
        rfl
      · obtain ⟨_, _, same⟩ := Option.map_eq_some_iff.mp reads
        cases same

/-! ## Legible values -/

theorem skipSpace_skipSpace (cs : List Char) : skipSpace (skipSpace cs) = skipSpace cs :=
  List.dropWhile_idempotent _ cs

inductive Value.Legible : Nat → Value → Prop where
  | null {depth : Nat} : Legible depth .null
  | bool {depth : Nat} (b : Bool) : Legible depth (.bool b)
  | int {depth : Nat} (n : Int) : Legible depth (.num (.int n))
  | float {depth : Nat} {x : Float} (reads : (Number.float x).ReadsBack) : Legible depth (.num (.float x))
  | str {depth : Nat} (s : String) : Legible depth (.str s)
  | arr {depth : Nat} {items : List Value} (each : ∀ v ∈ items, Legible depth v) :
      Legible (depth + 1) (.arr items)
  | obj {depth : Nat} {fields : Fields} (each : ∀ f ∈ fields, Legible depth f.2) :
      Legible (depth + 1) (.obj fields)

theorem Number.same_iff {m n : Number} : m.same n = true ↔ m = n := by
  constructor
  · intro same
    cases m <;> cases n <;> simp only [Number.same, beq_iff_eq, Bool.false_eq_true] at same
    · rw [same]
    · next x y =>
        obtain ⟨⟨bits, valid⟩⟩ := x
        obtain ⟨⟨bits', valid'⟩⟩ := y
        obtain rfl : bits = bits' := same
        rfl
  · rintro rfl
    cases m <;> simp [Number.same]

def Number.readsBack (n : Number) : Bool :=
  match value? 1 0 n.text.toList with
  | some (.num m, []) => m.same n
  | _ => false

theorem Number.readsBack_iff {n : Number} : n.readsBack = true ↔ n.ReadsBack := by
  rw [Number.readsBack, Number.ReadsBack]
  constructor
  · intro check
    split at check
    · next m read => rw [read, Number.same_iff.mp check]
    · cases check
  · intro read
    simp only [read, Number.same_iff]

namespace Value

mutual

def legible : Nat → Value → Bool
  | depth + 1, .arr items => legibleItems depth items
  | depth + 1, .obj fields => legibleFields depth fields
  | 0, .arr _ | 0, .obj _ => false
  | _, .num (.float x) => (Number.float x).readsBack
  | _, _ => true

def legibleItems : Nat → List Value → Bool
  | _, [] => true
  | depth, v :: vs => legible depth v && legibleItems depth vs

def legibleFields : Nat → List (String × Value) → Bool
  | _, [] => true
  | depth, (_, v) :: fs => legible depth v && legibleFields depth fs

end

mutual

theorem Legible.of_check : {depth : Nat} → (v : Value) → v.legible depth = true → v.Legible depth
  | _, .null, _ => .null
  | _, .bool b, _ => .bool b
  | _, .num (.int n), _ => .int n
  | depth, .num (.float x), check =>
      .float (Number.readsBack_iff.mp (by cases depth <;> simpa [legible] using check))
  | _, .str s, _ => .str s
  | depth + 1, .arr items, check => .arr (Legible.of_items items (by simpa [legible] using check))
  | depth + 1, .obj fields, check => .obj (Legible.of_fields fields (by simpa [legible] using check))
  | 0, .arr items, check => by simp [legible] at check
  | 0, .obj fields, check => by simp [legible] at check

theorem Legible.of_items : {depth : Nat} → (items : List Value) → legibleItems depth items = true →
    ∀ v ∈ items, v.Legible depth
  | _, [], _ => by simp
  | depth, v :: vs, check => by
      obtain ⟨here, later⟩ := by simpa [legibleItems] using check
      exact List.forall_mem_cons.mpr ⟨Legible.of_check v here, Legible.of_items vs later⟩

theorem Legible.of_fields : {depth : Nat} → (fields : List (String × Value)) →
    legibleFields depth fields = true → ∀ f ∈ fields, f.2.Legible depth
  | _, [], _ => by simp
  | depth, (key, v) :: fs, check => by
      obtain ⟨here, later⟩ := by simpa [legibleFields] using check
      exact List.forall_mem_cons.mpr ⟨Legible.of_check v here, Legible.of_fields fs later⟩

end

end Value

/-! ## Characters -/

def quoteChars (s : String) : List Char := '"' :: (s.toList.flatMap escapeChar ++ ['"'])

theorem toList_quote (s : String) : (quote s).toList = quoteChars s := by
  simp [quote, quoteChars]

namespace Value

mutual

def chars : Value → List Char
  | .null => ['n', 'u', 'l', 'l']
  | .bool true => ['t', 'r', 'u', 'e']
  | .bool false => ['f', 'a', 'l', 's', 'e']
  | .num n => n.text.toList
  | .str s => quoteChars s
  | .arr items => '[' :: (itemsChars items ++ [']'])
  | .obj fields => '\x7b' :: (fieldsChars fields ++ ['\x7d'])

def itemsChars : List Value → List Char
  | [] => []
  | [v] => chars v
  | v :: vs => chars v ++ ',' :: itemsChars vs

def fieldsChars : List (String × Value) → List Char
  | [] => []
  | [(k, v)] => quoteChars k ++ ':' :: chars v
  | (k, v) :: fs => quoteChars k ++ ':' :: chars v ++ ',' :: fieldsChars fs

end

mutual

theorem toList_text : (v : Value) → v.text.toList = v.chars
  | .null => by simp [text, chars]
  | .bool true => by simp [text, chars]
  | .bool false => by simp [text, chars]
  | .num n => by simp [text, chars]
  | .str s => by simp [text, chars, toList_quote]
  | .arr items => by simp [text, chars, toList_itemsText items]
  | .obj fields => by simp [text, chars, toList_fieldsText fields]

theorem toList_itemsText : (items : List Value) → (itemsText items).toList = itemsChars items
  | [] => by simp [itemsText, itemsChars]
  | [v] => by simp [itemsText, itemsChars, toList_text v]
  | v :: u :: us => by simp [itemsText, itemsChars, toList_text v, toList_itemsText (u :: us)]

theorem toList_fieldsText : (fields : List (String × Value)) → (fieldsText fields).toList = fieldsChars fields
  | [] => by simp [fieldsText, fieldsChars]
  | [(k, v)] => by simp [fieldsText, fieldsChars, toList_quote, toList_text v]
  | (k, v) :: g :: gs => by
      simp [fieldsText, fieldsChars, toList_quote, toList_text v, toList_fieldsText (g :: gs)]

end

end Value

theorem parse?_text (v : Value) :
    parse? v.text = match value? (2 * v.chars.length + 2) nestingLimit v.chars with
      | some (u, rest) => if (skipSpace rest).isEmpty then some u else none
      | none => none := by
  rw [← v.toList_text]
  rfl

/-! ## Values -/

def Value.Returns (depth : Nat) (v : Value) : Prop :=
  ∀ (fuel : Nat) (tail : List Char), 2 * v.chars.length ≤ fuel → Stops tail →
    value? fuel depth (v.chars ++ tail) = some (v, tail)

section Containers
variable {depth fuel : Nat} {tail : List Char}

theorem stops_comma : Stops (',' :: tail) := by simp [Stops]

theorem stops_bracket : Stops (']' :: tail) := by simp [Stops]

theorem stops_brace : Stops ('\x7d' :: tail) := by simp [Stops]

theorem items?_itemsChars {items : List Value} (each : ∀ v ∈ items, v.Returns depth) (given : items ≠ [])
    (enough : 2 * (Value.itemsChars items).length + 1 ≤ fuel) :
    items? fuel depth (Value.itemsChars items ++ ']' :: tail) = some (items, tail) := by
  induction items generalizing fuel with
  | nil => contradiction
  | cons v vs ih =>
      cases fuel with
      | zero => cases enough
      | succ fuel =>
          have here := each v List.mem_cons_self
          cases vs with
          | nil =>
              simp only [Value.itemsChars] at enough ⊢
              rw [items?, here _ _ (by omega) stops_bracket]
              rfl
          | cons u us =>
              have text : Value.itemsChars (v :: u :: us) =
                  v.chars ++ ',' :: Value.itemsChars (u :: us) := rfl
              rw [text, List.length_append, List.length_cons] at enough
              have later := ih (fun x later => each x (List.mem_cons_of_mem v later)) (by simp)
                (by omega : _ ≤ fuel)
              rw [text, List.append_assoc, List.cons_append, items?, here _ _ (by omega) stops_comma]
              simp [skipSpace, isJsonSpace, later]

theorem insert_append {seen : Fields} {key : String} (fresh : key ∉ seen.map (·.1)) (v : Value) :
    seen.insert key v = seen ++ [(key, v)] := by
  induction seen with
  | nil => rfl
  | cons f seen ih =>
      simp only [List.map_cons, List.mem_cons, not_or] at fresh
      rw [Fields.insert, if_neg (Ne.symm fresh.1), ih fresh.2]
      rfl

theorem fields?_field {seen : Fields} {key : String} {v : Value} (returns : v.Returns depth)
    (fresh : key ∉ seen.map (·.1)) (enough : 2 * v.chars.length ≤ fuel) (stops : Stops tail) :
    fields? (fuel + 1) depth seen (quoteChars key ++ ':' :: v.chars ++ tail) =
      match skipSpace tail with
      | ',' :: rest => fields? fuel depth (seen ++ [(key, v)]) rest
      | '\x7d' :: rest => some (seen ++ [(key, v)], rest)
      | _ => none := by
  have text : quoteChars key ++ ':' :: v.chars ++ tail =
      '"' :: (key.toList.flatMap escapeChar ++ '"' :: ':' :: (v.chars ++ tail)) := by
    simp [quoteChars]
  have opening (cs : List Char) : skipSpace ('"' :: cs) = '"' :: cs := by simp [skipSpace, isJsonSpace]
  have colon (cs : List Char) : skipSpace (':' :: cs) = ':' :: cs := by simp [skipSpace, isJsonSpace]
  rw [text, fields?]
  simp only [opening, stringTail?_quoted, Option.bind_eq_bind, Option.bind_some, colon,
    returns fuel tail enough stops, insert_append fresh]
  rfl

theorem fields?_fieldsChars {fields seen : Fields} (each : ∀ f ∈ fields, f.2.Returns depth)
    (distinct : ((seen ++ fields).map (·.1)).Nodup) (given : fields ≠ [])
    (enough : 2 * (Value.fieldsChars fields).length + 1 ≤ fuel) :
    fields? fuel depth seen (Value.fieldsChars fields ++ '\x7d' :: tail) =
      some (seen ++ fields, tail) := by
  induction fields generalizing fuel seen with
  | nil => contradiction
  | cons f fs ih =>
      obtain ⟨key, v⟩ := f
      cases fuel with
      | zero => cases enough
      | succ fuel =>
          have here : v.Returns depth := each (key, v) List.mem_cons_self
          have fresh : key ∉ seen.map (·.1) := by
            intro before
            simp only [List.map_append, List.map_cons, List.nodup_append, List.mem_cons] at distinct
            exact distinct.2.2 key before key (Or.inl rfl) rfl
          have within : v.chars.length ≤ (quoteChars key ++ ':' :: v.chars).length := by
            rw [List.length_append, List.length_cons]
            omega
          cases fs with
          | nil =>
              have text : Value.fieldsChars [(key, v)] = quoteChars key ++ ':' :: v.chars := rfl
              rw [text] at enough ⊢
              rw [fields?_field here fresh (by omega) stops_brace]
              simp [skipSpace, isJsonSpace]
          | cons g gs =>
              have text : Value.fieldsChars ((key, v) :: g :: gs) =
                  quoteChars key ++ ':' :: v.chars ++ ',' :: Value.fieldsChars (g :: gs) := rfl
              rw [text, List.length_append, List.length_cons] at enough
              have apart : ((seen ++ [(key, v)] ++ g :: gs).map (·.1)).Nodup := by simpa using distinct
              have later := ih (fun x later => each x (List.mem_cons_of_mem _ later)) apart (by simp)
                (by omega : _ ≤ fuel)
              rw [text, List.append_assoc, List.cons_append, fields?_field here fresh (by omega) stops_comma]
              simpa [skipSpace, isJsonSpace] using later

theorem value?_skipSpace (cs : List Char) : value? fuel depth (skipSpace cs) = value? fuel depth cs := by
  cases fuel with
  | zero => rfl
  | succ fuel => rw [value?, value?, skipSpace_skipSpace]

theorem items?_skipSpace (cs : List Char) : items? fuel depth (skipSpace cs) = items? fuel depth cs := by
  cases fuel with
  | zero => rfl
  | succ fuel => rw [items?, items?, value?_skipSpace]

theorem skipSpace_ne_bracket {cs : List Char} {read : List Value × List Char}
    (items : items? fuel depth cs = some read) (rest : List Char) : skipSpace cs ≠ ']' :: rest := by
  intro ended
  rw [← items?_skipSpace, ended] at items
  cases fuel with
  | zero => cases items
  | succ fuel =>
      cases fuel with
      | zero => cases items
      | succ fuel => simp [items?, value?, skipSpace, isJsonSpace] at items

end Containers

theorem returns_of_readsBack {depth : Nat} {n : Number} (reads : n.ReadsBack) :
    (Value.num n).Returns depth := by
  intro fuel tail enough stops
  rw [Value.chars] at enough ⊢
  cases fuel with
  | zero =>
      have empty : n.text.toList = [] := List.eq_nil_of_length_eq_zero (by omega)
      rw [Number.ReadsBack, empty] at reads
      cases reads
  | succ fuel => exact reads.append stops fuel depth

theorem returns_str {depth : Nat} (s : String) : (Value.str s).Returns depth := by
  intro fuel tail enough stops
  have text : (Value.str s).chars ++ tail = '"' :: (s.toList.flatMap escapeChar ++ '"' :: tail) := by
    simp [Value.chars, quoteChars]
  cases fuel with
  | zero => simp [Value.chars, quoteChars] at enough
  | succ fuel =>
      have opening (cs : List Char) : skipSpace ('"' :: cs) = '"' :: cs := by simp [skipSpace, isJsonSpace]
      rw [text, value?, opening]
      change (stringTail? [] _ _).map _ = _
      rw [stringTail?_quoted]
      rfl

theorem returns_arr {depth : Nat} {items : List Value} (each : ∀ v ∈ items, v.Returns depth) :
    (Value.arr items).Returns (depth + 1) := by
  intro fuel tail enough stops
  rw [Value.chars] at enough ⊢
  simp only [List.length_cons, List.length_append, List.length_nil] at enough
  cases fuel with
  | zero => omega
  | succ fuel =>
      have opening (cs : List Char) : skipSpace ('[' :: cs) = '[' :: cs := by simp [skipSpace, isJsonSpace]
      simp only [List.cons_append, List.append_assoc, List.nil_append]
      rw [value?, opening]
      by_cases given : items = []
      · subst given
        rfl
      · have inner : items? fuel depth (Value.itemsChars items ++ ']' :: tail) = some (items, tail) :=
          items?_itemsChars each given (by omega)
        have noDigit : ('[' : Char).isDigit = false := rfl
        simp only [Char.reduceEq, noDigit, Bool.false_eq_true, if_false, if_true]
        split
        · next ended => exact absurd ended (skipSpace_ne_bracket inner _)
        · rw [items?_skipSpace, inner]
          rfl

theorem returns_obj {depth : Nat} {fields : Fields} (distinct : (fields.map (·.1)).Nodup)
    (each : ∀ f ∈ fields, f.2.Returns depth) : (Value.obj fields).Returns (depth + 1) := by
  intro fuel tail enough stops
  rw [Value.chars] at enough ⊢
  simp only [List.length_cons, List.length_append, List.length_nil] at enough
  cases fuel with
  | zero => omega
  | succ fuel =>
      have opening (cs : List Char) : skipSpace ('\x7b' :: cs) = '\x7b' :: cs := by
        simp [skipSpace, isJsonSpace]
      simp only [List.cons_append, List.append_assoc, List.nil_append]
      rw [value?, opening]
      cases fields with
      | nil => rfl
      | cons f fs =>
          have inner : fields? fuel depth [] (Value.fieldsChars (f :: fs) ++ '\x7d' :: tail) =
              some (f :: fs, tail) :=
            fields?_fieldsChars each distinct (by simp) (by omega)
          obtain ⟨cs, first⟩ : ∃ cs, Value.fieldsChars (f :: fs) ++ '\x7d' :: tail = '"' :: cs := by
            cases fs <;> simp [Value.fieldsChars, quoteChars]
          have key : skipSpace ('"' :: cs) = '"' :: cs := by simp [skipSpace, isJsonSpace]
          have noDigit : ('\x7b' : Char).isDigit = false := rfl
          rw [first] at inner ⊢
          simp only [Char.reduceEq, noDigit, Bool.false_eq_true, if_false, if_true, key]
          simp [inner]

theorem Value.Legible.returns {depth : Nat} {v : Value} (held : v.Held) (legible : v.Legible depth) :
    v.Returns depth := by
  induction legible with
  | null =>
      intro fuel tail enough stops
      cases fuel with
      | zero => cases enough
      | succ fuel => simp [value?, Value.chars, skipSpace, isJsonSpace, literal?]
  | bool b =>
      intro fuel tail enough stops
      cases fuel with
      | zero => cases b <;> cases enough
      | succ fuel => cases b <;> simp [value?, Value.chars, skipSpace, isJsonSpace, literal?]
  | int n =>
      cases held with
      | num held => exact returns_of_readsBack held.readsBack
  | float reads => exact returns_of_readsBack reads
  | str s => exact returns_str s
  | arr each ih =>
      cases held with
      | arr held => exact returns_arr fun v member => ih v member (held v member)
  | obj each ih =>
      cases held with
      | obj distinct held => exact returns_obj distinct fun f member => ih f member (held f member)

/-- A legible value of a document is read back from its text. -/
theorem Value.Legible.parse?_text {v : Value} (held : v.Held) (legible : v.Legible nestingLimit) :
    parse? v.text = some v := by
  have read := legible.returns held (2 * v.chars.length + 2) [] (by omega) stops_nil
  rw [List.append_nil] at read
  simp [Json.parse?_text, read, skipSpace]

end CrewFlow.Json
