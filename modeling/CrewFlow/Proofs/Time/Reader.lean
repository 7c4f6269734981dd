import Mathlib
import CrewFlow.Time.Reader
import CrewFlow.Proofs.Text.Search
import CrewFlow.Proofs.Time.Order
/-!
# Instants that are read

The nanoseconds of an instant that is read from a text are those of a second; a leap second is the last of a
minute, also where the offset is not zero, since offsets are whole minutes. Such an instant is read back from its
own text when its year has four digits.
-/
set_option autoImplicit false

namespace CrewFlow.Time

open Text (isBlank isBlank_of_isDigit)

/-! ## What is read is an instant of the calendar -/

theorem toNat_of_isDigit {d : Char} (digit : d.isDigit = true) : 48 ≤ d.toNat ∧ d.toNat ≤ 57 := by
  simp only [Char.isDigit, Bool.and_eq_true, decide_eq_true_eq, ge_iff_le, UInt32.le_iff_toNat_le] at digit
  exact digit

theorem digitsValue_lt {ds : List Char} (digits : ∀ d ∈ ds, d.isDigit = true) :
    Decimal.digitsValue ds < 10 ^ ds.length := by
  induction ds using List.reverseRecOn with
  | nil => simp [Decimal.digitsValue]
  | append_singleton ds d ih =>
      have front := ih fun c member => digits c (List.mem_append_left _ member)
      obtain ⟨low, high⟩ := toNat_of_isDigit (digits d (by simp))
      rw [Decimal.digitsValue] at front
      rw [Decimal.digitsValue, List.foldl_append, List.length_append, List.length_singleton, pow_succ]
      simp only [List.foldl_cons, List.foldl_nil]
      omega

theorem fraction?_lt {s rest : List Char} {nanos : Nat} (read : fraction? s = some (nanos, rest)) :
    nanos < Instant.nanosPerSecond := by
  unfold fraction? at read
  split at read
  · next s =>
      simp only at read
      split at read
      · cases read
      · cases read
        have few : ((s.take 9).takeWhile Char.isDigit).length ≤ 9 :=
          (List.takeWhile_prefix _).length_le.trans (List.length_take_le 9 s)
        have value : Decimal.digitsValue ((s.take 9).takeWhile Char.isDigit) < _ :=
          digitsValue_lt fun d member => List.mem_takeWhile_imp member
        generalize (s.take 9).takeWhile Char.isDigit = ds at few value
        calc Decimal.digitsValue ds * Nat.pow 10 (9 - ds.length)
          _ < 10 ^ ds.length * 10 ^ (9 - ds.length) :=
              Nat.mul_lt_mul_of_pos_right value (Nat.pow_pos (by decide))
          _ = 10 ^ 9 := by rw [← pow_add, Nat.add_sub_cancel' few]
  · cases read
    decide

theorem clock?_regular {s rest : List Char} {seconds nanos : Nat}
    (read : clock? s = some ((seconds, nanos), rest)) :
    nanos < 2 * Instant.nanosPerSecond ∧ (Instant.nanosPerSecond ≤ nanos → seconds % 60 = 59) := by
  rw [clock?] at read
  obtain ⟨⟨hour, s⟩, _, read⟩ := Option.bind_eq_some_iff.mp read
  obtain ⟨s, _, read⟩ := Option.bind_eq_some_iff.mp read
  obtain ⟨⟨minute, s⟩, _, read⟩ := Option.bind_eq_some_iff.mp read
  obtain ⟨s, _, read⟩ := Option.bind_eq_some_iff.mp read
  obtain ⟨⟨second, s⟩, _, read⟩ := Option.bind_eq_some_iff.mp read
  obtain ⟨⟨fraction, s⟩, part, read⟩ := Option.bind_eq_some_iff.mp read
  have few : fraction < 1000000000 := fraction?_lt part
  simp only [Bool.or_eq_true, decide_eq_true_eq] at read
  split at read
  · cases read
  · next ranges =>
      cases read
      simp only [Instant.nanosPerSecond]
      -- Only the second 60 is a leap second.
      by_cases leap : second = 60
      · subst leap
        omega
      · have none : second / 60 = 0 := by omega
        simp only [none]
        omega

theorem offset?_minutes {s rest : List Char} {offset : Int} (read : offset? s = some (offset, rest)) :
    offset % 60 = 0 := by
  unfold offset? at read
  split at read
  · cases read
  · next c s =>
      split at read
      · cases read
        rfl
      · split at read
        · cases read
          rfl
        · split at read
          · obtain ⟨⟨hours, s⟩, _, read⟩ := Option.bind_eq_some_iff.mp read
            obtain ⟨⟨minutes, s⟩, _, read⟩ := Option.bind_eq_some_iff.mp read
            simp only at read
            split at read
            · cases read
            · cases read
              split <;> omega
          · cases read

theorem Instant.regular_of_read? {text : String} {t : Instant} (read : Instant.read? text = some t) :
    t.Regular := by
  rw [Instant.read?] at read
  obtain ⟨⟨date, s⟩, _, read⟩ := Option.bind_eq_some_iff.mp read
  simp only at read
  split at read
  · split_ifs at read
    · obtain ⟨s, _, read⟩ := Option.bind_eq_some_iff.mp read
      obtain ⟨⟨⟨seconds, nanos⟩, s⟩, clock, read⟩ := Option.bind_eq_some_iff.mp read
      obtain ⟨⟨offset, s⟩, zone, read⟩ := Option.bind_eq_some_iff.mp read
      simp only at read
      split_ifs at read
      cases read
      obtain ⟨few, leap⟩ := clock?_regular clock
      have minutes := offset?_minutes zone
      refine ⟨few, ?_⟩
      intro late
      have last := leap late
      simp only [Instant.secondsPerDay]
      omega
    · cases read
  · cases read

/-! ## What is written is read back -/

theorem isDigit_lastDigits {width n : Nat} : ∀ d ∈ lastDigits width n, d.isDigit = true := by
  have digit : ∀ k < 10, k.digitChar.isDigit = true := by decide
  induction width generalizing n with
  | zero => simp [lastDigits]
  | succ width ih =>
      intro d member
      rcases List.mem_append.mp member with front | last
      · exact ih d front
      · rw [List.mem_singleton.mp last]
        exact digit _ (Nat.mod_lt n (by decide))

theorem digitsValue_lastDigits {width n : Nat} (small : n < 10 ^ width) :
    Decimal.digitsValue (lastDigits width n) = n := by
  have value : ∀ k < 10, k.digitChar.toNat - 48 = k := by decide
  induction width generalizing n with
  | zero =>
      obtain rfl : n = 0 := by omega
      rfl
  | succ width ih =>
      have front : n / 10 < 10 ^ width := by
        rw [pow_succ] at small
        omega
      have last := value (n % 10) (Nat.mod_lt n (by decide))
      have whole := ih front
      rw [Decimal.digitsValue] at whole ⊢
      rw [lastDigits, List.foldl_append, whole, List.foldl_cons, List.foldl_nil, last]
      omega

section Digits
variable {width n : Nat} {rest : List Char}

theorem skipBlanks_lastDigits (some : 0 < width) :
    skipBlanks (lastDigits width n ++ rest) = lastDigits width n ++ rest := by
  cases shown : lastDigits width n with
  | nil =>
      have length := length_lastDigits width n
      rw [shown, List.length_nil] at length
      omega
  | cons d ds =>
      have digit : d.isDigit = true := isDigit_lastDigits d (by rw [shown]; exact List.mem_cons_self)
      simp [skipBlanks, isBlank_of_isDigit digit]

theorem number?_lastDigits (given : 0 < width) (small : n < 10 ^ width) :
    number? width (lastDigits width n ++ rest) = some (n, rest) := by
  have length := length_lastDigits width n
  have taken : (lastDigits width n ++ rest).take width = lastDigits width n := List.take_left' length
  have digits : (lastDigits width n).takeWhile Char.isDigit = lastDigits width n :=
    List.takeWhile_eq_self_iff.mpr isDigit_lastDigits
  have shown : (lastDigits width n).isEmpty = false := by
    rw [List.isEmpty_eq_false_iff, ← List.length_pos_iff, length]
    exact given
  simp only [number?, taken, digits, shown, digitsValue_lastDigits small, length, List.drop_left' length]
  rfl

theorem field?_lastDigits (small : n < 10 ^ 2) : field? 2 (lastDigits 2 n ++ rest) = some (n, rest) := by
  rw [field?, skipBlanks_lastDigits (by decide), number?_lastDigits (by decide) small]

theorem year?_lastDigits (small : n < 10 ^ 4) : year? (lastDigits 4 n ++ rest) = some ((n : Int), rest) := by
  have number : number? 4 (lastDigits 4 n ++ rest) = some (n, rest) := number?_lastDigits (by decide) small
  rw [year?, skipBlanks_lastDigits (by decide)]
  have digit : ∀ c ∈ (lastDigits 4 n ++ rest).head?, c.isDigit = true := by
    intro c first
    have front : lastDigits 4 n ≠ [] := List.ne_nil_of_length_pos (by simp)
    rw [List.head?_append_of_ne_nil _ front] at first
    exact isDigit_lastDigits c (List.mem_of_mem_head? first)
  split
  · next shown =>
      rw [shown] at digit
      exact absurd (digit _ rfl) (by decide)
  · next shown =>
      rw [shown] at digit
      exact absurd (digit _ rfl) (by decide)
  · rw [number]
    rfl

theorem fraction?_lastDigits (given : 0 < width) (most : width ≤ 9) (small : n < 10 ^ width) :
    fraction? ('.' :: (lastDigits width n ++ offsetChars)) = some (n * 10 ^ (9 - width), offsetChars) := by
  have length := length_lastDigits width n
  have sign (k : Nat) : (offsetChars.take k).takeWhile Char.isDigit = [] := by
    cases k <;> rfl
  have digits : ((lastDigits width n ++ offsetChars).take 9).takeWhile Char.isDigit = lastDigits width n := by
    rw [List.take_append, List.take_of_length_le (by omega), List.takeWhile_append_of_pos isDigit_lastDigits, sign,
      List.append_nil]
  have left : (lastDigits width n ++ offsetChars).dropWhile Char.isDigit = offsetChars := by
    rw [List.dropWhile_append_of_pos isDigit_lastDigits]
    rfl
  have shown : (lastDigits width n).isEmpty = false := by
    rw [List.isEmpty_eq_false_iff, ← List.length_pos_iff, length]
    exact given
  simp only [fraction?, digits, left, shown, digitsValue_lastDigits small, length]
  rfl

end Digits

theorem fraction?_text {nanos : Nat} (small : nanos < Instant.nanosPerSecond) :
    fraction? ((fractionText nanos).toList ++ offsetChars) = some (nanos, offsetChars) := by
  change nanos < 1000000000 at small
  have decimals {width n : Nat} (given : 0 < width) (most : width ≤ 9) (room : n < 10 ^ width)
      (value : n * 10 ^ (9 - width) = nanos) :
      fraction? (("." ++ padded width n).toList ++ offsetChars) = some (nanos, offsetChars) := by
    have point : ".".toList = ['.'] := rfl
    rw [String.toList_append, toList_padded given room, point, List.append_assoc, List.singleton_append,
      fraction?_lastDigits given most room, value]
  rw [fractionText]
  split_ifs with none millis micros
  · subst none
    rfl
  · exact decimals (by decide) (by decide) (by omega) (by omega)
  · exact decimals (by decide) (by decide) (by omega) (by omega)
  · exact decimals (by decide) (by decide) (by omega) (by omega)

namespace Instant
variable {t : Instant}

theorem clock?_text (regular : t.Regular) (fits : t.Fits) :
    clock? (lastDigits 2 (t.clock / 3600) ++ ':' :: (lastDigits 2 (t.clock / 60 % 60) ++ ':' ::
      (lastDigits 2 t.shownSecond ++ ((fractionText (t.nanos % nanosPerSecond)).toList ++ offsetChars)))) =
      some ((t.clock, t.nanos), offsetChars) := by
  have colon (s : List Char) : mark? ':' (':' :: s) = some s := rfl
  rw [clock?]
  simp only [field?_lastDigits fits.hour, field?_lastDigits fits.minute, field?_lastDigits fits.second, colon,
    fraction?_text fits.fraction, Option.bind_eq_bind, Option.bind_some]
  obtain ⟨nanos, leap⟩ := regular
  have day : t.clock < 86400 := by
    change (t.seconds % 86400).toNat < _
    omega
  have minute : t.clock % 60 = (t.seconds % 60).toNat := by
    change (t.seconds % 86400).toNat % 60 = _
    omega
  simp only [shownSecond, nanosPerSecond] at *
  have shown : (t.clock % 60 + t.nanos / 1000000000) / 60 = t.nanos / 1000000000 := by omega
  have clock : t.clock / 3600 * 3600 + t.clock / 60 % 60 * 60 + t.clock % 60 = t.clock := by omega
  have ranges : ¬(decide (24 ≤ t.clock / 3600) || decide (60 ≤ t.clock / 60 % 60) ||
      decide (61 ≤ t.clock % 60 + t.nanos / 1000000000)) = true := by
    simp only [Bool.or_eq_true, decide_eq_true_eq]
    omega
  refine (if_neg ranges).trans ?_
  rw [shown, Nat.add_sub_cancel, clock, Nat.mod_add_div']
  rfl

/-- The text of a regular instant with a year of four digits is read as the instant. -/
theorem read?_text (regular : t.Regular) (plain : t.hasPlainYear = true) : read? t.text = some t := by
  have fits := regular.fits plain
  obtain ⟨proper, days⟩ := Date.ofDays_proper (t.seconds / secondsPerDay)
  have dash (s : List Char) : mark? '-' ('-' :: s) = some s := rfl
  have offset : offset? (skipBlanks offsetChars) = some (0, []) := rfl
  rw [read?, toList_text fits plain, date?]
  simp only [year?_lastDigits fits.year, field?_lastDigits fits.month, field?_lastDigits fits.day, dash,
    Option.bind_eq_bind, Option.bind_some, Option.pure_def, true_or, if_true, clock?_text regular fits, offset]
  have years : 0 ≤ t.date.year ∧ t.date.year ≤ 9999 := by simpa [hasPlainYear] using plain
  have first : firstYear ≤ t.date.year := by
    rw [firstYear]
    omega
  have last : t.date.year ≤ lastYear := by
    rw [lastYear]
    omega
  have counted : t.date.isCounted = true := by simp [Date.isCounted, first, last]
  have shown : (⟨(t.date.year.toNat : Int), t.date.month, t.date.day⟩ : Date) = t.date := by
    rw [Int.toNat_of_nonneg years.1]
  have valid : t.date.isValid = true := by
    simp only [Date.isValid, counted, Bool.and_eq_true, decide_eq_true_eq, true_and]
    exact ⟨⟨proper.month, proper.day.1⟩, proper.day.2⟩
  have seconds : t.date.toDays * secondsPerDay + t.clock - 0 = t.seconds := by
    have whole : t.date.toDays = t.seconds / secondsPerDay := days
    rw [whole]
    simp only [clock, secondsPerDay]
    omega
  rw [shown, seconds, valid]
  exact if_pos counted

end Instant

/-- The year has four digits, and the text is read as the instant. -/
structure Instant.Rereads (t : Instant) : Prop where
  plain : t.hasPlainYear = true
  text : Instant.read? t.text = some t

theorem Instant.Rereads.regular {t : Instant} (reads : t.Rereads) : t.Regular := regular_of_read? reads.text

theorem Instant.rereads_iff {t : Instant} : t.Rereads ↔ t.Regular ∧ t.hasPlainYear = true := by
  constructor
  · exact fun reads => ⟨reads.regular, reads.plain⟩
  · exact fun ⟨regular, plain⟩ => ⟨plain, read?_text regular plain⟩

end CrewFlow.Time
