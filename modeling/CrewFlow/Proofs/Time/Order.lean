import Mathlib
import CrewFlow.Proofs.Time.Calendar
/-!
# Texts in the order of time

Instants with a year of four digits stand in the order of their texts. Numbers are written to fixed widths, so
the first difference of two texts is in the first number that differs; a fraction ends where only zeros would
follow, and the offset behind it begins with a character below all digits and below the point.
-/
set_option autoImplicit false

namespace CrewFlow.Time

/-! ## Numbers of a fixed width -/

def lastDigits : Nat → Nat → List Char
  | 0, _ => []
  | width + 1, n => lastDigits width (n / 10) ++ [(n % 10).digitChar]

@[simp]
theorem length_lastDigits (width n : Nat) : (lastDigits width n).length = width := by
  induction width generalizing n with
  | zero => rfl
  | succ width ih => simp [lastDigits, ih]

theorem lastDigits_zero (width : Nat) : lastDigits width 0 = List.replicate width '0' := by
  induction width with
  | zero => rfl
  | succ width ih => simp [lastDigits, ih, List.replicate_succ', Nat.digitChar]

theorem padded_toDigits (width : Nat) {n : Nat} (small : n < 10 ^ (width + 1)) :
    List.replicate (width + 1 - (Nat.toDigits 10 n).length) '0' ++ Nat.toDigits 10 n =
      lastDigits (width + 1) n := by
  induction width generalizing n with
  | zero =>
      rw [Nat.toDigits_of_lt_base (by simpa using small)]
      simp [lastDigits, Nat.mod_eq_of_lt (show n < 10 by simpa using small)]
  | succ width ih =>
      rw [lastDigits]
      by_cases one : n < 10
      · rw [Nat.toDigits_of_lt_base one, Nat.div_eq_of_lt one, lastDigits_zero, Nat.mod_eq_of_lt one]
        rfl
      · have fewer : n / 10 < 10 ^ (width + 1) := by
          rw [pow_succ] at small
          omega
        rw [Nat.toDigits_of_base_le (by decide) (by omega), ← ih fewer, List.length_append,
          List.length_singleton, Nat.add_sub_add_right, List.append_assoc]

theorem toList_padded {width n : Nat} (some : 0 < width) (small : n < 10 ^ width) :
    (padded width n).toList = lastDigits width n := by
  obtain ⟨width, rfl⟩ : ∃ w, width = w + 1 := ⟨width - 1, by omega⟩
  rw [← padded_toDigits width small]
  simp [padded, ← String.length_toList]

theorem lastDigits_add (front back n : Nat) :
    lastDigits (front + back) n = lastDigits front (n / 10 ^ back) ++ lastDigits back n := by
  induction back generalizing n with
  | zero => simp [lastDigits]
  | succ back ih =>
      rw [← Nat.add_assoc, lastDigits, ih, lastDigits, List.append_assoc, Nat.div_div_eq_div_mul, pow_succ,
        Nat.mul_comm 10]

theorem lastDigits_mod (width n : Nat) : lastDigits width (n % 10 ^ width) = lastDigits width n := by
  induction width generalizing n with
  | zero => rfl
  | succ width ih =>
      have tens : n % 10 ^ (width + 1) / 10 = n / 10 % 10 ^ width := by
        rw [pow_succ, Nat.mul_comm, Nat.mod_mul_right_div_self]
      have ones : n % 10 ^ (width + 1) % 10 = n % 10 := by
        rw [pow_succ, Nat.mul_comm, Nat.mod_mul_right_mod]
      rw [lastDigits, lastDigits, tens, ones, ih]

theorem append_lt_append_iff {xs ys : List Char} (same : xs.length = ys.length) {us vs : List Char} :
    xs ++ us < ys ++ vs ↔ xs < ys ∨ xs = ys ∧ us < vs := by
  induction xs generalizing ys with
  | nil =>
      obtain rfl : ys = [] := by simpa using same.symm
      simp
  | cons x xs ih =>
      cases ys with
      | nil => cases same
      | cons y ys =>
          have shorter : xs.length = ys.length := by simpa using same
          simp only [List.cons_append, List.cons_lt_cons_iff, ih shorter, List.cons.injEq]
          tauto

theorem digitChar_lt_iff : ∀ m < 10, ∀ n < 10, m.digitChar < n.digitChar ↔ m < n := by
  decide

theorem digitChar_inj : ∀ m < 10, ∀ n < 10, m.digitChar = n.digitChar ↔ m = n := by
  decide

theorem lastDigits_inj {width m n : Nat} (left : m < 10 ^ width) (right : n < 10 ^ width)
    (same : lastDigits width m = lastDigits width n) : m = n := by
  induction width generalizing m n with
  | zero => omega
  | succ width ih =>
      rw [pow_succ] at left right
      obtain ⟨front, digit⟩ := List.append_inj' same rfl
      have tens := ih (by omega) (by omega) front
      have ones := (digitChar_inj (m % 10) (by omega) (n % 10) (by omega)).mp (by simpa using digit)
      omega

/-- Of two numbers with the same number of digits the smaller one has the smaller text. -/
theorem lastDigits_lt_iff {width m n : Nat} (left : m < 10 ^ width) (right : n < 10 ^ width) :
    lastDigits width m < lastDigits width n ↔ m < n := by
  induction width generalizing m n with
  | zero =>
      obtain rfl : m = n := by omega
      simp
  | succ width ih =>
      rw [pow_succ] at left right
      have tens : lastDigits width (m / 10) = lastDigits width (n / 10) ↔ m / 10 = n / 10 :=
        ⟨lastDigits_inj (by omega) (by omega), fun same => by rw [same]⟩
      have ones := digitChar_lt_iff (m % 10) (by omega) (n % 10) (by omega)
      rw [lastDigits, lastDigits, append_lt_append_iff (by simp), ih (by omega) (by omega), tens,
        List.cons_lt_cons_iff, ones]
      simp only [List.not_lt_nil, and_false, or_false]
      omega

/-- Texts that begin with numbers of one width are in the order of those, and of what follows. -/
theorem lastDigits_append_lt_iff {width m n : Nat} (left : m < 10 ^ width) (right : n < 10 ^ width)
    {us vs : List Char} :
    lastDigits width m ++ us < lastDigits width n ++ vs ↔ m < n ∨ m = n ∧ us < vs := by
  have same : lastDigits width m = lastDigits width n ↔ m = n :=
    ⟨lastDigits_inj left right, fun same => by rw [same]⟩
  rw [append_lt_append_iff (by simp), lastDigits_lt_iff left right, same]

/-! ## Fractions -/

def offsetChars : List Char := "+00:00".toList

def triples : Nat → Nat → List Char
  | 0, _ => offsetChars
  | count + 1, n =>
    if n = 0 then offsetChars
    else lastDigits 3 (n / 1000 ^ count) ++ triples count (n % 1000 ^ count)

theorem offsetChars_lt_lastDigits (width n : Nat) (us : List Char) :
    offsetChars < lastDigits (width + 1) n ++ us := by
  have sign : ∀ d < 10, '+' < d.digitChar := by decide
  have first : lastDigits (width + 1) n = (n / 10 ^ width % 10).digitChar :: lastDigits width n := by
    rw [Nat.add_comm, lastDigits_add]
    rfl
  rw [first, List.cons_append]
  exact List.cons_lt_cons_iff.mpr (Or.inl (sign _ (Nat.mod_lt _ (by decide))))

theorem div_mod_lt_iff {base : Nat} (m n : Nat) :
    m / base < n / base ∨ m / base = n / base ∧ m % base < n % base ↔ m < n := by
  have left := Nat.div_add_mod m base
  have right := Nat.div_add_mod n base
  constructor
  · rintro (quotients | ⟨quotients, rests⟩)
    · exact Nat.lt_of_div_lt_div quotients
    · rw [quotients] at left
      omega
  · intro order
    rcases (Nat.div_le_div_right (c := base) order.le).lt_or_eq with quotients | quotients
    · exact Or.inl quotients
    · rw [quotients] at left
      exact Or.inr ⟨quotients, by omega⟩

theorem triples_lt_iff {count m n : Nat} (left : m < 1000 ^ count) (right : n < 1000 ^ count) :
    triples count m < triples count n ↔ m < n := by
  induction count generalizing m n with
  | zero =>
      obtain rfl : m = n := by omega
      simp
  | succ count ih =>
      have above (k : Nat) (us : List Char) : offsetChars < lastDigits 3 k ++ us :=
        offsetChars_lt_lastDigits 2 k us
      have room : 0 < 1000 ^ count := Nat.pow_pos (by decide)
      rw [pow_succ, Nat.mul_comm] at left right
      rw [triples, triples]
      by_cases none : m = 0
      · by_cases none' : n = 0
        · simp [none, none']
        · rw [if_pos none, if_neg none']
          exact iff_of_true (above _ _) (by omega)
      · by_cases none' : n = 0
        · rw [if_neg none, if_pos none']
          exact iff_of_false (List.lt_asymm (above _ _)) (by omega)
        · rw [if_neg none, if_neg none', lastDigits_append_lt_iff (Nat.div_lt_of_lt_mul (by omega))
            (Nat.div_lt_of_lt_mul (by omega)), ih (Nat.mod_lt _ room) (Nat.mod_lt _ room), div_mod_lt_iff]

theorem toList_fractionText {nanos : Nat} (small : nanos < Instant.nanosPerSecond) :
    (fractionText nanos).toList ++ offsetChars =
      if nanos = 0 then offsetChars else '.' :: triples 3 nanos := by
  change nanos < 1000000000 at small
  have more (count n : Nat) (shown : n ≠ 0) :
      triples (count + 1) n = lastDigits 3 (n / 1000 ^ count) ++ triples count (n % 1000 ^ count) :=
    if_neg shown
  have ended (count : Nat) : triples count 0 = offsetChars := by cases count <;> rfl
  have same (n : Nat) : lastDigits 3 (n % 1000) = lastDigits 3 n := lastDigits_mod 3 n
  have point : ".".toList = ['.'] := rfl
  rw [fractionText]
  split_ifs with none millis micros
  · rfl
  · rw [String.toList_append, toList_padded (by decide) (by omega), more 2 nanos none]
    norm_num [millis, ended, point]
  · have second : lastDigits 3 (nanos % 1000000 / 1000) = lastDigits 3 (nanos / 1000) := by
      rw [← same (nanos / 1000), show nanos % 1000000 / 1000 = nanos / 1000 % 1000 by omega]
    rw [String.toList_append, toList_padded (by decide) (by omega), more 2 nanos none, lastDigits_add 3 3]
    norm_num [more 1 _ millis, ended, second, micros, point, Nat.div_div_eq_div_mul]
  · have second : lastDigits 3 (nanos % 1000000 / 1000) = lastDigits 3 (nanos / 1000) := by
      rw [← same (nanos / 1000), show nanos % 1000000 / 1000 = nanos / 1000 % 1000 by omega]
    rw [String.toList_append, toList_padded (by decide) (by omega), more 2 nanos none, lastDigits_add 3 6,
      lastDigits_add 3 3]
    norm_num [triples, millis, micros, second, same, point, Nat.div_div_eq_div_mul]

theorem fraction_lt_iff {m n : Nat} (left : m < Instant.nanosPerSecond) (right : n < Instant.nanosPerSecond) :
    (fractionText m).toList ++ offsetChars < (fractionText n).toList ++ offsetChars ↔ m < n := by
  have point (us : List Char) : offsetChars < '.' :: us := List.cons_lt_cons_iff.mpr (Or.inl (by decide))
  rw [toList_fractionText left, toList_fractionText right]
  by_cases none : m = 0
  · by_cases none' : n = 0
    · simp [none, none']
    · rw [if_pos none, if_neg none']
      exact iff_of_true (point _) (by omega)
  · by_cases none' : n = 0
    · rw [if_neg none, if_pos none']
      exact iff_of_false (List.lt_asymm (point _)) (by omega)
    · rw [if_neg none, if_neg none', List.cons_lt_cons_self]
      exact triples_lt_iff left right

namespace Instant

/-! ## Instants -/

/-- Nanoseconds of a second, or beyond the last second of a minute, which is a leap second. -/
structure Regular (t : Instant) : Prop where
  nanos : t.nanos < 2 * nanosPerSecond
  leap : nanosPerSecond ≤ t.nanos → t.seconds % 60 = 59

theorem regular_ofMillis (ms : Nat) : (ofMillis ms).Regular := by
  have below : ms % 1000 * 1000000 < 1000000000 := by omega
  refine ⟨Nat.lt_trans below (by decide), ?_⟩
  intro late
  exact absurd below (Nat.not_lt.mpr late)

/-- Earlier: in an earlier second, or in one second at an earlier nanosecond. -/
def Before (a b : Instant) : Prop := a.seconds < b.seconds ∨ a.seconds = b.seconds ∧ a.nanos < b.nanos

theorem before_or_eq_or_after (a b : Instant) : a.Before b ∨ a = b ∨ b.Before a := by
  obtain ⟨seconds, nanos⟩ := a
  obtain ⟨seconds', nanos'⟩ := b
  simp only [Before, mk.injEq]
  omega

def clock (t : Instant) : Nat := (t.seconds % secondsPerDay).toNat

def shownSecond (t : Instant) : Nat := t.clock % 60 + t.nanos / nanosPerSecond

/-- Each number of a text has room in its width. -/
structure Fits (t : Instant) : Prop where
  year : t.date.year.toNat < 10 ^ 4
  month : t.date.month < 10 ^ 2
  day : t.date.day < 10 ^ 2
  hour : t.clock / 3600 < 10 ^ 2
  minute : t.clock / 60 % 60 < 10 ^ 2
  second : t.shownSecond < 10 ^ 2
  fraction : t.nanos % nanosPerSecond < nanosPerSecond

theorem Regular.fits {t : Instant} (regular : t.Regular) (plain : t.hasPlainYear = true) : t.Fits := by
  obtain ⟨proper, _⟩ := Date.ofDays_proper (t.seconds / secondsPerDay)
  have month := proper.month.2
  have day := proper.day.2
  have length : daysInMonth t.date.year t.date.month ≤ 31 := by
    unfold daysInMonth
    split_ifs <;> decide
  have day' : t.date.day ≤ daysInMonth t.date.year t.date.month := day
  have month' : t.date.month ≤ 12 := month
  have nanos : t.nanos < 2 * 1000000000 := regular.nanos
  have years : 0 ≤ t.date.year ∧ t.date.year ≤ 9999 := by simpa [hasPlainYear] using plain
  have whole : (t.seconds % 86400).toNat < 86400 := by omega
  refine ⟨?_, ?_, ?_, ?_, ?_, ?_, Nat.mod_lt _ (by decide)⟩
  · omega
  · omega
  · omega
  · change (t.seconds % 86400).toNat / 3600 < _
    omega
  · omega
  · change (t.seconds % 86400).toNat % 60 + t.nanos / 1000000000 < _
    omega

theorem toList_text {t : Instant} (fits : t.Fits) (plain : t.hasPlainYear = true) :
    t.text.toList =
      lastDigits 4 t.date.year.toNat ++ '-' :: (lastDigits 2 t.date.month ++ '-' :: (lastDigits 2 t.date.day ++
        'T' :: (lastDigits 2 (t.clock / 3600) ++ ':' :: (lastDigits 2 (t.clock / 60 % 60) ++
          ':' :: (lastDigits 2 t.shownSecond ++
            ((fractionText (t.nanos % nanosPerSecond)).toList ++ offsetChars)))))) := by
  have years : 0 ≤ t.date.year ∧ t.date.year ≤ 9999 := by simpa [hasPlainYear] using plain
  have dash : "-".toList = ['-'] := rfl
  have letter : "T".toList = ['T'] := rfl
  have colon : ":".toList = [':'] := rfl
  rw [text, yearText, if_pos years]
  simp only [String.toList_append, dash, letter, colon]
  rw [toList_padded (by decide) fits.year, toList_padded (by decide) fits.month,
    toList_padded (by decide) fits.day]
  have hour := toList_padded (by decide) fits.hour
  have minute := toList_padded (by decide) fits.minute
  have second := toList_padded (by decide) fits.second
  rw [clock] at hour minute
  rw [shownSecond, clock] at second
  rw [hour, minute, second, shownSecond, clock]
  simp [offsetChars]

/-- Of two times of day the earlier one is shown with the earlier hour, minute, second or fraction. -/
theorem clock_lt_iff {a b : Instant} (left : a.Regular) (right : b.Regular) :
    (a.clock / 3600 < b.clock / 3600 ∨ a.clock / 3600 = b.clock / 3600 ∧
      (a.clock / 60 % 60 < b.clock / 60 % 60 ∨ a.clock / 60 % 60 = b.clock / 60 % 60 ∧
        (a.shownSecond < b.shownSecond ∨ a.shownSecond = b.shownSecond ∧
          a.nanos % nanosPerSecond < b.nanos % nanosPerSecond))) ↔
      a.clock < b.clock ∨ a.clock = b.clock ∧ a.nanos < b.nanos := by
  obtain ⟨nanos, leap⟩ := left
  obtain ⟨nanos', leap'⟩ := right
  have minute : a.clock % 60 = (a.seconds % 60).toNat := by
    change (a.seconds % 86400).toNat % 60 = _
    omega
  have minute' : b.clock % 60 = (b.seconds % 60).toNat := by
    change (b.seconds % 86400).toNat % 60 = _
    omega
  simp only [shownSecond, nanosPerSecond] at *
  generalize a.clock = clock at *
  generalize b.clock = clock' at *
  omega

theorem text_lt_iff {a b : Instant} (left : a.Regular) (right : b.Regular) (plain : a.hasPlainYear = true)
    (plain' : b.hasPlainYear = true) : a.text < b.text ↔ a.Before b := by
  have fits := left.fits plain
  have fits' := right.fits plain'
  change a.text.toList < b.text.toList ↔ _
  rw [toList_text fits plain, toList_text fits' plain', lastDigits_append_lt_iff fits.year fits'.year,
    List.cons_lt_cons_self, lastDigits_append_lt_iff fits.month fits'.month,
    List.cons_lt_cons_self, lastDigits_append_lt_iff fits.day fits'.day,
    List.cons_lt_cons_self, lastDigits_append_lt_iff fits.hour fits'.hour,
    List.cons_lt_cons_self, lastDigits_append_lt_iff fits.minute fits'.minute,
    List.cons_lt_cons_self, lastDigits_append_lt_iff fits.second fits'.second,
    fraction_lt_iff fits.fraction fits'.fraction]
  have days : a.date.Before b.date ↔ a.seconds / secondsPerDay < b.seconds / secondsPerDay :=
    Date.before_ofDays_iff
  have day : a.date = b.date ↔ a.seconds / secondsPerDay = b.seconds / secondsPerDay :=
    Date.ofDays_injective.eq_iff
  have dates (later : Prop) :
      (a.date.year.toNat < b.date.year.toNat ∨ a.date.year.toNat = b.date.year.toNat ∧
        (a.date.month < b.date.month ∨ a.date.month = b.date.month ∧
          (a.date.day < b.date.day ∨ a.date.day = b.date.day ∧ later))) ↔
        a.date.Before b.date ∨ a.date = b.date ∧ later := by
    have year : 0 ≤ a.date.year ∧ a.date.year ≤ 9999 := by simpa [hasPlainYear] using plain
    have year' : 0 ≤ b.date.year ∧ b.date.year ≤ 9999 := by simpa [hasPlainYear] using plain'
    generalize a.date = date at *
    generalize b.date = date' at *
    obtain ⟨y, m, d⟩ := date
    obtain ⟨y', m', d'⟩ := date'
    simp only [Date.Before, Date.mk.injEq] at *
    by_cases shown : later
    · simp only [shown, and_true]
      omega
    · simp only [shown, and_false, or_false]
      omega
  rw [dates, days, day, clock_lt_iff left right, Before]
  simp only [clock, secondsPerDay]
  omega

theorem text_inj {a b : Instant} (left : a.Regular) (right : b.Regular) (plain : a.hasPlainYear = true)
    (plain' : b.hasPlainYear = true) (same : a.text = b.text) : a = b := by
  rcases before_or_eq_or_after a b with before | equal | after
  · have order := (text_lt_iff left right plain plain').mpr before
    rw [same] at order
    exact absurd order (List.lt_irrefl _)
  · exact equal
  · have order := (text_lt_iff right left plain' plain).mpr after
    rw [same] at order
    exact absurd order (List.lt_irrefl _)

end Instant

end CrewFlow.Time
