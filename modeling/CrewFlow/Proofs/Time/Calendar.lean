import Mathlib
import CrewFlow.Time.Instant
/-!
# Days and dates

Counting days and naming them undo each other, and a later day has a later date: a later year, or in one year
a later month, or in one month a later day.
-/
set_option autoImplicit false

namespace CrewFlow.Time

/-! ## Years -/

def yearLength (year : Int) : Int := if isLeapYear year then 366 else 365

theorem daysBeforeYear_succ (year : Int) :
    daysBeforeYear (year + 1) = daysBeforeYear year + yearLength year := by
  simp only [daysBeforeYear, yearLength, isLeapYear, Bool.and_eq_true, Bool.or_eq_true, beq_iff_eq, bne_iff_ne]
  split <;> omega

theorem daysBeforeYear_mono {early late : Int} (order : early ≤ late) :
    daysBeforeYear early ≤ daysBeforeYear late := by
  simp only [daysBeforeYear]
  omega

/-- The guess is off by one year at most. -/
theorem year_of_count (count : Int) :
    let guess := 400 * count / 146097 + 1
    daysBeforeYear (guess - 1) ≤ count ∧ count < daysBeforeYear (guess + 2) := by
  simp only [daysBeforeYear]
  omega

/-! ## Months -/

theorem foldr_add (lengths : Nat → Nat) (months : List Nat) (start : Nat) :
    months.foldr (fun m days => lengths m + days) start =
      months.foldr (fun m days => lengths m + days) 0 + start := by
  induction months with
  | nil => simp
  | cons m months ih =>
      rw [List.foldr_cons, List.foldr_cons, ih]
      omega

theorem daysBeforeMonth_one (year : Int) : daysBeforeMonth year 1 = 0 := rfl

theorem daysBeforeMonth_succ (year : Int) {month : Nat} (first : 1 ≤ month) :
    daysBeforeMonth year (month + 1) = daysBeforeMonth year month + daysInMonth year month := by
  obtain ⟨m, rfl⟩ : ∃ m, month = m + 1 := ⟨month - 1, by omega⟩
  simp only [daysBeforeMonth, Nat.add_sub_cancel, List.range_succ, List.foldr_append, List.foldr_cons,
    List.foldr_nil, Nat.add_zero]
  rw [foldr_add]

theorem daysBeforeMonth_mono (year : Int) {early late : Nat} (first : 1 ≤ early) (order : early ≤ late) :
    daysBeforeMonth year early ≤ daysBeforeMonth year late := by
  induction late, order using Nat.le_induction with
  | base => exact le_rfl
  | succ late order ih =>
      rw [daysBeforeMonth_succ year (first.trans order)]
      omega

theorem daysBeforeMonth_end (year : Int) : (daysBeforeMonth year 13 : Int) = yearLength year := by
  rw [yearLength]
  cases leap : isLeapYear year <;> simp [daysBeforeMonth, daysInMonth, leap, List.range_succ]

namespace Date

/-! ## Dates of days -/

/-- A day of a month of a year, whatever the year. -/
structure Proper (d : Date) : Prop where
  month : 1 ≤ d.month ∧ d.month ≤ 12
  day : 1 ≤ d.day ∧ d.day ≤ daysInMonth d.year d.month

theorem inYear_proper (year : Int) {month rest fuel : Nat} (first : 1 ≤ month) (months : month + fuel = 13)
    (within : rest + daysBeforeMonth year month < daysBeforeMonth year 13) :
    let d := inYear year month rest fuel
    d.Proper ∧ d.year = year ∧
      daysBeforeMonth year d.month + d.day = rest + daysBeforeMonth year month + 1 := by
  induction fuel generalizing month rest with
  | zero =>
      obtain rfl : month = 13 := by omega
      omega
  | succ fuel ih =>
      rw [inYear]
      by_cases here : rest < daysInMonth year month
      · simp only [if_pos here]
        refine ⟨⟨⟨first, ?_⟩, ⟨Nat.succ_pos rest, here⟩⟩, ?_⟩
        · change month ≤ 12
          omega
        · simp only [true_and]
          omega
      · simp only [if_neg here]
        have next := daysBeforeMonth_succ year first
        have left : rest - daysInMonth year month + daysBeforeMonth year (month + 1) <
            daysBeforeMonth year 13 := by omega
        obtain ⟨proper, same, count⟩ := ih (Nat.le_add_left 1 month) (by omega : month + 1 + fuel = 13) left
        exact ⟨proper, same, by omega⟩

theorem ofDays_proper (days : Int) : (ofDays days).Proper ∧ (ofDays days).toDays = days := by
  obtain ⟨low, high⟩ := year_of_count (days + epochDay)
  simp only [ofDays]
  generalize 400 * (days + epochDay) / 146097 + 1 = guess at *
  generalize chosen : (if days + epochDay < daysBeforeYear guess then guess - 1
    else if daysBeforeYear (guess + 1) ≤ days + epochDay then guess + 1 else guess) = year
  obtain ⟨begun, unfinished⟩ :
      daysBeforeYear year ≤ days + epochDay ∧ days + epochDay < daysBeforeYear (year + 1) := by
    split_ifs at chosen with before after
    · subst chosen
      exact ⟨low, by simpa using before⟩
    · subst chosen
      rw [add_assoc]
      exact ⟨after, high⟩
    · subst chosen
      omega
  have length := daysBeforeYear_succ year
  have whole := daysBeforeMonth_end year
  have within : (days + epochDay - daysBeforeYear year).toNat + daysBeforeMonth year 1 <
      daysBeforeMonth year 13 := by
    rw [daysBeforeMonth_one]
    omega
  obtain ⟨proper, same, count⟩ := inYear_proper year le_rfl (rfl : 1 + 12 = 13) within
  refine ⟨proper, ?_⟩
  rw [daysBeforeMonth_one] at count
  simp only [toDays, same]
  omega

theorem ofDays_injective : Function.Injective ofDays := by
  intro m n same
  rw [← (ofDays_proper m).2, same, (ofDays_proper n).2]

def Before (a b : Date) : Prop :=
  a.year < b.year ∨ a.year = b.year ∧ (a.month < b.month ∨ a.month = b.month ∧ a.day < b.day)

theorem toDays_lt {a b : Date} (left : a.Proper) (right : b.Proper) (before : a.Before b) :
    a.toDays < b.toDays := by
  have inMonth := daysBeforeMonth_succ a.year left.month.1
  have december := left.month.2
  rcases before with years | ⟨years, months | ⟨months, days⟩⟩
  · have ahead : a.month + 1 ≤ 13 := by omega
    have inYear := daysBeforeMonth_mono a.year (by omega) ahead
    have whole := daysBeforeMonth_end a.year
    have next := daysBeforeYear_succ a.year
    have order := daysBeforeYear_mono (by omega : a.year + 1 ≤ b.year)
    have some := right.day.1
    have last := left.day.2
    simp only [toDays]
    omega
  · have order := daysBeforeMonth_mono a.year (by omega) (by omega : a.month + 1 ≤ b.month)
    have some := right.day.1
    have last := left.day.2
    simp only [toDays, ← years]
    omega
  · simp only [toDays, ← years, ← months]
    omega

theorem before_or_eq_or_after (a b : Date) : a.Before b ∨ a = b ∨ b.Before a := by
  obtain ⟨year, month, day⟩ := a
  obtain ⟨year', month', day'⟩ := b
  simp only [Before, mk.injEq]
  omega

theorem before_ofDays_iff {m n : Int} : (ofDays m).Before (ofDays n) ↔ m < n := by
  obtain ⟨left, days⟩ := ofDays_proper m
  obtain ⟨right, days'⟩ := ofDays_proper n
  constructor
  · intro before
    simpa only [days, days'] using toDays_lt left right before
  · intro order
    rcases before_or_eq_or_after (ofDays m) (ofDays n) with before | same | after
    · exact before
    · rw [← same, days] at days'
      omega
    · have back := toDays_lt right left after
      omega

end Date

end CrewFlow.Time
