import Mathlib
import CrewFlow.Decimal.Word
import CrewFlow.Proofs.Json.Fields
/-!
# Finite numbers

The numbers of documents are words of 64 bits and finite doubles. A word is finite as a double too: what it
is rounded to does not matter for that, only that neither its digits nor its power of two grow much on the
way.
-/
set_option autoImplicit false

namespace CrewFlow.Json

open Float.Model (Format UnpackedFloat)
open Float.Model.UnpackedFloat (ExtendedMantissa shiftToTargetExponent roundWithAccuracy pack unpack)

/-- A zero, or a number of at most `digits` binary digits times a power of two that is at most `power`. -/
inductive Within (digits : Nat) (power : Int) : UnpackedFloat → Prop where
  | zero (s : UnpackedFloat.Sign) : Within digits power (.zero s)
  | finite {s : UnpackedFloat.Sign} {m : Nat} {e : Int} (positive : 0 < m) (small : m < 2 ^ digits)
      (low : e ≤ power) : Within digits power (.finite s m e positive)

theorem Within.isFinite {digits : Nat} {power : Int} {x : UnpackedFloat} (within : Within digits power x) :
    x.isFinite = true := by
  cases within <;> rfl

/-! ## Rounding -/

theorem mantissa_shiftRight_le (em : ExtendedMantissa) (n : Nat) : (em >>> n).mantissa ≤ em.mantissa := by
  change (Nat.repeat ExtendedMantissa.shiftRightOne n em).mantissa ≤ em.mantissa
  induction n with
  | zero => exact le_rfl
  | succ n ih =>
      have halved : (Nat.repeat ExtendedMantissa.shiftRightOne (n + 1) em).mantissa =
          (Nat.repeat ExtendedMantissa.shiftRightOne n em).mantissa / 2 := rfl
      rw [halved]
      omega

theorem roundedMantissa_le (em : ExtendedMantissa) : em.roundedMantissa ≤ em.mantissa + 1 := by
  rw [ExtendedMantissa.roundedMantissa]
  generalize em.accuracy = accuracy
  cases accuracy with
  | exact => exact Nat.le_succ _
  | inexact side =>
      cases side
      · exact Nat.le_succ _
      · change em.mantissa + em.mantissa % 2 ≤ _
        omega
      · exact le_rfl

/-- The last digits of a number give way to its power; without any loss at the start. -/
theorem shiftToTargetExponent_within {m digits : Nat} {e power : Int} (small : m < 2 ^ digits)
    (low : e ≤ power) (floor : -1074 ≤ power) :
    (shiftToTargetExponent .binary64 m e .exact).1.mantissa ≤ m ∧
      (shiftToTargetExponent .binary64 m e .exact).2 ≤ power + digits := by
  have digit : (m.log2 : Int) ≤ digits := by
    have bound : m.log2 ≤ digits := by
      by_cases nothing : m = 0
      · simp [nothing]
      · exact ((Nat.log2_lt nothing).mpr small).le
    exact_mod_cast bound
  refine ⟨mantissa_shiftRight_le _ _, ?_⟩
  change e + (Int.toNat (Format.targetExponent .binary64 (Float.Model.totalExponent m e) - e) : Int) ≤ _
  rw [Format.targetExponent, Float.Model.totalExponent]
  have floor' : Format.minExponent .binary64 = -1074 := by decide
  have width : ((Format.mantissaBits .binary64 : Nat) : Int) = 53 := by decide
  omega

theorem roundWithAccuracy_within {s : UnpackedFloat.Sign} {m digits : Nat} {e power roof : Int}
    (small : m < 2 ^ digits) (low : e ≤ power) (floor : -1074 ≤ power)
    (high : power + 2 * digits + 1 ≤ roof) :
    Within (digits + 1) roof (roundWithAccuracy .binary64 s m e .exact) := by
  obtain ⟨fewer, power₁⟩ := shiftToTargetExponent_within small low floor
  rw [roundWithAccuracy]
  generalize shiftToTargetExponent .binary64 m e .exact = first at fewer power₁ ⊢
  obtain ⟨em, e₁⟩ := first
  have rounded : em.roundedMantissa < 2 ^ (digits + 1) := by
    have carry := roundedMantissa_le em
    have room : 0 < 2 ^ digits := Nat.two_pow_pos digits
    simp only at fewer
    rw [pow_succ]
    omega
  obtain ⟨fewer, power₂⟩ := shiftToTargetExponent_within rounded power₁ (by omega)
  simp only
  generalize shiftToTargetExponent .binary64 em.roundedMantissa e₁ .exact = second at fewer power₂ ⊢
  obtain ⟨last, e₂⟩ := second
  simp only at fewer power₂ ⊢
  split
  · exact .zero s
  · refine .finite _ (by omega) ?_
    push_cast at power₂
    omega

theorem mul_within {s t : UnpackedFloat.Sign} {m n digits : Nat} {e f power roof : Int} {left : 0 < m}
    {right : 0 < n} (small : m * n < 2 ^ digits) (low : e + f ≤ power) (floor : -1074 ≤ power)
    (high : power + 2 * digits + 1 ≤ roof) :
    Within (digits + 1) roof (UnpackedFloat.mul .binary64 (.finite s m e left) (.finite t n f right)) :=
  roundWithAccuracy_within small low floor high

/-! ## Packing -/

/-- Unless its power is that of an infinity, what is put together is taken apart as a finite number. -/
theorem unpack_packComponents_within {s : UnpackedFloat.Sign} {b : Nat} {mantissa : BitVec 52} {power : Int}
    (room : b < 2047) (low : (b : Int) - 1075 ≤ power) (floor : -1074 ≤ power) :
    Within 53 power
      (unpack .binary64 (UnpackedFloat.packComponents .binary64 s (BitVec.ofNat 11 b) mantissa)) := by
  have value : (BitVec.ofNat 11 b).toNat = b := by
    rw [BitVec.toNat_ofNat]
    omega
  have finite : BitVec.ofNat 11 b ≠ -1#11 := by
    intro same
    have all : (-1#11).toNat = 2047 := by decide
    rw [← same, value] at all
    omega
  have bias : ((Format.exponentBias .binary64 : Nat) : Int) = 1023 := by decide
  have small : mantissa.toNat < 2 ^ 53 := mantissa.isLt.trans (by decide)
  rw [unpack]
  simp only [UnpackedFloat.unpackExponent_packComponents, UnpackedFloat.unpackMantissa_packComponents,
    if_neg finite, value, bias]
  split
  · split
    · exact .zero _
    · next subnormal nothing =>
        refine .finite _ small ?_
        have none : b = 0 := by simpa [subnormal] using value.symm
        omega
  · have implicit : (1#1 ++ mantissa).toNat < 2 ^ 53 := (1#1 ++ mantissa).isLt
    exact .finite _ implicit (by omega)

theorem unpack_pack_within {digits : Nat} {power : Int} {x : UnpackedFloat} (within : Within digits power x)
    (floor : -1074 ≤ power) (roof : power ≤ 971) :
    Within 53 power (unpack .binary64 (pack .binary64 x)) := by
  cases within with
  | zero s =>
      rw [pack, UnpackedFloat.unpack_packedZero]
      exact .zero s
  | @finite s m e positive small low =>
      have bias : ((Format.exponentBias .binary64 : Nat) : Int) = 1023 := by decide
      rw [pack]
      simp only [bias]
      split
      · omega
      · split
        · exact unpack_packComponents_within (by omega) (by omega) floor
        · exact unpack_packComponents_within (by omega) (by omega) floor

/-! ## Doubles -/

/-- The double of what is within bounds is within bounds. -/
structure Tame (x : Float) : Prop where
  within : Within 53 370 x.toModel.unpack

theorem Tame.isFinite {x : Float} (tame : Tame x) : x.isFinite = true := tame.within.isFinite

theorem tame_ofModel {digits : Nat} {x : UnpackedFloat} (within : Within digits 370 x) :
    Tame (Float.ofModel (.pack x)) :=
  ⟨unpack_pack_within within (by decide) (by decide)⟩

theorem Within.mono {digits : Nat} {power higher : Int} {x : UnpackedFloat} (within : Within digits power x)
    (lower : power ≤ higher) : Within digits higher x := by
  cases within with
  | zero s => exact .zero s
  | finite positive small low => exact .finite positive small (low.trans lower)

theorem within_ofNat {n : Nat} (small : n < 2 ^ 53) :
    Within 106 211 (UnpackedFloat.ofNat .binary64 n) := by
  rw [UnpackedFloat.ofNat, UnpackedFloat.ofInt, UnpackedFloat.normalize]
  rcases Nat.eq_zero_or_pos n with rfl | positive
  · exact .zero _
  · have sign : compare (n : Int) 0 = .gt := Int.compare_eq_gt.mpr (by omega)
    have digits : n.log2 < 53 := (Nat.log2_lt positive.ne').mpr small
    have target : Format.targetExponent .binary64 (Float.Model.totalExponent n 0) = (n.log2 : Int) - 52 := by
      rw [Format.targetExponent, Float.Model.totalExponent]
      have floor : Format.minExponent .binary64 = -1074 := by decide
      have width : ((Format.mantissaBits .binary64 : Nat) : Int) = 53 := by decide
      omega
    simp only [sign, UnpackedFloat.round, Int.toNat_natCast, target, UnpackedFloat.decreaseExponent]
    generalize shifted : (0 - ((n.log2 : Int) - 52)).toNat = shift
    have few : shift ≤ 52 := by omega
    have grown : n <<< shift < 2 ^ 105 := by
      rw [Nat.shiftLeft_eq]
      calc n * 2 ^ shift ≤ n * 2 ^ 52 := Nat.mul_le_mul_left n (Nat.pow_le_pow_right (by decide) few)
        _ < 2 ^ 53 * 2 ^ 52 := Nat.mul_lt_mul_of_pos_right small (by decide)
        _ = 2 ^ 105 := by norm_num
    have low : 0 - (shift : Int) ≤ 0 := by omega
    exact roundWithAccuracy_within grown low (by decide) (by decide)

theorem unpack_one : (Float.exactlyRepresentablePowersOfTen[0]).toModel.unpack =
    .finite .positive (2 ^ 52) (-52) (by decide) := by
  rfl

theorem tame_ofNat {n : Nat} (small : n < 2 ^ 64) : Tame (Float.ofNat n) := by
  change Tame (Float.ofScientific n false 0)
  rw [Float.ofScientific]
  split
  · next few =>
      have same : n.toUInt64.toNat = n := by
        change n % 2 ^ 64 = n
        omega
      have first : Within 53 211 n.toUInt64.toFloat.toModel.unpack := by
        change Within 53 211
          (unpack .binary64 (pack .binary64 (UnpackedFloat.ofNat .binary64 n.toUInt64.toNat)))
        rw [same]
        exact unpack_pack_within (within_ofNat few.1) (by decide) (by decide)
      change Tame (Float.ofModel (.pack (UnpackedFloat.mul .binary64 n.toUInt64.toFloat.toModel.unpack
        (Float.exactlyRepresentablePowersOfTen[0]).toModel.unpack)))
      rw [unpack_one]
      refine tame_ofModel (?_ : Within 106 370 _)
      generalize n.toUInt64.toFloat.toModel.unpack = x at first
      cases first with
      | zero s => exact .zero _
      | @finite s m e positive small low =>
          have grown : m * 2 ^ 52 < 2 ^ 105 := by omega
          have lower : e + -52 ≤ 159 := by omega
          exact mul_within grown lower (by decide) (by decide)
  · next many =>
      have positive : n ≠ 0 := by
        rintro rfl
        simp at many
      have within : Within 118 370 (UnpackedFloat.ofScientific .binary64 n 0) := by
        have width : Format.mantissaBits .binary64 = 53 := by decide
        have grown : n <<< Format.mantissaBits .binary64 * 10 ^ (0 : Int).toNat < 2 ^ 117 := by
          rw [width, Nat.shiftLeft_eq, Int.toNat_zero]
          omega
        have low : -((Format.mantissaBits .binary64 : Nat) : Int) + 0 ≤ 0 := by
          rw [width]
          decide
        -- The power of ten is zero, so the guard for powers far too small does not apply.
        have tiny : ¬(0 : Int) < -(2 ^ Format.exponentBits .binary64 + n.log2) := by
          have room : (0 : Int) < 2 ^ Format.exponentBits .binary64 := by decide
          omega
        rw [UnpackedFloat.ofScientific, dif_neg positive, if_neg (by decide), if_neg tiny, if_pos le_rfl]
        exact mul_within grown low (by decide) (by decide)
      exact tame_ofModel within

theorem Tame.neg {x : Float} (tame : Tame x) : Tame (-x) := by
  refine tame_ofModel (?_ : Within 53 370 _)
  have within := tame.within
  generalize x.toModel.unpack = u at within
  cases within with
  | zero s => exact .zero _
  | finite positive small low => exact .finite positive small low

theorem isFinite_of_natAbs {n : Int} (small : n.natAbs < 2 ^ 64) : (Number.int n).toFloat.isFinite = true := by
  have tame := tame_ofNat small
  rw [Number.toFloat]
  split
  · exact tame.neg.isFinite
  · exact tame.isFinite

/-! ## Numbers of documents -/

/-- A word of 64 bits, with or without a sign, or a finite double. -/
inductive Number.Held : Number → Prop where
  | int {n : Int} (least : Decimal.Word.least 64 ≤ n) (size : n < Decimal.Word.size 64) : Held (.int n)
  | float {x : Float} (finite : x.isFinite = true) : Held (.float x)

theorem Number.Held.isFinite {n : Number} (held : n.Held) : n.toFloat.isFinite = true := by
  cases held with
  | @int n least size =>
      apply isFinite_of_natAbs
      change -9223372036854775808 ≤ n at least
      change n < 18446744073709551616 at size
      omega
  | float finite => exact finite

/-- A value of a document: its numbers are held, and no object has a key twice. -/
inductive Value.Held : Value → Prop where
  | null : Held .null
  | bool (b : Bool) : Held (.bool b)
  | num {n : Number} (held : n.Held) : Held (.num n)
  | str (s : String) : Held (.str s)
  | arr {items : List Value} (each : ∀ v ∈ items, Held v) : Held (.arr items)
  | obj {fields : Fields} (distinct : (fields.map (·.1)).Nodup) (each : ∀ f ∈ fields, Held f.2) :
      Held (.obj fields)

@[simp] theorem Value.held_null : Value.null.Held := .null

@[simp] theorem Value.held_bool (b : Bool) : (Value.bool b).Held := .bool b

@[simp] theorem Value.held_str (s : String) : (Value.str s).Held := .str s

@[simp] theorem Value.held_num_iff {n : Number} : (Value.num n).Held ↔ n.Held := by
  constructor
  · rintro ⟨⟩
    assumption
  · exact .num

@[simp] theorem Value.held_arr_iff {items : List Value} : (Value.arr items).Held ↔ ∀ v ∈ items, v.Held := by
  constructor
  · rintro ⟨⟩
    assumption
  · exact .arr

@[simp] theorem Value.held_obj_iff {fields : Fields} :
    (Value.obj fields).Held ↔ (fields.map (·.1)).Nodup ∧ ∀ f ∈ fields, f.2.Held := by
  constructor
  · rintro ⟨⟩
    exact ⟨‹_›, ‹_›⟩
  · exact fun ⟨distinct, each⟩ => .obj distinct each

theorem Value.Held.get? {v x : Value} {key : String} (held : v.Held) (found : v.get? key = some x) :
    x.Held := by
  cases held with
  | obj distinct each => exact each _ (Fields.mem_of_lookup found)
  | _ => cases found

end CrewFlow.Json
