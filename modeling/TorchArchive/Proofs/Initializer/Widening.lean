import Mathlib.Algebra.Field.Rat
import Mathlib.Algebra.Order.Field.Power
import Mathlib.Tactic.FieldSimp
import Mathlib.Tactic.Ring
import TorchArchive.Initializer.ElementType

/-!
# Widening is exact

A double holds every number that a word of the narrower formats stands for.  What a word
stands for is said here by the interchange formats: a sign, a biased exponent, and a
fraction behind a leading digit that is zero for the least exponent only.
-/

namespace TorchArchive

/-! ## What words stand for -/

namespace FloatFormat

/-- The distance of a stored exponent from the exponent that is meant. -/
def bias (format : FloatFormat) : Nat := 2 ^ (format.exponentWidth - 1) - 1

/-- The size of the number that the fields of a finite word stand for. -/
def fieldsSize (format : FloatFormat) (exponent fraction : Nat) : ℚ :=
  ((if exponent = 0 then 0 else 1) + fraction / 2 ^ format.fractionWidth) *
    2 ^ ((max exponent 1 : ℤ) - format.bias)

/-- What the fields of a word stand for: numbers, and with the greatest exponent
infinities and what is not a number. -/
def FieldsDenote (format : FloatFormat) (negative : Bool) (exponent fraction : Nat)
    (value : FloatValue) : Prop :=
  if exponent = 2 ^ format.exponentWidth - 1 then
    value = if fraction = 0 then .infinite negative else .nan
  else
    ∃ magnitude : Nat, value = .finite negative magnitude ∧
      (magnitude : ℚ) / 2 ^ FloatValue.unitExponent = format.fieldsSize exponent fraction

/-- What a word of a format stands for. -/
def Denotes (format : FloatFormat) (word : Nat) (value : FloatValue) : Prop :=
  ∃ (negative : Bool) (exponent fraction : Nat),
    exponent < 2 ^ format.exponentWidth ∧ fraction < 2 ^ format.fractionWidth ∧
      word = (negative.toNat * 2 ^ format.exponentWidth + exponent) *
          2 ^ format.fractionWidth + fraction ∧
        format.FieldsDenote negative exponent fraction value

/-- A format whose numbers are whole multiples of the common unit, all of which a double
holds. -/
structure Widens (format : FloatFormat) : Prop where
  unit :
    format.unitShift + 2 ^ (format.exponentWidth - 1) + format.fractionWidth =
      FloatValue.unitExponent + 2
  fraction : format.fractionWidth ≤ 52
  least : 2 ≤ format.exponentWidth
  greatest : 2 ^ format.exponentWidth + format.unitShift ≤ 2048

theorem half_widens : half.Widens := ⟨by decide, by decide, by decide, by decide⟩

theorem single_widens : single.Widens := ⟨by decide, by decide, by decide, by decide⟩

theorem double_widens : double.Widens := ⟨by decide, by decide, by decide, by decide⟩

variable {format : FloatFormat}

/-- A magnitude in units, against the same size in the terms of the format. -/
private theorem units_eq (widens : format.Widens) (digits shift : Nat) :
    ((digits * 2 ^ (shift + format.unitShift) : Nat) : ℚ) / 2 ^ FloatValue.unitExponent =
      digits / 2 ^ format.fractionWidth * 2 ^ ((shift + 1 : ℤ) - format.bias) := by
  have widths : FloatValue.unitExponent =
      format.unitShift + format.bias + format.fractionWidth - 1 ∧
        1 ≤ format.unitShift + format.bias + format.fractionWidth := by
    have unit := widens.unit
    have positive : 1 ≤ 2 ^ (format.exponentWidth - 1) := Nat.one_le_two_pow
    have large : 1 ≤ FloatValue.unitExponent := by decide
    rw [bias]
    omega
  have two : (2 : ℚ) ≠ 0 := two_ne_zero
  have exponents : ((FloatValue.unitExponent : Nat) : ℤ) =
      format.unitShift + format.bias + format.fractionWidth - 1 := by omega
  push_cast
  rw [← zpow_natCast 2 FloatValue.unitExponent, exponents,
    ← zpow_natCast 2 (shift + format.unitShift), ← zpow_natCast 2 format.fractionWidth,
    mul_div_assoc, ← zpow_sub₀ two, div_mul_eq_mul_div, mul_div_assoc, ← zpow_sub₀ two]
  congr 2
  push_cast
  ring

/-- What is read from a word is what the word stands for. -/
theorem read_denotes (widens : format.Widens) {word : Nat}
    (bounded : word < 2 ^ (1 + format.exponentWidth + format.fractionWidth)) :
    format.Denotes word (format.read word) := by
  have fractionPositive : 0 < 2 ^ format.fractionWidth := Nat.two_pow_pos _
  have exponentPositive : 0 < 2 ^ format.exponentWidth := Nat.two_pow_pos _
  have signed : word / 2 ^ (format.fractionWidth + format.exponentWidth) < 2 := by
    apply Nat.div_lt_of_lt_mul
    calc word < 2 ^ (1 + format.exponentWidth + format.fractionWidth) := bounded
      _ = 2 ^ (format.fractionWidth + format.exponentWidth) * 2 := by
          rw [← pow_succ]
          congr 1
          omega
  refine ⟨word / 2 ^ (format.fractionWidth + format.exponentWidth) % 2 == 1,
    word / 2 ^ format.fractionWidth % 2 ^ format.exponentWidth,
    word % 2 ^ format.fractionWidth, Nat.mod_lt _ exponentPositive,
    Nat.mod_lt _ fractionPositive, ?_, ?_⟩
  · have sign :
        (word / 2 ^ (format.fractionWidth + format.exponentWidth) % 2 == 1).toNat =
          word / 2 ^ format.fractionWidth / 2 ^ format.exponentWidth := by
      rw [Nat.div_div_eq_div_mul, ← pow_add]
      generalize word / 2 ^ (format.fractionWidth + format.exponentWidth) = top at signed ⊢
      have cases : top = 0 ∨ top = 1 := by omega
      rcases cases with rfl | rfl <;> rfl
    rw [sign, Nat.div_add_mod', Nat.div_add_mod']
  · rw [read]
    simp only [Nat.pow_eq]
    rw [FieldsDenote]
    split
    · split <;> rfl
    · rename_i ordinary
      split
      · rename_i least
        refine ⟨_, rfl, ?_⟩
        have size := units_eq widens (word % 2 ^ format.fractionWidth) 0
        rw [Nat.zero_add] at size
        rw [size, fieldsSize, least]
        norm_num
      · rename_i normal
        refine ⟨_, rfl, ?_⟩
        generalize word / 2 ^ format.fractionWidth % 2 ^ format.exponentWidth = exponent
          at normal
        have size := units_eq widens
          (2 ^ format.fractionWidth + word % 2 ^ format.fractionWidth) (exponent - 1)
        have above : (max exponent 1 : ℤ) = exponent := by omega
        have lowered : ((exponent - 1 : Nat) : ℤ) + 1 = exponent := by omega
        rw [size, fieldsSize, if_neg normal, above, lowered]
        congr 1
        push_cast
        field_simp

/-! ## What doubles hold -/

end FloatFormat

namespace Binary64

/-- A magnitude of so few binary digits, and not too large, that a double holds it. -/
def Representable (magnitude : Nat) : Prop :=
  ∃ digits shift, magnitude = digits * 2 ^ shift ∧ digits < 2 ^ 53 ∧ shift ≤ 2045

private theorem value_of_fields (negative : Bool) {exponent fraction : Nat}
    (finite : exponent ≤ 2046) (narrow : fraction < 2 ^ 52) :
    value ⟨(negative.toNat * 2 ^ 63 + exponent * 2 ^ 52 + fraction).toUInt64⟩ =
      .finite negative
        (if exponent = 0 then fraction
          else (2 ^ 52 + fraction) * 2 ^ (exponent - 1)) := by
  have bounded : negative.toNat ≤ 1 := by cases negative <;> decide
  have word : (negative.toNat * 2 ^ 63 + exponent * 2 ^ 52 + fraction).toUInt64.toNat =
      negative.toNat * 2 ^ 63 + exponent * 2 ^ 52 + fraction := by
    simp only [Nat.toUInt64, UInt64.toNat_ofNat']
    apply Nat.mod_eq_of_lt
    omega
  have low : (negative.toNat * 2 ^ 63 + exponent * 2 ^ 52 + fraction) % 2 ^ 52 =
      fraction := by omega
  have middle :
      (negative.toNat * 2 ^ 63 + exponent * 2 ^ 52 + fraction) / 2 ^ 52 % 2 ^ 11 =
        exponent := by omega
  have high :
      ((negative.toNat * 2 ^ 63 + exponent * 2 ^ 52 + fraction) / 2 ^ 63 % 2 == 1) =
        negative := by
    have top :
        (negative.toNat * 2 ^ 63 + exponent * 2 ^ 52 + fraction) / 2 ^ 63 =
          negative.toNat := by omega
    rw [top]
    cases negative <;> rfl
  have shift : FloatFormat.double.unitShift = 0 := by decide
  rw [value, FloatFormat.read, word, shift]
  simp only [FloatFormat.double, Nat.pow_eq, low, middle, high]
  have ordinary : exponent ≠ 2 ^ 11 - 1 := by omega
  rw [if_neg ordinary]
  split <;> simp

theorem value_infinity (negative : Bool) : (infinity negative).value = .infinite negative := by
  cases negative <;> decide

theorem value_nan : nan.value = .nan := by decide

private theorem ofMagnitude_eq (negative : Bool) (magnitude : Nat) :
    ofMagnitude negative magnitude =
      if magnitude < 2 ^ 52 then ⟨(negative.toNat * 2 ^ 63 + magnitude).toUInt64⟩
      else if 2046 ≤ magnitude.log2 - 52 then infinity negative
      else
        ⟨(negative.toNat * 2 ^ 63 + (magnitude.log2 - 52 + 1) * 2 ^ 52 +
          (magnitude / 2 ^ (magnitude.log2 - 52) - 2 ^ 52)).toUInt64⟩ := by
  cases negative <;> rfl

/-- The digits of a magnitude that a double holds are among its first fifty-three. -/
theorem Representable.divides {magnitude : Nat} (representable : Representable magnitude) :
    magnitude.log2 - 52 ≤ 2045 ∧ 2 ^ (magnitude.log2 - 52) ∣ magnitude := by
  obtain ⟨digits, shift, rfl, narrow, small⟩ := representable
  have order : (digits * 2 ^ shift).log2 - 52 ≤ shift := by
    by_cases zero : digits = 0
    · simp [zero]
    · have positive : digits * 2 ^ shift ≠ 0 := Nat.mul_ne_zero zero (Nat.two_pow_pos shift).ne'
      have bound : (digits * 2 ^ shift).log2 < 53 + shift := by
        rw [Nat.log2_lt positive, pow_add]
        exact Nat.mul_lt_mul_of_pos_right narrow (Nat.two_pow_pos shift)
      omega
  exact ⟨by omega, Dvd.dvd.mul_left (pow_dvd_pow 2 order) digits⟩

/-- A magnitude that a double holds is kept exactly. -/
theorem value_ofMagnitude (negative : Bool) {magnitude : Nat}
    (representable : Representable magnitude) :
    (ofMagnitude negative magnitude).value = .finite negative magnitude := by
  obtain ⟨small, divides⟩ := representable.divides
  rw [ofMagnitude_eq]
  split
  · rename_i least
    have fields := value_of_fields negative (Nat.zero_le 2046) least
    rw [Nat.zero_mul, Nat.add_zero] at fields
    rw [fields, if_pos rfl]
  · rename_i large
    have positive : magnitude ≠ 0 := by omega
    have high : 52 ≤ magnitude.log2 := (Nat.le_log2 positive).mpr (Nat.le_of_not_lt large)
    generalize shiftIs : magnitude.log2 - 52 = shift at small divides
    have exponent : magnitude.log2 = 52 + shift := by omega
    obtain ⟨digits, rfl⟩ := divides
    have lower : 2 ^ 52 ≤ digits := by
      have reached := (Nat.le_log2 positive).mp exponent.ge
      rw [pow_add, Nat.mul_comm] at reached
      exact Nat.le_of_mul_le_mul_left reached (Nat.two_pow_pos shift)
    have upper : digits < 2 ^ 53 := by
      have below : 2 ^ shift * digits < 2 ^ (53 + shift) :=
        (Nat.log2_lt positive).mp (by omega)
      rw [pow_add, Nat.mul_comm (2 ^ 53)] at below
      exact Nat.lt_of_mul_lt_mul_left below
    rw [if_neg (by omega), Nat.mul_div_cancel_left digits (Nat.two_pow_pos shift)]
    rw [value_of_fields negative (by omega) (by omega), if_neg (Nat.succ_ne_zero shift)]
    rw [Nat.add_sub_cancel' lower, Nat.add_sub_cancel, Nat.mul_comm]

private theorem nearestQuotient_of_dvd {numerator denominator : Nat}
    (positive : 0 < denominator) (divides : denominator ∣ numerator) :
    nearestQuotient numerator denominator = numerator / denominator := by
  have exact_ : numerator % denominator = 0 := Nat.mod_eq_zero_of_dvd divides
  rw [nearestQuotient, exact_]
  exact if_pos positive

/-- The double of a value that a double holds has this value. -/
theorem value_ofValue {value : FloatValue}
    (representable : ∀ negative magnitude, value = .finite negative magnitude →
      Representable magnitude) :
    (ofValue value).value = value := by
  cases value with
  | nan => exact value_nan
  | infinite negative => exact value_infinity negative
  | finite negative magnitude =>
      have holds := representable negative magnitude rfl
      have divides := holds.divides.2
      rw [ofValue, roundUnits]
      simp only [Nat.div_one, Nat.one_mul, Nat.pow_eq]
      rw [nearestQuotient_of_dvd (Nat.two_pow_pos _) divides, Nat.div_mul_cancel divides]
      exact value_ofMagnitude negative holds

end Binary64

/-! ## Widening -/

namespace FloatFormat

variable {format : FloatFormat}

theorem read_representable (widens : format.Widens) {word : Nat} {negative : Bool}
    {magnitude : Nat} (finite : format.read word = .finite negative magnitude) :
    Binary64.Representable magnitude := by
  have fractionBound : word % 2 ^ format.fractionWidth < 2 ^ format.fractionWidth :=
    Nat.mod_lt _ (Nat.two_pow_pos _)
  have widths : 2 ^ format.fractionWidth ≤ 2 ^ 52 :=
    Nat.pow_le_pow_right Nat.two_pos widens.fraction
  have exponentBound :
      word / 2 ^ format.fractionWidth % 2 ^ format.exponentWidth <
        2 ^ format.exponentWidth := Nat.mod_lt _ (Nat.two_pow_pos _)
  have range := widens.greatest
  have four : 2 ^ 2 ≤ 2 ^ format.exponentWidth :=
    Nat.pow_le_pow_right Nat.two_pos widens.least
  rw [read] at finite
  simp only [Nat.pow_eq] at finite
  split at finite
  · split at finite <;> cases finite
  · split at finite
    · cases finite
      exact ⟨_, _, rfl, by omega, by omega⟩
    · cases finite
      exact ⟨_, _, rfl, by omega, by omega⟩

/-- What a word of a narrower format stands for, the double that it is widened to stands
for as well. -/
theorem widened_denotes (widens : format.Widens) {word : Nat}
    (bounded : word < 2 ^ (1 + format.exponentWidth + format.fractionWidth)) :
    ∃ value, format.Denotes word value ∧
      double.Denotes (Binary64.ofValue (format.read word)).bits.toNat value := by
  have kept : (Binary64.ofValue (format.read word)).value = format.read word :=
    Binary64.value_ofValue fun _ _ finite => read_representable widens finite
  have narrow : (Binary64.ofValue (format.read word)).bits.toNat <
      2 ^ (1 + double.exponentWidth + double.fractionWidth) := UInt64.toNat_lt _
  have denotes := read_denotes double_widens narrow
  rw [Binary64.value] at kept
  rw [kept] at denotes
  exact ⟨_, read_denotes widens bounded, denotes⟩

end FloatFormat

end TorchArchive
