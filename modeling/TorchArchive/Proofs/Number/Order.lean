import Mathlib.Data.EReal.Basic
import Mathlib.Tactic.Positivity
import TorchArchive.Number.Number

/-!
# Numbers are compared by exact value

An integer stands for itself and a double for a whole multiple of the common unit, for an
infinity, or for nothing.  Numbers are equal, or one is less than the other, as the
extended real numbers are that they stand for, so nothing is lost where an integer meets
a double that could not hold it.
-/

namespace TorchArchive

namespace Number

/-! ## What numbers stand for -/

/-- The extended real number that a number stands for. -/
noncomputable def exactValue? : Number → Option EReal
  | int n => some ((n : ℝ) : EReal)
  | float x =>
      match x.value with
      | .nan => none
      | .infinite negative => some (if negative then ⊥ else ⊤)
      | .finite negative magnitude =>
          let size : ℝ := magnitude / 2 ^ FloatValue.unitExponent
          some ((if negative then -size else size : ℝ) : EReal)

/-- Whether a number is a double that stands for nothing. -/
def isNaN : Number → Bool
  | int _ => false
  | float x => x.isNaN

theorem exactValue?_eq_none_iff {number : Number} :
    number.exactValue? = none ↔ number.isNaN = true := by
  cases number with
  | int n => simp [exactValue?, isNaN]
  | float x =>
      rw [exactValue?, isNaN, Binary64.isNaN]
      cases x.value <;> simp

/-- The extended real number at a point. -/
noncomputable def Point.value : Point → EReal
  | .below => ⊥
  | .finite units => ((units / 2 ^ FloatValue.unitExponent : ℝ) : EReal)
  | .above => ⊤

private theorem unit_pos : (0 : ℝ) < 2 ^ FloatValue.unitExponent := by positivity

private theorem one_eq : ((FloatValue.one : ℕ) : ℝ) = 2 ^ FloatValue.unitExponent := by
  unfold FloatValue.one
  generalize FloatValue.unitExponent = exponent
  rw [Nat.pow_eq, Nat.cast_pow, Nat.cast_ofNat]

/-- The point of a number lies where the number stands. -/
theorem exactValue?_eq (number : Number) : number.exactValue? = number.point?.map Point.value := by
  cases number with
  | int n =>
      have cancels :
          ((n * (FloatValue.one : ℤ) : ℤ) : ℝ) / 2 ^ FloatValue.unitExponent = n := by
        rw [Int.cast_mul, Int.cast_natCast, one_eq]
        exact mul_div_cancel_right₀ _ unit_pos.ne'
      rw [exactValue?, point?, Option.map_some, Point.value, cancels]
  | float x =>
      have placed :
          (float x).point? =
            match x.value with
            | .nan => none
            | .infinite negative => some (if negative then .below else .above)
            | .finite negative magnitude =>
                some (.finite (if negative then -(magnitude : Int) else magnitude)) := rfl
      rw [exactValue?, placed]
      cases x.value with
      | nan => rfl
      | infinite negative => cases negative <;> rfl
      | finite negative magnitude =>
          cases negative <;> simp [Point.value, neg_div]

/-! ## The order -/

theorem Point.value_lt_iff {m n : ℤ} :
    (Point.finite m).value < (Point.finite n).value ↔ m < n := by
  rw [value, value, EReal.coe_lt_coe_iff, div_lt_div_iff_of_pos_right unit_pos, Int.cast_lt]

theorem Point.value_eq_iff {m n : ℤ} :
    (Point.finite m).value = (Point.finite n).value ↔ m = n := by
  rw [value, value, EReal.coe_eq_coe_iff, div_left_inj' unit_pos.ne', Int.cast_inj]

theorem Point.compare_eq_lt_iff {p q : Point} :
    p.compare q = .lt ↔ p.value < q.value := by
  cases p with
  | below => cases q <;> simp [compare, value]
  | above => cases q <;> simp [compare, value]
  | finite m =>
      cases q with
      | below => simp [compare, value]
      | above => simp [compare, value, EReal.coe_lt_top]
      | finite n => rw [value_lt_iff, compare, Int.compare_eq_lt]

theorem Point.compare_eq_eq_iff {p q : Point} :
    p.compare q = .eq ↔ p.value = q.value := by
  cases p with
  | below => cases q <;> simp [compare, value]
  | above => cases q <;> simp [compare, value]
  | finite m =>
      cases q with
      | below => simp [compare, value]
      | above => simp [compare, value]
      | finite n => rw [value_eq_iff, compare, Int.compare_eq_eq]

/-- Two integers are compared as their points are. -/
private theorem compare_units (m n : ℤ) :
    Point.compare (.finite (m * (FloatValue.one : ℤ))) (.finite (n * (FloatValue.one : ℤ))) =
      Ord.compare m n := by
  have positive : 0 < (FloatValue.one : ℤ) := by
    have large : (0 : ℝ) < (FloatValue.one : ℕ) := one_eq ▸ unit_pos
    exact_mod_cast large
  rw [Point.compare]
  rcases lt_trichotomy m n with below | rfl | above
  · rw [Int.compare_eq_lt.mpr below, Int.compare_eq_lt]
    exact Int.mul_lt_mul_of_pos_right below positive
  · rw [Int.compare_eq_eq.mpr rfl, Int.compare_eq_eq.mpr rfl]
  · rw [Int.compare_eq_gt.mpr above, Int.compare_eq_gt]
    exact Int.mul_lt_mul_of_pos_right above positive

theorem compare?_eq (a b : Number) :
    a.compare? b = (do
      let p ← a.point?
      let q ← b.point?
      return p.compare q) := by
  cases a with
  | float x => rfl
  | int m =>
      cases b with
      | float y => rfl
      | int n => exact congrArg some (compare_units m n).symm

private theorem compare?_eq_some_iff {a b : Number} {order : Ordering} :
    a.compare? b = some order ↔
      ∃ p q, a.point? = some p ∧ b.point? = some q ∧ p.compare q = order := by
  rw [compare?_eq]
  cases a.point? with
  | none => simp
  | some p =>
      cases b.point? with
      | none => simp
      | some q => simp

/-- One number is less than another where both stand for something and it lies below. -/
theorem less_iff {a b : Number} :
    a.less b = true ↔ ∃ p q, a.exactValue? = some p ∧ b.exactValue? = some q ∧ p < q := by
  rw [less, beq_iff_eq, compare?_eq_some_iff, exactValue?_eq, exactValue?_eq]
  simp only [Point.compare_eq_lt_iff, Option.map_eq_some_iff]
  constructor
  · rintro ⟨p, q, left, right, below⟩
    exact ⟨p.value, q.value, ⟨p, left, rfl⟩, ⟨q, right, rfl⟩, below⟩
  · rintro ⟨_, _, ⟨p, left, rfl⟩, ⟨q, right, rfl⟩, below⟩
    exact ⟨p, q, left, right, below⟩

/-- Two numbers are equal where both stand for one and the same. -/
theorem equals_iff {a b : Number} :
    a.equals b = true ↔ ∃ p, a.exactValue? = some p ∧ b.exactValue? = some p := by
  rw [equals, beq_iff_eq, compare?_eq_some_iff, exactValue?_eq, exactValue?_eq]
  simp only [Point.compare_eq_eq_iff, Option.map_eq_some_iff]
  constructor
  · rintro ⟨p, q, left, right, same⟩
    exact ⟨p.value, ⟨p, left, rfl⟩, ⟨q, right, same.symm⟩⟩
  · rintro ⟨_, ⟨p, left, rfl⟩, ⟨q, right, same⟩⟩
    exact ⟨p, q, left, right, same.symm⟩

/-- The least integer that no double holds lies above the double nearest to it. -/
example :
    (float (.roundQuotient false (2 ^ 53 + 1) 1)).less (int (2 ^ 53 + 1)) = true := by
  decide +kernel

section Exact

variable {a b : Number} {p q : EReal}

theorem exists_exact (stands : a.isNaN = false) : ∃ p, a.exactValue? = some p := by
  apply Option.ne_none_iff_exists'.mp
  rw [ne_eq, exactValue?_eq_none_iff, stands]
  decide

theorem less_iff_of_exact (left : a.exactValue? = some p) (right : b.exactValue? = some q) :
    a.less b = true ↔ p < q := by
  rw [less_iff, left, right]
  simp

theorem equals_iff_of_exact (left : a.exactValue? = some p) (right : b.exactValue? = some q) :
    a.equals b = true ↔ p = q := by
  rw [equals_iff, left, right]
  simp [eq_comm]

theorem less_eq_false_of_isNaN (unordered : a.isNaN = true ∨ b.isNaN = true) :
    a.less b = false := by
  rw [← exactValue?_eq_none_iff, ← exactValue?_eq_none_iff] at unordered
  rw [← Bool.not_eq_true, less_iff]
  rintro ⟨p, q, left, right, _⟩
  rcases unordered with nothing | nothing
  · cases nothing.symm.trans left
  · cases nothing.symm.trans right

theorem equals_eq_false_of_isNaN (unordered : a.isNaN = true ∨ b.isNaN = true) :
    a.equals b = false := by
  rw [← exactValue?_eq_none_iff, ← exactValue?_eq_none_iff] at unordered
  rw [← Bool.not_eq_true, equals_iff]
  rintro ⟨p, left, right⟩
  rcases unordered with nothing | nothing
  · cases nothing.symm.trans left
  · cases nothing.symm.trans right

end Exact

end Number

end TorchArchive
