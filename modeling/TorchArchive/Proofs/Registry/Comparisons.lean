import TorchArchive.Proofs.Number.Order
import TorchArchive.Registry.Bindings
import TorchArchive.Registry.Builtins

/-!
# The comparisons are one order

Equality, its opposite and the two strict comparisons of archive code agree with each
other on all values.  On numbers they always answer, and they answer as the order of the
extended real numbers does that the numbers stand for.
-/

namespace TorchArchive

namespace Builtin

/-! ## Answers -/

/-- A comparison of two values ends with an answer or a fault, whatever was recorded,
and leaves what was recorded as it was. -/
def Answers (comparison : Builtin) (left right : Value) (answer : Except Fault Bool) : Prop :=
  ∀ recording : Recording,
    comparison.call [left, right] [] recording =
      match answer with
      | .ok holds => .ok (.bool holds) recording
      | .error fault => .error fault recording

theorem equal_answers (left right : Value) : equal.Answers left right (areEqual left right) := by
  intro recording
  change (Value.bool <$> ofExcept (areEqual left right) : Recorded Value) recording = _
  cases areEqual left right with
  | error fault => rfl
  | ok same => rfl

theorem notEqual_answers (left right : Value) :
    notEqual.Answers left right ((areEqual left right).map not) := by
  intro recording
  change (do return Value.bool !(← ofExcept (areEqual left right)) : Recorded Value)
    recording = _
  cases areEqual left right with
  | error fault => rfl
  | ok same => rfl

theorem less_answers (left right : Value) : less.Answers left right (isLess left right) := by
  intro recording
  change (Value.bool <$> ofExcept (isLess left right) : Recorded Value) recording = _
  cases isLess left right with
  | error fault => rfl
  | ok below => rfl

theorem greater_answers (left right : Value) : greater.Answers left right (isLess right left) := by
  intro recording
  change (Value.bool <$> ofExcept (isLess right left) : Recorded Value) recording = _
  cases isLess right left with
  | error fault => rfl
  | ok below => rfl

/-- A comparison says one thing only. -/
theorem Answers.unique {comparison : Builtin} {left right : Value}
    {answer other : Except Fault Bool} (answers : comparison.Answers left right answer)
    (answersOther : comparison.Answers left right other) : answer = other := by
  have same := (answers default).symm.trans (answersOther default)
  cases answer with
  | error fault =>
      cases other with
      | error another => cases same; rfl
      | ok holds => cases same
  | ok holds =>
      cases other with
      | error fault => cases same
      | ok another => cases same; rfl

/-! ## Comparisons of numbers -/

/-- A comparison holds of two numbers. -/
def Holds (comparison : Builtin) (m n : Number) : Prop :=
  comparison.Answers (.atom (.ofNumber m)) (.atom (.ofNumber n)) (.ok true)

/-- A comparison does not hold of two numbers, and says so. -/
def Denies (comparison : Builtin) (m n : Number) : Prop :=
  comparison.Answers (.atom (.ofNumber m)) (.atom (.ofNumber n)) (.ok false)

section Numbers

variable {m n : Number}

private theorem number?_ofNumber (number : Number) :
    number? (.atom (.ofNumber number)) = some number := by
  cases number <;> rfl

private theorem areEqual_numbers :
    areEqual (.atom (.ofNumber m)) (.atom (.ofNumber n)) = .ok (m.equals n) := by
  cases m <;> cases n <;> rfl

private theorem isLess_numbers :
    isLess (.atom (.ofNumber m)) (.atom (.ofNumber n)) = .ok (m.less n) := by
  rw [isLess, number?_ofNumber, number?_ofNumber]

variable {comparison : Builtin} {answer : Bool}

theorem holds_iff
    (answers :
      comparison.Answers (.atom (.ofNumber m)) (.atom (.ofNumber n)) (.ok answer)) :
    comparison.Holds m n ↔ answer = true := by
  constructor
  · intro holds
    exact Except.ok.inj (answers.unique holds)
  · rintro rfl
    exact answers

theorem denies_iff
    (answers :
      comparison.Answers (.atom (.ofNumber m)) (.atom (.ofNumber n)) (.ok answer)) :
    comparison.Denies m n ↔ answer = false := by
  constructor
  · intro denies
    exact Except.ok.inj (answers.unique denies)
  · rintro rfl
    exact answers

variable (m n)

private theorem equal_numbers :
    equal.Answers (.atom (.ofNumber m)) (.atom (.ofNumber n)) (.ok (m.equals n)) :=
  areEqual_numbers ▸ equal_answers _ _

private theorem notEqual_numbers :
    notEqual.Answers (.atom (.ofNumber m)) (.atom (.ofNumber n)) (.ok (!m.equals n)) := by
  have answers := notEqual_answers (.atom (.ofNumber m)) (.atom (.ofNumber n))
  rw [areEqual_numbers] at answers
  exact answers

private theorem less_numbers :
    less.Answers (.atom (.ofNumber m)) (.atom (.ofNumber n)) (.ok (m.less n)) :=
  isLess_numbers ▸ less_answers _ _

private theorem greater_numbers :
    greater.Answers (.atom (.ofNumber m)) (.atom (.ofNumber n)) (.ok (n.less m)) :=
  isLess_numbers ▸ greater_answers _ _

end Numbers

/-- The comparisons of archive code are one order: each is found under its name, equality
and its opposite and the two strict comparisons mirror each other on all values, and on
numbers they answer as the exact values compare. -/
structure OneOrder : Prop where
  named :
    [("torch.eq", equal), ("torch.ne", notEqual), ("torch.gt", greater),
      ("torch.lt", less)] ⊆ Registry.functions
  opposite :
    ∀ left right, ∃ answer,
      equal.Answers left right answer ∧ notEqual.Answers left right (answer.map not)
  mirrored :
    ∀ left right, ∃ answer,
      greater.Answers left right answer ∧ less.Answers right left answer
  answered :
    ∀ comparison ∈ [equal, notEqual, greater, less], ∀ m n,
      comparison.Holds m n ∨ comparison.Denies m n
  exclusive :
    ∀ m n : Number, m.isNaN = false → n.isNaN = false →
      (equal.Holds m n ∧ greater.Denies m n ∧ less.Denies m n) ∨
        (equal.Denies m n ∧ greater.Holds m n ∧ less.Denies m n) ∨
          (equal.Denies m n ∧ greater.Denies m n ∧ less.Holds m n)
  unordered :
    ∀ m n : Number, m.isNaN = true ∨ n.isNaN = true →
      equal.Denies m n ∧ greater.Denies m n ∧ less.Denies m n ∧ notEqual.Holds m n
  exact :
    ∀ (m n : Number) (p q : EReal), m.exactValue? = some p → n.exactValue? = some q →
      (equal.Holds m n ↔ p = q) ∧ (less.Holds m n ↔ p < q) ∧ (greater.Holds m n ↔ q < p)
  transitive : ∀ k m n, less.Holds k m → less.Holds m n → less.Holds k n
  compatible :
    ∀ m n, equal.Holds m n → ∀ other,
      (less.Holds m other ↔ less.Holds n other) ∧
        (less.Holds other m ↔ less.Holds other n)

private theorem answered_of {comparison : Builtin} {m n : Number} {answer : Bool}
    (answers :
      comparison.Answers (.atom (.ofNumber m)) (.atom (.ofNumber n)) (.ok answer)) :
    comparison.Holds m n ∨ comparison.Denies m n := by
  rw [holds_iff answers, denies_iff answers]
  exact Bool.eq_false_or_eq_true answer

/-- Equality, its opposite and the strict comparisons form one consistent order. -/
theorem comparisons_oneOrder : OneOrder where
  named := by decide
  opposite left right := ⟨_, equal_answers left right, notEqual_answers left right⟩
  mirrored left right := ⟨_, greater_answers left right, less_answers right left⟩
  answered := by
    simp only [List.forall_mem_cons, List.not_mem_nil, false_imp_iff, implies_true, and_true]
    exact ⟨fun m n => answered_of (equal_numbers m n),
      fun m n => answered_of (notEqual_numbers m n),
      fun m n => answered_of (greater_numbers m n),
      fun m n => answered_of (less_numbers m n)⟩
  exclusive := by
    intro m n left right
    obtain ⟨p, isLeft⟩ := Number.exists_exact left
    obtain ⟨q, isRight⟩ := Number.exists_exact right
    rw [holds_iff (equal_numbers m n), denies_iff (equal_numbers m n),
      holds_iff (greater_numbers m n), denies_iff (greater_numbers m n),
      holds_iff (less_numbers m n), denies_iff (less_numbers m n), ← Bool.not_eq_true,
      ← Bool.not_eq_true, ← Bool.not_eq_true, Number.equals_iff_of_exact isLeft isRight,
      Number.less_iff_of_exact isLeft isRight, Number.less_iff_of_exact isRight isLeft]
    rcases lt_trichotomy p q with below | same | above
    · exact .inr (.inr ⟨below.ne, below.asymm, below⟩)
    · exact .inl ⟨same, same.not_gt, same.not_lt⟩
    · exact .inr (.inl ⟨above.ne', above, above.asymm⟩)
  unordered := by
    intro m n unordered
    have unequal := Number.equals_eq_false_of_isNaN unordered
    refine ⟨(denies_iff (equal_numbers m n)).mpr unequal,
      (denies_iff (greater_numbers m n)).mpr
        (Number.less_eq_false_of_isNaN unordered.symm),
      (denies_iff (less_numbers m n)).mpr (Number.less_eq_false_of_isNaN unordered),
      (holds_iff (notEqual_numbers m n)).mpr ?_⟩
    rw [unequal]
    rfl
  exact := by
    intro m n p q left right
    rw [holds_iff (equal_numbers m n), holds_iff (less_numbers m n),
      holds_iff (greater_numbers m n), Number.equals_iff_of_exact left right,
      Number.less_iff_of_exact left right, Number.less_iff_of_exact right left]
    exact ⟨Iff.rfl, Iff.rfl, Iff.rfl⟩
  transitive := by
    intro k m n first second
    rw [holds_iff (less_numbers _ _), Number.less_iff] at first second ⊢
    obtain ⟨p, q, isFirst, isMiddle, below⟩ := first
    obtain ⟨q', r, isMiddle', isLast, above⟩ := second
    cases isMiddle.symm.trans isMiddle'
    exact ⟨p, r, isFirst, isLast, below.trans above⟩
  compatible := by
    intro m n same other
    rw [holds_iff (equal_numbers m n), Number.equals_iff] at same
    obtain ⟨p, left, right⟩ := same
    rw [holds_iff (less_numbers _ _), holds_iff (less_numbers _ _),
      holds_iff (less_numbers _ _), holds_iff (less_numbers _ _), Number.less_iff,
      Number.less_iff, Number.less_iff, Number.less_iff, left, right]
    exact ⟨Iff.rfl, Iff.rfl⟩

end Builtin

end TorchArchive
