import TorchArchive.Proofs.Builtins

/-!
# Names of tensors

At most one name flows out of a tensor, and no two tensors have one name.  A name is
one that was asked for, or the decimal numeral of a number that the trace counted;
this is why a fresh name is no tensor's name yet.

A change of a recording either names no tensor or names exactly one.  Both keep the
discipline, and both leave the names that tensors have already.
-/

namespace TorchArchive

/-- Different numbers have different numerals. -/
theorem integerText_injective {left right : Nat}
    (same : integerText left = integerText right) : left = right := by
  have digits : Nat.toDigits 10 left = Nat.toDigits 10 right := by
    have nonnegative (number : Nat) : ¬ (number : Int) < 0 := by omega
    have texts := congrArg String.toList same
    simpa [integerText, decimalDigits, nonnegative] using texts
  have values := congrArg (fun text => Nat.ofDigitChars 10 text 0) digits
  simpa only [Nat.ofDigitChars_ten_toDigits] using values

theorem numeral_isDigit (number : Nat) :
    ∀ c ∈ (integerText number).toList, c.isDigit = true := by
  intro c member
  have nonnegative : ¬ (number : Int) < 0 := by omega
  have digit : c ∈ Nat.toDigits 10 number := by
    simpa [integerText, decimalDigits, nonnegative] using member
  exact Nat.isDigit_of_mem_toDigits (by decide) (Nat.le_refl 10) digit

namespace Recording

variable {before after : Recording} {asked : List String}

/-- What flows out of a tensor. -/
def outputs (recording : Recording) (ref : Ref .tensor) : List Value :=
  recording.heap.list (recording.heap.tensor ref).outputs

/-- A tensor of the heap has a name if that alone flows out of it. -/
def HasName (recording : Recording) (ref : Ref .tensor) (name : String) : Prop :=
  recording.heap.tensors.Holds ref ∧ recording.outputs ref = [.str name]

/-- What flows out of a tensor is kept in a list of the heap. -/
def OutputsHeld (recording : Recording) : Prop :=
  ∀ ref, recording.heap.tensors.Holds ref →
    recording.heap.lists.Holds (recording.heap.tensor ref).outputs

/-- A name that the trace may have given: one that was asked for, or the numeral of a
number that was counted. -/
def Known (recording : Recording) (asked : List String) (name : String) : Prop :=
  name ∈ asked ∨ ∃ number ≤ recording.trace.names, name = integerText number

/-- The discipline of names. -/
structure Named (recording : Recording) (asked : List String) : Prop where
  outputsHeld : recording.OutputsHeld
  identified : ∀ ref ∈ recording.trace.identified, recording.heap.tensors.Holds ref
  single :
    ∀ ref, recording.heap.tensors.Holds ref →
      recording.outputs ref = [] ∨ ∃ name, recording.HasName ref name
  unique :
    ∀ left right name,
      recording.HasName left name → recording.HasName right name → left = right
  known : ∀ ref name, recording.HasName ref name → recording.Known asked name

theorem HasName.name_unique {ref : Ref .tensor} {left right : String}
    (first : before.HasName ref left) (second : before.HasName ref right) :
    left = right := by
  have same : [Value.str left] = [Value.str right] :=
    first.2.symm.trans second.2
  simpa [Value.str] using same

/-! ## Changes that name no tensor -/

/-- Nothing flows out of any tensor that did not before. -/
def NamesNone (before after : Recording) : Prop :=
  ∀ ref, after.heap.tensors.Holds ref →
    after.outputs ref = [] ∨
      before.heap.tensors.Holds ref ∧ after.outputs ref = before.outputs ref

theorem NamesNone.hasName (quiet : before.NamesNone after) {ref : Ref .tensor}
    {name : String} (has : after.HasName ref name) : before.HasName ref name := by
  rcases quiet ref has.1 with empty | ⟨held, same⟩
  · rw [has.2] at empty
    cases empty
  · exact ⟨held, same.symm.trans has.2⟩

theorem Named.of_namesNone (named : before.Named asked)
    (quiet : before.NamesNone after) (outputsHeld : after.OutputsHeld)
    (identified : ∀ ref ∈ after.trace.identified, after.heap.tensors.Holds ref)
    (counted : before.trace.names ≤ after.trace.names) : after.Named asked where
  outputsHeld := outputsHeld
  identified := identified
  single := by
    intro ref held
    rcases quiet ref held with empty | ⟨heldBefore, same⟩
    · exact Or.inl empty
    · rcases named.single ref heldBefore with empty | ⟨name, has⟩
      · exact Or.inl (same.trans empty)
      · exact Or.inr ⟨name, held, same.trans has.2⟩
  unique := fun left right name first second =>
    named.unique left right name (quiet.hasName first) (quiet.hasName second)
  known := by
    intro ref name has
    rcases named.known ref name (quiet.hasName has) with member | ⟨number, small, same⟩
    · exact Or.inl member
    · exact Or.inr ⟨number, by omega, same⟩

/-! ## Changes that name one tensor -/

/-- One tensor without a name gets one; what flows out of the others stays. -/
structure Names (before after : Recording) (ref : Ref .tensor) (name : String) :
    Prop where
  has : after.HasName ref name
  unnamed : before.heap.tensors.Holds ref → before.outputs ref = []
  others :
    ∀ other, other ≠ ref →
      (after.heap.tensors.Holds other ↔ before.heap.tensors.Holds other) ∧
        (before.heap.tensors.Holds other →
          after.outputs other = before.outputs other)

theorem Names.hasName_iff {ref : Ref .tensor} {name : String}
    (names : before.Names after ref name) {other : Ref .tensor}
    (different : other ≠ ref) (text : String) :
    after.HasName other text ↔ before.HasName other text := by
  obtain ⟨held, same⟩ := names.others other different
  constructor
  · rintro ⟨heldAfter, outputs⟩
    have heldBefore := held.mp heldAfter
    exact ⟨heldBefore, (same heldBefore).symm.trans outputs⟩
  · rintro ⟨heldBefore, outputs⟩
    exact ⟨held.mpr heldBefore, (same heldBefore).trans outputs⟩

/-- A tensor that has a name keeps it. -/
theorem Names.keeps {ref other : Ref .tensor} {name text : String}
    (names : before.Names after ref name) (has : before.HasName other text) :
    after.HasName other text := by
  by_cases same : other = ref
  · have empty := names.unnamed (same ▸ has.1)
    rw [← same, has.2] at empty
    cases empty
  · exact (names.hasName_iff same text).mpr has

theorem Names.holds {ref other : Ref .tensor} {name : String}
    (names : before.Names after ref name) (held : before.heap.tensors.Holds other) :
    after.heap.tensors.Holds other := by
  by_cases same : other = ref
  · rw [same]
    exact names.has.1
  · exact (names.others other same).1.mpr held

theorem Named.of_names {ref : Ref .tensor} {name : String} {given : List String}
    (named : before.Named asked) (names : before.Names after ref name)
    (unused : ∀ other, ¬ before.HasName other name)
    (outputsHeld : after.OutputsHeld)
    (identified :
      ∀ other ∈ after.trace.identified,
        other ∈ before.trace.identified ∨ other = ref)
    (counted : before.trace.names ≤ after.trace.names)
    (longer : ∀ name ∈ asked, name ∈ given)
    (known : after.Known given name) : after.Named given where
  outputsHeld := outputsHeld
  identified := by
    intro other member
    rcases identified other member with earlier | same
    · exact names.holds (named.identified other earlier)
    · rw [same]
      exact names.has.1
  single := by
    intro other held
    by_cases same : other = ref
    · exact Or.inr ⟨name, same ▸ names.has⟩
    · obtain ⟨holds, outputs⟩ := names.others other same
      have heldBefore := holds.mp held
      rcases named.single other heldBefore with empty | ⟨text, has⟩
      · exact Or.inl ((outputs heldBefore).trans empty)
      · exact Or.inr ⟨text, (names.hasName_iff same text).mpr has⟩
  unique := by
    intro left right text first second
    -- The new name is no other tensor's, and the old ones are as they were.
    by_cases leftSame : left = ref
    · by_cases rightSame : right = ref
      · exact leftSame.trans rightSame.symm
      · have equal : text = name := (leftSame ▸ first).name_unique names.has
        exact absurd (equal ▸ (names.hasName_iff rightSame text).mp second)
          (unused right)
    · by_cases rightSame : right = ref
      · have equal : text = name := (rightSame ▸ second).name_unique names.has
        exact absurd (equal ▸ (names.hasName_iff leftSame text).mp first)
          (unused left)
      · exact named.unique left right text
          ((names.hasName_iff leftSame text).mp first)
          ((names.hasName_iff rightSame text).mp second)
  known := by
    intro other text has
    by_cases same : other = ref
    · have equal : text = name := (same ▸ has).name_unique names.has
      rw [equal]
      exact known
    · rcases named.known other text ((names.hasName_iff same text).mp has) with
        member | ⟨number, small, numeral⟩
      · exact Or.inl (longer text member)
      · exact Or.inr ⟨number, by omega, numeral⟩

/-- A fresh name is no tensor's, as long as nobody asked for a numeral. -/
theorem Named.fresh_unused (named : before.Named asked)
    (plain : ∀ name ∈ asked, ∀ number : Nat, name ≠ integerText number)
    (other : Ref .tensor) : ¬ before.HasName other before.freshName.1 := by
  intro has
  rcases named.known other _ has with member | ⟨number, small, numeral⟩
  · exact plain _ member (before.trace.names + 1) rfl
  · have equal : before.trace.names + 1 = number := integerText_injective numeral
    omega

/-- A name that nobody asked for and that is no numeral is no tensor's. -/
theorem Named.unused_of_not_asked (named : before.Named asked) {name : String}
    (unasked : name ∉ asked) (plain : ∀ number : Nat, name ≠ integerText number)
    (other : Ref .tensor) : ¬ before.HasName other name := by
  intro has
  rcases named.known other name has with member | ⟨number, _, numeral⟩
  · exact unasked member
  · exact plain number numeral

/-! ## What flows out of a tensor is set -/

private theorem list_addList_of_holds {heap : Heap} (items : List Value)
    {list : Ref .list} (held : heap.lists.Holds list) :
    (heap.addList items).2.list list = heap.list list :=
  Store.get_add_of_holds heap.lists items held

private theorem list_addList_next (heap : Heap) (items : List Value) :
    (heap.addList items).2.list heap.lists.next = items :=
  Store.get_add_next heap.lists items

/-- The recording in which the items flow out of a tensor. -/
def putOutputs (recording : Recording) (items : List Value) (ref : Ref .tensor) :
    Recording :=
  { recording with
    heap := (recording.heap.addList items).2.updateTensor ref
      ({ · with outputs := recording.heap.lists.next }) }

/-- A rollback clears what was named on the way, and forgets the calls. -/
theorem rollback_eq (recording : Recording) :
    recording.rollback =
      (recording.trace.identified.foldl (putOutputs · []) recording).reset := by
  have cleared (refs : List (Ref .tensor)) (recording : Recording) :
      refs.foldl (putOutputs · []) recording =
        ⟨refs.foldl
          (fun heap ref =>
            (heap.addList []).2.updateTensor ref ({ · with outputs := heap.lists.next }))
          recording.heap, recording.trace⟩ := by
    induction refs generalizing recording with
    | nil => rfl
    | cons ref rest inductionHypothesis => exact inductionHypothesis _
  rw [cleared]
  rfl

section Setting

variable (outputsHeld : before.OutputsHeld) (items : List Value)

theorem size_addWith (tensor : Ref .list → Tensor) :
    (before.addWith items tensor).heap.tensors.size = before.heap.tensors.size + 1 :=
  Store.size_add before.heap.tensors _

theorem tensor_addWith (tensor : Ref .list → Tensor) (other : Ref .tensor) :
    (before.addWith items tensor).heap.tensor other =
      if before.heap.tensors.next = other then tensor before.heap.lists.next
      else before.heap.tensor other :=
  Heap.tensor_addTensor (before.heap.addList items).2 _ other

theorem outputs_addWith_next {tensor : Ref .list → Tensor}
    (kept : ∀ outputs, (tensor outputs).outputs = outputs) :
    (before.addWith items tensor).outputs before.heap.tensors.next = items := by
  rw [outputs, tensor_addWith, if_pos rfl, kept]
  exact list_addList_next before.heap items

theorem size_putOutputs {ref : Ref .tensor} (held : before.heap.tensors.Holds ref) :
    (before.putOutputs items ref).heap.tensors.size = before.heap.tensors.size := by
  have inside : ref.index + 1 ≤ before.heap.tensors.size := held
  have size := Store.size_set before.heap.tensors ref
    { before.heap.tensor ref with outputs := before.heap.lists.next }
  exact size.trans (by omega)

theorem tensor_putOutputs (ref other : Ref .tensor) :
    (before.putOutputs items ref).heap.tensor other =
      if ref = other then
        { before.heap.tensor ref with outputs := before.heap.lists.next }
      else before.heap.tensor other :=
  Heap.tensor_updateTensor (before.heap.addList items).2 ref _ other

theorem outputs_putOutputs_self (ref : Ref .tensor) :
    (before.putOutputs items ref).outputs ref = items := by
  rw [outputs, tensor_putOutputs, if_pos rfl]
  exact list_addList_next before.heap items

private theorem holds_addList {list : Ref .list} (held : before.heap.lists.Holds list) :
    (before.heap.lists.add items).Holds list := by
  rw [Store.Holds, Store.size_add]
  exact Nat.lt_succ_of_lt held

private theorem holds_addList_next :
    (before.heap.lists.add items).Holds before.heap.lists.next := by
  rw [Store.Holds, Store.size_add]
  exact Nat.lt_succ_self _

include outputsHeld

theorem outputs_addWith_old (tensor : Ref .list → Tensor) {other : Ref .tensor}
    (held : before.heap.tensors.Holds other) :
    (before.addWith items tensor).outputs other = before.outputs other := by
  have old : before.heap.tensors.next ≠ other := by
    rintro rfl
    exact Nat.lt_irrefl _ held
  rw [outputs, outputs, tensor_addWith, if_neg old]
  exact list_addList_of_holds items (outputsHeld other held)

theorem outputsHeld_addWith {tensor : Ref .list → Tensor}
    (kept : ∀ outputs, (tensor outputs).outputs = outputs) :
    (before.addWith items tensor).OutputsHeld := by
  intro other held
  rw [Store.Holds, size_addWith] at held
  rw [tensor_addWith]
  by_cases new : before.heap.tensors.next = other
  · rw [if_pos new, kept]
    exact holds_addList_next items
  · rw [if_neg new]
    have different : before.heap.tensors.size ≠ other.index := by
      intro same
      exact new (by cases other; cases same; rfl)
    exact holds_addList items (outputsHeld other (by
      rw [Store.Holds]
      omega))

theorem outputs_putOutputs_of_ne {ref other : Ref .tensor} (different : other ≠ ref)
    (held : before.heap.tensors.Holds other) :
    (before.putOutputs items ref).outputs other = before.outputs other := by
  rw [outputs, outputs, tensor_putOutputs, if_neg (Ne.symm different)]
  exact list_addList_of_holds items (outputsHeld other held)

theorem outputsHeld_putOutputs {ref : Ref .tensor}
    (held : before.heap.tensors.Holds ref) :
    (before.putOutputs items ref).OutputsHeld := by
  intro other heldAfter
  rw [Store.Holds, size_putOutputs items held] at heldAfter
  rw [tensor_putOutputs]
  by_cases same : ref = other
  · rw [if_pos same]
    exact holds_addList_next items
  · rw [if_neg same]
    exact holds_addList items (outputsHeld other heldAfter)

end Setting

/-! ## New tensors and late names -/

theorem addTensor_eq (name : String) (change : Tensor → Tensor) :
    before.addTensor name change =
      (before.heap.tensors.next,
        before.addWith [.str name] fun outputs => change (.blank outputs)) := rfl

theorem addTensor_names (outputsHeld : before.OutputsHeld) (name : String)
    {change : Tensor → Tensor}
    (kept : ∀ tensor, (change tensor).outputs = tensor.outputs) :
    before.Names (before.addTensor name change).2 (before.addTensor name change).1
        name ∧
      (before.addTensor name change).2.OutputsHeld := by
  rw [addTensor_eq]
  refine ⟨⟨⟨?_, ?_⟩, ?_, ?_⟩, ?_⟩
  · rw [Store.Holds, size_addWith]
    exact Nat.lt_succ_self _
  · exact outputs_addWith_next [.str name] fun outputs => kept (.blank outputs)
  · intro held
    exact absurd held (Nat.lt_irrefl _)
  · intro other different
    refine ⟨?_, outputs_addWith_old outputsHeld _ _⟩
    have apart : other.index ≠ before.heap.tensors.size := by
      intro same
      exact different (by cases other; cases same; rfl)
    rw [Store.Holds, Store.Holds, size_addWith]
    omega
  · exact outputsHeld_addWith outputsHeld _ fun outputs => kept (.blank outputs)

/-- A tensor that is asked for its name for the first time gets a fresh one. -/
theorem identify_eq {ref : Ref .tensor} (unnamed : before.outputs ref = []) :
    before.identify ref =
      (before.freshName.1,
        ⟨(before.putOutputs [.str before.freshName.1] ref).heap,
          { before.freshName.2.trace with
            identified := before.trace.identified ++ [ref] }⟩) := by
  have empty : before.heap.list (before.heap.tensor ref).outputs = [] := unnamed
  rw [identify, empty]
  rfl

/-- A tensor that has a name is known by it. -/
theorem HasName.identify_eq {ref : Ref .tensor} {name : String}
    (has : before.HasName ref name) : before.identify ref = (name, before) := by
  have outputs : before.heap.list (before.heap.tensor ref).outputs = [.str name] :=
    has.2
  rw [identify, outputs]
  rfl

theorem putOutputs_names (outputsHeld : before.OutputsHeld) {ref : Ref .tensor}
    (held : before.heap.tensors.Holds ref) (unnamed : before.outputs ref = [])
    (name : String) :
    before.Names (before.putOutputs [.str name] ref) ref name := by
  have holds_iff (other : Ref .tensor) :
      (before.putOutputs [.str name] ref).heap.tensors.Holds other ↔
        before.heap.tensors.Holds other := by
    rw [Store.Holds, size_putOutputs _ held]
    rfl
  refine ⟨⟨(holds_iff ref).mpr held, outputs_putOutputs_self _ ref⟩,
    fun _ => unnamed, ?_⟩
  intro other different
  exact ⟨holds_iff other, outputs_putOutputs_of_ne outputsHeld _ different⟩

end Recording

end TorchArchive
