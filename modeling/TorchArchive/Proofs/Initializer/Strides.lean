import TorchArchive.Proofs.Initializer.RowMajor
import TorchArchive.Proofs.Pickle.Objects

/-!
# Strides do not move elements

A rebuilt tensor keeps the stride that it was given, but its view is read row by row from
the offset on.  What is read at an index is what the stride says exactly where the stride
is the one of rows that are stored one behind the other.
-/

namespace TorchArchive

/-! ## Places that strides say -/

/-- The place of an index where a step along each dimension is as long as its stride. -/
def stridedPlace : List Nat → List Nat → Nat
  | stride :: strides, index :: rest => index * stride + stridedPlace strides rest
  | _, _ => 0

/-- Whether the strides are those of rows that are stored one behind the other.  The stride
of a dimension with one entry is never used. -/
def IsContiguous : List Nat → List Nat → Prop
  | extent :: inner, stride :: strides =>
      (1 < extent → stride = inner.prod) ∧ IsContiguous inner strides
  | _, _ => True

theorem isIndexOf_zeros {extents : List Nat} (inhabited : 0 ∉ extents) :
    IsIndexOf (extents.map fun _ => 0) extents := by
  induction extents with
  | nil => exact .nil
  | cons extent inner inductionHypothesis =>
      have positive := Nat.pos_of_ne_zero (List.ne_of_not_mem_cons inhabited).symm
      exact .cons positive (inductionHypothesis (List.not_mem_of_not_mem_cons inhabited))

theorem rowMajorPlace_zeros (extents : List Nat) :
    rowMajorPlace extents (extents.map fun _ => 0) = 0 := by
  induction extents with
  | nil => rfl
  | cons extent inner inductionHypothesis =>
      rw [List.map_cons, rowMajorPlace, inductionHypothesis, Nat.zero_mul]

theorem stridedPlace_zeros (strides extents : List Nat) :
    stridedPlace strides (extents.map fun _ => 0) = 0 := by
  induction extents generalizing strides with
  | nil => cases strides <;> rfl
  | cons extent inner inductionHypothesis =>
      cases strides with
      | nil => rfl
      | cons stride strides =>
          rw [List.map_cons, stridedPlace, inductionHypothesis, Nat.zero_mul]

theorem IsContiguous.stridedPlace_eq {extents strides index : List Nat}
    (contiguous : IsContiguous extents strides) (length : strides.length = extents.length)
    (inside : IsIndexOf index extents) :
    stridedPlace strides index = rowMajorPlace extents index := by
  induction inside generalizing strides with
  | nil => cases strides <;> rfl
  | @cons place extent rest inner below _ inductionHypothesis =>
      cases strides with
      | nil => cases length
      | cons stride strides =>
          obtain ⟨outer, innerContiguous⟩ := contiguous
          rw [stridedPlace, rowMajorPlace,
            inductionHypothesis innerContiguous (Nat.succ.inj length)]
          congr 1
          by_cases several : 1 < extent
          · rw [outer several]
          · have first : place = 0 := by omega
            rw [first, Nat.zero_mul, Nat.zero_mul]

/-- The index of a single step along the first dimension tells its stride, and the indices
behind no step tell the strides of the others. -/
theorem isContiguous_of_stridedPlace_eq {extents strides : List Nat} (inhabited : 0 ∉ extents)
    (length : strides.length = extents.length)
    (agree : ∀ index, IsIndexOf index extents →
      stridedPlace strides index = rowMajorPlace extents index) :
    IsContiguous extents strides := by
  induction extents generalizing strides with
  | nil => cases strides <;> trivial
  | cons extent inner inductionHypothesis =>
      cases strides with
      | nil => trivial
      | cons stride strides =>
          have positive := Nat.pos_of_ne_zero (List.ne_of_not_mem_cons inhabited).symm
          have innerInhabited := List.not_mem_of_not_mem_cons inhabited
          constructor
          · intro several
            have step := agree _ (.cons several (isIndexOf_zeros innerInhabited))
            rw [stridedPlace, rowMajorPlace, stridedPlace_zeros, rowMajorPlace_zeros] at step
            omega
          · refine inductionHypothesis innerInhabited (Nat.succ.inj length) ?_
            intro index inside
            have behind := agree _ (.cons positive inside)
            rw [stridedPlace, rowMajorPlace] at behind
            omega

theorem stridedPlace_eq_iff {extents strides : List Nat}
    (length : strides.length = extents.length) :
    (∀ index, IsIndexOf index extents →
        stridedPlace strides index = rowMajorPlace extents index) ↔
      0 ∈ extents ∨ IsContiguous extents strides := by
  constructor
  · intro agree
    by_cases inhabited : 0 ∈ extents
    · exact .inl inhabited
    · exact .inr (isContiguous_of_stridedPlace_eq inhabited length agree)
  · rintro (empty | contiguous) index inside
    · have none : extents.prod = 0 := List.prod_eq_zero empty
      have below := rowMajorPlace_lt inside
      omega
    · exact contiguous.stridedPlace_eq length inside

/-! ## Rebuilt tensors -/

namespace Builtin

open Pickle (rebuiltHeap IsRebuilt)

variable {recording : Recording}

/-- What can be gone through is copied into a new list. -/
theorem sequence?_eq {value : Value} {items : List Value}
    (iterates : recording.heap.iterate value = .ok items) :
    sequence? value recording =
      .ok (.list recording.heap.lists.next)
        { recording with heap := (recording.heap.addList items).2 } := by
  have something : value.isNone = false := by
    by_contra nothing
    have none : value = .none := by
      cases value with
      | atom atom => cases atom <;> first | rfl | exact absurd rfl nothing
      | _ => exact absurd rfl nothing
    rw [none] at iterates
    cases iterates
  rw [sequence?, something, if_neg Bool.false_ne_true]
  refine (EStateM.bind_of_ok rfl).trans ?_
  rw [iterates]
  rfl

/-- Whether a value can be gone through does not depend on the heap. -/
theorem exists_iterate {value : Value} {heap : Heap} {items : List Value}
    (iterates : heap.iterate value = .ok items) (other : Heap) :
    ∃ items, other.iterate value = .ok items := by
  cases value with
  | atom atom => cases atom <;> first | exact ⟨_, rfl⟩ | cases iterates
  | list ref => exact ⟨_, rfl⟩
  | dict ref => exact ⟨_, rfl⟩
  | tuple items => exact ⟨_, rfl⟩
  | set frozen items => exact ⟨_, rfl⟩
  | _ => cases iterates

/-- A tensor is rebuilt over its storage, with its offset and a list of its extents. -/
theorem rebuild_eq (storage : Ref .storage) (offset : Int) {size stride : Value}
    {sizes strides : List Value} (requiresGrad quantizer : Value)
    (hasSize : recording.heap.iterate size = .ok sizes)
    (hasStride : recording.heap.iterate stride = .ok strides) :
    ∃ (kept : List Value) (tensor : Tensor),
      rebuild (.storage storage) (.int offset) size stride requiresGrad quantizer recording =
          .ok (.tensor recording.heap.tensors.next)
            { recording with heap := rebuiltHeap recording.heap sizes kept tensor } ∧
        IsRebuilt recording.heap sizes storage offset tensor := by
  obtain ⟨kept, keeps⟩ := exists_iterate hasStride (recording.heap.addList sizes).2
  refine ⟨kept, _, (EStateM.bind_of_ok rfl).trans
    ((EStateM.bind_of_ok (sequence?_eq hasSize)).trans
      ((EStateM.bind_of_ok (sequence?_eq keeps)).trans rfl)), rfl, ?_, rfl, rfl⟩
  exact recording.heap.ite_truthy_int offset Value.int

/-- A rebuilt tensor has a view, of the data of its storage, as long as it and the list of
its extents stay as they are. -/
theorem initializer_of_isRebuilt {before later : Heap} {ref : Ref .tensor}
    {storage : Ref .storage} {offset : Int} {extents : List Nat}
    (rebuilt : IsRebuilt before (extents.map fun extent => .int (extent : Nat)) storage offset
      (later.tensor ref))
    (sizes : later.list before.lists.next = extents.map fun extent => .int (extent : Nat))
    (limit : Datum) :
    later.initializer ref limit =
      .ok {
        name := (later.tensor ref).name
        dataType := some (later.storage storage).dataType
        dims := some (extents.map fun extent => .int (extent : Nat))
        data := (later.storage storage).data
        offset := .int offset
        displayLimit := limit } := by
  have from_ : (if later.truthy (.int offset) then later.snapshot (.int offset) else .int 0) =
      Datum.int offset := later.ite_truthy_int offset fun n => later.snapshot (.int n)
  rw [Heap.initializer, rebuilt.storage, rebuilt.offset, rebuilt.size, from_]
  have dims : (later.iterate (.list before.lists.next)).map
      (fun items => some (items.map later.snapshot)) =
        .ok (some (extents.map fun extent => Datum.int (extent : Nat))) := by
    change Except.ok (some ((later.list before.lists.next).map later.snapshot)) = _
    rw [sizes, List.map_map]
    rfl
  rw [dims]
  rfl

end Builtin

/-! ## What is read -/

namespace Initializer

theorem elementAt?_of_arranged {type : ElementType} {data : ByteArray} {extents index : List Nat}
    {offset : Nat} {datum : Datum}
    (arranged : Cursor.Arranged extents (elementsFrom type data offset extents.prod) datum)
    (inside : (offset + extents.prod) * type.itemSize ≤ data.size)
    (isIndex : IsIndexOf index extents) :
    ∃ atom, datum.elementAt? index = some (.atom atom) ∧
      type.Denotes (type.itemBytes data (offset + rowMajorPlace extents index)) atom := by
  have below := rowMajorPlace_lt isIndex
  have reaches : (offset + rowMajorPlace extents index + 1) * type.itemSize ≤ data.size :=
    (Nat.mul_le_mul_right _ (by omega)).trans inside
  refine ⟨_, ?_, ElementType.elementAt_denotes reaches⟩
  rw [arranged.2 index isIndex, elementsFrom, ElementType.elements, List.getElem?_map,
    List.getElem?_range below, Option.map_some, Option.map_some, Nat.add_mul]

/-- The value of a view that can be read has all its elements, which the data reach to. -/
theorem value_arranged {view : Initializer} {extents : List Nat} {offset : Nat}
    {data : ByteArray} (readable : view.state = .ok none)
    (shape : view.dims = some (extents.map fun extent => .int (extent : Nat)))
    (from_ : view.offset = .int (offset : Nat)) (bytes : view.data = some data)
    (addressable : data.size < 2 ^ 63) :
    ∃ type datum, view.dataType.bind ElementType.ofName? = some type ∧
      view.value = .ok datum ∧ (offset + extents.prod) * type.itemSize ≤ data.size ∧
        Cursor.Arranged extents (elementsFrom type data offset extents.prod) datum := by
  have whole : List.Forall₂ (fun dim extent => Datum.integer? dim = some ((extent : Nat) : Int))
      (extents.map fun extent => .int (extent : Nat)) extents :=
    List.forall₂_map_left_iff.mpr (List.forall₂_same.mpr fun _ _ => rfl)
  have start : view.offset.integer? = some (offset : Int) := by
    rw [from_]
    rfl
  obtain ⟨type, _, _, typed, _, found, inside⟩ :=
    of_state_eq_none readable (fun _ same => Option.some.inj (shape.symm.trans same) ▸ whole) start
  obtain rfl := Option.some.inj (bytes.symm.trans found)
  have positive : 1 ≤ type.itemSize := by cases type <;> decide
  have within : extents.prod ≤ (offset + extents.prod) * type.itemSize :=
    (Nat.le_add_left _ _).trans (Nat.le_mul_of_pos_right _ positive)
  obtain ⟨datum, decodes, arranged⟩ :=
    decode_within typed shape bytes whole start inside addressable
      (show extents.prod ≤ 0x7fffffffffffffff by omega) (by omega)
  rw [← noLimit_eq] at decodes
  exact ⟨type, datum, typed, by rw [value, readable]; exact decodes, inside, arranged⟩

end Initializer

/-! ## Strides of rebuilt tensors -/

namespace Builtin

open Pickle (IsRebuilt rebuiltHeap_tensor rebuiltHeap_size)

theorem call_rebuildTensor {recording : Recording} {positional : List Value}
    {keywords : List (String × Value)}
    {storage offset size stride requiresGrad hooks metadata : Value}
    (assigned :
      rebuildTensor.parameters.bind
          (fun parameters => Parameter.assign parameters positional keywords) =
        some [storage, offset, size, stride, requiresGrad, hooks, metadata]) :
    rebuildTensor.call positional keywords recording =
      rebuild storage offset size stride requiresGrad .none recording := by
  simp only [call, assigned]
  rfl

/-- A tensor that is rebuilt over a storage, whatever its stride is, is read row by row: as
long as it and the list of its extents stay as they are, the element of its view at an index
is the item of the data of its storage that is as far behind the offset as the place of the
index in row-major order.  That is the place that the stride says for all indices exactly if
there are none, or if the stride of each dimension with several entries is the product of
the extents behind it. -/
theorem rebuildTensor_rowMajor {recording : Recording} {positional : List Value}
    {keywords : List (String × Value)} {storage : Ref .storage} {offset : Nat}
    {size stride requiresGrad hooks metadata : Value} {extents strides : List Nat}
    (assigned :
      rebuildTensor.parameters.bind
          (fun parameters => Parameter.assign parameters positional keywords) =
        some [.storage storage, .int (offset : Nat), size, stride, requiresGrad, hooks, metadata])
    (hasSize : recording.heap.iterate size =
      .ok (extents.map fun extent => .int (extent : Nat)))
    (hasStride : recording.heap.iterate stride =
      .ok (strides.map fun stride => .int (stride : Nat)))
    (length : strides.length = extents.length) :
    (∃ tensor after,
      rebuildTensor.call positional keywords recording = .ok (.tensor tensor) after ∧
        ∀ heap data limit, after.heap.Keeps heap → (heap.storage storage).data = some data →
          data.size < 2 ^ 63 →
            ∃ view, heap.initializer tensor limit = .ok view ∧
              (view.state = .ok none →
                ∃ type datum,
                  ElementType.ofName? (heap.storage storage).dataType = some type ∧
                    view.value = .ok datum ∧ datum.HasShape extents ∧
                      ∀ index, IsIndexOf index extents →
                        ∃ atom, datum.elementAt? index = some (.atom atom) ∧
                          type.Denotes
                            (type.itemBytes data (offset + rowMajorPlace extents index))
                            atom)) ∧
      ((∀ index, IsIndexOf index extents →
          offset + stridedPlace strides index = offset + rowMajorPlace extents index) ↔
        0 ∈ extents ∨ IsContiguous extents strides) := by
  refine ⟨?_, by simpa only [Nat.add_left_cancel_iff] using stridedPlace_eq_iff length⟩
  obtain ⟨kept, tensor, rebuilds, isRebuilt⟩ :=
    rebuild_eq storage offset requiresGrad .none hasSize hasStride
  refine ⟨_, _, (call_rebuildTensor assigned).trans rebuilds, ?_⟩
  intro heap data limit keeps bytes addressable
  have isTensor := rebuiltHeap_tensor recording.heap
    (extents.map fun extent => .int (extent : Nat)) kept tensor
  have isSize := rebuiltHeap_size recording.heap
    (extents.map fun extent => .int (extent : Nat)) kept tensor
  have same : heap.tensor recording.heap.tensors.next = tensor :=
    (keeps.tensors _ isTensor.1).2.trans isTensor.2
  rw [← same] at isRebuilt
  refine ⟨_, initializer_of_isRebuilt isRebuilt
    ((keeps.lists _ isSize.1).2.trans isSize.2) limit, fun readable => ?_⟩
  obtain ⟨type, datum, typed, value, inside, arranged⟩ :=
    Initializer.value_arranged readable rfl rfl bytes addressable
  exact ⟨type, datum, typed, value, arranged.1, fun index isIndex =>
    Initializer.elementAt?_of_arranged arranged inside isIndex⟩

end Builtin

/-! ## A transposed matrix -/

namespace Transposed

open Builtin

def data : ByteArray := ⟨#[1, 2, 3, 4]⟩

/-- A heap with a storage of four bytes. -/
def recording : Recording where
  heap := (Heap.initial.addStorage
    ⟨"uint8", 1, .int 4, some data, some "0", "torch", "ByteStorage"⟩).2
  trace := default

/-- A matrix over the storage whose columns are stored one behind the other. -/
def arguments : List Value :=
  [.storage ⟨0⟩, .int 0, .tuple [.int 2, .int 2], .tuple [.int 1, .int 2], .bool false, .none]

def after : Recording := stateAfter (rebuildTensor.call arguments []) recording

theorem call_eq : rebuildTensor.call arguments [] recording = .ok (.tensor ⟨0⟩) after := rfl

def view : Initializer where
  name := ""
  dataType := some "uint8"
  dims := some [.int 2, .int 2]
  data := some data
  offset := .int 0
  displayLimit := .int 10000

theorem initializer_eq : after.heap.initializer ⟨0⟩ (.int defaultDisplayLimit) = .ok view := rfl

theorem readable : view.state = .ok none := rfl

theorem value_eq :
    view.value =
      .ok (.list [.list [.int 1, .int 2], .list [.int 3, .int 4]]) := rfl

/-- All items that the stride addresses are in the data, but in the first row and the second
column stands the second item and not the third one. -/
theorem exists_element_misplaced :
    rebuildTensor.call arguments [] recording = .ok (.tensor ⟨0⟩) after ∧
      after.heap.initializer ⟨0⟩ (.int defaultDisplayLimit) = .ok view ∧
        view.state = .ok none ∧ view.data = some data ∧
          (∀ index, IsIndexOf index [2, 2] → stridedPlace [1, 2] index < data.size) ∧
            ∃ datum, view.value = .ok datum ∧
              ¬ ∀ index, IsIndexOf index [2, 2] →
                ∃ atom, datum.elementAt? index = some (.atom atom) ∧
                  ElementType.uint8.Denotes
                    (ElementType.uint8.itemBytes data (0 + stridedPlace [1, 2] index)) atom := by
  refine ⟨call_eq, initializer_eq, readable, rfl, ?_, _, value_eq, ?_⟩
  · intro index inside
    obtain _ | ⟨first, _ | ⟨second, _ | _⟩⟩ := inside
    have size : data.size = 4 := rfl
    simp only [stridedPlace]
    omega
  · intro strided
    obtain ⟨atom, stands, denotes⟩ := strided [0, 1] (by decide)
    cases stands
    cases denotes

theorem rebuildTensor_rowMajor_transposed :
    view.state = .ok none ∧ data.size < 2 ^ 63 ∧
      ∃ type datum, ElementType.ofName? "uint8" = some type ∧ view.value = .ok datum ∧
        datum.HasShape [2, 2] ∧
          ∀ index, IsIndexOf index [2, 2] →
            ∃ atom, datum.elementAt? index = some (.atom atom) ∧
              type.Denotes (type.itemBytes data (0 + rowMajorPlace [2, 2] index)) atom := by
  have assigned :
      rebuildTensor.parameters.bind (fun parameters => Parameter.assign parameters arguments []) =
        some [.storage ⟨0⟩, .int (0 : Nat), .tuple [.int 2, .int 2], .tuple [.int 1, .int 2],
          .bool false, .none, .none] := rfl
  have hasSize : recording.heap.iterate (.tuple [.int 2, .int 2]) =
      .ok ([2, 2].map fun extent => .int (extent : Nat)) := rfl
  have hasStride : recording.heap.iterate (.tuple [.int 1, .int 2]) =
      .ok ([1, 2].map fun stride => .int (stride : Nat)) := rfl
  have addressable : data.size < 2 ^ 63 := by decide
  obtain ⟨⟨tensor, rebuilt, calls, reads⟩, _⟩ :=
    rebuildTensor_rowMajor assigned hasSize hasStride rfl
  obtain ⟨same, rfl⟩ := EStateM.Result.ok.inj (call_eq.symm.trans calls)
  obtain rfl := Value.tensor.inj same
  obtain ⟨seen, views, valued⟩ :=
    reads after.heap data (.int defaultDisplayLimit) (.refl _) rfl addressable
  obtain rfl := Except.ok.inj (initializer_eq.symm.trans views)
  exact ⟨readable, addressable, valued readable⟩

end Transposed

end TorchArchive
