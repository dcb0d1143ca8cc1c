import TorchArchive.Proofs.Description.Rows
import TorchArchive.Proofs.Graph.Agreement
import TorchArchive.Proofs.Growth
import TorchArchive.Proofs.Package.Definitions

/-!
# The tensors of a description

Each item of the table becomes a tensor of the heap, whose storage has the bytes that the
archive keeps for it.  The view of such a tensor is what its row tells.
-/

namespace TorchArchive.Description

variable {folder : String} {entries : List Entry} {before between after heap : Heap}
  {row : TensorRow} {ref : Ref .tensor} {size : Value} {extents : Option (List Int)}

/-! ## Tensors of the table -/

/-- A size that tells extents, or tells nothing. -/
def IsSize (heap : Heap) (extents : Option (List Int)) (size : Value) : Prop :=
  match extents with
  | none => size = .none
  | some extents =>
      ∃ ref, size = .list ref ∧ heap.lists.Holds ref ∧ heap.list ref = extents.map .int

/-- A tensor that was made of a row. -/
structure IsTensor (folder : String) (entries : List Entry) (heap : Heap) (row : TensorRow)
    (ref : Ref .tensor) : Prop where
  held : heap.tensors.Holds ref
  storage :
    ∃ storage, (heap.tensor ref).storage = .storage storage ∧
      heap.storages.Holds storage ∧
        (heap.storage storage).dataType = row.type.dataType ∧
          (heap.storage storage).data = Entry.data? entries (folder ++ row.key)
  size : IsSize heap row.extents (heap.tensor ref).size
  name : (heap.tensor ref).name = row.key
  offset : (heap.tensor ref).offset = .int row.offset
  outputs :
    heap.lists.Holds (heap.tensor ref).outputs ∧ heap.list (heap.tensor ref).outputs = []

/-- Tensors stay as they are, with their storages and lists. -/
structure KeepsTensors (before after : Heap) : Prop where
  lists : before.lists.Keeps after.lists
  tensors : before.tensors.Keeps after.tensors
  storages : before.storages.Keeps after.storages

/-- All that a heap got are tensors with their storages and lists. -/
structure AddsTensors (before after : Heap) : Prop extends KeepsTensors before after where
  rest :
    after =
      { before with
        lists := after.lists, tensors := after.tensors, storages := after.storages }

namespace AddsTensors

theorem refl (heap : Heap) : AddsTensors heap heap := ⟨⟨.refl _, .refl _, .refl _⟩, rfl⟩

theorem trans (first : AddsTensors before between) (second : AddsTensors between after) :
    AddsTensors before after where
  lists := first.lists.trans second.lists
  tensors := first.tensors.trans second.tensors
  storages := first.storages.trans second.storages
  rest := by
    rw [second.rest, first.rest]

theorem addList (heap : Heap) (items : List Value) :
    AddsTensors heap (heap.addList items).2 :=
  ⟨⟨Store.keeps_add _ _, .refl _, .refl _⟩, rfl⟩

theorem addStorage (heap : Heap) (storage : Storage) :
    AddsTensors heap (heap.addStorage storage).2 :=
  ⟨⟨.refl _, .refl _, Store.keeps_add _ _⟩, rfl⟩

theorem addTensor (heap : Heap) (tensor : Tensor) :
    AddsTensors heap (heap.addTensor tensor).2 :=
  ⟨⟨.refl _, Store.keeps_add _ _, .refl _⟩, rfl⟩

end AddsTensors

theorem IsSize.keeps (isSize : IsSize before extents size)
    (lists : before.lists.Keeps after.lists) : IsSize after extents size := by
  cases extents with
  | none => exact isSize
  | some extents =>
      obtain ⟨ref, isList, held, items⟩ := isSize
      obtain ⟨heldAfter, same⟩ := lists ref held
      exact ⟨ref, isList, heldAfter, same.trans items⟩

theorem IsTensor.keeps (isTensor : IsTensor folder entries before row ref)
    (keeps : KeepsTensors before after) : IsTensor folder entries after row ref := by
  obtain ⟨held, same⟩ := keeps.tensors ref isTensor.held
  have same : after.tensor ref = before.tensor ref := same
  obtain ⟨storage, stored, storageHeld, dataType, data⟩ := isTensor.storage
  obtain ⟨storageHeldAfter, sameStorage⟩ := keeps.storages storage storageHeld
  have sameStorage : after.storage storage = before.storage storage := sameStorage
  obtain ⟨outputsHeld, empty⟩ := isTensor.outputs
  obtain ⟨outputsHeldAfter, sameOutputs⟩ := keeps.lists _ outputsHeld
  exact
    { held
      storage := ⟨storage, same ▸ stored, storageHeldAfter, sameStorage ▸ dataType,
        sameStorage ▸ data⟩
      size := same ▸ isTensor.size.keeps keeps.lists
      name := same ▸ isTensor.name
      offset := same ▸ isTensor.offset
      outputs := by
        rw [same]
        exact ⟨outputsHeldAfter, sameOutputs.trans empty⟩ }

/-! ## What they show -/

theorem IsTensor.isPlain (isTensor : IsTensor folder entries heap row ref) :
    heap.IsPlain ref where
  storage := by
    obtain ⟨storage, stored, _⟩ := isTensor.storage
    exact Or.inr ⟨storage, stored⟩
  offset := ⟨.int row.offset, isTensor.offset⟩
  size := by
    have isSize := isTensor.size
    revert isSize
    cases row.extents with
    | none => exact Or.inl
    | some extents =>
        rintro ⟨list, isList, _, items⟩
        refine Or.inr ⟨extents.map .int, ?_⟩
        rw [isList, Heap.items?, items, List.map_map]
        rfl

/-- The view of a tensor that was made of a row. -/
theorem IsTensor.initializer (isTensor : IsTensor folder entries heap row ref)
    (displayLimit : Datum) :
    heap.initializer ref displayLimit = .ok (row.view folder entries displayLimit) := by
  obtain ⟨storage, stored, _, dataType, data⟩ := isTensor.storage
  have offset :
      (if heap.truthy (.int row.offset) then heap.snapshot (.int row.offset)
        else .int 0) = Datum.int row.offset := by
    split
    · rfl
    · rename_i untrue
      have zero : row.offset = 0 := by
        by_contra nonzero
        exact untrue (bne_iff_ne.mpr nonzero)
      rw [zero]
  have isSize := isTensor.size
  rw [Heap.initializer, stored, isTensor.name, isTensor.offset, offset, TensorRow.view,
    Heap.storageParts, dataType, data]
  revert isSize
  cases row.extents with
  | none =>
      intro isNone
      rw [isNone]
      rfl
  | some extents =>
      rintro ⟨list, isList, _, items⟩
      have dims : (extents.map Value.int).map heap.snapshot = extents.map Datum.int := by
        rw [List.map_map]
        exact List.map_congr_left fun extent _ => heap.snapshot_atom (.int extent)
      have iterates : heap.iterate (.list list) = .ok (extents.map .int) :=
        congrArg Except.ok items
      rw [isList, iterates, Except.map, dims]
      rfl

/-! ## How they are made -/

/-- The extents of a row become a list, or there is none.  What comes behind stands in both
branches of the steps. -/
theorem exists_size (extents : Option (List Int)) (machine : Machine) :
    ∃ size sized,
      (∀ next : Value → Run (Ref .tensor),
        (extents = none →
          (pure Value.none >>= next) machine = next size (machine.withHeap sized)) ∧
        ∀ listed, extents = some listed →
          (Run.newList (listed.map .int) >>= next) machine =
            next size (machine.withHeap sized)) ∧
      AddsTensors machine.heap sized ∧ IsSize sized extents size := by
  cases extents with
  | none =>
      exact ⟨.none, machine.heap, fun _ => ⟨fun _ => rfl, fun _ never => by cases never⟩,
        .refl _, rfl⟩
  | some extents =>
      refine ⟨.list machine.heap.lists.next, _, fun next => ?_, .addList _ _, _, rfl,
        Store.holds_next _ _, Store.get_add_next _ _⟩
      constructor
      · intro never
        cases never
      · rintro _ ⟨⟩
        rfl

/-- An item of the table becomes a tensor. -/
theorem makeTensor_eq {definition : Datum} (reads : readTensor definition = .ok row)
    (machine : Machine) :
    ∃ ref after,
      makeTensor folder entries definition machine = .ok ref (machine.withHeap after) ∧
        AddsTensors machine.heap after ∧ IsTensor folder entries after row ref := by
  obtain ⟨dataType, readsType, reads⟩ := Except.bind_eq_ok_iff.mp reads
  obtain ⟨type, isType, reads⟩ := Except.bind_eq_ok_iff.mp reads
  obtain ⟨extents, readsExtents, reads⟩ := Except.bind_eq_ok_iff.mp reads
  obtain ⟨key, readsKey, reads⟩ := Except.bind_eq_ok_iff.mp reads
  obtain ⟨offset, readsOffset, reads⟩ := Except.bind_eq_ok_iff.mp reads
  obtain ⟨n, isOffset, same⟩ := Except.bind_eq_ok_iff.mp reads
  cases same
  obtain ⟨size, sized, makesSize, addsSize, isSize⟩ := exists_size extents machine
  let storage : Storage :=
    { type.make size with key := some key, data := Entry.data? entries (folder ++ key) }
  let stored := (sized.addStorage storage).2
  let listed := (stored.addList []).2
  let tensor : Tensor :=
    { Tensor.blank stored.lists.next with
      storage := .storage sized.storages.next
      size
      name := key
      offset := .int n }
  have makes :
      makeTensor folder entries definition machine =
        .ok listed.tensors.next (machine.withHeap (listed.addTensor tensor).2) := by
    refine EStateM.bind_eq_ok_iff.mpr ⟨type, machine, EStateM.ofExcept_eq_ok_iff.mpr
      ⟨Except.bind_eq_ok_iff.mpr ⟨dataType, readsType, isType⟩, rfl⟩, ?_⟩
    refine EStateM.bind_eq_ok_iff.mpr
      ⟨extents, machine, EStateM.ofExcept_eq_ok_iff.mpr ⟨readsExtents, rfl⟩, ?_⟩
    refine EStateM.bind_eq_ok_iff.mpr
      ⟨key, machine, EStateM.ofExcept_eq_ok_iff.mpr ⟨readsKey, rfl⟩, ?_⟩
    refine EStateM.bind_eq_ok_iff.mpr ⟨n, machine, EStateM.ofExcept_eq_ok_iff.mpr
      ⟨Except.bind_eq_ok_iff.mpr ⟨offset, readsOffset, isOffset⟩, rfl⟩, ?_⟩
    cases extents with
    | none => exact (makesSize _).1 rfl
    | some listed => exact (makesSize _).2 listed rfl
  have adds : AddsTensors sized (listed.addTensor tensor).2 :=
    ((AddsTensors.addStorage sized storage).trans (.addList stored [])).trans
      (.addTensor listed tensor)
  have isMade : (listed.addTensor tensor).2.tensor listed.tensors.next = tensor :=
    Store.get_add_next _ _
  have isStored : (listed.addTensor tensor).2.storage sized.storages.next = storage :=
    Store.get_add_next _ _
  refine ⟨_, _, makes, addsSize.trans adds, ?_⟩
  exact
    { held := Store.holds_next _ _
      storage := ⟨sized.storages.next, by rw [isMade], Store.holds_next _ _,
        by rw [isStored]; rfl, by rw [isStored]⟩
      size := by
        rw [isMade]
        exact isSize.keeps adds.lists
      name := by rw [isMade]
      offset := by rw [isMade]
      outputs := by
        rw [isMade]
        exact ⟨Store.holds_next _ _, Store.get_add_next _ _⟩ }

/-- The table becomes tensors, item by item. -/
theorem makeTensors_eq (folder : String) (entries : List Entry)
    {definitions : List Datum} {table : List TensorRow}
    (reads : definitions.mapM readTensor = .ok table) (machine : Machine) :
    ∃ refs after,
      definitions.mapM (makeTensor folder entries) machine =
          .ok refs (machine.withHeap after) ∧
        AddsTensors machine.heap after ∧
          List.Forall₂ (IsTensor folder entries after) table refs := by
  have each := Except.mapM_eq_ok_iff.mp reads
  clear reads
  induction each generalizing machine with
  | nil => exact ⟨[], machine.heap, rfl, .refl _, .nil⟩
  | cons readsFirst _ inductionHypothesis =>
      obtain ⟨ref, between, makes, addsFirst, isTensor⟩ := makeTensor_eq readsFirst machine
      obtain ⟨refs, after, makesRest, addsRest, areTensors⟩ :=
        inductionHypothesis (machine.withHeap between)
      refine ⟨ref :: refs, after, ?_, addsFirst.trans addsRest,
        .cons (isTensor.keeps addsRest.toKeepsTensors) areTensors⟩
      rw [List.mapM_cons]
      refine EStateM.bind_eq_ok_iff.mpr ⟨ref, _, makes, ?_⟩
      exact EStateM.bind_eq_ok_iff.mpr ⟨refs, _, makesRest, rfl⟩

end TorchArchive.Description
