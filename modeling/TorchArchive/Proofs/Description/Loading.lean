import TorchArchive.Proofs.Description.Nodes

/-!
# Loading descriptions

A description is loaded in two stages: the table of tensors first, then the modules from a
queue that begins with the main module.  The heap that is left carries what the document
tells, and nothing else is in fields of modules.  A tensor outside of the table stops the
load.
-/

namespace TorchArchive

namespace Description

/-! ## Documents -/

/-- What a document tells. -/
structure Outline where
  header : Header
  table : List TensorRow
  root : ModuleRow

/-- A document tells an outline. -/
structure Outlines (document : Datum) (outline : Outline) : Prop where
  modules :
    ∃ producer main, producerOf document = .ok producer ∧
      entryOr document "mainModule" (.fields []) = .ok main ∧
        headerOf producer main = .ok outline.header ∧ Tells main outline.root
  tensors :
    ∃ definitions,
      entry document "tensors" (.list []) >>= Catalogue.itemsOf = .ok definitions ∧
        definitions.mapM readTensor = .ok outline.table

namespace Outline

/-- All parameters are tensors of the table. -/
def InRange (outline : Outline) : Prop := outline.root.InRange outline.table.length

/-- The views of the tensors. -/
def views (folder : String) (entries : List Entry) (displayLimit : Datum)
    (outline : Outline) : List Initializer :=
  outline.table.map (TensorRow.view folder entries displayLimit)

end Outline

variable {folder : String} {entries : List Entry} {document : Datum} {outline : Outline}
  {machine : Machine}

/-- The main module is no larger than the document. -/
theorem size_main_le {main : Datum}
    (finds : entryOr document "mainModule" (.fields []) = .ok main) :
    main.size ≤ document.size := by
  obtain ⟨found, looks, same⟩ := Except.bind_eq_ok_iff.mp finds
  cases same
  split
  · rename_i truthy
    rcases entry_eq_ok looks with rfl | smaller
    · cases truthy
    · exact Nat.le_of_lt smaller
  · exact document.size_pos

/-! ## Loading -/

/-- A heap that holds the modules and the tensors of an outline, and else what it held
before. -/
structure Carries (folder : String) (entries : List Entry) (before : Heap) (outline : Outline)
    (heap : Heap) (root : Ref .module) (tensors : List (Ref .tensor)) : Prop where
  areTensors : List.Forall₂ (IsTensor folder entries heap) outline.table tensors
  stands : Stands heap tensors outline.root root
  tidy : Tidy heap root
  moduleClass : (heap.module root).moduleClass = Heap.baseClass
  tables : heap.tables = before.tables
  moduleClasses : heap.moduleClasses = before.moduleClasses

/-- A load on which the queue is about to be filled. -/
structure Begun (folder : String) (entries : List Entry) (document : Datum)
    (before : Machine) (outline : Outline) (tensors : List (Ref .tensor)) (job : Job)
    (begun : Machine) : Prop where
  areTensors : List.Forall₂ (IsTensor folder entries begun.heap) outline.table tensors
  queue : Ready begun.heap [job]
  isRow : job.row = outline.root
  enough : ([job].map (·.row.count)).sum ≤ document.size
  tidy : Tidy begun.heap job.owner
  moduleClass : (begun.heap.module job.owner).moduleClass = Heap.baseClass
  tables : begun.heap.tables = before.heap.tables
  moduleClasses : begun.heap.moduleClasses = before.heap.moduleClasses
  remaining :
    load folder entries document before =
      (do
        fillModules tensors document.size [job.entry]
        return (outline.header, job.owner) : Run (Header × Ref .module)) begun

/-- A load comes to the queue. -/
theorem exists_begun (folder : String) (entries : List Entry)
    (outlines : Outlines document outline) (lawful : outline.root.Lawful)
    (bare : ∀ ref, (machine.heap.module ref).fields = .empty) :
    ∃ tensors job begun,
      Begun folder entries document machine outline tensors job begun := by
  obtain ⟨producer, main, isProducer, isMain, isHeader, tells⟩ := outlines.modules
  obtain ⟨definitions, lists, reads⟩ := outlines.tensors
  obtain ⟨tensors, made, makes, adds, areTensors⟩ :=
    makeTensors_eq folder entries reads machine
  let root := made.modules.next
  let begun : Machine :=
    { (machine.withHeap (made.addModule (.fresh Heap.baseClass)).2) with
      constants := some (tensors.map .tensor) }
  have isFresh : begun.heap.module root = .fresh Heap.baseClass := Store.get_add_next _ _
  have held : begun.heap.modules.Holds root := Store.holds_next _ _
  have bareHere (ref : Ref .module) : (begun.heap.module ref).fields = .empty := by
    refine (fields_addModule made ref).trans ?_
    have same : made.modules = machine.heap.modules := by rw [adds.rest]
    rw [Heap.module, same]
    exact bare ref
  have noField {holder : Ref .module} {name value : Value} :
      ¬ begun.heap.HasField holder name value := by
    intro field
    rw [Heap.HasField, bareHere] at field
    cases field
  refine ⟨tensors, ⟨"", root, main, outline.root⟩, begun, ?_⟩
  constructor
  case areTensors =>
    exact areTensors.imp fun row ref isTensor => isTensor.keeps ⟨.refl _, .refl _, .refl _⟩
  case queue =>
    exact
      { distinct := List.nodup_singleton _
        blank := List.forall_mem_singleton.mpr ⟨held, bareHere root⟩
        told := List.forall_mem_singleton.mpr tells
        lawful := List.forall_mem_singleton.mpr lawful }
  case isRow => rfl
  case enough =>
    rw [List.map_singleton, List.sum_singleton]
    exact tells.count_le.trans (size_main_le isMain)
  case tidy =>
    exact ⟨held, fun field => absurd field noField, fun field => absurd field noField⟩
  case moduleClass => exact congrArg Module.moduleClass isFresh
  case tables =>
    change made.tables = _
    rw [adds.rest]
  case moduleClasses =>
    change made.moduleClasses = _
    rw [adds.rest]
  case remaining =>
    refine (EStateM.bind_of_ok (EStateM.ofExcept_eq_ok_iff.mpr ⟨isProducer, rfl⟩)).trans ?_
    refine (EStateM.bind_of_ok (EStateM.ofExcept_eq_ok_iff.mpr ⟨isMain, rfl⟩)).trans ?_
    refine (EStateM.bind_of_ok (EStateM.ofExcept_eq_ok_iff.mpr ⟨isHeader, rfl⟩)).trans ?_
    refine (EStateM.bind_of_ok (EStateM.ofExcept_eq_ok_iff.mpr ⟨lists, rfl⟩)).trans ?_
    exact EStateM.bind_of_ok makes

/-- A description with all its tensors in the table is loaded. -/
theorem load_eq (folder : String) (entries : List Entry)
    (outlines : Outlines document outline) (lawful : outline.root.Lawful)
    (bare : ∀ ref, (machine.heap.module ref).fields = .empty) (inRange : outline.InRange) :
    ∃ root tensors after,
      load folder entries document machine = .ok (outline.header, root) after ∧
        Carries folder entries machine.heap outline after.heap root tensors := by
  obtain ⟨tensors, job, begun, isBegun⟩ := exists_begun folder entries outlines lawful bare
  have inRangeJob : ∀ other ∈ [job], other.row.InRange tensors.length := by
    rw [List.forall_mem_singleton, isBegun.isRow, ← isBegun.areTensors.length_eq]
    exact inRange
  obtain ⟨after, fills, filled⟩ :=
    fillModules_eq document.size isBegun.queue isBegun.enough inRangeJob
  refine ⟨job.owner, tensors, begun.withHeap after, ?_, ?_⟩
  · rw [isBegun.remaining]
    exact EStateM.bind_eq_ok_iff.mpr ⟨(), _, fills, rfl⟩
  · constructor
    case areTensors =>
      refine isBegun.areTensors.imp fun row ref isTensor => isTensor.keeps ?_
      rw [Machine.heap_withHeap, filled.rest]
      exact ⟨.refl _, .refl _, .refl _⟩
    case stands => exact isBegun.isRow ▸ filled.stand job List.mem_cons_self
    case tidy => exact filled.tidy job.owner isBegun.tidy
    case moduleClass =>
      exact (filled.held job.owner isBegun.tidy.rooted).2.trans isBegun.moduleClass
    case tables =>
      rw [Machine.heap_withHeap, filled.rest]
      exact isBegun.tables
    case moduleClasses =>
      rw [Machine.heap_withHeap, filled.rest]
      exact isBegun.moduleClasses

/-- A description with a tensor outside of the table is refused. -/
theorem load_fails (folder : String) (entries : List Entry)
    (outlines : Outlines document outline) (lawful : outline.root.Lawful)
    (bare : ∀ ref, (machine.heap.module ref).fields = .empty)
    (outside : ¬ outline.InRange) :
    ∃ fault after,
      load folder entries document machine = .error fault after ∧ fault.kind = .format := by
  obtain ⟨tensors, job, begun, isBegun⟩ := exists_begun folder entries outlines lawful bare
  have outsideJob : ∃ other ∈ [job], ¬ other.row.InRange tensors.length := by
    refine ⟨job, List.mem_cons_self, ?_⟩
    rw [isBegun.isRow, ← isBegun.areTensors.length_eq]
    exact outside
  obtain ⟨fault, after, fails, isFormat⟩ :=
    fillModules_fails document.size isBegun.queue isBegun.enough outsideJob
  refine ⟨fault, after, ?_, isFormat⟩
  rw [isBegun.remaining]
  exact EStateM.bind_eq_error_iff.mpr (Or.inl fails)

end Description

end TorchArchive
