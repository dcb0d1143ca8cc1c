import TorchArchive.Heap.Scope
import TorchArchive.Proofs.Growth

/-!
# Where names are bound

Names are bound in three kinds of places: in tables, in dictionaries, and in the fields of
modules.  What a value shows under a name is read in a few of them, and setting a member is a
write to one.  A name that is written in one place is read anew there, and nowhere else.
-/

namespace TorchArchive

/-! ## Entries under strings -/

theorem Entries.getName?_putName (entries : Entries) (name other : String) (value : Value) :
    (entries.putName name value).getName? other =
      if name = other then some value else entries.getName? other := by
  rw [getName?, putName, put, Table.get?_insert]
  by_cases same : name = other
  · simp [same]
  · have distinct : Value.nameKey name ≠ Value.nameKey other := by
      intro keys
      exact same (by simpa [Value.nameKey] using keys)
    simp [same, distinct, getName?]

namespace Heap

/-- A place for bindings. -/
inductive Cell where
  | table (ref : Ref .table)
  | dict (ref : Ref .dict)
  | fields (ref : Ref .module)
  deriving DecidableEq

/-- What a name is bound to in a cell. -/
def read (heap : Heap) (cell : Cell) (name : String) : Option Value :=
  match cell with
  | .table ref => (heap.table ref).get? name
  | .dict ref => (heap.dict ref).entries.getName? name
  | .fields ref => (heap.module ref).fields.getName? name

/-- Binds a name in a cell. -/
def write (heap : Heap) (cell : Cell) (name : String) (value : Value) : Heap :=
  match cell with
  | .table ref => heap.bind ref name value
  | .dict ref =>
      heap.setDict ref
        { heap.dict ref with entries := (heap.dict ref).entries.putName name value }
  | .fields ref =>
      heap.updateModule ref fun module =>
        { module with fields := module.fields.putName name value }

/-- Whether a cell is in the heap. -/
def HoldsCell (heap : Heap) : Cell → Prop
  | .table ref => heap.tables.Holds ref
  | .dict ref => heap.dicts.Holds ref
  | .fields ref => heap.modules.Holds ref

/-- The cell that members of a value are set in. -/
def cell? (heap : Heap) : Value → Option Cell
  | .package ref => some (.table (heap.package ref).members)
  | .module ref => some (.fields ref)
  | .moduleClass ref => some (.table (heap.moduleClass ref).members)
  | .dict ref => some (.dict ref)
  | _ => none

/-- The cells that members of a value are read in, one after the other.  A module shows what
its class has, too. -/
def cells (heap : Heap) : Value → List Cell
  | .module ref => [.fields ref, .table (heap.classOf ref).members]
  | value => (heap.cell? value).toList

/-- Whether the cells of a value are in the heap, and the value itself is. -/
def HoldsValue (heap : Heap) (value : Value) : Prop :=
  (∀ ref, value = .package ref → heap.packages.Holds ref) ∧
    ∀ cell ∈ heap.cells value, heap.HoldsCell cell

variable {heap before after : Heap}

theorem setMember_eq (heap : Heap) (target : Value) (name : String) (value : Value) :
    heap.setMember target name value =
      match heap.cell? target with
      | some cell => .ok (heap.write cell name value)
      | none => .error (.fixedMember name (heap.describe target)) := by
  cases target <;> rfl

theorem mem_cells_of_cell? {target : Value} {cell : Cell}
    (found : heap.cell? target = some cell) : ∃ others, heap.cells target = cell :: others := by
  cases target with
  | module ref =>
      cases found
      exact ⟨_, rfl⟩
  | package _ | moduleClass _ | dict _ =>
      cases found
      exact ⟨[], rfl⟩
  | _ => cases found

/-- A container shows what its cells have. -/
theorem member?_of_cell? {target : Value} {cell : Cell} (found : heap.cell? target = some cell)
    (name : String) :
    heap.member? target name = (heap.cells target).findSome? (heap.read · name) := by
  cases target with
  | module ref =>
      simp only [member?, cells, read, List.findSome?_cons, List.findSome?_nil]
      split
      · simp [*]
      · cases (heap.table (heap.classOf ref).members).get? name <;> simp [*]
  | package _ | moduleClass _ | dict _ =>
      simp [member?, cells, cell?, read]
  | _ => cases found

/-! ## Writing -/

theorem read_write (heap : Heap) (cell other : Cell) (name key : String) (value : Value) :
    (heap.write cell name value).read other key =
      if cell = other ∧ name = key then some value else heap.read other key := by
  cases cell with
  | table ref =>
      cases other with
      | table _ =>
          simp only [write, read, bind, table, Store.get_update, Cell.table.injEq]
          split <;> simp_all
      | _ => simp [write, read, bind, dict, module]
  | dict ref =>
      cases other with
      | dict _ =>
          simp only [write, read, setDict, dict, Store.get_set, Cell.dict.injEq]
          split <;> simp_all [Entries.getName?_putName]
      | _ => simp [write, read, setDict, table, module]
  | fields ref =>
      cases other with
      | fields _ =>
          simp only [write, read, updateModule, module, Store.get_update, Cell.fields.injEq]
          split <;> simp_all [Entries.getName?_putName]
      | _ => simp [write, read, updateModule, table, dict]

theorem holdsCell_write (cell : Cell) (name : String) (value : Value) {other : Cell}
    (held : heap.HoldsCell other) : (heap.write cell name value).HoldsCell other := by
  cases cell <;> cases other <;> first | exact held | exact Store.holds_set held _ _

/-! ## Heaps that read alike -/

theorem findSome?_congr {cells : List Cell} {left right : Cell → Option Value}
    (same : ∀ cell ∈ cells, left cell = right cell) :
    cells.findSome? left = cells.findSome? right := by
  induction cells with
  | nil => rfl
  | cons first rest inductionHypothesis =>
      obtain ⟨sameFirst, sameRest⟩ := List.forall_mem_cons.mp same
      rw [List.findSome?_cons, List.findSome?_cons, sameFirst, inductionHypothesis sameRest]

/-- The heaps have the same objects that hold no bindings. -/
structure SharesData (before after : Heap) : Prop where
  lists : after.lists = before.lists
  tensors : after.tensors = before.tensors
  storages : after.storages = before.storages
  functions : after.functions = before.functions

/-- What a value without cells shows does not depend on bindings. -/
theorem SharesData.member? (data : before.SharesData after) {target : Value}
    (plain : before.cell? target = none) (name : String) :
    after.member? target name = before.member? target name := by
  obtain ⟨lists, tensors, storages, functions⟩ := data
  cases before
  cases after
  simp only at lists tensors storages functions
  subst lists tensors storages functions
  cases target <;> first | rfl | cases plain

/-- One heap comes out of another one by writes and by new objects; apart from what was
touched, all cells read as before. -/
structure Alters (touched : Cell → String → Prop) (before after : Heap) : Prop where
  data : before.SharesData after
  holds : ∀ cell, before.HoldsCell cell → after.HoldsCell cell
  packages :
    ∀ ref, before.packages.Holds ref →
      after.packages.Holds ref ∧ (after.package ref).members = (before.package ref).members
  classes : after.moduleClasses = before.moduleClasses
  moduleClass : ∀ ref, (after.module ref).moduleClass = (before.module ref).moduleClass
  reads :
    ∀ cell name, before.HoldsCell cell → ¬ touched cell name →
      after.read cell name = before.read cell name

namespace Alters

variable {touched others : Cell → String → Prop} {between : Heap}

theorem trans (first : Alters touched before between) (second : Alters others between after) :
    Alters (fun cell name => touched cell name ∨ others cell name) before after where
  data :=
    ⟨second.data.lists.trans first.data.lists, second.data.tensors.trans first.data.tensors,
      second.data.storages.trans first.data.storages,
      second.data.functions.trans first.data.functions⟩
  holds := fun cell held => second.holds cell (first.holds cell held)
  packages := fun ref held =>
    have early := first.packages ref held
    have late := second.packages ref early.1
    ⟨late.1, late.2.trans early.2⟩
  classes := second.classes.trans first.classes
  moduleClass := fun ref => (second.moduleClass ref).trans (first.moduleClass ref)
  reads := by
    intro cell name held untouched
    have early := first.reads cell name held fun touches => untouched (.inl touches)
    have late := second.reads cell name (first.holds cell held)
      fun touches => untouched (.inr touches)
    exact late.trans early

/-- What is touched in cells that were not there does not count. -/
theorem mono (alters : Alters touched before after)
    (fewer : ∀ cell name, before.HoldsCell cell → touched cell name → others cell name) :
    Alters others before after where
  data := alters.data
  holds := alters.holds
  packages := alters.packages
  classes := alters.classes
  moduleClass := alters.moduleClass
  reads := fun cell name held untouched =>
    alters.reads cell name held fun touches => untouched (fewer cell name held touches)

theorem cell? (alters : Alters touched before after) {target : Value}
    (held : before.HoldsValue target) : after.cell? target = before.cell? target := by
  cases target with
  | package ref => simp only [Heap.cell?, (alters.packages ref (held.1 ref rfl)).2]
  | moduleClass ref => simp only [Heap.cell?, Heap.moduleClass, alters.classes]
  | _ => rfl

theorem cells (alters : Alters touched before after) {target : Value}
    (held : before.HoldsValue target) : after.cells target = before.cells target := by
  have cell := alters.cell? held
  cases target with
  | module ref =>
      have sameClass := alters.moduleClass ref
      simp only [Heap.cells, classOf, Heap.moduleClass, alters.classes, sameClass]
  | _ => simp only [Heap.cells, cell]

/-- A value shows what it did, if nothing was touched under the name. -/
theorem findMember (alters : Alters touched before after) {target : Value}
    (held : before.HoldsValue target) (name : String)
    (untouched : ∀ cell ∈ before.cells target, ¬ touched cell name) :
    after.findMember target name = before.findMember target name := by
  rw [Heap.findMember, Heap.findMember]
  congr 1
  cases found : before.cell? target with
  | none => exact alters.data.member? found name
  | some cell =>
      have foundAfter := (alters.cell? held).trans found
      rw [member?_of_cell? found, member?_of_cell? foundAfter, alters.cells held]
      apply findSome?_congr
      intro cell inside
      exact alters.reads cell name (held.2 cell inside) (untouched cell inside)

end Alters

theorem alters_write (heap : Heap) (cell : Cell) (name : String) (value : Value) :
    Alters (fun other key => other = cell ∧ key = name) heap (heap.write cell name value) where
  data := by cases cell <;> exact ⟨rfl, rfl, rfl, rfl⟩
  holds := fun _ held => holdsCell_write cell name value held
  packages := fun ref held => by cases cell <;> exact ⟨held, rfl⟩
  classes := by cases cell <;> rfl
  moduleClass := by
    intro ref
    cases cell with
    | fields _ =>
        simp only [write, module_updateModule]
        split <;> simp_all
    | _ => rfl
  reads := by
    intro other key _ untouched
    rw [read_write, if_neg]
    rintro ⟨same, sameName⟩
    exact untouched ⟨same.symm, sameName.symm⟩

theorem alters_addPackage (heap : Heap) (name : String) :
    Alters (fun _ _ => False) heap (heap.addPackage name).2 where
  data := ⟨rfl, rfl, rfl, rfl⟩
  holds := by
    intro cell held
    cases cell with
    | table _ => exact Store.holds_add held .empty
    | _ => exact held
  packages := fun ref held =>
    ⟨Store.holds_add held _,
      congrArg Package.members (Store.get_add_of_holds heap.packages _ held)⟩
  classes := rfl
  moduleClass := fun _ => rfl
  reads := by
    intro cell key held _
    cases cell with
    | table _ =>
        exact congrArg (·.get? key) (Store.get_add_of_holds heap.tables _ held)
    | _ => rfl

/-! ## New packages -/

theorem members_addPackage (heap : Heap) (name : String) :
    ((heap.addPackage name).2.package (heap.addPackage name).1).members = heap.tables.next :=
  congrArg Package.members (Store.get_add_next heap.packages _)

theorem read_addPackage (heap : Heap) (name key : String) :
    (heap.addPackage name).2.read (.table heap.tables.next) key = none :=
  congrArg (·.get? key) (Store.get_add_next heap.tables .empty)

end Heap

end TorchArchive
