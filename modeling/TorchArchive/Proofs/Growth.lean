import TorchArchive.Heap.Basic

/-!
# Heaps that grow

Code that adds objects to a heap leaves those that are there as they are.
-/

namespace TorchArchive

namespace Store

variable {kind : Kind} {α : Type}

theorem holds_add {store : Store kind α} {ref : Ref kind} (held : store.Holds ref)
    (object : α) : (store.add object).Holds ref := by
  rw [Holds, size_add]
  exact Nat.lt_succ_of_lt held

theorem holds_next (store : Store kind α) (object : α) : (store.add object).Holds store.next := by
  rw [Holds, size_add]
  exact Nat.lt_succ_self _

/-- What is held with one more object is the new one or was held before. -/
theorem holds_add_cases {store : Store kind α} {object : α} {ref : Ref kind}
    (held : (store.add object).Holds ref) : ref = store.next ∨ store.Holds ref := by
  rw [Holds, size_add] at held
  rcases Nat.lt_succ_iff_lt_or_eq.mp held with before | same
  · exact Or.inr before
  · left
    cases ref
    cases same
    rfl

theorem next_not_holds (store : Store kind α) : ¬ store.Holds store.next := Nat.lt_irrefl _

variable [Inhabited α]

theorem holds_set {store : Store kind α} {ref : Ref kind} (held : store.Holds ref)
    (changed : Ref kind) (object : α) : (store.set changed object).Holds ref := by
  rw [Holds, size_set]
  exact Nat.lt_of_lt_of_le held (Nat.le_max_left _ _)

/-- Nothing changes where an object is replaced by itself. -/
theorem set_get {store : Store kind α} {ref : Ref kind} (held : store.Holds ref) :
    store.set ref (store.get ref) = store := by
  have inside : ref.index < store.cells.size := held
  have padded : store.cells.rightpad (ref.index + 1) default = store.cells := by
    rw [Array.rightpad, Nat.sub_eq_zero_of_le inside, Array.replicate_zero, Array.append_empty]
  rw [set, padded, get, Array.getD_eq_getD_getElem?, Array.getElem?_eq_getElem inside,
    Option.getD_some, Array.setIfInBounds, dif_pos inside, Array.set_getElem_self]

/-- The objects of a store stay as they are. -/
def Keeps (before after : Store kind α) : Prop :=
  ∀ ref, before.Holds ref → after.Holds ref ∧ after.get ref = before.get ref

theorem Keeps.refl (store : Store kind α) : store.Keeps store := fun _ held => ⟨held, rfl⟩

theorem Keeps.trans {before between after : Store kind α} (first : before.Keeps between)
    (second : between.Keeps after) : before.Keeps after := fun ref held =>
  have step := first ref held
  ⟨(second ref step.1).1, (second ref step.1).2.trans step.2⟩

theorem keeps_add (store : Store kind α) (object : α) : store.Keeps (store.add object) :=
  fun _ held => ⟨holds_add held object, get_add_of_holds store object held⟩

/-- An object that was not there before may change. -/
theorem Keeps.set {before after : Store kind α} (keeps : before.Keeps after) {ref : Ref kind}
    (new : ¬ before.Holds ref) (object : α) : before.Keeps (after.set ref object) := by
  intro other held
  have distinct : ref ≠ other := by
    rintro rfl
    exact new held
  rw [get_set, if_neg distinct]
  exact ⟨holds_set (keeps other held).1 ref object, (keeps other held).2⟩

end Store

namespace Heap

/-- The objects of a heap stay as they are. -/
structure Keeps (before after : Heap) : Prop where
  lists : before.lists.Keeps after.lists
  dicts : before.dicts.Keeps after.dicts
  tables : before.tables.Keeps after.tables
  tensors : before.tensors.Keeps after.tensors
  storages : before.storages.Keeps after.storages
  modules : before.modules.Keeps after.modules
  moduleClasses : before.moduleClasses.Keeps after.moduleClasses
  packages : before.packages.Keeps after.packages

namespace Keeps

theorem refl (heap : Heap) : heap.Keeps heap where
  lists := .refl _
  dicts := .refl _
  tables := .refl _
  tensors := .refl _
  storages := .refl _
  modules := .refl _
  moduleClasses := .refl _
  packages := .refl _

theorem trans {before between after : Heap} (first : before.Keeps between)
    (second : between.Keeps after) : before.Keeps after where
  lists := first.lists.trans second.lists
  dicts := first.dicts.trans second.dicts
  tables := first.tables.trans second.tables
  tensors := first.tensors.trans second.tensors
  storages := first.storages.trans second.storages
  modules := first.modules.trans second.modules
  moduleClasses := first.moduleClasses.trans second.moduleClasses
  packages := first.packages.trans second.packages

section New

variable {before after : Heap} (keeps : before.Keeps after)

include keeps

theorem setList {ref : Ref .list} (new : ¬ before.lists.Holds ref) (items : List Value) :
    before.Keeps (after.setList ref items) :=
  { keeps with lists := keeps.lists.set new items }

theorem setDict {ref : Ref .dict} (new : ¬ before.dicts.Holds ref) (dict : Dict) :
    before.Keeps (after.setDict ref dict) :=
  { keeps with dicts := keeps.dicts.set new dict }

theorem updateModule {ref : Ref .module} (new : ¬ before.modules.Holds ref)
    (change : Module → Module) : before.Keeps (after.updateModule ref change) :=
  { keeps with modules := keeps.modules.set new _ }

end New

end Keeps

variable (heap : Heap)

theorem keeps_addList (items : List Value) : heap.Keeps (heap.addList items).2 :=
  { Keeps.refl heap with lists := Store.keeps_add _ _ }

theorem keeps_addDict (dict : Dict) : heap.Keeps (heap.addDict dict).2 :=
  { Keeps.refl heap with dicts := Store.keeps_add _ _ }

theorem keeps_addTensor (tensor : Tensor) : heap.Keeps (heap.addTensor tensor).2 :=
  { Keeps.refl heap with tensors := Store.keeps_add _ _ }

theorem keeps_addStorage (storage : Storage) : heap.Keeps (heap.addStorage storage).2 :=
  { Keeps.refl heap with storages := Store.keeps_add _ _ }

theorem keeps_addModule (module : Module) : heap.Keeps (heap.addModule module).2 :=
  { Keeps.refl heap with modules := Store.keeps_add _ _ }

theorem keeps_addModuleClass (module name : String) :
    heap.Keeps (heap.addModuleClass module name).2 :=
  { Keeps.refl heap with
    tables := Store.keeps_add _ _
    moduleClasses := Store.keeps_add _ _ }

end Heap

end TorchArchive
