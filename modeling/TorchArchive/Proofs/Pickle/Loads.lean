import TorchArchive.Evaluation.Nesting
import TorchArchive.Proofs.Pickle.Globals
import TorchArchive.Proofs.Pickle.Objects

/-!
# Trees that load

The codes of a tree push what stands for it: new objects, over one storage for each key.
-/

namespace TorchArchive.Pickle

/-- A module of a class without source, whose names can be written in lines. -/
structure IsOpaque (sources : Sources) (path name : String) (fields : List (String × Item)) :
    Prop where
  archive : isArchiveModule path = true
  noSource :
    sources.program (packageFile path) = .error (.missingSource (packageFile path))
  pathUnbroken : '\n' ∉ path.toList
  named : name ≠ ""
  unbroken : '\n' ∉ name.toList
  dotless : '.' ∉ name.toList
  plain : '\x00' ∉ name.toList
  distinct : (fields.map (·.1)).Nodup

/-- Tensors of one key have storages of one type and one size. -/
def Agree (tensors : List WrittenTensor) : Prop :=
  ∀ first ∈ tensors, ∀ second ∈ tensors, first.key = second.key →
    first.type = second.type ∧ first.count = second.count

/-- What has to hold of a tree for itself: modules are opaque, and tensors are in a list. -/
def Item.Fits (sources : Sources) (tensors : List WrittenTensor) : Item → Prop
  | .scalar _ | .list _ => True
  | .tensor written => written ∈ tensors
  | .module path name fields => IsOpaque sources path name fields

/-! ## States between trees -/

/-- The storage that is known for a key. -/
def State.Knows (state : State) (key : String) (ref : Ref .storage) : Prop :=
  state.storages.get? key = some (.storage ref)

/-- A state of a load without packages, where the builtins are in their places and the
storages that are known are those of tensors. -/
structure Ready (contents : Table String ByteArray) (tensors : List WrittenTensor)
    (root : Ref .table) (state : State) : Prop where
  isRoot : state.machine.root = .outermost root
  unloaded : ∀ name, state.machine.packages.get? name = none
  serves : Serves root state.heap
  known :
    ∀ key value, state.storages.get? key = some value →
      ∃ written ∈ tensors, ∃ ref, written.key = key ∧ value = .storage ref ∧
        IsStorage contents state.heap written ref

/-- A state keeps the objects and the storages of an earlier one. -/
structure State.Advances (before after : State) : Prop where
  keeps : before.heap.Keeps after.heap
  known : ∀ key ref, before.Knows key ref → after.Knows key ref

/-- A part of a load leaves new objects, all of them distinct. -/
structure Leaves (contents : Table String ByteArray) (tensors : List WrittenTensor)
    (root : Ref .table) (before after : State) (objects : List Value) : Prop where
  ready : Ready contents tensors root after
  advances : before.Advances after
  has : ∀ object ∈ objects, Has after.heap object
  new : ∀ object ∈ objects, ¬ Has before.heap object
  distinct : objects.Nodup

section States

variable {contents : Table String ByteArray} {tensors : List WrittenTensor} {root : Ref .table}
  {before between after state : State} {here later : List Value}

theorem State.Advances.refl (state : State) : state.Advances state := ⟨.refl _, fun _ _ => id⟩

theorem State.Advances.trans (first : before.Advances between)
    (second : between.Advances after) : before.Advances after :=
  ⟨first.keeps.trans second.keeps, fun key ref knows =>
    second.known key ref (first.known key ref knows)⟩

theorem State.Advances.backs (advances : before.Advances after) :
    Backs before.Knows after.Knows before.heap after.heap :=
  ⟨advances.keeps.storages, advances.keeps.moduleClasses, advances.known⟩

/-- What changes in a heap, but for its storages and what it has from an earlier one, leaves a
state ready. -/
theorem Ready.change (ready : Ready contents tensors root state) {base heap : Heap}
    (serves : Serves root base) (keeps : base.Keeps heap)
    (storages : state.heap.storages.Keeps heap.storages) :
    Ready contents tensors root (state.withHeap heap) := by
  refine ⟨ready.isRoot, ready.unloaded, serves.keeps keeps, fun key value found => ?_⟩
  obtain ⟨written, member, ref, isKey, isRef, isStorage⟩ := ready.known key value found
  exact ⟨written, member, ref, isKey, isRef, isStorage.keeps storages⟩

theorem Ready.grow (ready : Ready contents tensors root state) {heap : Heap}
    (keeps : state.heap.Keeps heap) : Ready contents tensors root (state.withHeap heap) :=
  ready.change ready.serves keeps keeps.storages

theorem Leaves.refl (ready : Ready contents tensors root state) :
    Leaves contents tensors root state state [] where
  ready := ready
  advances := .refl state
  has := fun _ never => absurd never List.not_mem_nil
  new := fun _ never => absurd never List.not_mem_nil
  distinct := List.nodup_nil

theorem Leaves.trans (first : Leaves contents tensors root before between here)
    (second : Leaves contents tensors root between after later) :
    Leaves contents tensors root before after (here ++ later) where
  ready := second.ready
  advances := first.advances.trans second.advances
  has := List.forall_mem_append.mpr
    ⟨fun object member => (first.has object member).keeps second.advances.keeps, second.has⟩
  new := List.forall_mem_append.mpr
    ⟨first.new, fun object member has =>
      second.new object member (has.keeps first.advances.keeps)⟩
  distinct := List.nodup_append.mpr
    ⟨first.distinct, second.distinct, fun object member other again same =>
      second.new other again (same ▸ first.has object member)⟩

/-- An object that is made before those below it and completed after them. -/
theorem Leaves.complete {made filled : State} {done : Heap} {object : Value} {below : List Value}
    (ready : Ready contents tensors root state) (opens : state.Advances made)
    (new : ¬ Has state.heap object) (hasMade : Has made.heap object)
    (leaves : Leaves contents tensors root made filled below) (hasDone : Has done object)
    (keepsDone : state.heap.Keeps done)
    (storages : filled.heap.storages.Keeps done.storages)
    (stays : ∀ other ∈ below, Stays filled.heap done other) :
    Leaves contents tensors root state (filled.withHeap done) (object :: below) where
  ready := leaves.ready.change ready.serves keepsDone storages
  advances := ⟨keepsDone, (opens.trans leaves.advances).known⟩
  has := List.forall_mem_cons.mpr ⟨hasDone, fun other member => (stays other member).has⟩
  new := List.forall_mem_cons.mpr
    ⟨new, fun other member has => leaves.new other member (has.keeps opens.keeps)⟩
  distinct := List.nodup_cons.mpr
    ⟨fun member => leaves.new object member hasMade, leaves.distinct⟩

/-- What is below an object is not the object. -/
theorem Leaves.ne_of_has {object : Value} {below : List Value}
    (leaves : Leaves contents tensors root before after below) (has : Has before.heap object) :
    ∀ other ∈ below, other ≠ object := by
  rintro other member rfl
  exact leaves.new other member has

end States

/-! ## Trees that load -/

section Loads

variable (sources : Sources) (contents : Table String ByteArray) (tensors : List WrittenTensor)
  (root : Ref .table)

/-- The codes of a tree push what stands for it. -/
def Item.Loads (item : Item) : Prop :=
  ∀ (stack : Stack) (state : State), Ready contents tensors root state →
    ∃ value objects after,
      Runs (Calls.of sources) contents item.codes (stack, state) (stack.push value, after) ∧
        Leaves contents tensors root state after objects ∧
          Represents contents after.Knows after.heap item value objects

/-- The codes of trees push what stands for each of them. -/
def AllLoad (items : List Item) : Prop :=
  ∀ (stack : Stack) (state : State), Ready contents tensors root state →
    ∃ values objects after,
      Runs (Calls.of sources) contents (Item.allCodes items) (stack, state)
          (stack.pushAll values, after) ∧
        Leaves contents tensors root state after objects ∧
          RepresentAll contents after.Knows after.heap items values objects

/-- The codes of fields push the names and what stands for the values. -/
def FieldsLoad (fields : List (String × Item)) : Prop :=
  ∀ (stack : Stack) (state : State), Ready contents tensors root state →
    ∃ values objects after,
      Runs (Calls.of sources) contents (Item.fieldCodes fields) (stack, state)
          (stack.pushAll (inTurn values), after) ∧
        Leaves contents tensors root state after objects ∧
          RepresentFields contents after.Knows after.heap fields values objects

end Loads

section Cases

variable {sources : Sources} {contents : Table String ByteArray} {tensors : List WrittenTensor}
  {root : Ref .table}

theorem scalar_loads (leaf : Scalar) : (Item.scalar leaf).Loads sources contents tensors root :=
  fun _ state ready =>
    ⟨_, [], state, runs_push leaf.instruction_code, .refl ready, rfl, rfl⟩

theorem nil_load : AllLoad sources contents tensors root [] :=
  fun _ state ready => ⟨[], [], state, .nil _, .refl ready, rfl, rfl⟩

theorem cons_load {first : Item} {rest : List Item}
    (loads : first.Loads sources contents tensors root)
    (load : AllLoad sources contents tensors root rest) :
    AllLoad sources contents tensors root (first :: rest) := by
  intro stack state ready
  obtain ⟨value, here, between, runsFirst, leavesFirst, represents⟩ := loads stack state ready
  obtain ⟨values, later, after, runsRest, leavesRest, representRest⟩ :=
    load (stack.push value) between leavesFirst.ready
  refine ⟨value :: values, here ++ later, after, ?_, leavesFirst.trans leavesRest,
    value, values, here, later, rfl, rfl, ?_, representRest⟩
  · rw [Stack.pushAll_cons]
    exact runsFirst.append runsRest
  · exact represents.stays leavesRest.advances.backs fun object member =>
      (leavesFirst.has object member).stays leavesRest.advances.keeps

theorem noFields_load : FieldsLoad sources contents tensors root [] :=
  fun _ state ready => ⟨[], [], state, .nil _, .refl ready, rfl, rfl⟩

theorem field_load {name : String} {item : Item} {rest : List (String × Item)}
    (loads : item.Loads sources contents tensors root)
    (load : FieldsLoad sources contents tensors root rest) :
    FieldsLoad sources contents tensors root ((name, item) :: rest) := by
  intro stack state ready
  obtain ⟨value, here, between, runsFirst, leavesFirst, represents⟩ :=
    loads (stack.push (.str name)) state ready
  obtain ⟨values, later, after, runsRest, leavesRest, representRest⟩ :=
    load ((stack.push (.str name)).push value) between leavesFirst.ready
  refine ⟨(name, value) :: values, here ++ later, after, ?_, leavesFirst.trans leavesRest,
    value, values, here, later, rfl, rfl, ?_, representRest⟩
  · change Runs _ _ _ _ (stack.pushAll (.str name :: value :: inTurn values), after)
    rw [Stack.pushAll_cons, Stack.pushAll_cons]
    exact (runs_push rfl).cons (runsFirst.append runsRest)
  · exact represents.stays leavesRest.advances.backs fun object member =>
      (leavesFirst.has object member).stays leavesRest.advances.keeps

/-! ### Tensors -/

/-- The storage of a key is one, whichever tensor of the key is met first. -/
theorem storage_stands (sources : Sources) (agree : Agree tensors) {written : WrittenTensor}
    (member : written ∈ tensors) {state : State} (ready : Ready contents tensors root state) :
    ∃ ref after,
      (∀ stack, storageOf (Calls.of sources) contents (.storageType written.type) written.key
          (.int written.count) ⟨stack, state.storages⟩ state.machine =
        .ok (.storage ref, ⟨stack, after.storages⟩) after.machine) ∧
        Ready contents tensors root after ∧ state.Advances after ∧
          after.Knows written.key ref ∧ IsStorage contents after.heap written ref := by
  cases found : state.storages.get? written.key with
  | some value =>
      obtain ⟨other, isOther, ref, isKey, rfl, isStorage⟩ := ready.known written.key value found
      obtain ⟨sameType, sameCount⟩ := agree other isOther written member isKey
      refine ⟨ref, state, fun stack => storageOf_known found, ready, .refl state, found, ?_⟩
      exact ⟨isStorage.held, sameType ▸ isStorage.dataType, isKey ▸ isStorage.key,
        sameCount ▸ isStorage.count, isKey ▸ isStorage.data⟩
  | none =>
      let made := madeStorage contents written.type written.key written.count
      let ref := state.heap.storages.next
      have keeps : state.heap.Keeps (state.heap.addStorage made).2 :=
        state.heap.keeps_addStorage made
      have shown : (state.heap.addStorage made).2.storage ref = made :=
        Store.get_add_next _ _
      have isStorage : IsStorage contents (state.heap.addStorage made).2 written ref :=
        ⟨Store.holds_next _ _, by rw [shown]; rfl, by rw [shown]; rfl, by rw [shown]; rfl,
          by rw [shown]; rfl⟩
      refine ⟨ref, state.withStorage written.key made, fun stack => storageOf_new found,
        ?_, ⟨keeps, ?_⟩, Table.get?_insert_self _ _ _, isStorage⟩
      · refine ⟨ready.isRoot, ready.unloaded, ready.serves.keeps keeps, fun key value isValue => ?_⟩
        change (state.storages.insert written.key (.storage ref)).get? key = some value at isValue
        rw [Table.get?_insert] at isValue
        split at isValue
        · rename_i same
          cases isValue
          exact ⟨written, member, ref, same, rfl, isStorage⟩
        · obtain ⟨other, isOther, earlier, isKey, isEarlier, isStorage⟩ :=
            ready.known key value isValue
          exact ⟨other, isOther, earlier, isKey, isEarlier, isStorage.keeps keeps.storages⟩
      · intro key earlier knows
        have distinct : written.key ≠ key := by
          rintro rfl
          rw [State.Knows, found] at knows
          cases knows
        exact (Table.get?_insert_of_ne _ _ distinct).trans knows

theorem tensor_loads (agree : Agree tensors) {written : WrittenTensor}
    (member : written ∈ tensors) : (Item.tensor written).Loads sources contents tensors root := by
  intro stack state ready
  obtain ⟨storage, between, stands, readyBetween, advances, knows, isStorage⟩ :=
    storage_stands sources agree member ready
  obtain ⟨hooks, tensor, isHooks, runs, isRebuilt⟩ :=
    runs_tensorCodes stack
      (findGlobal_builtin ready.serves ready.isRoot List.mem_cons_self)
      (findGlobal_builtin ready.serves ready.isRoot (mem_tensorGlobals written.type)) stands
      (findGlobal_builtin readyBetween.serves readyBetween.isRoot
        (List.mem_cons_of_mem _ List.mem_cons_self))
  let sizes : List Value := written.size.map .int
  let strides : List Value := written.strides.map .int
  let rebuilt := rebuiltHeap hooks sizes strides tensor
  have keepsHooks : between.heap.Keeps hooks := isHooks ▸ between.heap.keeps_addDict _
  have keeps : between.heap.Keeps rebuilt :=
    keepsHooks.trans (keeps_rebuiltHeap hooks sizes strides tensor)
  obtain ⟨heldTensor, isTensor⟩ := rebuiltHeap_tensor hooks sizes strides tensor
  obtain ⟨heldSize, isSize⟩ := rebuiltHeap_size hooks sizes strides tensor
  obtain ⟨heldStride, isStride⟩ := rebuiltHeap_stride hooks sizes strides tensor
  have keepsBefore : state.heap.Keeps hooks := advances.keeps.trans keepsHooks
  refine ⟨_, [.tensor hooks.tensors.next, .list hooks.lists.next,
    .list (hooks.addList sizes).2.lists.next], _, runs, ?_, hooks.tensors.next, storage,
    hooks.lists.next, (hooks.addList sizes).2.lists.next, rfl, rfl, knows, ?_⟩
  · exact {
      ready := readyBetween.grow keeps
      advances := advances.trans ⟨keeps, fun _ _ => id⟩
      has := List.forall_mem_cons.mpr ⟨heldTensor,
        List.forall_mem_cons.mpr ⟨heldSize, List.forall_mem_singleton.mpr heldStride⟩⟩
      new := List.forall_mem_cons.mpr
        ⟨fun held => Store.next_not_holds _ (keepsBefore.tensors _ held).1,
          List.forall_mem_cons.mpr
            ⟨fun held => Store.next_not_holds _ (keepsBefore.lists _ held).1,
              List.forall_mem_singleton.mpr fun held =>
                Store.next_not_holds _ ((keepsBefore.trans
                  (hooks.keeps_addList sizes)).lists _ held).1⟩⟩
      distinct := by
        have apart : hooks.lists.next ≠ (hooks.addList sizes).2.lists.next := fun same =>
          Store.next_not_holds _ (same ▸ Store.holds_next hooks.lists sizes)
        simp [apart] }
  · change IsTensor contents rebuilt written (rebuilt.tensor hooks.tensors.next) _ _ _
    rw [isTensor]
    refine ⟨isStorage.keeps keeps.storages, isRebuilt.storage, isRebuilt.offset, isRebuilt.size,
      isRebuilt.stride, ?_, ?_⟩
    · rw [isRebuilt.size, Heap.items?, isSize]
    · rw [isRebuilt.stride, Heap.items?, isStride]

/-! ### Lists -/

theorem list_loads {items : List Item} (load : AllLoad sources contents tensors root items) :
    (Item.list items).Loads sources contents tensors root := by
  intro stack state ready
  let ref := state.heap.lists.next
  let made := state.withHeap (state.heap.addList []).2
  have opens : state.Advances made := ⟨state.heap.keeps_addList [], fun _ _ => id⟩
  have hasMade : Has made.heap (.list ref) := Store.holds_next _ _
  obtain ⟨values, below, filled, runs, leaves, represent⟩ :=
    load (stack.push (.list ref)).mark made (ready.grow opens.keeps)
  obtain ⟨held, same⟩ := leaves.advances.keeps.lists ref hasMade
  have empty : filled.heap.list ref = [] :=
    same.trans (Store.get_add_next state.heap.lists [])
  -- The heap in which the list has its items.
  let done := filled.heap.setList ref values
  have stays : ∀ object ∈ below, Stays filled.heap done object := fun object member =>
    (leaves.has object member).stays_setList (leaves.ne_of_has hasMade object member) values
  have new : ¬ state.heap.lists.Holds ref := Store.next_not_holds _
  have keeps : state.heap.Keeps done := (opens.trans leaves.advances).keeps.setList new values
  refine ⟨.list ref, .list ref :: below, filled.withHeap done, ?_,
    .complete ready opens new hasMade leaves (Store.holds_set held ref values) keeps (.refl _)
      stays, ref, below, rfl, rfl, ?_⟩
  · have opening : Runs (Calls.of sources) contents [.emptyList, .mark] (stack, state)
        ((stack.push (.list ref)).mark, made) := runs_emptyList.cons (runs_mark.cons (.nil _))
    have closing : Runs (Calls.of sources) contents [.appends]
        ((stack.push (.list ref)).mark.pushAll values, filled)
        (stack.push (.list ref), filled.withHeap done) := by
      simpa only [empty, List.nil_append] using runs_appends held values
    exact (opening.append runs).append closing
  · have shown : done.list ref = values := (Store.get_set _ _ _ _).trans (if_pos rfl)
    have backs : Backs filled.Knows filled.Knows filled.heap done :=
      ⟨.refl _, .refl _, fun _ _ => id⟩
    change RepresentAll contents filled.Knows done items (done.list ref) below
    rw [shown]
    exact represent.stays backs stays

/-! ### Modules -/

theorem module_loads {path name : String} {fields : List (String × Item)}
    (isOpaque : IsOpaque sources path name fields)
    (load : FieldsLoad sources contents tensors root fields) :
    (Item.module path name fields).Loads sources contents tensors root := by
  intro stack state ready
  let ref := state.heap.modules.next
  let dict := state.heap.dicts.next
  let asked : State := { state with machine := state.machine.asked (packageFile path) }
  let made := asked.withHeap (openedHeap state.heap path name)
  have opens : state.Advances made := ⟨keeps_openedHeap state.heap path name, fun _ _ => id⟩
  have readyAsked : Ready contents tensors root asked :=
    ⟨ready.isRoot, ready.unloaded, ready.serves, ready.known⟩
  obtain ⟨madeModule, isFresh⟩ := openedHeap_module state.heap path name
  obtain ⟨madeDict, isEmpty⟩ := openedHeap_dict state.heap path name
  obtain ⟨madeClass, isClass⟩ := openedHeap_class state.heap path name
  have hasMade : Has made.heap (.module ref) := madeModule
  obtain ⟨values, below, filled, runs, leaves, represent⟩ :=
    load ((stack.push (.module ref)).push (.dict dict)).mark made (readyAsked.grow opens.keeps)
  obtain ⟨heldModule, sameModule⟩ := leaves.advances.keeps.modules ref madeModule
  obtain ⟨heldDict, sameDict⟩ := leaves.advances.keeps.dicts dict madeDict
  obtain ⟨heldClass, sameClass⟩ := leaves.advances.keeps.moduleClasses _ madeClass
  have distinct : (values.map (·.1)).Nodup := represent.names ▸ isOpaque.distinct
  -- The heap in which the dictionary has its entries, and the one in which the module took them.
  let given := filled.heap.setDict dict ⟨false, fieldEntries values⟩
  let done := setModuleState given ref (.dict dict)
  have shown : done.module ref =
      { Module.fresh state.heap.moduleClasses.next with fields := fieldEntries values } :=
    setModuleState_fresh (sameModule.trans isFresh)
      (congrArg Dict.entries ((Store.get_set _ _ _ _).trans (if_pos rfl))) distinct
  have stays : ∀ object ∈ below, Stays filled.heap done object := fun object member =>
    have inGiven := (leaves.has object member).stays_setDict dict ⟨false, fieldEntries values⟩
    inGiven.trans
      (inGiven.has.stays_updateModule (leaves.ne_of_has hasMade object member) _)
  have new : ¬ state.heap.modules.Holds ref := Store.next_not_holds _
  have keeps : state.heap.Keeps done :=
    ((opens.trans leaves.advances).keeps.setDict (Store.next_not_holds _) _).updateModule new _
  refine ⟨.module ref, .module ref :: below, filled.withHeap done, ?_,
    .complete ready opens new hasMade leaves (Store.holds_set heldModule ref _) keeps (.refl _)
      stays, ref, values, below, rfl, rfl, ?_⟩
  · have finds := findGlobal_class ready.serves ready.isRoot (ready.unloaded path)
      isOpaque.noSource isOpaque.archive isOpaque.dotless isOpaque.plain
    exact ((runs_opening finds).append
      (runs_state runs represent.names heldDict (sameDict.trans isEmpty)
        isOpaque.distinct)).append runs_build
  · have isClass : done.classOf ref = ⟨path, name, state.heap.tables.next⟩ := by
      rw [Heap.classOf, shown]
      exact sameClass.trans isClass
    have backs : Backs filled.Knows filled.Knows filled.heap done :=
      ⟨.refl _, .refl _, fun _ _ => id⟩
    change done.moduleClasses.Holds (done.module ref).moduleClass ∧
      (done.classOf ref).module = path ∧ (done.classOf ref).name = name ∧
        (done.module ref).fields = fieldEntries values ∧
          RepresentFields contents filled.Knows done fields values below
    rw [isClass, shown]
    exact ⟨heldClass, rfl, rfl, rfl, represent.stays backs stays⟩

end Cases

end TorchArchive.Pickle
