import TorchArchive.Proofs.Pickle.Runs
import TorchArchive.Proofs.Pickle.Tree

/-!
# Objects that codes make

The codes of a tensor rebuild it over a storage, and the codes of a module fill a dictionary
with its fields, which becomes its state.
-/

namespace TorchArchive.Pickle

section Runs

variable {calls : Calls} {contents : Table String ByteArray} {stack : Stack}
  {state between after : State} {machine : Machine}

/-! ## Tensors -/

theorem runs_intCodes (values : List Int) :
    Runs calls contents (intCodes values) (stack, state)
      (stack.push (.tuple (values.map .int)), state) :=
  runs_mark.cons ((runs_ints values).append (runs_tuple (values.map .int)))

theorem runs_storageCodes {written : WrittenTensor} {storage : Value}
    (finds : findGlobal calls StorageType.package written.type.name state.machine =
      .ok (.storageType written.type) state.machine)
    (stands : ∀ stack, storageOf calls contents (.storageType written.type) written.key
        (.int written.count) ⟨stack, state.storages⟩ state.machine =
      .ok (storage, ⟨stack, after.storages⟩) after.machine) :
    Runs calls contents written.storageCodes (stack, state) (stack.push storage, after) := by
  refine runs_mark.cons ((runs_push rfl).cons ((runs_global finds).cons ?_))
  refine (runs_push rfl).cons ((runs_push rfl).cons ((runs_push rfl).cons ?_))
  refine Runs.cons (runs_tuple [.str "storage", .storageType written.type, .str written.key,
    .str "cpu", .int written.count]) ?_
  exact runs_persistent (stands stack)

theorem callObject_orderedDict :
    callObject calls (.builtin .orderedDict) [] machine =
      .ok (.dict machine.heap.dicts.next)
        (machine.withHeap (machine.heap.addDict ⟨true, .empty⟩).2) := rfl

/-- The heap that a tensor is rebuilt in, with lists of its size, of its stride and of its
outputs. -/
def rebuiltHeap (heap : Heap) (size stride : List Value) (tensor : Tensor) : Heap :=
  ((((heap.addList size).2.addList stride).2.addList []).2.addTensor tensor).2

section RebuiltHeap

variable (heap : Heap) (size stride : List Value) (tensor : Tensor)

theorem keeps_rebuiltHeap : heap.Keeps (rebuiltHeap heap size stride tensor) :=
  (heap.keeps_addList size).trans ((Heap.keeps_addList _ stride).trans
    ((Heap.keeps_addList _ []).trans (Heap.keeps_addTensor _ tensor)))

theorem rebuiltHeap_tensor :
    (rebuiltHeap heap size stride tensor).tensors.Holds heap.tensors.next ∧
      (rebuiltHeap heap size stride tensor).tensor heap.tensors.next = tensor :=
  ⟨Store.holds_next _ _, Store.get_add_next _ _⟩

theorem rebuiltHeap_size :
    (rebuiltHeap heap size stride tensor).lists.Holds heap.lists.next ∧
      (rebuiltHeap heap size stride tensor).list heap.lists.next = size := by
  have held := Store.holds_next heap.lists size
  have keeps := (Store.keeps_add (heap.lists.add size) stride).trans (Store.keeps_add _ [])
  exact ⟨(keeps _ held).1, (keeps _ held).2.trans (Store.get_add_next _ _)⟩

theorem rebuiltHeap_stride :
    (rebuiltHeap heap size stride tensor).lists.Holds (heap.addList size).2.lists.next ∧
      (rebuiltHeap heap size stride tensor).list (heap.addList size).2.lists.next = stride := by
  have held := Store.holds_next (heap.lists.add size) stride
  have keeps := Store.keeps_add ((heap.lists.add size).add stride) []
  exact ⟨(keeps _ held).1, (keeps _ held).2.trans (Store.get_add_next _ _)⟩

end RebuiltHeap

/-- A tensor that is rebuilt in a heap. -/
structure IsRebuilt (heap : Heap) (sizes : List Value) (storage : Ref .storage) (offset : Int)
    (tensor : Tensor) : Prop where
  storage : tensor.storage = .storage storage
  offset : tensor.offset = .int offset
  size : tensor.size = .list heap.lists.next
  stride : tensor.stride = .list (heap.addList sizes).2.lists.next

theorem callObject_rebuildTensor (calls : Calls) (machine : Machine) (storage : Ref .storage)
    (offset : Int) (size stride : List Value) (hooks : Ref .dict) :
    ∃ tensor : Tensor,
      callObject calls (.builtin .rebuildTensor)
          [.storage storage, .int offset, .tuple size, .tuple stride, .bool false, .dict hooks]
          machine =
        .ok (.tensor machine.heap.tensors.next)
          (machine.withHeap (rebuiltHeap machine.heap size stride tensor)) ∧
        IsRebuilt machine.heap size storage offset tensor := by
  exact ⟨_, rfl, rfl, machine.heap.ite_truthy_int offset Value.int, rfl, rfl⟩

/-- The codes of a tensor make a dictionary of hooks and rebuild the tensor. -/
theorem runs_tensorCodes (stack : Stack) {written : WrittenTensor} {storage : Ref .storage}
    (rebuilds : findGlobal calls "torch._utils" "_rebuild_tensor_v2" state.machine =
      .ok (.builtin .rebuildTensor) state.machine)
    (finds : findGlobal calls StorageType.package written.type.name state.machine =
      .ok (.storageType written.type) state.machine)
    (stands : ∀ stack, storageOf calls contents (.storageType written.type) written.key
        (.int written.count) ⟨stack, state.storages⟩ state.machine =
      .ok (.storage storage, ⟨stack, between.storages⟩) between.machine)
    (orders : findGlobal calls "collections" "OrderedDict" between.machine =
      .ok (.builtin .orderedDict) between.machine) :
    ∃ (hooks : Heap) (tensor : Tensor),
      hooks = (between.heap.addDict ⟨true, .empty⟩).2 ∧
        Runs calls contents written.codes (stack, state)
          (stack.push (.tensor hooks.tensors.next),
            between.withHeap (rebuiltHeap hooks (written.size.map .int)
              (written.strides.map .int) tensor)) ∧
          IsRebuilt hooks (written.size.map .int) storage written.offset tensor := by
  obtain ⟨tensor, yields, isRebuilt⟩ :=
    callObject_rebuildTensor calls
      (between.machine.withHeap (between.heap.addDict ⟨true, .empty⟩).2) storage
      written.offset (written.size.map .int) (written.strides.map .int) between.heap.dicts.next
  refine ⟨_, tensor, rfl, ?_, isRebuilt⟩
  have front : Runs calls contents [.global "torch._utils" "_rebuild_tensor_v2", .mark]
      (stack, state) ((stack.push (.builtin .rebuildTensor)).mark, state) :=
    (runs_global rebuilds).cons (runs_mark.cons (.nil _))
  refine (((((front.append (runs_storageCodes finds stands)).append
    ((runs_push rfl).cons (.nil _))).append (runs_intCodes written.size)).append
      (runs_intCodes written.strides)).append ?_)
  refine (runs_push rfl).cons ((runs_global orders).cons (runs_emptyTuple.cons ?_))
  refine (runs_reduce callObject_orderedDict).cons ?_
  refine Runs.cons (runs_tuple [.storage storage, .int written.offset,
    .tuple (written.size.map .int), .tuple (written.strides.map .int), .bool false,
    .dict between.heap.dicts.next]) ?_
  exact runs_reduce yields

end Runs

/-! ## Fields -/

/-- Names and values that follow each other. -/
def inTurn (fields : List (String × Value)) : List Value :=
  fields.flatMap fun field => [.str field.1, field.2]

theorem inTurn_even (fields : List (String × Value)) : (inTurn fields).length % 2 = 0 := by
  induction fields with
  | nil => rfl
  | cons first rest inductionHypothesis =>
      rw [inTurn, List.flatMap_cons, List.length_append]
      change (2 + (inTurn rest).length) % 2 = 0
      omega

/-- Entries with fields behind them. -/
def addFields (entries : Entries) (fields : List (String × Value)) : Entries :=
  ⟨entries.entries ++ (fieldEntries fields).entries⟩

theorem put?_new {entries : Entries} {name : String}
    (new : Value.nameKey name ∉ Table.keys entries) (value : Value) :
    entries.put? (.str name) value = some (addFields entries [(name, value)]) := by
  have unbound : Table.get? entries (Value.nameKey name) = none := by
    cases found : Table.get? entries (Value.nameKey name) with
    | none => rfl
    | some entry =>
        exact absurd (List.mem_map_of_mem (f := Prod.fst) (Table.mem_of_get? found)) new
  change some (Table.insert entries (Value.nameKey name)
    ((Table.get? entries (Value.nameKey name)).elim (.str name) (·.1), value)) = _
  rw [unbound]
  exact congrArg some (congrArg Table.mk (Table.entries_insert_of_not_mem new _))

theorem addFields_cons (entries : Entries) (field : String × Value)
    (rest : List (String × Value)) :
    addFields (addFields entries [field]) rest = addFields entries (field :: rest) :=
  congrArg Table.mk (List.append_assoc _ _ _)

theorem nameKey_injective : Function.Injective Value.nameKey := by
  intro name other same
  cases same
  rfl

/-- Names that are new to entries and distinct stay so behind the first field. -/
theorem new_behind {entries : Entries} {field : String × Value} {rest : List (String × Value)}
    (distinct : ((field :: rest).map (·.1)).Nodup)
    (new : ∀ other ∈ field :: rest, Value.nameKey other.1 ∉ Table.keys entries) :
    ∀ other ∈ rest, Value.nameKey other.1 ∉ Table.keys (addFields entries [field]) := by
  intro other member inside
  rw [addFields, Table.keys, List.map_append, List.mem_append] at inside
  rcases inside with before | here
  · exact new other (List.mem_cons_of_mem _ member) before
  · have same : Value.nameKey other.1 = Value.nameKey field.1 := List.mem_singleton.mp here
    rw [List.map_cons, List.nodup_cons] at distinct
    exact distinct.1 (nameKey_injective same ▸ List.mem_map_of_mem member)

/-- Distinct names become the keys of a dictionary, in order. -/
theorem putPairs_inTurn (heap : Heap) {entries : Entries} {fields : List (String × Value)}
    (distinct : (fields.map (·.1)).Nodup)
    (new : ∀ field ∈ fields, Value.nameKey field.1 ∉ Table.keys entries) :
    putPairs heap entries (inTurn fields) = .ok (addFields entries fields) := by
  induction fields generalizing entries with
  | nil => exact congrArg (Except.ok ∘ Table.mk) (List.append_nil _).symm
  | cons field rest inductionHypothesis =>
      change putPairs heap entries (.str field.1 :: field.2 :: inTurn rest) = _
      rw [putPairs, put?_new (new field List.mem_cons_self)]
      rw [← addFields_cons entries field rest]
      exact inductionHypothesis (List.nodup_cons.mp distinct).2 (new_behind distinct new)

/-- Distinct names become the fields of a module, in order. -/
theorem takeState_fields {heap : Heap} {ref : Ref .dict} {entries : Entries}
    {fields : List (String × Value)} (state : (heap.dict ref).entries = fieldEntries fields)
    (distinct : (fields.map (·.1)).Nodup)
    (new : ∀ field ∈ fields, Value.nameKey field.1 ∉ Table.keys entries) :
    takeState heap (.dict ref) entries = addFields entries fields := by
  rw [takeState, state]
  clear state
  induction fields generalizing entries with
  | nil => exact congrArg Table.mk (List.append_nil _).symm
  | cons field rest inductionHypothesis =>
      change (fieldEntries rest).pairs.foldl _
        ((entries.put? (.str field.1) field.2).getD entries) = _
      rw [put?_new (new field List.mem_cons_self), Option.getD_some,
        inductionHypothesis (List.nodup_cons.mp distinct).2 (new_behind distinct new),
        addFields_cons]

/-- A fresh module that is given its state has the fields that the state names. -/
theorem setModuleState_fresh {heap : Heap} {ref : Ref .module} {dict : Ref .dict}
    {class_ : Ref .moduleClass} {fields : List (String × Value)}
    (fresh : heap.module ref = .fresh class_)
    (state : (heap.dict dict).entries = fieldEntries fields)
    (distinct : (fields.map (·.1)).Nodup) :
    (setModuleState heap ref (.dict dict)).module ref =
      { Module.fresh class_ with fields := fieldEntries fields } := by
  rw [setModuleState, Heap.module_updateModule, if_pos rfl, fresh,
    takeState_fields state distinct fun _ _ => List.not_mem_nil]
  rfl

/-! ## Modules -/

/-- The heap in which the fields of a module are loaded, with its class, the module and a
dictionary for its state. -/
def openedHeap (heap : Heap) (path name : String) : Heap :=
  (((heap.addModuleClass path name).2.addModule (.fresh heap.moduleClasses.next)).2.addDict
    ⟨false, .empty⟩).2

section OpenedHeap

variable (heap : Heap) (path name : String)

theorem keeps_openedHeap : heap.Keeps (openedHeap heap path name) :=
  (heap.keeps_addModuleClass path name).trans
    ((Heap.keeps_addModule _ _).trans (Heap.keeps_addDict _ _))

theorem openedHeap_class :
    (openedHeap heap path name).moduleClasses.Holds heap.moduleClasses.next ∧
      (openedHeap heap path name).moduleClass heap.moduleClasses.next =
        ⟨path, name, heap.tables.next⟩ :=
  ⟨Store.holds_next _ _, Store.get_add_next _ _⟩

theorem openedHeap_module :
    (openedHeap heap path name).modules.Holds heap.modules.next ∧
      (openedHeap heap path name).module heap.modules.next = .fresh heap.moduleClasses.next :=
  ⟨Store.holds_next _ _, Store.get_add_next _ _⟩

theorem openedHeap_dict :
    (openedHeap heap path name).dicts.Holds heap.dicts.next ∧
      (openedHeap heap path name).dict heap.dicts.next = ⟨false, .empty⟩ :=
  ⟨Store.holds_next _ _, Store.get_add_next _ _⟩

end OpenedHeap

section Runs

variable {calls : Calls} {contents : Table String ByteArray} {stack : Stack} {state : State}

/-- The first codes of a module. -/
theorem runs_opening {path name : String} {machine : Machine}
    (finds : findGlobal calls path name state.machine =
      .ok (.moduleClass state.heap.moduleClasses.next)
        (machine.withHeap (state.heap.addModuleClass path name).2)) :
    Runs calls contents [.global path name, .emptyTuple, .newObject, .emptyDict] (stack, state)
      ((stack.push (.module state.heap.modules.next)).push (.dict state.heap.dicts.next),
        ({ state with machine } : State).withHeap (openedHeap state.heap path name)) :=
  (runs_global finds).cons (runs_emptyTuple.cons (runs_newObject.cons
    (runs_emptyDict.cons (.nil _))))

/-- A dictionary gets the fields that are written, if there are any. -/
theorem runs_state {fields : List (String × Item)} {made filled : State} {ref : Ref .dict}
    {values : List (String × Value)}
    (runs : Runs calls contents (Item.fieldCodes fields) ((stack.push (.dict ref)).mark, made)
      ((stack.push (.dict ref)).mark.pushAll (inTurn values), filled))
    (names : values.map (·.1) = fields.map (·.1)) (held : filled.heap.dicts.Holds ref)
    (empty : filled.heap.dict ref = ⟨false, .empty⟩) (distinct : (fields.map (·.1)).Nodup) :
    Runs calls contents
      (if fields.isEmpty then [] else .mark :: (Item.fieldCodes fields ++ [.setItems]))
      (stack.push (.dict ref), made)
      (stack.push (.dict ref),
        filled.withHeap (filled.heap.setDict ref ⟨false, fieldEntries values⟩)) := by
  cases fields with
  | nil =>
      obtain rfl : values = [] := List.map_eq_nil_iff.mp names
      have same : filled.heap.setDict ref ⟨false, fieldEntries []⟩ = filled.heap := by
        have replaced := Store.set_get held
        change filled.heap.dicts.set ref (filled.heap.dict ref) = _ at replaced
        rw [empty] at replaced
        exact congrArg (fun dicts => { filled.heap with dicts }) replaced
      rw [same]
      cases made
      cases filled
      cases runs
      exact .nil _
  | cons field rest =>
      have some_ : inTurn values ≠ [] := by
        intro none_
        cases values with
        | nil => cases names
        | cons value others => cases none_
      have puts : putPairs filled.heap (filled.heap.dict ref).entries (inTurn values) =
          .ok (fieldEntries values) := by
        rw [empty]
        exact putPairs_inTurn filled.heap (names ▸ distinct) fun _ _ => List.not_mem_nil
      have sets : Runs calls contents [.setItems]
          ((stack.push (.dict ref)).mark.pushAll (inTurn values), filled)
          (stack.push (.dict ref),
            filled.withHeap (filled.heap.setDict ref ⟨false, fieldEntries values⟩)) := by
        simpa only [empty] using runs_setItems some_ (inTurn_even values) puts
      exact runs_mark.cons (runs.append sets)

end Runs

end TorchArchive.Pickle
