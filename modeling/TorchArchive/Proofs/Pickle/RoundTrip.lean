import TorchArchive.Proofs.Pickle.Loads

/-!
# Trees that are written and read

What is written for a tree of modules is read as objects that stand for the tree, each of
them new, over one storage for each key.
-/

namespace TorchArchive.Pickle

/-! ## All trees -/

section Trees

variable {sources : Sources} {contents : Table String ByteArray} {tensors : List WrittenTensor}
  {root : Ref .table}

mutual

theorem Item.loads (agree : Agree tensors) : ∀ (item : Item),
    (∀ tree ∈ item.subtrees, tree.Fits sources tensors) →
      item.Loads sources contents tensors root
  | .scalar leaf, _ => scalar_loads leaf
  | .list items, fit => list_loads (allLoad agree items (List.forall_mem_cons.mp fit).2)
  | .tensor written, fit => tensor_loads agree (fit (.tensor written) List.mem_cons_self)
  | .module _ _ fields, fit =>
      have fits := List.forall_mem_cons.mp fit
      module_loads fits.1 (fieldsLoad agree fields fits.2)

theorem allLoad (agree : Agree tensors) : ∀ (items : List Item),
    (∀ tree ∈ Item.allSubtrees items, tree.Fits sources tensors) →
      AllLoad sources contents tensors root items
  | [], _ => nil_load
  | first :: rest, fit =>
      have fits := List.forall_mem_append.mp fit
      cons_load (first.loads agree fits.1) (allLoad agree rest fits.2)

theorem fieldsLoad (agree : Agree tensors) : ∀ (fields : List (String × Item)),
    (∀ tree ∈ Item.fieldSubtrees fields, tree.Fits sources tensors) →
      FieldsLoad sources contents tensors root fields
  | [], _ => noFields_load
  | (_, item) :: rest, fit =>
      have fits := List.forall_mem_append.mp fit
      field_load (item.loads agree fits.1) (fieldsLoad agree rest fits.2)

end

end Trees

/-! ## Lines -/

section Lines

variable {sources : Sources} {tensors : List WrittenTensor}

theorem intCodes_lines (values : List Int) : ∀ code ∈ intCodes values, code.NamesLines := by
  refine List.forall_mem_cons.mpr ⟨trivial, List.forall_mem_append.mpr ⟨?_, ?_⟩⟩
  · intro code member
    obtain ⟨n, _, rfl⟩ := List.mem_map.mp member
    trivial
  · exact List.forall_mem_singleton.mpr trivial

theorem tensor_lines (written : WrittenTensor) : ∀ code ∈ written.codes, code.NamesLines := by
  have storage : ∀ code ∈ written.storageCodes, code.NamesLines := by
    have named : (Code.global "torch" written.type.name).NamesLines := by
      rw [Code.NamesLines]
      cases written.type <;> decide
    rw [WrittenTensor.storageCodes]
    simp only [List.forall_mem_cons, List.not_mem_nil, false_implies, implies_true, and_true]
    exact ⟨trivial, trivial, named, trivial, trivial, trivial, trivial, trivial⟩
  have rebuilds : (Code.global "torch._utils" "_rebuild_tensor_v2").NamesLines := by
    rw [Code.NamesLines]
    decide
  have orders : (Code.global "collections" "OrderedDict").NamesLines := by
    rw [Code.NamesLines]
    decide
  rw [WrittenTensor.codes]
  simp only [List.forall_mem_append, List.forall_mem_cons, List.not_mem_nil, false_implies,
    implies_true, and_true]
  exact ⟨⟨⟨⟨⟨⟨rebuilds, trivial⟩, storage⟩, trivial⟩, intCodes_lines _⟩, intCodes_lines _⟩,
    trivial, orders, trivial, trivial, trivial, trivial⟩

mutual

theorem Item.lines : ∀ (item : Item), (∀ tree ∈ item.subtrees, tree.Fits sources tensors) →
    ∀ code ∈ item.codes, code.NamesLines
  | .scalar leaf, _ => by
      refine List.forall_mem_singleton.mpr ?_
      cases leaf <;> trivial
  | .list items, fit => by
      have below := allLines items (List.forall_mem_cons.mp fit).2
      rw [Item.codes]
      simp only [List.forall_mem_append, List.forall_mem_cons, List.not_mem_nil, false_implies,
        implies_true, and_true]
      exact ⟨⟨⟨trivial, trivial⟩, below⟩, trivial⟩
  | .tensor written, _ => tensor_lines written
  | .module path name fields, fit => by
      obtain ⟨isOpaque, fitBelow⟩ := List.forall_mem_cons.mp fit
      have below := fieldLines fields fitBelow
      have owned : path ≠ "" := by
        rintro rfl
        exact absurd isOpaque.archive (by decide)
      have named : (Code.global path name).NamesLines :=
        ⟨⟨owned, isOpaque.pathUnbroken⟩, isOpaque.named, isOpaque.unbroken⟩
      have state : ∀ code ∈
          (if fields.isEmpty then [] else .mark :: (Item.fieldCodes fields ++ [.setItems])),
          code.NamesLines := by
        split
        · exact List.forall_mem_nil _
        · simp only [List.forall_mem_append, List.forall_mem_cons, List.not_mem_nil, false_implies,
          implies_true, and_true]
          exact ⟨trivial, below, trivial⟩
      rw [Item.codes]
      simp only [List.forall_mem_append, List.forall_mem_cons, List.not_mem_nil, false_implies,
        implies_true, and_true]
      exact ⟨⟨⟨named, trivial, trivial, trivial⟩, state⟩, trivial⟩

theorem allLines : ∀ (items : List Item),
    (∀ tree ∈ Item.allSubtrees items, tree.Fits sources tensors) →
      ∀ code ∈ Item.allCodes items, code.NamesLines
  | [], _ => fun _ never => absurd never List.not_mem_nil
  | first :: rest, fit =>
      have fits := List.forall_mem_append.mp fit
      List.forall_mem_append.mpr ⟨first.lines fits.1, allLines rest fits.2⟩

theorem fieldLines : ∀ (fields : List (String × Item)),
    (∀ tree ∈ Item.fieldSubtrees fields, tree.Fits sources tensors) →
      ∀ code ∈ Item.fieldCodes fields, code.NamesLines
  | [], _ => fun _ never => absurd never List.not_mem_nil
  | (_, item) :: rest, fit =>
      have fits := List.forall_mem_append.mp fit
      List.forall_mem_cons.mpr
        ⟨trivial, List.forall_mem_append.mpr ⟨item.lines fits.1, fieldLines rest fits.2⟩⟩

end

end Lines

/-! ## Streams of trees -/

/-- A tree whose modules are opaque, and whose tensors agree on what their keys stand for. -/
structure Item.IsWritable (sources : Sources) (item : Item) : Prop where
  modules :
    ∀ path name fields, .module path name fields ∈ item.subtrees →
      IsOpaque sources path name fields
  tensors :
    ∀ first second, .tensor first ∈ item.subtrees → .tensor second ∈ item.subtrees →
      first.key = second.key → first.type = second.type ∧ first.count = second.count

def Item.tensor? : Item → Option WrittenTensor
  | .tensor written => some written
  | _ => none

theorem mem_tensors_iff {trees : List Item} {written : WrittenTensor} :
    written ∈ trees.filterMap Item.tensor? ↔ .tensor written ∈ trees := by
  rw [List.mem_filterMap]
  constructor
  · rintro ⟨tree, member, isTensor⟩
    cases tree with
    | tensor other =>
        cases isTensor
        exact member
    | _ => cases isTensor
  · intro member
    exact ⟨_, member, rfl⟩

theorem ready_initial (contents : Table String ByteArray) (tensors : List WrittenTensor) :
    Ready contents tensors Machine.initial.root.inner.table ⟨.empty, .initial⟩ where
  isRoot := rfl
  unloaded := fun _ => rfl
  serves := serves_initial
  known := fun key value never => by cases never

/-- A storage is known for one key at most, and a key has one storage. -/
theorem exists_place {contents : Table String ByteArray} {tensors : List WrittenTensor}
    {root : Ref .table} {state : State} (ready : Ready contents tensors root state) :
    ∃ place : String → Ref .storage,
      (∀ key ref, state.Knows key ref → place key = ref) ∧
        ∀ first second ref, state.Knows first ref → state.Knows second ref → first = second := by
  refine ⟨fun key => Classical.epsilon (state.Knows key), ?_, ?_⟩
  · intro key ref knows
    have found := Classical.epsilon_spec ⟨ref, knows⟩
    rw [State.Knows] at knows found
    exact Value.storage.inj (Option.some.inj (found.symm.trans knows))
  · intro first second ref knowsFirst knowsSecond
    have keyOf {key : String} (knows : state.Knows key ref) :
        (state.heap.storage ref).key = some key := by
      obtain ⟨written, _, other, rfl, isRef, isStorage⟩ := ready.known key _ knows
      cases isRef
      exact isStorage.key
    exact Option.some.inj ((keyOf knowsFirst).symm.trans (keyOf knowsSecond))

/-- A stream that is written for a tree is loaded as objects that stand for the tree: every
list, tensor and module is a new object, and two tensors are over one storage if and only if
their keys are the same. -/
theorem load_written {sources : Sources} {contents : Table String ByteArray} {item : Item}
    {bytes : List UInt8} (writes : write? item.codes = some bytes)
    (writable : item.IsWritable sources) :
    ∃ value machine objects, ∃ place : String → Ref .storage,
      load (Calls.of sources) contents ⟨bytes.toArray⟩ .initial = .ok value machine ∧
        Represents contents (fun key ref => place key = ref) machine.heap item value objects ∧
          objects.Nodup ∧ (∀ object ∈ objects, Has machine.heap object) ∧
            ∀ first second, .tensor first ∈ item.subtrees → .tensor second ∈ item.subtrees →
              (place first.key = place second.key ↔ first.key = second.key) := by
  let tensors := item.subtrees.filterMap Item.tensor?
  have agree : Agree tensors := fun first isFirst second isSecond =>
    writable.tensors first second (mem_tensors_iff.mp isFirst) (mem_tensors_iff.mp isSecond)
  have fit : ∀ tree ∈ item.subtrees, tree.Fits sources tensors := by
    intro tree member
    cases tree with
    | scalar leaf => trivial
    | list items => trivial
    | tensor written => exact mem_tensors_iff.mpr member
    | module path name fields => exact writable.modules path name fields member
  obtain ⟨value, objects, after, runs, leaves, represents⟩ :=
    item.loads agree fit .empty ⟨.empty, .initial⟩ (ready_initial contents tensors)
  obtain ⟨place, isPlace, apart⟩ := exists_place leaves.ready
  refine ⟨value, after.machine, objects, place, load_of_runs writes (item.lines fit) runs, ?_,
    leaves.distinct, leaves.has, fun first second isFirst isSecond => ⟨fun same => ?_, ?_⟩⟩
  · exact represents.stays ⟨.refl _, .refl _, isPlace⟩ fun object member =>
      (leaves.has object member).stays (.refl _)
  · obtain ⟨firstRef, knowsFirst⟩ := represents.stored isFirst
    obtain ⟨secondRef, knowsSecond⟩ := represents.stored isSecond
    rw [isPlace _ _ knowsFirst, isPlace _ _ knowsSecond] at same
    exact apart _ _ _ knowsFirst (same ▸ knowsSecond)
  · intro same
    rw [same]

/-! ## Archives without sources -/

namespace Sourceless

def sources : Sources where
  program := fun file => .error (.missingSource file)
  constants := none
  constantStorages := .empty

/-- A layer whose tensors are views of one storage. -/
def layer : Item :=
  .module "__torch__.torch.nn" "Linear"
    [("weight", .tensor ⟨.float, "0", [2, 3], none, some 9, 0⟩),
      ("bias", .tensor ⟨.float, "0", [3], none, some 9, 6⟩)]

/-- A net of a layer, a tensor with a storage of its own, a list and a flag. -/
def net : Item :=
  .module "__torch__" "Net"
    [("training", .scalar (.bool false)), ("layer", layer),
      ("steps", .tensor ⟨.long, "1", [], none, none, 0⟩),
      ("sizes", .list [.scalar (.int (-1)), .list [], .scalar (.text "\n")])]

theorem net_writable : net.IsWritable sources where
  modules := by
    intro path name fields member
    simp only [net, layer, Item.subtrees, Item.fieldSubtrees, Item.allSubtrees, List.mem_cons,
      List.mem_append, List.not_mem_nil, reduceCtorEq, Item.module.injEq, false_or,
      or_false] at member
    rcases member with ⟨rfl, rfl, rfl⟩ | ⟨rfl, rfl, rfl⟩ <;>
      exact ⟨by decide +kernel, rfl, by decide, by decide, by decide, by decide, by decide,
        by decide⟩
  tensors := by
    intro first second isFirst isSecond
    simp only [net, layer, Item.subtrees, Item.fieldSubtrees, Item.allSubtrees, List.mem_cons,
      List.mem_append, List.not_mem_nil, reduceCtorEq, Item.tensor.injEq, false_or,
      or_false] at isFirst isSecond
    rcases isFirst with (rfl | rfl) | rfl <;> rcases isSecond with (rfl | rfl) | rfl <;> decide

/-- The bytes of the storages of a net. -/
def contents : Table String ByteArray := .ofList [("0", ⟨.replicate 36 0⟩), ("1", ⟨.replicate 8 1⟩)]

/-- The stream of a net is loaded as objects that stand for it. -/
theorem load_written_net :
    ∃ bytes, write? net.codes = some bytes ∧ net.IsWritable sources ∧
      ∃ value machine objects, ∃ place : String → Ref .storage,
        load (Calls.of sources) contents ⟨bytes.toArray⟩ .initial = .ok value machine ∧
          Represents contents (fun key ref => place key = ref) machine.heap net value objects ∧
            objects.Nodup ∧ (∀ object ∈ objects, Has machine.heap object) ∧
              ∀ first second, .tensor first ∈ net.subtrees → .tensor second ∈ net.subtrees →
                (place first.key = place second.key ↔ first.key = second.key) := by
  have written : (write? net.codes).isSome := by decide
  obtain ⟨bytes, writes⟩ := Option.isSome_iff_exists.mp written
  exact ⟨bytes, writes, net_writable, load_written writes net_writable⟩

/-- Whether the stream of a module without fields cannot be loaded. -/
def fails (machine : Machine) (path name : String) : Bool :=
  match write? (Item.module path name []).codes with
  | some bytes =>
      match load (Calls.of sources) .empty ⟨bytes.toArray⟩ machine with
      | .ok _ _ => false
      | .error _ _ => true
  | none => false

set_option maxRecDepth 100000 in
private theorem fails_initial :
    (fails .initial "__torch__" "A\x00B" && (fails .initial "__torch__" "" &&
      fails .initial "__torch__.a\nb" "C")) = true := by
  rw [Machine.initial_eq]
  decide +kernel

/-- A module without fields, whose class has an archive for its module and a name without
points and newlines: its stream is written, but cannot be loaded. -/
structure Unreadable (path name : String) : Prop where
  archive : isArchiveModule path = true
  plain : '.' ∉ name.toList ∧ '\n' ∉ name.toList
  fails :
    ∃ bytes fault machine, write? (Item.module path name []).codes = some bytes ∧
      load (Calls.of sources) .empty ⟨bytes.toArray⟩ .initial = .error fault machine

theorem exists_fault {path name : String} (failing : fails .initial path name = true) :
    ∃ bytes fault machine, write? (Item.module path name []).codes = some bytes ∧
      load (Calls.of sources) .empty ⟨bytes.toArray⟩ .initial = .error fault machine := by
  rw [fails] at failing
  split at failing
  · rename_i bytes writes
    split at failing
    · cases failing
    · rename_i fault machine loads
      exact ⟨bytes, fault, machine, writes, loads⟩
  · cases failing

/-- A class whose name holds a null character cannot be made, and an empty name or a module
path that holds a newline cannot be read. -/
theorem exists_unreadable :
    Unreadable "__torch__" "A\x00B" ∧ Unreadable "__torch__" "" ∧
      Unreadable "__torch__.a\nb" "C" := by
  obtain ⟨null, others⟩ := Bool.and_eq_true_iff.mp fails_initial
  obtain ⟨empty, broken⟩ := Bool.and_eq_true_iff.mp others
  exact ⟨⟨by decide +kernel, by decide, exists_fault null⟩,
    ⟨by decide +kernel, by decide, exists_fault empty⟩,
    ⟨by decide +kernel, by decide, exists_fault broken⟩⟩

end Sourceless

end TorchArchive.Pickle
