import Mathlib.Algebra.BigOperators.Group.List.Defs
import TorchArchive.Proofs.Growth
import TorchArchive.Proofs.Pickle.Stream

/-!
# Trees of modules

The modules of an archive form a tree, whose fields hold scalars, lists, tensors and other
modules.  A tree is written code by code, and objects of a heap stand for it.
-/

namespace TorchArchive.Pickle

/-! ## Trees -/

/-- A tensor that is written.  Without strides of its own it is laid out row by row, and
without a number of elements its storage has as many as the tensor. -/
structure WrittenTensor where
  type : StorageType
  key : String
  size : List Int
  stride : Option (List Int)
  elements : Option Int
  offset : Int

namespace WrittenTensor

def rowStrides : List Int → List Int
  | [] => []
  | _ :: rest => rest.prod :: rowStrides rest

def strides (tensor : WrittenTensor) : List Int :=
  tensor.stride.getD (rowStrides tensor.size)

/-- The number of elements of the storage. -/
def count (tensor : WrittenTensor) : Int := tensor.elements.getD tensor.size.prod

end WrittenTensor

/-- A value without parts. -/
inductive Scalar where
  | none
  | bool (b : Bool)
  | int (n : Int)
  /-- A floating-point number, given by its word. -/
  | float (word : UInt64)
  | text (content : String)

/-- A tree. -/
inductive Item where
  | scalar (scalar : Scalar)
  | list (items : List Item)
  | tensor (tensor : WrittenTensor)
  /-- A module of a class, which is told by a module path and a name. -/
  | module (path name : String) (fields : List (String × Item))

/-! ## Codes -/

namespace Scalar

def code : Scalar → Code
  | none => .none
  | bool b => .bool b
  | int n => .int n
  | float word => .float word
  | text content => .text content

def atom : Scalar → Atom
  | none => .none
  | bool b => .bool b
  | int n => .int n
  | float word => .float (.ofBits word)
  | text content => .str content

theorem instruction_code (scalar : Scalar) : scalar.code.instruction = .push scalar.atom := by
  cases scalar <;> rfl

end Scalar

/-- A tuple of integers. -/
def intCodes (values : List Int) : List Code := .mark :: (values.map .int ++ [.tuple])

namespace WrittenTensor

/-- A persistent id: the kind, the type, the key, the place and the size of a storage. -/
def storageCodes (tensor : WrittenTensor) : List Code :=
  [.mark, .text "storage", .global "torch" tensor.type.name, .text tensor.key, .text "cpu",
    .int tensor.count, .tuple, .persistent]

/-- A call of the function that rebuilds a tensor. -/
def codes (tensor : WrittenTensor) : List Code :=
  [.global "torch._utils" "_rebuild_tensor_v2", .mark] ++ tensor.storageCodes ++
    [.int tensor.offset] ++ intCodes tensor.size ++ intCodes tensor.strides ++
    [.bool false, .global "collections" "OrderedDict", .emptyTuple, .reduce, .tuple, .reduce]

end WrittenTensor

namespace Item

mutual

def codes : Item → List Code
  | scalar leaf => [leaf.code]
  | list items => [.emptyList, .mark] ++ allCodes items ++ [.appends]
  | tensor written => written.codes
  | module path name fields =>
      [.global path name, .emptyTuple, .newObject, .emptyDict] ++
        (if fields.isEmpty then [] else .mark :: (fieldCodes fields ++ [.setItems])) ++
          [.build]

def allCodes : List Item → List Code
  | [] => []
  | first :: rest => first.codes ++ allCodes rest

def fieldCodes : List (String × Item) → List Code
  | [] => []
  | (name, item) :: rest => .text name :: (item.codes ++ fieldCodes rest)

end

mutual

/-- A tree and the trees below it. -/
def subtrees : Item → List Item
  | scalar leaf => [scalar leaf]
  | list items => list items :: allSubtrees items
  | tensor written => [tensor written]
  | module path name fields => module path name fields :: fieldSubtrees fields

def allSubtrees : List Item → List Item
  | [] => []
  | first :: rest => first.subtrees ++ allSubtrees rest

def fieldSubtrees : List (String × Item) → List Item
  | [] => []
  | (_, item) :: rest => item.subtrees ++ fieldSubtrees rest

end

end Item

/-! ## Objects that stand for trees -/

/-- The fields of a module with strings for names, in order. -/
def fieldEntries (fields : List (String × Value)) : Entries :=
  ⟨fields.map fun field => (Value.nameKey field.1, (.str field.1, field.2))⟩

/-- The storage that is made for the key of a tensor. -/
structure IsStorage (contents : Table String ByteArray) (heap : Heap) (written : WrittenTensor)
    (storage : Ref .storage) : Prop where
  held : heap.storages.Holds storage
  dataType : (heap.storage storage).dataType = written.type.dataType
  key : (heap.storage storage).key = some written.key
  count : (heap.storage storage).size = .int written.count
  data : (heap.storage storage).data = contents.get? written.key

/-- A tensor that is rebuilt over a storage. -/
structure IsTensor (contents : Table String ByteArray) (heap : Heap) (written : WrittenTensor)
    (tensor : Tensor) (storage : Ref .storage) (size stride : Ref .list) : Prop where
  isStorage : IsStorage contents heap written storage
  storage : tensor.storage = .storage storage
  offset : tensor.offset = .int written.offset
  size : tensor.size = .list size
  stride : tensor.stride = .list stride
  sizes : heap.items? tensor.size = some (written.size.map .int)
  strides : heap.items? tensor.stride = some (written.strides.map .int)

section Represents

variable (contents : Table String ByteArray) (stored : String → Ref .storage → Prop)
  (heap : Heap)

mutual

/-- What stands for a tree: scalars stand for themselves, and lists, tensors and modules are
objects, which are given with those below them. -/
def Represents : Item → Value → List Value → Prop
  | .scalar leaf, value, objects => value = .atom leaf.atom ∧ objects = []
  | .list items, value, objects =>
      ∃ ref below, value = .list ref ∧ objects = .list ref :: below ∧
        RepresentAll items (heap.list ref) below
  | .tensor written, value, objects =>
      ∃ ref storage size stride, value = .tensor ref ∧
        objects = [.tensor ref, .list size, .list stride] ∧ stored written.key storage ∧
          IsTensor contents heap written (heap.tensor ref) storage size stride
  | .module path name fields, value, objects =>
      ∃ ref values below, value = .module ref ∧ objects = .module ref :: below ∧
        heap.moduleClasses.Holds (heap.module ref).moduleClass ∧
          (heap.classOf ref).module = path ∧ (heap.classOf ref).name = name ∧
            (heap.module ref).fields = fieldEntries values ∧
              RepresentFields fields values below

def RepresentAll : List Item → List Value → List Value → Prop
  | [], values, objects => values = [] ∧ objects = []
  | first :: rest, values, objects =>
      ∃ value others here later, values = value :: others ∧ objects = here ++ later ∧
        Represents first value here ∧ RepresentAll rest others later

def RepresentFields : List (String × Item) → List (String × Value) → List Value → Prop
  | [], values, objects => values = [] ∧ objects = []
  | (name, item) :: rest, values, objects =>
      ∃ value others here later, values = (name, value) :: others ∧
        objects = here ++ later ∧ Represents item value here ∧
          RepresentFields rest others later

end

end Represents

/-! ## What stays -/

/-- The heap holds an object of one of the kinds that stand for trees. -/
def Has (heap : Heap) : Value → Prop
  | .list ref => heap.lists.Holds ref
  | .tensor ref => heap.tensors.Holds ref
  | .module ref => heap.modules.Holds ref
  | _ => False

/-- An object is in a later heap as it was. -/
def Stays (before after : Heap) : Value → Prop
  | .list ref => after.lists.Holds ref ∧ after.list ref = before.list ref
  | .tensor ref => after.tensors.Holds ref ∧ after.tensor ref = before.tensor ref
  | .module ref => after.modules.Holds ref ∧ after.module ref = before.module ref
  | _ => False

section Stays

variable {heap before after : Heap} {object : Value}

theorem Stays.has (stays : Stays before after object) : Has after object := by
  cases object with
  | list ref => exact stays.1
  | tensor ref => exact stays.1
  | module ref => exact stays.1
  | _ => exact stays

theorem Has.stays (has : Has before object) (keeps : before.Keeps after) :
    Stays before after object := by
  cases object with
  | list ref => exact keeps.lists ref has
  | tensor ref => exact keeps.tensors ref has
  | module ref => exact keeps.modules ref has
  | _ => exact has

theorem Has.keeps (has : Has before object) (keeps : before.Keeps after) : Has after object :=
  (has.stays keeps).has

theorem Stays.trans {between : Heap} (first : Stays before between object)
    (second : Stays between after object) : Stays before after object := by
  cases object with
  | list ref => exact ⟨second.1, second.2.trans first.2⟩
  | tensor ref => exact ⟨second.1, second.2.trans first.2⟩
  | module ref => exact ⟨second.1, second.2.trans first.2⟩
  | _ => exact first

theorem Has.stays_setDict (has : Has heap object) (ref : Ref .dict) (dict : Dict) :
    Stays heap (heap.setDict ref dict) object := by
  cases object with
  | list found => exact ⟨has, rfl⟩
  | tensor found => exact ⟨has, rfl⟩
  | module found => exact ⟨has, rfl⟩
  | _ => exact has

theorem Has.stays_setList (has : Has heap object) {ref : Ref .list}
    (other : object ≠ .list ref) (items : List Value) :
    Stays heap (heap.setList ref items) object := by
  cases object with
  | list found =>
      have distinct : ref ≠ found := fun same => other (congrArg Value.list same.symm)
      exact ⟨Store.holds_set has ref items, (Store.get_set _ _ _ _).trans (if_neg distinct)⟩
  | tensor found => exact ⟨has, rfl⟩
  | module found => exact ⟨has, rfl⟩
  | _ => exact has

theorem Has.stays_updateModule (has : Has heap object) {ref : Ref .module}
    (other : object ≠ .module ref) (change : Module → Module) :
    Stays heap (heap.updateModule ref change) object := by
  cases object with
  | module found =>
      have distinct : ref ≠ found := fun same => other (congrArg Value.module same.symm)
      exact ⟨Store.holds_set has ref _, (Store.get_update _ _ _ _).trans (if_neg distinct)⟩
  | list found => exact ⟨has, rfl⟩
  | tensor found => exact ⟨has, rfl⟩
  | _ => exact has

end Stays

section Represents

variable {contents : Table String ByteArray} {stored known : String → Ref .storage → Prop}
  {heap after : Heap}

theorem IsStorage.keeps {written : WrittenTensor} {storage : Ref .storage}
    (isStorage : IsStorage contents heap written storage)
    (storages : heap.storages.Keeps after.storages) :
    IsStorage contents after written storage := by
  obtain ⟨held, same⟩ := storages storage isStorage.held
  have same : after.storage storage = heap.storage storage := same
  exact ⟨held, same ▸ isStorage.dataType, same ▸ isStorage.key, same ▸ isStorage.count,
    same ▸ isStorage.data⟩

theorem RepresentFields.names {fields : List (String × Item)}
    {values : List (String × Value)} {objects : List Value}
    (represent : RepresentFields contents stored heap fields values objects) :
    values.map (·.1) = fields.map (·.1) := by
  induction fields generalizing values objects with
  | nil =>
      obtain ⟨rfl, _⟩ := represent
      rfl
  | cons field rest inductionHypothesis =>
      obtain ⟨value, others, here, later, rfl, _, _, representRest⟩ := represent
      exact congrArg (field.1 :: ·) (inductionHypothesis representRest)

mutual

/-- The key of a tensor that something stands for is stored. -/
theorem Represents.stored : ∀ {item : Item} {value : Value} {objects : List Value},
    Represents contents stored heap item value objects → ∀ {written : WrittenTensor},
      .tensor written ∈ item.subtrees → ∃ ref, stored written.key ref
  | .scalar _, _, _, _, _, member => by cases List.mem_singleton.mp member
  | .list _, _, _, ⟨_, _, _, _, represent⟩, _, member => by
      rcases List.mem_cons.mp member with never | below
      · cases never
      · exact RepresentAll.stored represent below
  | .tensor _, _, _, ⟨_, storage, _, _, _, _, isStored, _⟩, _, member => by
      cases List.mem_singleton.mp member
      exact ⟨storage, isStored⟩
  | .module _ _ _, _, _, ⟨_, _, _, _, _, _, _, _, _, represent⟩, _, member => by
      rcases List.mem_cons.mp member with never | below
      · cases never
      · exact RepresentFields.stored represent below

theorem RepresentAll.stored : ∀ {items : List Item} {values objects : List Value},
    RepresentAll contents stored heap items values objects → ∀ {written : WrittenTensor},
      .tensor written ∈ Item.allSubtrees items → ∃ ref, stored written.key ref
  | [], _, _, _, _, member => absurd member List.not_mem_nil
  | _ :: _, _, _, ⟨_, _, _, _, _, _, represents, representRest⟩, _, member =>
      (List.mem_append.mp member).elim (Represents.stored represents)
        (RepresentAll.stored representRest)

theorem RepresentFields.stored :
    ∀ {fields : List (String × Item)} {values : List (String × Value)} {objects : List Value},
      RepresentFields contents stored heap fields values objects → ∀ {written : WrittenTensor},
        .tensor written ∈ Item.fieldSubtrees fields → ∃ ref, stored written.key ref
  | [], _, _, _, _, member => absurd member List.not_mem_nil
  | _ :: _, _, _, ⟨_, _, _, _, _, _, represents, representRest⟩, _, member =>
      (List.mem_append.mp member).elim (Represents.stored represents)
        (RepresentFields.stored representRest)

end

/-- What a later heap has to have of an earlier one besides the objects: the storages and the
classes. -/
structure Backs (stored known : String → Ref .storage → Prop) (heap after : Heap) : Prop where
  storages : heap.storages.Keeps after.storages
  classes : heap.moduleClasses.Keeps after.moduleClasses
  known : ∀ key ref, stored key ref → known key ref

mutual

/-- What stands for a tree stands for it as long as the objects stay. -/
theorem Represents.stays (backs : Backs stored known heap after) :
    ∀ {item : Item} {value : Value} {objects : List Value},
      Represents contents stored heap item value objects →
        (∀ object ∈ objects, Stays heap after object) →
          Represents contents known after item value objects
  | .scalar _, _, _, represents, _ => represents
  | .list items, _, _, ⟨ref, below, isRef, rfl, represents⟩, stay => by
      obtain ⟨⟨_, same⟩, stayBelow⟩ := List.forall_mem_cons.mp stay
      refine ⟨ref, below, isRef, rfl, ?_⟩
      rw [same]
      exact RepresentAll.stays backs represents stayBelow
  | .tensor written, _, _, ⟨ref, storage, size, stride, isRef, rfl, isStored, isTensor⟩,
      stay => by
      obtain ⟨⟨_, same⟩, ⟨_, sameSize⟩, ⟨_, sameStride⟩, _⟩ :=
        List.forall_mem_cons.mp stay |>.imp_right fun rest =>
          List.forall_mem_cons.mp rest |>.imp_right List.forall_mem_cons.mp
      refine ⟨ref, storage, size, stride, isRef, rfl, backs.known _ _ isStored, ?_⟩
      rw [same]
      refine ⟨isTensor.isStorage.keeps backs.storages, isTensor.storage, isTensor.offset,
        isTensor.size, isTensor.stride, ?_, ?_⟩
      · rw [isTensor.size, Heap.items?, sameSize, ← isTensor.sizes, isTensor.size, Heap.items?]
      · rw [isTensor.stride, Heap.items?, sameStride, ← isTensor.strides, isTensor.stride,
          Heap.items?]
  | .module path name fields, _, _,
      ⟨ref, values, below, isRef, rfl, held, isPath, isName, areFields, represents⟩, stay => by
      obtain ⟨⟨_, same⟩, stayBelow⟩ := List.forall_mem_cons.mp stay
      obtain ⟨heldAfter, sameClass⟩ := backs.classes _ held
      have sameClass : after.classOf ref = heap.classOf ref := by
        rw [Heap.classOf, same]
        exact sameClass
      refine ⟨ref, values, below, isRef, rfl, ?_, ?_, ?_, ?_, ?_⟩
      · rw [same]
        exact heldAfter
      · rw [sameClass, isPath]
      · rw [sameClass, isName]
      · rw [same, areFields]
      · exact RepresentFields.stays backs represents stayBelow

theorem RepresentAll.stays (backs : Backs stored known heap after) :
    ∀ {items : List Item} {values objects : List Value},
      RepresentAll contents stored heap items values objects →
        (∀ object ∈ objects, Stays heap after object) →
          RepresentAll contents known after items values objects
  | [], _, _, represents, _ => represents
  | _ :: _, _, _, ⟨value, others, here, later, areValues, rfl, represents, representRest⟩,
      stay => by
      obtain ⟨stayHere, stayLater⟩ := List.forall_mem_append.mp stay
      exact ⟨value, others, here, later, areValues, rfl,
        Represents.stays backs represents stayHere,
        RepresentAll.stays backs representRest stayLater⟩

theorem RepresentFields.stays (backs : Backs stored known heap after) :
    ∀ {fields : List (String × Item)} {values : List (String × Value)} {objects : List Value},
      RepresentFields contents stored heap fields values objects →
        (∀ object ∈ objects, Stays heap after object) →
          RepresentFields contents known after fields values objects
  | [], _, _, represents, _ => represents
  | _ :: _, _, _, ⟨value, others, here, later, areValues, rfl, represents, representRest⟩,
      stay => by
      obtain ⟨stayHere, stayLater⟩ := List.forall_mem_append.mp stay
      exact ⟨value, others, here, later, areValues, rfl,
        Represents.stays backs represents stayHere,
        RepresentFields.stays backs representRest stayLater⟩

end

end Represents

end TorchArchive.Pickle
