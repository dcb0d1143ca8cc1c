import TorchArchive.Heap.Member

/-!
Snapshots: the tree of data that a value stands for at a moment. Objects become
leaves that carry their text; a container inside itself is cut off.
-/

namespace TorchArchive

namespace Heap

/-- The depth to which containers are followed. -/
def nestingLimit : Nat := 1000

/-- A container that a snapshot is inside of. -/
private structure Open where
  kind : Kind
  index : Nat
  deriving DecidableEq

private def builtinText : Builtin → String
  | .operator name => "<function " ++ name ++ ">"
  | .stub name => "<function " ++ name ++ ">"
  | _ => "<function>"

private def methodText : Method → String
  | .listAppend _ => "<built-in method append>"
  | .listExtend _ => "<built-in method extend>"
  | .listPop _ => "<built-in method pop>"
  | .listCopy _ => "<built-in method copy>"
  | .strUpper _ => "<built-in method upper>"
  | .strSplit _ => "<built-in method split>"
  | .intBitLength _ => "<built-in method bit_length>"

/-- The text of a record: its name and its fields. -/
private def recordText (name : String) (fields : List (String × String)) : String :=
  name ++ "(" ++
    Datum.commaSeparated (fields.map fun field => field.1 ++ "=" ++ field.2) ++ ")"

private def optionText (text : α → String) : Option α → String
  | some a => text a
  | none => "None"

private def storageFields (storage : Storage) (size : String) :
    List (String × String) :=
  [("dtype", quotedText storage.dataType),
    ("itemsize", integerText storage.itemSize),
    ("size", size),
    ("data", optionText quotedBytes storage.data),
    ("key", optionText quotedText storage.key),
    ("type_module", quotedText storage.typeModule),
    ("type_name", quotedText storage.typeName)]

private def tensorParts (tensor : Tensor) (text : Value → String) :
    List (String × String) :=
  [("type_module", quotedText tensor.typeModule),
    ("type_name", quotedText tensor.typeName),
    ("storage", text tensor.storage),
    ("storage_offset", text tensor.offset),
    ("size", text tensor.size),
    ("stride", text tensor.stride),
    ("name", quotedText tensor.name),
    ("requires_grad", (Atom.bool tensor.requiresGrad).written),
    ("quantizer_params", text tensor.quantizer),
    ("value", text tensor.value),
    ("outputs", text (.list tensor.outputs)),
    ("owner", optionText integerText tensor.owner),
    ("initializer", optionText (fun _ => "<tensor>") tensor.initializer)]

/-- The snapshot of a value inside of the given containers. -/
private def snapshotWithin (heap : Heap) : Nat → List Open → Value → Datum
  | 0, _, _ => .cycle "..."
  | fuel + 1, inside, value =>
      let within (kind : Kind) (index : Nat) := snapshotWithin heap fuel (⟨kind, index⟩ :: inside)
      let plain := snapshotWithin heap fuel inside
      let leaf (text : String) : Datum := .object (heap.typeName value) text value
      match value with
      | .atom a => .atom a
      | .tuple items => .tuple (items.map plain)
      | .set frozen items => .set frozen (items.map plain)
      | .packed form arguments =>
          leaf (recordText "PackedParams"
            [("kind", quotedText form.name),
              ("arguments", (Datum.tuple (arguments.map plain)).written)])
      | .list ref =>
          if inside.contains ⟨.list, ref.index⟩ then .cycle "[...]"
          else .list ((heap.list ref).map (within .list ref.index))
      | .dict ref =>
          let dict := heap.dict ref
          if inside.contains ⟨.dict, ref.index⟩ then
            .cycle (if dict.ordered then "..." else "\x7b...\x7d")
          else
            .dict dict.ordered
              (dict.entries.pairs.map fun entry =>
                (within .dict ref.index entry.1, within .dict ref.index entry.2))
      | .tensor ref =>
          if inside.contains ⟨.tensor, ref.index⟩ then .cycle "..."
          else
            leaf (recordText "TensorObject"
              (tensorParts (heap.tensor ref)
                fun part => (within .tensor ref.index part).written))
      | .storage ref =>
          if inside.contains ⟨.storage, ref.index⟩ then .cycle "..."
          else
            let storage := heap.storage ref
            leaf (recordText "Storage"
              (storageFields storage
                (within .storage ref.index storage.size).written))
      | .module ref =>
          let identifier := (heap.module ref).identifier.getD ""
          leaf ("<" ++ heap.describe value ++ " " ++ identifier ++ ">")
      | .moduleClass _ => leaf ("<class '" ++ heap.describe value ++ "'>")
      | .package ref =>
          leaf ("Namespace(" ++ quotedText (heap.package ref).name ++ ")")
      | .function ref =>
          let function := heap.function ref
          leaf ("<function " ++ function.module ++ "." ++ function.name ++ ">")
      | .storageType type => leaf type.qualifiedName
      | .builtin callable => leaf (builtinText callable)
      | .method callable => leaf (methodText callable)

/-- The snapshot of a value. -/
def snapshot (heap : Heap) (value : Value) : Datum :=
  heap.snapshotWithin nestingLimit [] value

/-- The plain text of a value. -/
def text (heap : Heap) (value : Value) : String := (heap.snapshot value).text

/-- The form in which a value is written. -/
def written (heap : Heap) (value : Value) : String := (heap.snapshot value).written

/-- Whether a value counts as true. -/
def truthy (heap : Heap) : Value → Bool
  | .atom a => a.truthy
  | .tuple items | .set _ items => !items.isEmpty
  | .list ref => !(heap.list ref).isEmpty
  | .dict ref => !(heap.dict ref).entries.entries.isEmpty
  | _ => true

/-- Only zero counts as false among the integers. -/
theorem ite_truthy_int (heap : Heap) (n : Int) (f : Int → α) :
    (if heap.truthy (.int n) then f n else f 0) = f n := by
  by_cases zero : n = 0
  · rw [zero, ite_self]
  · exact if_pos (bne_iff_ne.mpr zero)

/-! ## Values of data -/

mutual

/-- The value of a datum: containers become new objects. -/
def ofDatum (heap : Heap) : Datum → Value × Heap
  | .atom a => (.atom a, heap)
  | .list items =>
      let (values, heap) := heap.ofItems items
      let (ref, heap) := heap.addList values
      (.list ref, heap)
  | .tuple items =>
      let (values, heap) := heap.ofItems items
      (.tuple values, heap)
  | .dict ordered entries =>
      let (entries, heap) := heap.ofEntries .empty entries
      let (ref, heap) := heap.addDict ⟨ordered, entries⟩
      (.dict ref, heap)
  | .set frozen items =>
      let (values, heap) := heap.ofItems items
      (.set frozen values, heap)
  | .object _ _ handle => (handle, heap)
  | .cycle _ => (.none, heap)

private def ofItems (heap : Heap) : List Datum → List Value × Heap
  | [] => ([], heap)
  | item :: rest =>
      let (value, heap) := heap.ofDatum item
      let (values, heap) := heap.ofItems rest
      (value :: values, heap)

private def ofEntries (heap : Heap) (entries : Entries) :
    List (Datum × Datum) → Entries × Heap
  | [] => (entries, heap)
  | (key, value) :: rest =>
      let (key, heap) := heap.ofDatum key
      let (value, heap) := heap.ofDatum value
      heap.ofEntries ((entries.put? key value).getD entries) rest

end

end Heap

end TorchArchive
