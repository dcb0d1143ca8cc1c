import TorchArchive.Heap.Snapshot

/-!
Dumps of values: exact accounts of values as documents. Doubles are told by their
bits; objects are numbered when they are first met and told by their numbers after
that.
-/

namespace TorchArchive.Dump

open TorchArchive

/-- The objects that were met, each numbered by its place. -/
abbrev Met := List (Kind × Nat)

/-- A part of a dump. -/
abbrev Dumped := StateM Met

/-- An object of one entry. -/
def single (name : String) (content : Datum) : Datum := .fields [(name, content)]

def strings (items : List String) : Datum := .list (items.map .str)

/-- The dump of what may be missing. -/
def optional (dump : α → Datum) : Option α → Datum
  | some a => dump a
  | none => .none

private def bits (x : Binary64) : Datum := .str (if x.isNaN then "nan" else x.toHex)

/-- The dump of an atom. -/
def atom : Atom → Datum
  | .none => .none
  | .bool b => .bool b
  | .int n => if n.natAbs < 0x20000000000000 then .int n else single "int" (.str (integerText n))
  | .float x => single "float" (bits x)
  | .imaginary x => single "complex" (.list [bits ⟨0⟩, bits x])
  | .str s => .str s
  | .bytes data | .byteArray data => single "bytes" (.str (hexText data))
  | .ellipsis => single "ellipsis" (.bool true)
  | .missing => single "missing" (.bool true)
  | .typeRef name => single "typeref" (.str name)

private def setOf (frozen : Bool) : Datum :=
  single "other" (.str (if frozen then "frozenset" else "set"))

private def recursion : Datum := single "cycle" (.bool true)

/-- Numbers an object; only the first meeting dumps it. -/
private def numbered (kind : Kind) (index : Nat) (name : String)
    (fields : Dumped (List (String × Datum))) : Dumped Datum := do
  let met ← get
  match met.findIdx? (· == (kind, index)) with
  | some n => return single "ref" (.int n)
  | none =>
      set (met ++ [(kind, index)])
      return single name (.fields (("n", .int met.length) :: (← fields)))

/-- The names in order. -/
private def sorted (names : List String) : List String :=
  names.mergeSort fun a b => a < b || a == b

/-- The dump of a value inside of the given lists and dictionaries. -/
private def valueWithin (heap : Heap) : Nat → Met → Value → Dumped Datum
  | 0, _, _ => pure recursion
  | fuel + 1, inside, value => do
      let plain := valueWithin heap fuel inside
      match value with
      | .atom a => return atom a
      | .tuple items => return single "tuple" (.list (← items.mapM plain))
      | .set frozen _ => return setOf frozen
      | .packed form arguments =>
          return .fields [("packed", .str form.name),
            ("arguments", single "tuple" (.list (← arguments.mapM plain)))]
      | .list ref =>
          let here := (Kind.list, ref.index)
          if inside.contains here then return recursion
          else
            return .list
              (← (heap.list ref).mapM (valueWithin heap fuel (here :: inside)))
      | .dict ref =>
          let here := (Kind.dict, ref.index)
          if inside.contains here then return recursion
          else
            let within := valueWithin heap fuel (here :: inside)
            let entries ← (heap.dict ref).entries.pairs.mapM fun entry => do
              let key ← within entry.1
              return .list [key, ← within entry.2]
            return single "dict" (.list entries)
      | .tensor ref =>
          numbered .tensor ref.index "tensor" do
            let tensor := heap.tensor ref
            return [("type", .str (heap.describe value)),
              ("storage", ← plain tensor.storage),
              ("offset", ← plain tensor.offset),
              ("size", ← plain tensor.size),
              ("stride", ← plain tensor.stride),
              ("name", .str tensor.name),
              ("requires_grad", .bool tensor.requiresGrad),
              ("quant", ← plain tensor.quantizer),
              ("value", ← plain tensor.value),
              ("outputs", ← plain (.list tensor.outputs)),
              ("owner", optional .int tensor.owner),
              ("initializer",
                optional (fun view => single "init" (.str view.type.text))
                  tensor.initializer)]
      | .storage ref =>
          numbered .storage ref.index "storage" do
            let storage := heap.storage ref
            return [("type", .str (heap.describe value)),
              ("dtype", .str storage.dataType),
              ("itemsize", .int storage.itemSize),
              ("size", ← plain storage.size),
              ("key", optional .str storage.key),
              ("data", optional (fun data => .str (hexText data)) storage.data)]
      | .module ref =>
          numbered .module ref.index "module" do
            let module := heap.module ref
            let fields ← module.fields.pairs.mapM fun entry => do
              let key ← plain entry.1
              return .list [key, ← plain entry.2]
            return [("type", .str (heap.describe value)),
              ("index", optional (fun n => .int n) module.index),
              ("parent", optional .int module.parent),
              ("identifier", optional .str module.identifier),
              ("hidden", .bool module.hidden), ("fields", .list fields)]
      | .moduleClass ref =>
          numbered .moduleClass ref.index "class" do
            let table := heap.table (heap.moduleClass ref).members
            let members ← table.entries.mapM fun entry => do
              return .list [.str entry.1, ← plain entry.2]
            return [("name", .str (heap.describe value)), ("members", .list members)]
      | .package ref =>
          let package := heap.package ref
          return .fields [("namespace", .str package.name),
            ("file", optional .str package.file),
            ("members", strings (sorted (heap.table package.members).keys))]
      | .function ref =>
          let function := heap.function ref
          let parameters ← (heap.list function.parameters).mapM plain
          return .fields
            [("function", .str (function.module ++ "." ++ function.name)),
              ("parameters", .list parameters)]
      | .storageType type =>
          return .fields [("storagetype", .str type.qualifiedName),
            ("dtype", .str type.dataType), ("itemsize", .int type.itemSize)]
      | .builtin _ | .method _ => return single "builtin" (.bool true)

/-- The dump of a value, which goes on numbering. -/
def value (heap : Heap) (value : Value) : Dumped Datum :=
  valueWithin heap Heap.nestingLimit [] value

/-- The dump of a value by itself. -/
def valueAlone (heap : Heap) (content : Value) : Datum := ((value heap content).run []).1

/-- The dump of names with their values. -/
def bindings (heap : Heap) (entries : List (String × Value)) : Dumped Datum := do
  return .list (← entries.mapM fun entry => do
    return .list [.str entry.1, ← value heap entry.2])

/-! ## Data -/

mutual

/-- The dump of data whose leaves may be objects. -/
def datum (heap : Heap) : Datum → Dumped Datum
  | .atom a => return atom a
  | .list items => do return .list (← data heap items)
  | .tuple items => do return single "tuple" (.list (← data heap items))
  | .dict _ content => do return single "dict" (.list (← entries heap content))
  | .set frozen _ => return setOf frozen
  | .object name _ handle =>
      match handle with
      | .atom _ => return single "other" (.str name)
      | handle => value heap handle
  | .cycle _ => return recursion

private def data (heap : Heap) : List Datum → Dumped (List Datum)
  | [] => return []
  | item :: rest => do
      let first ← datum heap item
      return first :: (← data heap rest)

private def entries (heap : Heap) : List (Datum × Datum) → Dumped (List Datum)
  | [] => return []
  | (key, content) :: rest => do
      let key ← datum heap key
      let content ← datum heap content
      return .list [key, content] :: (← entries heap rest)

end

/-- The dump of data by itself. -/
def datumAlone (heap : Heap) (content : Datum) : Datum := ((datum heap content).run []).1

end TorchArchive.Dump
