import TorchArchive.Fault
import TorchArchive.Heap.Basic

/-!
Members of values. Packages, modules, classes and dictionaries hold members that
code can set; every other value shows a fixed choice of its properties.
-/

namespace TorchArchive

namespace Builtin

/-- Whether a builtin is bound to the registry that it belongs to. -/
def isBound : Builtin → Bool
  | uninitialized | multiply | rebuildQuantizedTensor => true
  | _ => false

end Builtin

namespace Heap

/-- The name of the type of a value. -/
def typeName (heap : Heap) : Value → String
  | .atom a => a.typeName
  | .tuple _ => "tuple"
  | .set frozen _ => if frozen then "frozenset" else "set"
  | .packed _ _ => "PackedParams"
  | .list _ => "list"
  | .dict ref => if (heap.dict ref).ordered then "OrderedDict" else "dict"
  | .tensor _ => "TensorObject"
  | .storage _ => "Storage"
  | .module ref =>
      if (heap.module ref).moduleClass = baseClass then "ModuleObject"
      else (heap.classOf ref).name
  | .moduleClass _ => "type"
  | .package _ => "Namespace"
  | .function _ => "Function"
  | .storageType _ => "StorageType"
  | .builtin callable => if callable.isBound then "method" else "function"
  | .method _ => "builtin_function_or_method"

/-- How a value is named in messages. -/
def describe (heap : Heap) (value : Value) : String :=
  match value with
  | .package ref => (heap.package ref).name
  | .module ref =>
      let moduleClass := heap.classOf ref
      moduleClass.module ++ "." ++ moduleClass.name
  | .moduleClass ref =>
      let moduleClass := heap.moduleClass ref
      moduleClass.module ++ "." ++ moduleClass.name
  | .tensor ref =>
      let tensor := heap.tensor ref
      tensor.typeModule ++ "." ++ tensor.typeName
  | .storage ref =>
      let storage := heap.storage ref
      storage.typeModule ++ "." ++ storage.typeName
  | _ => heap.typeName value

/-! ## Properties -/

/-- The element type of the storage that a value is. -/
private def dataType? (heap : Heap) : Value → Option Value
  | .atom .none => some .none
  | .storage ref => some (.str (heap.storage ref).dataType)
  | .storageType type => some (.str type.dataType)
  | _ => none

/-- The name of the only value that flows out of a tensor. -/
def identifier? (heap : Heap) (ref : Ref .tensor) : Option Value :=
  match heap.list (heap.tensor ref).outputs with
  | [output] => some output
  | _ => none

private def tensorProperty? (heap : Heap) (ref : Ref .tensor) (name : String) :
    Option Value :=
  let tensor := heap.tensor ref
  match name with
  | "type_module" => some (.str tensor.typeModule)
  | "type_name" => some (.str tensor.typeName)
  | "storage" => some tensor.storage
  | "storage_offset" => some tensor.offset
  | "size" => some tensor.size
  | "stride" => some tensor.stride
  | "name" => some (.str tensor.name)
  | "requires_grad" => some (.bool tensor.requiresGrad)
  | "quantizer_params" => some tensor.quantizer
  | "value" => some tensor.value
  | "outputs" => some (.list tensor.outputs)
  | "owner" => some (tensor.owner.elim .none .int)
  | "initializer" => some .none
  | "dtype" => heap.dataType? tensor.storage
  | "identifier" => some ((heap.identifier? ref).getD .none)
  | _ => none

private def storageProperty? (storage : Storage) : String → Option Value
  | "dtype" => some (.str storage.dataType)
  | "itemsize" => some (.int storage.itemSize)
  | "size" => some storage.size
  | "data" => some (storage.data.elim .none fun data => .atom (.bytes data))
  | "key" => some (storage.key.elim .none .str)
  | "type_module" => some (.str storage.typeModule)
  | "type_name" => some (.str storage.typeName)
  | _ => none

private def storageTypeProperty? (type : StorageType) : String → Option Value
  | "type_module" => some (.str StorageType.package)
  | "type_name" => some (.str type.name)
  | "dtype" => some (.str type.dataType)
  | "itemsize" => some (.int type.itemSize)
  | _ => none

private def functionProperty? (function : Function) : String → Option Value
  | "type_module" => some (.str function.module)
  | "type_name" => some (.str function.name)
  | "parameters" => some (.list function.parameters)
  | _ => none

private def integerProperty? (n : Int) : String → Option Value
  | "real" => some (.int n)
  | "bit_length" => some (.method (.intBitLength n))
  | _ => none

private def stringProperty? (s : String) : String → Option Value
  | "upper" => some (.method (.strUpper s))
  | "split" => some (.method (.strSplit s))
  | _ => none

private def listProperty? (ref : Ref .list) : String → Option Value
  | "append" => some (.method (.listAppend ref))
  | "extend" => some (.method (.listExtend ref))
  | "pop" => some (.method (.listPop ref))
  | "copy" => some (.method (.listCopy ref))
  | _ => none

/-- A property of a value that holds no members of its own. -/
private def property? (heap : Heap) (target : Value) (name : String) :
    Option Value :=
  match target with
  | .atom (.bool b) => integerProperty? (if b then 1 else 0) name
  | .atom (.int n) => integerProperty? n name
  | .atom (.float x) => if name = "real" then some (.float x) else none
  | .atom (.str s) => stringProperty? s name
  | .atom (.typeRef type) => if name = "name" then some (.str type) else none
  | .packed form arguments =>
      if name = "kind" then some (.str form.name)
      else if name = "arguments" then some (.tuple arguments)
      else none
  | .list ref => listProperty? ref name
  | .tensor ref => heap.tensorProperty? ref name
  | .storage ref => storageProperty? (heap.storage ref) name
  | .storageType type => storageTypeProperty? type name
  | .function ref => functionProperty? (heap.function ref) name
  | _ => none

/-! ## Members -/

/-- The member of a value under a name. A module's fields come before the members
of its class; names that begin with an underscore are no properties. -/
def member? (heap : Heap) (target : Value) (name : String) : Option Value :=
  match target with
  | .package ref => (heap.table (heap.package ref).members).get? name
  | .module ref =>
      match (heap.module ref).fields.getName? name with
      | some value => some value
      | none => (heap.table (heap.classOf ref).members).get? name
  | .moduleClass ref => (heap.table (heap.moduleClass ref).members).get? name
  | .dict ref => (heap.dict ref).entries.getName? name
  | target =>
      if name.startsWith "_" then none else heap.property? target name

/-- The member of a value under a name, or what unbound names evaluate to. -/
def findMember (heap : Heap) (target : Value) (name : String) : Value :=
  (heap.member? target name).getD .missing

/-- The member of a value under a name, which has to exist. -/
def getMember (heap : Heap) (target : Value) (name : String) :
    Except Fault Value :=
  match heap.member? target name with
  | some value => .ok value
  | none => .error (.unknownMember name (heap.describe target))

/-- Whether a value holds no members that can be set, and shows no value that does. -/
def isPlain : Value → Bool
  | .atom _ | .tuple _ | .list _ | .function _ | .method _ => true
  | _ => false

private theorem isPlain_of_property {heap : Heap} {value found : Value} {name : String}
    (plain : isPlain value = true) (shows : heap.property? value name = some found) :
    isPlain found = true := by
  have integer {n : Int} (shows : integerProperty? n name = some found) :
      isPlain found = true := by
    rw [integerProperty?.eq_def] at shows
    split at shows <;> cases shows <;> rfl
  cases value with
  | atom a =>
      cases a with
      | bool b => exact integer shows
      | int n => exact integer shows
      | float x =>
          rw [property?] at shows
          split at shows <;> cases shows
          rfl
      | str s =>
          rw [property?, stringProperty?.eq_def] at shows
          split at shows <;> cases shows <;> rfl
      | typeRef type =>
          rw [property?] at shows
          split at shows <;> cases shows
          rfl
      | _ => cases shows
  | list ref =>
      rw [property?, listProperty?.eq_def] at shows
      split at shows <;> cases shows <;> rfl
  | function ref =>
      rw [property?, functionProperty?.eq_def] at shows
      split at shows <;> cases shows <;> rfl
  | tuple items => cases shows
  | method method => cases shows
  | _ => cases plain

theorem isPlain_findMember (heap : Heap) {value : Value} (plain : isPlain value = true)
    (name : String) : isPlain (heap.findMember value name) = true := by
  have shown :
      heap.member? value name =
        if name.startsWith "_" then none else heap.property? value name := by
    cases value with
    | atom _ | tuple _ | list _ | function _ | method _ => rfl
    | _ => cases plain
  rw [findMember, shown]
  split
  · rfl
  · cases shows : heap.property? value name with
    | none => rfl
    | some found => exact isPlain_of_property plain shows

/-- Sets the member of a value that holds members. -/
def setMember (heap : Heap) (target : Value) (name : String) (value : Value) :
    Except Fault Heap :=
  match target with
  | .package ref => .ok (heap.bind (heap.package ref).members name value)
  | .module ref =>
      .ok (heap.updateModule ref fun module =>
        { module with fields := module.fields.putName name value })
  | .moduleClass ref => .ok (heap.bind (heap.moduleClass ref).members name value)
  | .dict ref =>
      let dict := heap.dict ref
      .ok (heap.setDict ref { dict with entries := dict.entries.putName name value })
  | _ => .error (.fixedMember name (heap.describe target))

/-- The modules among the fields of a module. A field whose name is no string
cannot be told from those that are kept apart, whose names begin with two
underscores. -/
def submodules (heap : Heap) (ref : Ref .module) :
    Except Fault (List (Value × Value)) :=
  (heap.module ref).fields.pairs.filterMapM fun entry =>
    match entry.1.str? with
    | none => .error (.member s!"'{heap.typeName entry.1}' is not a name")
    | some name =>
        match entry.2 with
        | .module _ => .ok (if name.startsWith "__" then none else some entry)
        | _ => .ok none

/-! ## Kinds of fields -/

/-- What a field of a module holds. -/
inductive FieldKind where
  | tensor
  | module
  | list
  | scalar
  deriving DecidableEq

def FieldKind.name : FieldKind → String
  | tensor => "tensor"
  | module => "module"
  | list => "list"
  | scalar => "scalar"

/-- The kind of a field's value; tuples and dictionaries count as lists. -/
def classify : Value → FieldKind
  | .tensor _ => .tensor
  | .module _ => .module
  | .list _ | .tuple _ | .dict _ => .list
  | _ => .scalar

end Heap

end TorchArchive
