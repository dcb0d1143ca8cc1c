import TorchArchive.Character.Upper
import TorchArchive.Heap.Sequence
import TorchArchive.Registry.Trace
import TorchArchive.Text.Split

/-!
What the builtins do. A builtin takes the values of its parameters and may change
the heap and the trace; most of them ignore what archive code computes and only
keep the shape of it.
-/

namespace TorchArchive

/-! ## Arguments

Each parameter gets its value by position or by name, or a default. -/

/-- A parameter of a builtin. -/
structure Parameter where
  name : String
  default : Option Value

namespace Parameter

def required (name : String) : Parameter := ⟨name, none⟩

def optional (name : String) (default : Value) : Parameter := ⟨name, some default⟩

/-- The value of a parameter from what is left of the arguments. -/
private def choose (parameter : Parameter) (positional : List Value)
    (keywords : List (String × Value)) : Option (Value × List Value) :=
  match positional, keywords.lookup parameter.name with
  | _ :: _, some _ => none
  | value :: rest, none => some (value, rest)
  | [], some value => some (value, [])
  | [], none => parameter.default.map fun value => (value, [])

private def values (keywords : List (String × Value)) :
    List Parameter → List Value → Option (List Value)
  | [], [] => some []
  | [], _ :: _ => none
  | parameter :: others, positional => do
      let (value, rest) ← parameter.choose positional keywords
      return value :: (← values keywords others rest)

/-- The values of all parameters; none if an argument is missing, is given twice
or belongs to no parameter. -/
def assign (parameters : List Parameter) (positional : List Value)
    (keywords : List (String × Value)) : Option (List Value) :=
  if keywords.all fun keyword =>
      parameters.any fun parameter => parameter.name == keyword.1 then
    values keywords parameters positional
  else none

end Parameter

/-- A step that changes a heap and its trace and may fail. -/
abbrev Recorded := EStateM Fault Recording

namespace Recorded

/-- The heap. -/
def heap : Recorded Heap := do return (← get).heap

/-- A change that yields something. -/
def change (step : Recording → α × Recording) : Recorded α := modifyGet step

/-- A change of the heap that yields something. -/
def allocate (step : Heap → α × Heap) : Recorded α :=
  modifyGet fun recording =>
    let (a, heap) := step recording.heap
    (a, { recording with heap })

end Recorded

open Recorded

namespace Builtin

/-! ## Parameters -/

/-- The parameters of a builtin; none if it takes arguments of any number. -/
def parameters : Builtin → Option (List Parameter)
  | annotate | uncheckedCast => some [.required "type", .required "value"]
  | orderedDict => some [.optional "args" .none]
  | int => some [.optional "value" (.int 0)]
  | float => some [.optional "value" (.float ⟨0⟩)]
  | getMember =>
      some [.required "obj", .required "name", .optional "default" .none]
  | uninitialized => some [.optional "type" .none]
  | uncheckedUnwrap | numberToTensor | negation | unwrapOptional =>
      some [.required "value"]
  | raiseException => some [.optional "message" (.str "")]
  | isSame | isNotSame | equal | notEqual | greater | less | multiply =>
      some [.required "left", .required "right"]
  | rebuildTensor =>
      some [.required "storage", .optional "storage_offset" (.int 0),
        .optional "size" .none, .optional "stride" .none,
        .optional "requires_grad" (.bool false), .optional "backward_hooks" .none,
        .optional "metadata" .none]
  | rebuildQuantizedTensor =>
      some [.required "storage", .optional "storage_offset" (.int 0),
        .optional "size" .none, .optional "stride" .none,
        .optional "quantizer_params" .none,
        .optional "requires_grad" (.bool false), .optional "backward_hooks" .none]
  | rebuildParameter =>
      some [.required "data", .optional "requires_grad" (.bool false),
        .optional "backward_hooks" .none]
  | dimension | quantizerScale | transpose => some [.required "tensor"]
  | buildList _ => some [.required "data"]
  | prepack _ | operator _ | stub _ => none

/-- The name of a builtin in messages. -/
def callName : Builtin → String
  | int => "_int"
  | float => "_float"
  | getMember => "_getattr"
  | uninitialized => "_uninitialized"
  | raiseException => "_raise"
  | isSame => "_is"
  | negation => "_not"
  | rebuildTensor => "_rebuild_tensor"
  | rebuildQuantizedTensor => "_rebuild_qtensor"
  | equal => "_eq"
  | multiply => "_mul"
  | operator name => Recording.lastPart name
  | _ => "<lambda>"

/-! ## Numbers -/

/-- The number that a value is; truth values are none. -/
def number? : Value → Option Number
  | .atom a => a.number?
  | _ => none

def toInteger (value : Value) : Except Fault Value :=
  match number? value with
  | none => .ok (.int 0)
  | some (.int n) => .ok (.int n)
  | some (.float x) =>
      match x.truncate? with
      | some n => .ok (.int n)
      | none => if x.isNaN then .error (.value "not a number") else .error .overflow

def toFloat (value : Value) : Except Fault Value :=
  match number? value with
  | none => .ok (.float ⟨0⟩)
  | some number =>
      match number.toFloat? with
      | some x => .ok (.float x)
      | none => .error .overflow

/-- Whether two strings or two numbers are equal. -/
def areEqual (left right : Value) : Except Fault Bool :=
  match left, right with
  | .atom (.str a), .atom (.str b) => .ok (a == b)
  | left, right =>
      match number? left, number? right with
      | some a, some b => .ok (a.equals b)
      | _, _ => .error .comparisonOperands

/-- Whether the first of two numbers is less. -/
def isLess (left right : Value) : Except Fault Bool :=
  match number? left, number? right with
  | some a, some b => .ok (a.less b)
  | _, _ => .error .comparisonOperands

def product (left right : Value) : Recorded Value :=
  match number? left, number? right with
  | some a, some b =>
      match a.mul? b with
      | some number => pure (.atom (.ofNumber number))
      | none => throw .overflow
  | _, _ =>
      if left.isTensor && right.isTensor then
        .tensor <$> change fun recording => recording.placeholder none .none
      else throw .productOperands

/-! ## Identity -/

/-- Whether two values are both nothing; two that are both something cannot be
told apart. -/
def areSame (left right : Value) : Except Fault Bool :=
  if left.isNone && right.isNone then .ok true
  else if left.isNone || right.isNone then .ok false
  else .error .identityOperands

def negated (value : Value) : Except Fault Value :=
  match value with
  | .atom (.bool b) => .ok (.bool !b)
  | _ => .error .negationOperand

/-! ## Dictionaries and members -/

/-- The two parts of an entry. -/
def entryOf (heap : Heap) (value : Value) : Except Fault (Value × Value) := do
  match ← heap.iterate value with
  | [key, value] => return (key, value)
  | _ => throw (.value "an entry has two parts")

/-- Adds an entry, whose key has to be hashable. -/
def addEntry (heap : Heap) (entries : Entries) (entry : Value) :
    Except Fault Entries := do
  let parts ← entryOf heap entry
  match entries.put? parts.1 parts.2 with
  | some entries => return entries
  | none => throw (.type s!"unhashable type: '{heap.typeName parts.1}'")

def entriesOf (heap : Heap) (value : Value) : Except Fault Entries :=
  match value with
  | .dict ref => .ok (heap.dict ref).entries
  | value => do (← heap.iterate value).foldlM (addEntry heap) .empty

/-- A new dictionary of given entries that keeps their order. -/
def newDict (value : Value) : Recorded Value := do
  let heap ← heap
  let entries ←
    if heap.truthy value then ofExcept (entriesOf heap value) else pure .empty
  return .dict (← allocate fun heap => heap.addDict ⟨true, entries⟩)

/-- The member of a value under a name that may be no string. -/
def memberOf (heap : Heap) (target name : Value) : Except Fault (Option Value) :=
  match name with
  | .atom (.str name) => .ok (heap.member? target name)
  | name =>
      match target, name.key? with
      | .package _, none | .module _, none | .moduleClass _, none | .dict _, none =>
          .error (.type s!"unhashable type: '{heap.typeName name}'")
      | .package _, some _ | .moduleClass _, some _ | .atom .none, _ => .ok none
      | .module ref, some key =>
          .ok (((heap.module ref).fields.get? key).map (·.2))
      | .dict ref, some key => .ok (((heap.dict ref).entries.get? key).map (·.2))
      | _, _ =>
          match name with
          | .atom (.bytes _) | .atom (.byteArray _) =>
              .error (.type s!"'{heap.typeName name}' is not a name")
          | name => .error (.member s!"'{heap.typeName name}' is not a name")

/-! ## Tensors -/

def sequence? (value : Value) : Recorded Value := do
  if value.isNone then return .none
  else
    let items ← ofExcept ((← heap).iterate value)
    return .list (← allocate fun heap => heap.addList items)

/-- A new tensor over a storage. -/
def rebuild (storage offset size stride requiresGrad quantizer : Value) :
    Recorded Value := do
  let heap ← heap
  let size ← sequence? size
  let stride ← sequence? stride
  let outputs ← allocate fun heap => heap.addList []
  let plain : Tensor := { Tensor.blank outputs with
    storage, size, stride, quantizer
    offset := if heap.truthy offset then offset else .int 0
    requiresGrad := heap.truthy requiresGrad }
  let tensor : Tensor :=
    match storage with
    | .storage ref =>
        let storage := heap.storage ref
        { plain with
          typeModule := storage.typeModule
          typeName := storage.typeName.replace "Storage" "Tensor" }
    | _ => plain
  return .tensor (← allocate fun heap => heap.addTensor tensor)

/-- The number of dimensions of a tensor. -/
def dimensions (heap : Heap) (value : Value) : Except Fault Value :=
  match value with
  | .tensor ref =>
      let size := (heap.tensor ref).size
      if heap.truthy size then do
        return .int (← heap.iterate size).length
      else .ok (.int 0)
  | _ => .ok (.int 0)

/-! ## Stand-ins -/

/-- The names of symbols that have a stand-in. -/
def stubNames : List String :=
  ["torch.conv2d", "torch.max_pool2d_with_indices", "torch.list_with_default",
    "torch.size"]

def hasStub (name : String) : Bool := stubNames.contains name

/-- What a stand-in yields: values of the right shape. -/
def callStub (name : String) : Recorded Value := do
  let placeholder (size : Value) : Recorded Value :=
    .tensor <$> change fun recording => recording.placeholder none size
  match name with
  | "torch.conv2d" =>
      let size ← allocate fun heap => heap.addList (List.replicate 4 (.int 0))
      placeholder (.list size)
  | "torch.max_pool2d_with_indices" =>
      let values ← placeholder .none
      return .tuple [values, ← placeholder .none]
  | "torch.list_with_default" =>
      return .list (← allocate fun heap => heap.addList [.int 0])
  | "torch.size" => return .int 0
  | name => throw (.unknownSymbol name)

/-! ## Calls -/

/-- What a builtin yields for the values of its parameters. -/
def run (builtin : Builtin) (values : List Value) : Recorded Value := do
  let heap ← heap
  match builtin, values with
  | annotate, [_, value] | uncheckedCast, [_, value] => return value
  | orderedDict, [value] => newDict value
  | int, [value] => ofExcept (toInteger value)
  | float, [value] => ofExcept (toFloat value)
  | getMember, [target, name, default] =>
      let found ← ofExcept (memberOf heap target name)
      return match found with
        | some value => if value.isMissing then default else value
        | none => default
  | uninitialized, [.atom (.typeRef "Tensor")] =>
      .tensor <$> change fun recording => recording.placeholder none .none
  | uninitialized, [_] => return .none
  | uncheckedUnwrap, [value] | unwrapOptional, [value] => return value
  | numberToTensor, [value] =>
      .tensor <$> change fun recording =>
        let (name, recording) := recording.freshName
        recording.addTensor name ({ · with value })
  | raiseException, [message] => throw (.raised (heap.text message))
  | isSame, [left, right] => .bool <$> ofExcept (areSame left right)
  | isNotSame, [left, right] => do return .bool !(← ofExcept (areSame left right))
  | negation, [value] => ofExcept (negated value)
  | rebuildTensor, [storage, offset, size, stride, requiresGrad, _, _] =>
      rebuild storage offset size stride requiresGrad .none
  | rebuildQuantizedTensor,
      [storage, offset, size, stride, quantizer, requiresGrad, _] =>
      rebuild storage offset size stride requiresGrad quantizer
  | rebuildParameter, [data, _, _] => return data
  | dimension, [tensor] => ofExcept (dimensions heap tensor)
  | equal, [left, right] => .bool <$> ofExcept (areEqual left right)
  | notEqual, [left, right] => do return .bool !(← ofExcept (areEqual left right))
  | greater, [left, right] => .bool <$> ofExcept (isLess right left)
  | less, [left, right] => .bool <$> ofExcept (isLess left right)
  | multiply, [left, right] => product left right
  | quantizerScale, [_] => return .int (-1)
  | transpose, [tensor] => return tensor
  | buildList _, [data] => return data
  | _, _ => throw (.type "wrong number of arguments")

def misfit : Fault := .type "the arguments do not fit the parameters"

/-- Calls a builtin. -/
def call (builtin : Builtin) (positional : List Value)
    (keywords : List (String × Value)) : Recorded Value :=
  match builtin with
  | operator name =>
      .tensor <$> change fun recording => recording.call name positional keywords
  | prepack form =>
      if keywords.isEmpty then pure (.packed form positional) else throw misfit
  | stub name => if keywords.isEmpty then callStub name else throw misfit
  | builtin =>
      match builtin.parameters.bind
          fun parameters => Parameter.assign parameters positional keywords with
      | some values => run builtin values
      | none => throw misfit

end Builtin

/-! ## Storage constructors -/

namespace StorageType

/-- A new storage of a type without data. -/
def make (type : StorageType) (size : Value) : Storage where
  dataType := type.dataType
  itemSize := type.itemSize
  size := size
  data := none
  key := none
  typeModule := package
  typeName := type.name

/-- Calls a storage constructor. -/
def call (type : StorageType) (positional : List Value)
    (keywords : List (String × Value)) : Recorded Value :=
  match Parameter.assign [.optional "size" .none] positional keywords with
  | some [size] => .storage <$> allocate fun heap => heap.addStorage (type.make size)
  | _ => throw (.type "a storage has one size")

end StorageType

/-! ## Methods -/

namespace Method

/-- The name of a method in messages. -/
def callName : Method → String
  | listAppend _ => "append"
  | listExtend _ => "extend"
  | listPop _ => "pop"
  | listCopy _ => "copy"
  | strUpper _ => "upper"
  | strSplit _ => "split"
  | intBitLength _ => "bit_length"

/-- Whether an integer can count the items of a sequence. -/
def isSize (n : Int) : Bool := -0x8000000000000000 ≤ n && n < 0x8000000000000000

/-- The integer that an argument is, which has to be a size. -/
def sizeOf (value : Value) : Except Fault Int :=
  match value with
  | .atom a =>
      match a.integer? with
      | some n => if isSize n then .ok n else .error .overflow
      | none => .error (.type s!"'{a.typeName}' object is not an integer")
  | _ => .error (.type "an integer is required")

def pop (ref : Ref .list) (index : Int) : Recorded Value := do
  let items := (← heap).list ref
  match Heap.position? items.length index with
  | none => throw .index
  | some position =>
      match items[position]? with
      | none => throw .index
      | some value =>
          allocate fun heap => ((), heap.setList ref (items.eraseIdx position))
          return value

/-- The parts of a string at blanks or at a separator, at most so many times. -/
def parts (text : String) (separator : Value) (limit : Int) :
    Except Fault (List (List Char)) :=
  let limit? : Option Nat := if limit < 0 then none else some limit.toNat
  let input := text.toList
  match separator with
  | .atom .none => .ok (splitBlanks (input.length + 1) limit? input)
  | .atom (.str separator) =>
      if separator.isEmpty then .error (.value "empty separator")
      else .ok (splitSeparator separator.toList (input.length + 1) limit? [] input)
  | _ => .error (.type "must be str or None")

/-- Calls a method. -/
def call (method : Method) (positional : List Value)
    (keywords : List (String × Value)) : Recorded Value := do
  match method, positional, keywords with
  | listAppend ref, [value], [] =>
      allocate fun heap => ((), heap.setList ref (heap.list ref ++ [value]))
      return .none
  | listExtend ref, [values], [] =>
      let items ← ofExcept ((← heap).iterate values)
      allocate fun heap => ((), heap.setList ref (heap.list ref ++ items))
      return .none
  | listPop ref, [], [] => pop ref (-1)
  | listPop ref, [index], [] => do pop ref (← ofExcept (sizeOf index))
  | listCopy ref, [], [] =>
      return .list (← allocate fun heap => heap.addList (heap.list ref))
  | strUpper text, [], [] => return .str (capitals text)
  | strSplit text, positional, keywords =>
      match Parameter.assign
          [.optional "sep" .none, .optional "maxsplit" (.int (-1))]
          positional keywords with
      | some [separator, limit] =>
          let found ← ofExcept (do parts text separator (← sizeOf limit))
          let values := found.map fun part => Value.str (String.ofList part)
          return .list (← allocate fun heap => heap.addList values)
      | _ => throw (.type "the arguments do not fit")
  | intBitLength n, [], [] =>
      return .int (if n = 0 then 0 else n.natAbs.log2 + 1)
  | _, _, _ => throw (.type "the arguments do not fit")

end Method

end TorchArchive
