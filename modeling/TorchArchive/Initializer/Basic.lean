import TorchArchive.Datum
import TorchArchive.Fault
import TorchArchive.Initializer.ElementType

/-!
Initializers: read-only views of the data that a tensor starts with. Archives
give shapes and offsets as they please, so sizes are data until they are used;
`Initializer.state` tells whether the view can be read.
-/

namespace TorchArchive

/-- The number of elements of a tensor that are shown unless told otherwise. -/
def defaultDisplayLimit : Int := 10000

/-- The type of a tensor: its element type and its extents, as far as they are
known. -/
structure TensorType where
  dataType : Option String
  dims : Option (List Datum)

/-- The text of a type. -/
def TensorType.text (type : TensorType) : String :=
  let element :=
    match type.dataType with
    | some name => if name.isEmpty then "?" else name
    | none => "?"
  let shape :=
    match type.dims with
    | some (d :: rest) =>
        "[" ++ ",".intercalate ((d :: rest).map Datum.text) ++ "]"
    | _ => ""
  element ++ shape

/-- A view of a tensor's data. -/
structure Initializer where
  name : String
  dataType : Option String
  dims : Option (List Datum)
  data : Option ByteArray
  offset : Datum
  displayLimit : Datum

/-! ## Arithmetic on sizes -/

namespace Datum

/-- Repeats the contents of a sequence. -/
private def repeated (count : Int) : Datum → Option Datum
  | atom (.str s) =>
      some (str (String.join (List.replicate count.toNat s)))
  | atom (.bytes data) =>
      some (atom (.bytes ⟨(List.replicate count.toNat data.toList).flatten.toArray⟩))
  | list items => some (list (List.replicate count.toNat items).flatten)
  | tuple items => some (tuple (List.replicate count.toNat items).flatten)
  | _ => Option.none

private def ofProduct? : Option Number → Except Fault Datum
  | some product => .ok (atom (.ofNumber product))
  | Option.none => .error .overflow

private def unmultipliable : Fault := .type "unsupported operands for a product"

/-- The product of two data: of numbers, or of an integer and a sequence. -/
def times (a b : Datum) : Except Fault Datum :=
  match a.numeric?, b.numeric? with
  | some x, some y => ofProduct? (x.mul? y)
  | some (.int n), Option.none =>
      match repeated n b with
      | some sequence => .ok sequence
      | Option.none => .error unmultipliable
  | Option.none, some (.int n) =>
      match repeated n a with
      | some sequence => .ok sequence
      | Option.none => .error unmultipliable
  | _, _ => .error unmultipliable

/-- The number that a datum counts as, where nothing else will do. -/
def toNumber (datum : Datum) : Except Fault Number :=
  match datum.numeric? with
  | some number => .ok number
  | Option.none => .error (.type s!"{datum.typeName} is not a number")

/-- The integer that a datum counts as, where nothing else will do. -/
def toInteger (datum : Datum) : Except Fault Int :=
  match datum.integer? with
  | some n => .ok n
  | Option.none => .error (.type s!"{datum.typeName} is not an integer")

end Datum

namespace Number

/-- The sum of two numbers, where it has to exist. -/
def plus (a b : Number) : Except Fault Number :=
  match a.add? b with
  | some sum => .ok sum
  | none => .error .overflow

/-- The product of two numbers, where it has to exist. -/
def timesNumber (a b : Number) : Except Fault Number :=
  match a.mul? b with
  | some product => .ok product
  | none => .error .overflow

end Number

/-- Why a view cannot be read. -/
inductive Defect where
  | noDataType
  | unsupported (dataType : String)
  | noDimensions
  | noData
  | shortData
  deriving DecidableEq

namespace Defect

def text : Defect → String
  | noDataType => "Tensor has no data type."
  | unsupported dataType =>
      s!"Tensor data type '{dataType}' is not supported."
  | noDimensions => "Tensor has no dimensions."
  | noData => "Tensor data is empty."
  | shortData => "Tensor data is too short."

end Defect

namespace Initializer

/-- The type of a view. -/
def type (view : Initializer) : TensorType := ⟨view.dataType, view.dims⟩

/-- The number of elements: the product of the extents. -/
def count (view : Initializer) : Except Fault Datum :=
  (view.dims.getD []).foldlM Datum.times (.int 1)

/-- The number of bytes up to the end of the last element. -/
def extent (view : Initializer) (itemSize : Nat) : Except Fault Number := do
  let count ← view.count
  let offset ← view.offset.toNumber
  let last ← offset.plus (← count.toNumber)
  last.timesNumber (.int itemSize)

/-- What keeps the view from being read, if anything does. -/
def state (view : Initializer) : Except Fault (Option Defect) :=
  match view.dataType with
  | none => .ok (some .noDataType)
  | some name =>
      if name.isEmpty then .ok (some .noDataType)
      else
        match ElementType.ofName? name with
        | none => .ok (some (.unsupported name))
        | some type =>
            match view.dims, view.data with
            | none, _ => .ok (some .noDimensions)
            | some _, none => .ok (some .noData)
            | some _, some data =>
                if data.isEmpty then .ok (some .noData)
                else do
                  let extent ← view.extent type.itemSize
                  return if (Number.int data.size).less extent then
                    some .shortData else none

end Initializer

end TorchArchive
