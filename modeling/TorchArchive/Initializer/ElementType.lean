import TorchArchive.Atom

/-!
Element types: how the bytes of one element are read. All words are stored with
their least significant byte first.
-/

namespace TorchArchive

/-- A type of elements that can be read. -/
inductive ElementType where
  | uint8
  | int8
  | int16
  | int32
  | int64
  | float16
  | float32
  | float64
  deriving DecidableEq

/-- The number that consecutive bytes denote, the least significant first. -/
def littleEndian : List UInt8 → Nat
  | [] => 0
  | byte :: rest => byte.toNat + 256 * littleEndian rest

/-- The signed number of a word of so many bits. -/
def twosComplement (width word : Nat) : Int :=
  if word < Nat.pow 2 (width - 1) then word else word - Nat.pow 2 width

namespace ElementType

def ofName? : String → Option ElementType
  | "uint8" => some uint8
  | "int8" => some int8
  | "int16" => some int16
  | "int32" => some int32
  | "int64" => some int64
  | "float16" => some float16
  | "float32" => some float32
  | "float64" => some float64
  | _ => none

/-- The size of an element in bytes. -/
def itemSize : ElementType → Nat
  | uint8 | int8 => 1
  | int16 | float16 => 2
  | int32 | float32 => 4
  | int64 | float64 => 8

/-- The element that a word denotes. -/
def element (type : ElementType) (word : Nat) : Atom :=
  match type with
  | uint8 => .int word
  | int8 => .int (twosComplement 8 word)
  | int16 => .int (twosComplement 16 word)
  | int32 => .int (twosComplement 32 word)
  | int64 => .int (twosComplement 64 word)
  | float16 => .float (.ofValue (FloatFormat.half.read word))
  | float32 => .float (.ofValue (FloatFormat.single.read word))
  | float64 => .float (.ofValue (FloatFormat.double.read word))

/-- The element whose bytes begin at a position. -/
def elementAt (type : ElementType) (data : ByteArray) (start : Nat) : Atom :=
  type.element
    (littleEndian ((List.range type.itemSize).map fun i => data.get! (start + i)))

/-- So many elements from a position on. -/
def elements (type : ElementType) (data : ByteArray) (start count : Nat) :
    List Atom :=
  (List.range count).map fun i => type.elementAt data (start + i * type.itemSize)

end ElementType

end TorchArchive
