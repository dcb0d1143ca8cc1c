import TorchArchive.Atom
import TorchArchive.Table

/-!
Values of archive code. Whatever can change, or is told apart by identity, lives
in a heap and is named by a typed reference; the rest is written out in the
value.
-/

namespace TorchArchive

/-- The kinds of objects that live in the heap. -/
inductive Kind where
  | list
  | dict
  | table
  | tensor
  | storage
  | module
  | moduleClass
  | package
  | function
  deriving DecidableEq

/-- A reference to an object of a kind. -/
structure Ref (kind : Kind) where
  index : Nat
  deriving DecidableEq, Inhabited

/-! ## Callables -/

/-- The element types for which there is a storage constructor. -/
inductive StorageType where
  | byte
  | char
  | short
  | int
  | long
  | half
  | float
  | double
  | quantized
  deriving DecidableEq

namespace StorageType

def all : List StorageType :=
  [byte, char, short, int, long, half, float, double, quantized]

/-- The name of the constructor within its package. -/
def name : StorageType → String
  | byte => "ByteStorage"
  | char => "CharStorage"
  | short => "ShortStorage"
  | int => "IntStorage"
  | long => "LongStorage"
  | half => "HalfStorage"
  | float => "FloatStorage"
  | double => "DoubleStorage"
  | quantized => "QInt8Storage"

/-- The package of all storage constructors. -/
def package : String := "torch"

def qualifiedName (type : StorageType) : String :=
  package ++ "." ++ type.name

/-- The name of the element type. -/
def dataType : StorageType → String
  | byte => "uint8"
  | char => "int8"
  | short => "int16"
  | int => "int32"
  | long => "int64"
  | half => "float16"
  | float => "float32"
  | double => "float64"
  | quantized => "qint8"

/-- The size of an element in bytes. -/
def itemSize : StorageType → Nat
  | byte | char | quantized => 1
  | short | half => 2
  | int | float => 4
  | long | double => 8

end StorageType

/-- The element types whose lists are built under a name of their own. -/
inductive ListFlavour where
  | bool
  | double
  | int
  | tensor
  deriving DecidableEq

/-- The prepacking operators. -/
inductive Prepack where
  | conv
  | linear
  deriving DecidableEq

namespace Prepack

def name : Prepack → String
  | conv => "conv_prepack"
  | linear => "linear_prepack"

end Prepack

/-- The callables that are not written in archive code. -/
inductive Builtin where
  | annotate
  | uncheckedCast
  | orderedDict
  | int
  | float
  | getMember
  | uninitialized
  | uncheckedUnwrap
  | numberToTensor
  | raiseException
  | prepack (form : Prepack)
  | isSame
  | isNotSame
  | negation
  | unwrapOptional
  | rebuildTensor
  | rebuildQuantizedTensor
  | rebuildParameter
  | dimension
  | equal
  | notEqual
  | greater
  | less
  | multiply
  | quantizerScale
  | transpose
  | buildList (flavour : ListFlavour)
  /-- An operator whose calls are recorded. -/
  | operator (qualifiedName : String)
  /-- A stand-in for a symbol that is not modelled further. -/
  | stub (qualifiedName : String)
  deriving DecidableEq

/-- The methods of lists, strings and integers, bound to their receiver. -/
inductive Method where
  | listAppend (receiver : Ref .list)
  | listExtend (receiver : Ref .list)
  | listPop (receiver : Ref .list)
  | listCopy (receiver : Ref .list)
  | strUpper (receiver : String)
  | strSplit (receiver : String)
  | intBitLength (receiver : Int)
  deriving DecidableEq

/-! ## Values -/

/-- A value of archive code. -/
inductive Value where
  | atom (a : Atom)
  | tuple (items : List Value)
  | set (frozen : Bool) (items : List Value)
  /-- The opaque result of a prepacking operator. -/
  | packed (form : Prepack) (arguments : List Value)
  | list (ref : Ref .list)
  | dict (ref : Ref .dict)
  | tensor (ref : Ref .tensor)
  | storage (ref : Ref .storage)
  | module (ref : Ref .module)
  | moduleClass (ref : Ref .moduleClass)
  | package (ref : Ref .package)
  | function (ref : Ref .function)
  | storageType (type : StorageType)
  | builtin (callable : Builtin)
  | method (callable : Method)

namespace Value

def none : Value := atom .none
def missing : Value := atom .missing
def bool (b : Bool) : Value := atom (.bool b)
def int (n : Int) : Value := atom (.int n)
def float (x : Binary64) : Value := atom (.float x)
def str (s : String) : Value := atom (.str s)

instance : Inhabited Value := ⟨none⟩

/-- Whether a value is the one of unbound names. -/
def isMissing : Value → Bool
  | atom .missing => true
  | _ => false

def isNone : Value → Bool
  | atom .none => true
  | _ => false

/-- The string that a value is. -/
def str? : Value → Option String
  | atom (.str s) => some s
  | _ => Option.none

def isTensor : Value → Bool
  | tensor _ => true
  | _ => false

/-! ## Identity -/

mutual

/-- Whether two values are one: atoms and tuples by their contents, objects by
reference. -/
def identical : Value → Value → Bool
  | atom a, atom b => a == b
  | tuple a, tuple b => identicalItems a b
  | set f a, set g b => f == g && identicalItems a b
  | packed f a, packed g b => f == g && identicalItems a b
  | list a, list b => a == b
  | dict a, dict b => a == b
  | tensor a, tensor b => a == b
  | storage a, storage b => a == b
  | module a, module b => a == b
  | moduleClass a, moduleClass b => a == b
  | package a, package b => a == b
  | function a, function b => a == b
  | storageType a, storageType b => a == b
  | builtin a, builtin b => a == b
  | method a, method b => a == b
  | _, _ => false

def identicalItems : List Value → List Value → Bool
  | [], [] => true
  | a :: as, b :: bs => identical a b && identicalItems as bs
  | _, _ => false

end

end Value

/-! ## Keys of dictionaries -/

/-- A part of a key: a leaf, or the opening of a group of so many parts. -/
inductive KeyPart where
  | atom (a : Atom)
  | group (set : Bool) (size : Nat)
  | object (kind : Kind) (index : Nat)
  | storageType (type : StorageType)
  | builtin (callable : Builtin)
  | method (callable : Method)
  deriving DecidableEq

/-- What two values have in common when a dictionary takes them for the same
key. -/
abbrev Key := List KeyPart

namespace Value

mutual

/-- The key of a value; none if the value can change its contents. Equal numbers
have one key. -/
def key? : Value → Option Key
  | atom (.byteArray _) => Option.none
  | atom a => some [.atom a.canonical]
  | tuple items => (keyOfItems? items).map (.group false items.length :: ·)
  | set true items => (keyOfItems? items).map (.group true items.length :: ·)
  | set false _ | packed _ _ | list _ | dict _ | storage _ => Option.none
  | tensor ref => some [.object .tensor ref.index]
  | module ref => some [.object .module ref.index]
  | moduleClass ref => some [.object .moduleClass ref.index]
  | package ref => some [.object .package ref.index]
  | function ref => some [.object .function ref.index]
  | storageType type => some [.storageType type]
  | builtin callable => some [.builtin callable]
  | method callable => some [.method callable]

def keyOfItems? : List Value → Option Key
  | [] => some []
  | item :: rest => do
      let key ← key? item
      let others ← keyOfItems? rest
      return key ++ others

end

/-- The key of a string. -/
def nameKey (name : String) : Key := [.atom (.str name)]

end Value

/-- The contents of a dictionary: under each key the value that first had it and
the value bound to it. -/
abbrev Entries := Table Key (Value × Value)

namespace Entries

/-- The keys and values in order. -/
def pairs (entries : Entries) : List (Value × Value) := Table.values entries

/-- The value bound to a string. -/
def getName? (entries : Entries) (name : String) : Option Value :=
  (Table.get? entries (Value.nameKey name)).map (·.2)

/-- Binds a key whose first form is kept. -/
def put (entries : Entries) (key : Key) (form value : Value) : Entries :=
  Table.insert entries key
    ((Table.get? entries key).elim form (·.1), value)

/-- Binds a string. -/
def putName (entries : Entries) (name : String) (value : Value) : Entries :=
  entries.put (Value.nameKey name) (.str name) value

/-- Binds a value; none if it cannot be a key. -/
def put? (entries : Entries) (form value : Value) : Option Entries :=
  form.key?.map fun key => entries.put key form value

end Entries

end TorchArchive
