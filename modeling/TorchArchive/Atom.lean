import TorchArchive.Number.Number
import TorchArchive.Text.Quoted

/-!
Atoms: the values without parts. `Atom.written` is the form in which archive
code would spell an atom, `Atom.text` its plain text; the two differ for strings
only.
-/

namespace TorchArchive

/-- Bytes are compared as arrays. -/
instance decidableEqBytes : DecidableEq ByteArray := ByteArray.instDecidableEq

/-- A value without parts. -/
inductive Atom where
  | none
  | bool (b : Bool)
  | int (n : Int)
  | float (x : Binary64)
  /-- A purely imaginary number. -/
  | imaginary (x : Binary64)
  | str (s : String)
  | bytes (data : ByteArray)
  | byteArray (data : ByteArray)
  | ellipsis
  /-- What an unbound name evaluates to. -/
  | missing
  /-- A type annotation evaluated as a value. -/
  | typeRef (name : String)
  deriving DecidableEq

namespace Atom

instance : Inhabited Atom := ⟨none⟩

/-- The name of the type of an atom. -/
def typeName : Atom → String
  | none => "NoneType"
  | bool _ => "bool"
  | int _ => "int"
  | float _ => "float"
  | imaginary _ => "complex"
  | str _ => "str"
  | bytes _ => "bytes"
  | byteArray _ => "bytearray"
  | ellipsis => "ellipsis"
  | missing => "_Missing"
  | typeRef _ => "TypeRef"

/-- Whether an atom counts as true. -/
def truthy : Atom → Bool
  | none | missing => false
  | bool b => b
  | int n => n != 0
  | float x => !x.isZero
  | imaginary x => !x.isZero
  | str s => !s.isEmpty
  | bytes data => data.size != 0
  | byteArray data => data.size != 0
  | ellipsis | typeRef _ => true

/-- The number that an atom is; a boolean is none. -/
def number? : Atom → Option Number
  | int n => some (.int n)
  | float x => some (.float x)
  | _ => Option.none

/-- The number that an atom counts as; a boolean counts as zero or one. -/
def numeric? : Atom → Option Number
  | bool b => some (.int (if b then 1 else 0))
  | atom => atom.number?

/-- The integer that an atom counts as. -/
def integer? : Atom → Option Int
  | bool b => some (if b then 1 else 0)
  | int n => some n
  | _ => Option.none

/-- The atom of a number. -/
def ofNumber : Number → Atom
  | .int n => int n
  | .float x => float x

/-- One representative for all atoms that are equal: a number that is a whole
integer is represented by it. -/
def canonical : Atom → Atom
  | bool b => int (if b then 1 else 0)
  | float x => if x.isWhole then int (x.truncate?.getD 0) else float x
  | imaginary x => if x.isZero then int 0 else imaginary x
  | byteArray data => bytes data
  | atom => atom

/-- Equality of atoms: numbers by exact value whatever their type, everything
else within its type. -/
def equals (a b : Atom) : Bool :=
  a.canonical == b.canonical && a.canonical != float .nan

/-- The form in which an atom is written in code. -/
def written : Atom → String
  | none => "None"
  | bool b => if b then "True" else "False"
  | int n => integerText n
  | float x => x.text
  | imaginary x => x.bareText ++ "j"
  | str s => quotedText s
  | bytes data => quotedBytes data
  | byteArray data => "bytearray(" ++ quotedBytes data ++ ")"
  | ellipsis => "Ellipsis"
  | missing => "MISSING"
  | typeRef name => "TypeRef(name=" ++ quotedText name ++ ")"

/-- The plain text of an atom. -/
def text : Atom → String
  | str s => s
  | atom => atom.written

end Atom

end TorchArchive
