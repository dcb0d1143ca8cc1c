import TorchArchive.Datum
import TorchArchive.Fault
import TorchArchive.Number.Reading

/-!
Attributes of graph nodes. A schema gives an attribute its type, converts its
value and hides it when the value is the default.
-/

namespace TorchArchive

namespace Datum

/-! ## Comparison with defaults -/

mutual

/-- Equality that tells booleans from numbers and does not tell lists from
tuples. -/
def sameAs : Datum → Datum → Bool
  | list a, list b => sameItems a b
  | list a, tuple b => sameItems a b
  | tuple a, list b => sameItems a b
  | tuple a, tuple b => sameItems a b
  | list _, _ | tuple _, _ | _, list _ | _, tuple _ => false
  | atom (.bool a), atom (.bool b) => a == b
  | atom (.bool _), _ | _, atom (.bool _) => false
  | a, b => a.equals b

def sameItems : List Datum → List Datum → Bool
  | [], [] => true
  | a :: as, b :: bs => sameAs a b && sameItems as bs
  | _, _ => false

end

/-! ## Conversion -/

/-- A whole double as an integer; everything else as it is. -/
def wholeAsInteger : Datum → Datum
  | atom (.float x) =>
      if x.isWhole then int (x.truncate?.getD 0) else float x
  | datum => datum

def asBoolean (value : Datum) : Datum :=
  match value.str? with
  | some "False" => bool false
  | some "True" => bool true
  | _ => value

def asInteger (value : Datum) : Datum :=
  match value.str?.bind readInteger? with
  | some n => int n
  | Option.none => value

def asFloat (value : Datum) : Datum :=
  match value.str?.bind readFloat? with
  | some x => float x
  | Option.none => value

def asIntegers (value : Datum) : Datum :=
  match value.items? with
  | some items => list (items.map wholeAsInteger)
  | Option.none => value

/-- Converts a value to a type where the value allows it. -/
def coerce (type : Option String) (value : Datum) : Datum :=
  match type with
  | some "boolean" => asBoolean value
  | some "int32" | some "int64" => asInteger value
  | some "float32" | some "float64" => asFloat value
  | some "int32[]" | some "int64[]" => asIntegers value
  | _ => value

/-! ## Plain data -/

mutual

/-- The datum as plain data: sequences become lists, and what is neither a
sequence nor a plain atom becomes its text. -/
def plain : Datum → Datum
  | list items => list (plainItems items)
  | tuple items => list (plainItems items)
  | atom .none => none
  | atom (.bool b) => bool b
  | atom (.int n) => int n
  | atom (.float x) => float x
  | atom (.str s) => str s
  | datum => str datum.text

private def plainItems : List Datum → List Datum
  | [] => []
  | item :: rest => plain item :: plainItems rest

end

end Datum

/-- A named value of a node. -/
structure Attribute where
  name : String
  value : Datum
  type : Datum
  /-- Whether the schema lets the attribute be seen. -/
  shown : Bool

namespace Attribute

/-- Whether a value is the default of a schema: it is the default itself, or a
list of defaults. -/
def isDefault (default value : Datum) : Bool :=
  if default.sameAs value then true
  else
    match value, default with
    | .list _, .list _ => false
    | .list items, default => items.all fun item => default.sameAs item
    | _, _ => false

/-- Whether a schema lets a value be seen. -/
def isShown (schema value : Datum) : Bool :=
  match schema.get? "visible", schema.get? "default" with
  | some visible, default? =>
      if !visible.truthy then false
      else !(default?.any fun default => isDefault default value)
  | none, some default => !isDefault default value
  | none, none => true

/-- The attribute of a value under a schema, if there is one. -/
def make (schema : Option Datum) (name : String) (value : Datum) :
    Except Fault Attribute :=
  match schema with
  | none => .ok ⟨name, value, .none, true⟩
  | some schema =>
      if !schema.truthy then .ok ⟨name, value, .none, true⟩
      else
        match schema with
        | .dict _ _ =>
            let type := (schema.get? "type").getD .none
            let value := value.coerce type.str?
            .ok ⟨name, value, type, isShown schema value⟩
        | schema => .error (.member s!"'{schema.typeName}' has no entries")

/-- Whether an attribute is to be shown; whether a model was being trained is
not. -/
def visible (item : Attribute) : Bool :=
  item.shown && item.name != "training"

/-- The text of an attribute. -/
def text (item : Attribute) : String :=
  "Attribute(" ++ item.name ++ "=" ++ item.value.written ++ ")"

end Attribute

end TorchArchive
