import TorchArchive.Json.Reader

/-!
Catalogues of operator schemas. A document lists operators with their schemas;
of several with one name the last counts, and items without a name or a schema
are passed over.
-/

namespace TorchArchive

/-- The schemas of operators by name. -/
structure Catalogue where
  schemas : Table String Datum

namespace Catalogue

def empty : Catalogue := ⟨.empty⟩

instance : Inhabited Catalogue := ⟨empty⟩

/-! ## Reading -/

/-- The items that a datum consists of when it is gone through. -/
def itemsOf (datum : Datum) : Except Fault (List Datum) :=
  match datum with
  | .list items | .tuple items => .ok items
  | .dict _ entries => .ok (entries.map (·.1))
  | .atom (.str s) => .ok (s.toList.map fun c => .str (String.ofList [c]))
  | datum => .error (.type s!"'{datum.typeName}' object is not iterable")

/-- Whether a datum can name something. -/
def isName : Datum → Bool
  | .list _ | .dict _ _ => false
  | _ => true

/-- The name and the schema of an item that has both. -/
def operatorOf (item : Datum) : Except Fault (Option (String × Datum)) :=
  match item with
  | .dict _ _ =>
      match item.get? "name", item.get? "schema" with
      | some name, some schema =>
          if !name.truthy || !schema.truthy then .ok none
          else if !isName name then .error (.type "unhashable type")
          else .ok (name.str?.map fun name => (name, schema))
      | _, _ => .ok none
  | item => .error (.member s!"'{item.typeName}' object has no attribute 'get'")

/-- The catalogue of a document's data. -/
def ofDatum (datum : Datum) : Except Fault Catalogue := do
  if !datum.truthy then return empty
  else
    let operators ← (← itemsOf datum).mapM operatorOf
    return ⟨Table.ofList (operators.filterMap id)⟩

/-- Reads the catalogue of a document; an empty text holds none. -/
def read (document : String) : Except Fault Catalogue :=
  if document.isEmpty then .ok empty
  else do ofDatum (← Json.read document)

/-! ## Questions -/

/-- The schema of an operator. -/
def schema? (catalogue : Catalogue) (operator : String) : Option Datum :=
  catalogue.schemas.get? operator

/-- An entry of a schema; none for operators without a schema. -/
def entry? (catalogue : Catalogue) (operator name : String) :
    Except Fault (Option Datum) :=
  match catalogue.schema? operator with
  | none => .ok none
  | some schema =>
      match schema with
      | .dict _ _ => .ok (schema.get? name)
      | schema =>
          .error (.member s!"'{schema.typeName}' object has no attribute 'get'")

/-- The name of an attribute's schema, which has to be there. -/
def attributeName (item : Datum) : Except Fault Datum :=
  match item with
  | .dict _ _ =>
      match item.get? "name" with
      | some name =>
          if isName name then .ok name else .error (.type "unhashable type")
      | none => .error (.key (quotedText "name"))
  | item =>
      .error (.type s!"'{item.typeName}' object is not subscriptable")

/-- The attributes of an operator, each with its name. -/
def attributes (catalogue : Catalogue) (operator : String) :
    Except Fault (List (Datum × Datum)) := do
  match ← catalogue.entry? operator "attributes" with
  | none => return []
  | some listed =>
      (← itemsOf listed).mapM fun item => do
        return (← attributeName item, item)

/-- The schema of an operator's attribute: the last one of its name. -/
def attribute? (catalogue : Catalogue) (operator name : String) :
    Except Fault (Option Datum) := do
  let attributes ← catalogue.attributes operator
  return Datum.lookup name attributes.reverse

/-- Sets an entry of a document's object. -/
def setEntry (datum : Datum) (key value : Datum) : Except Fault Datum :=
  match datum with
  | .dict _ _ =>
      if isName key then .ok (datum.insert key value)
      else .error (.type "unhashable type")
  | datum =>
      .error
        (.type s!"'{datum.typeName}' object does not support item assignment")

/-- The schema of an operator as a document of its own, which tells its name. -/
def documentation (catalogue : Catalogue) (operator : String) :
    Except Fault (Option Datum) :=
  match catalogue.schema? operator with
  | none => .ok none
  | some schema => do
      return some (← setEntry schema (.str "name") (.str operator))

end Catalogue

end TorchArchive
