import TorchArchive.Datum
import TorchArchive.Yaml.Node

/-!
Data of YAML documents. First each mapping takes in the entries that its merge keys
bring; then every part is read as its tag says.
-/

namespace TorchArchive.Yaml

open TorchArchive

namespace Node

/-- The tag of a part. -/
def tag : Node → String
  | scalar tag _ | sequence tag _ | mapping tag _ => tag
  | enclosing isMapping => standardTag (if isMapping then "map" else "seq")

/-! ## Merge keys -/

private def entries? : Node → Option (List (Node × Node))
  | mapping _ entries => some entries
  | enclosing true => some []
  | _ => none

/-- The entries that the value of a merge key brings: those of a mapping, or those of
the mappings of a sequence from the last one to the first. -/
private def brought (value : Node) : Except Fault (List (Node × Node)) :=
  let found :=
    match value with
    | sequence _ items =>
        (items.mapM entries?).map fun lists => lists.reverse.flatten
    | value => value.entries?
  match found with
  | some entries => .ok entries
  | none => .error (malformed "expected a mapping or a list of mappings for merging")

mutual

/-- The part with no merge keys left. What they bring stands in front. -/
def merged : Node → Except Fault Node
  | mapping tag entries => do
      let (brought, own) ← mergedEntries entries
      return mapping tag (brought ++ own)
  | sequence tag items => do return sequence tag (← mergedItems items)
  | node => .ok node

private def mergedItems : List Node → Except Fault (List Node)
  | [] => .ok []
  | item :: rest => do
      let item ← merged item
      return item :: (← mergedItems rest)

/-- The entries that merge keys bring, and those that are left. -/
private def mergedEntries :
    List (Node × Node) → Except Fault (List (Node × Node) × List (Node × Node))
  | [] => .ok ([], [])
  | (key, value) :: rest => do
      let value ← merged value
      if key.tag == standardTag "merge" then
        let first ← brought value
        let (others, own) ← mergedEntries rest
        return (first ++ others, own)
      else
        let key ← merged key
        let (brought, own) ← mergedEntries rest
        return (brought, (key, value) :: own)

end

/-! ## Data -/

private def unknownTag (tag : String) : Fault :=
  malformed s!"could not determine a constructor for the tag '{tag}'"

/-- Whether a datum can be a key. -/
private def isKey : Datum → Bool
  | .list _ | .dict _ _ | .set _ _ | .cycle _ => false
  | _ => true

private def pairs? (items : List Datum) : Option (List Datum) :=
  items.mapM fun
    | .dict _ [(key, value)] => some (.tuple [key, value])
    | _ => none

mutual

/-- What a part without merge keys stands for. -/
def datum : Node → Except Fault Datum
  | scalar tag text => scalarValue tag text
  | enclosing isMapping => .ok (.cycle (if isMapping then "\x7b...\x7d" else "[...]"))
  | sequence tag items => do
      let items ← data items
      if tag == standardTag "seq" then return .list items
      else if tag == standardTag "omap" || tag == standardTag "pairs" then
        match pairs? items with
        | some pairs => return .list pairs
        | none => throw (malformed "expected a mapping of length 1")
      else throw (unknownTag tag)
  | mapping tag entries => do
      let entries ← bindings entries
      let dict := Datum.dictOfEntries entries
      if tag == standardTag "map" then return dict
      else if tag == standardTag "set" then
        match dict with
        | .dict _ entries => return .set false (entries.map (·.1))
        | _ => return dict
      else throw (unknownTag tag)

private def data : List Node → Except Fault (List Datum)
  | [] => .ok []
  | item :: rest => do
      let item ← datum item
      return item :: (← data rest)

/-- The entries of a mapping. The key that stands for a default value is a text. -/
private def bindings : List (Node × Node) → Except Fault (List (Datum × Datum))
  | [] => .ok []
  | (key, value) :: rest => do
      let key ←
        if key.tag == standardTag "value" then pure (.str "=") else datum key
      if !isKey key then throw (malformed "found unhashable key")
      let value ← datum value
      return (key, value) :: (← bindings rest)

end

end Node

/-- What a document stands for; none if the text holds no document. -/
def read (text : String) : Except Fault Datum := do
  match ← Node.ofText text with
  | none => return .none
  | some root => (← root.merged).datum

end TorchArchive.Yaml
