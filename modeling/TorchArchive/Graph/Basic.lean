import TorchArchive.Graph.Attribute
import TorchArchive.Initializer.Basic

/-!
Graphs: what a model computes, as nodes that values flow between. A value is named
by an identifier; one that comes from the archive has an initializer.

Documents of graphs are trees of plain data. A document can also tell what keeps an
initializer from being read.
-/

namespace TorchArchive

/-- A value that flows into or out of a node. -/
structure Argument where
  id : String
  initializer : Option Initializer
  declared : Option TensorType

namespace Argument

/-- A value that is only named. -/
def named (id : String) : Argument := ⟨id, none, none⟩

/-- The type of a value: that of its initializer, or else the declared one. -/
def type? (argument : Argument) : Option TensorType :=
  match argument.initializer with
  | some view => some view.type
  | none => argument.declared

end Argument

/-- Values that take one part in a node or in a graph. -/
structure GraphParameter where
  name : Datum
  visible : Bool
  arguments : List Argument

namespace GraphParameter

/-- The parameter of one value, named like the value. -/
def ofValue (id : String) : GraphParameter := ⟨.str id, true, [.named id]⟩

end GraphParameter

/-- An operation, or a module that holds tensors. -/
structure Node where
  operator : String
  name : String
  inputs : List GraphParameter
  outputs : List GraphParameter
  attributes : List Attribute
  category : Datum
  documentation : Datum

/-- What a model computes. -/
structure Graph where
  name : Datum
  inputs : List GraphParameter
  outputs : List GraphParameter
  nodes : List Node

/-- A model: the format that it was kept in, its producer and its graph. -/
structure Model where
  format : String
  producer : Datum
  graph : Graph

/-! ## Documents -/

namespace Argument

/-- The document of a value, with the state of its initializer if asked for. -/
def document (withState : Bool) (argument : Argument) : Except Fault Datum := do
  let plain : List (String × Datum) :=
    [("id", .str argument.id),
      ("type", argument.type?.elim .none fun type => .str type.text),
      ("initializer", .bool argument.initializer.isSome)]
  if withState then
    let state ←
      match argument.initializer with
      | some view => view.state
      | none => pure none
    return .fields
      (plain ++ [("state", state.elim .none fun defect => .str defect.text)])
  else return .fields plain

end Argument

namespace GraphParameter

def document (withState : Bool) (parameter : GraphParameter) :
    Except Fault Datum := do
  let arguments ← parameter.arguments.mapM (Argument.document withState)
  return .fields [("name", parameter.name), ("arguments", .list arguments)]

/-- The document of a list of parameters. -/
def documents (withState : Bool) (parameters : List GraphParameter) :
    Except Fault Datum := do
  return .list (← parameters.mapM (document withState))

end GraphParameter

namespace Node

/-- The attributes that are to be shown, as plain data by name. -/
def shownAttributes (node : Node) : Datum :=
  let shown := node.attributes.filter Attribute.visible
  .dictOfEntries (shown.map fun item => (.str item.name, item.value.plain))

def document (withState : Bool) (node : Node) : Except Fault Datum := do
  return .fields
    [("operator", .str node.operator),
      ("name", .str node.name),
      ("category", node.category),
      ("inputs", ← GraphParameter.documents withState node.inputs),
      ("outputs", ← GraphParameter.documents withState node.outputs),
      ("attributes", node.shownAttributes)]

end Node

namespace Graph

/-- The parts of a graph's document but for the name. -/
def documentParts (withState : Bool) (graph : Graph) :
    Except Fault (List (String × Datum)) := do
  let nodes ← graph.nodes.mapM (Node.document withState)
  return [("inputs", ← GraphParameter.documents withState graph.inputs),
    ("outputs", ← GraphParameter.documents withState graph.outputs),
    ("nodes", .list nodes)]

/-- The document of a graph. -/
def document (graph : Graph) : Except Fault Datum := do
  return .fields (("name", graph.name) :: (← graph.documentParts false))

end Graph

end TorchArchive
