import TorchArchive.Dump.Value
import TorchArchive.Graph.Basic
import TorchArchive.Initializer.Decode
import TorchArchive.Registry.Trace

/-!
Dumps of graphs and traces. An initializer is told by its whole view or by its type
alone.
-/

namespace TorchArchive.Dump

open TorchArchive

/-! ## Initializers -/

/-- The dump of what may fail, given that of faults. -/
private def outcome (fault : Fault → Datum) : Except Fault Datum → Datum
  | .ok content => content
  | .error cause => fault cause

/-- The entries for the view of an initializer, given the dump of faults. -/
def view (fault : Fault → Datum) (view : Initializer) : List (String × Datum) :=
  let told (result : Except Fault Datum) : Datum := outcome fault result
  [("name", .str view.name), ("kind", .str "Tensor"), ("type", .str view.type.text),
    ("offset", datumAlone default view.offset),
    ("display_limit", datumAlone default view.displayLimit),
    ("state", told do
      return optional (fun (defect : Defect) => .str defect.text) (← view.state)),
    ("count", told do return datumAlone default (← view.count)),
    ("value", told do return datumAlone default (← view.value)),
    ("str", told do return .str (← view.text))]

/-- The type of an initializer. -/
def viewType (view : Initializer) : Datum := single "init" (.str view.type.text)

/-! ## Graphs -/

section Graphs

variable (heap : Heap) (init : Initializer → Datum)

def argument (argument : Argument) : Datum :=
  .fields [("id", .str argument.id),
    ("type", optional (fun (type : TensorType) => .str type.text) argument.type?),
    ("init", optional init argument.initializer)]

def parameter (parameter : GraphParameter) : Datum :=
  .fields [("name", datumAlone heap parameter.name),
    ("visible", .bool parameter.visible),
    ("arguments", .list (parameter.arguments.map (argument init)))]

def parameters (list : List GraphParameter) : Datum :=
  .list (list.map (parameter heap init))

def attributeOf (item : Attribute) : Datum :=
  .fields [("name", .str item.name), ("type", datumAlone default item.type),
    ("value", datumAlone heap item.value), ("visible", .bool item.visible),
    ("repr", .str item.text)]

def node (node : Node) : Datum :=
  .fields [("operator", .str node.operator), ("name", .str node.name),
    ("category", datumAlone default node.category),
    ("documentation", datumAlone default node.documentation),
    ("inputs", parameters heap init node.inputs),
    ("outputs", parameters heap init node.outputs),
    ("attributes", .list (node.attributes.map (attributeOf heap)))]

def nodes (list : List Node) : Datum := .list (list.map (node heap init))

def graph (graph : Graph) : Datum :=
  .fields [("name", datumAlone default graph.name),
    ("inputs", parameters heap init graph.inputs),
    ("outputs", parameters heap init graph.outputs),
    ("nodes", nodes heap init graph.nodes)]

end Graphs

/-! ## Traces -/

private def traceArgument (argument : TraceArgument) : Datum :=
  .list [.str argument.id, optional viewType argument.initializer]

private def call (heap : Heap) (call : TraceNode) : Dumped Datum := do
  return .fields [("operator", .str call.operator),
    ("qualified", .str call.qualifiedName),
    ("inputs", .list (call.inputs.map fun input => .list (input.map traceArgument))),
    ("outputs", strings call.outputs),
    ("attributes", ← bindings heap call.attributes),
    ("module", optional (fun n => .int n) call.module)]

/-- The dump of recorded calls. -/
def trace (heap : Heap) (calls : List TraceNode) : Datum :=
  .list (StateT.run (calls.mapM (call heap)) ([] : Met)).1

end TorchArchive.Dump
