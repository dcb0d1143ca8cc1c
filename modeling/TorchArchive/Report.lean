import TorchArchive.Graph.Basic
import TorchArchive.Settings

/-!
Reports: documents that describe a model and how it was loaded.
-/

namespace TorchArchive

namespace Graph

/-- How many nodes there are of each operator, in the order in which operators
occur first. -/
def operatorCounts (graph : Graph) : Table String Nat :=
  graph.nodes.foldl
    (fun counts node =>
      counts.insert node.operator ((counts.get? node.operator).getD 0 + 1))
    .empty

/-- The number of initializers that flow into nodes. -/
def initializerCount (graph : Graph) : Nat :=
  ((graph.nodes.flatMap (·.inputs)).flatMap (·.arguments)).countP
    fun argument => argument.initializer.isSome

end Graph

/-- The report on a model that was loaded with the given settings. -/
def Model.report (model : Model) (settings : Settings) : Except Fault Datum := do
  let graph := model.graph
  let counts := graph.operatorCounts.entries.map fun entry =>
    (entry.1, (.int entry.2 : Datum))
  return .fields
    ([("format", .str model.format), ("producer", model.producer),
        ("name", graph.name)] ++
      (← graph.documentParts true) ++
      [("operator_counts", .fields counts),
        ("initializer_count", .int graph.initializerCount),
        ("config", settings.document)])

end TorchArchive
