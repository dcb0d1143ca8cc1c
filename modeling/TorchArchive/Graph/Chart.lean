import TorchArchive.Graph.Basic

/-!
Two views of a graph: a chart, which is a table of text with a line for each node, and a
histogram, which is a page of hypertext that tells how many nodes of each operator there
are, the most frequent operator first.
-/

namespace TorchArchive

/-! ## Charts -/

namespace Argument

/-- The text that stands for a value in a chart: its name, or else its type. -/
def label (argument : Argument) : String :=
  if argument.id.isEmpty then
    argument.type?.elim "?" TensorType.text
  else argument.id

end Argument

namespace Graph

/-- A line of a chart. -/
private structure Row where
  operator : String
  name : String
  inputs : String
  outputs : String

private def row (node : Node) : Row where
  operator := node.operator
  name := node.name
  inputs := Datum.commaSeparated
    (node.inputs.flatMap fun parameter => parameter.arguments.map Argument.label)
  outputs := Datum.commaSeparated
    (node.outputs.flatMap fun parameter => parameter.arguments.map (·.id))

/-- Fills a text up to a width. -/
private def padded (width : Nat) (text : String) : String :=
  String.ofList (text.toList.rightpad width ' ')

private def rule : String := String.ofList (List.replicate 90 '-') ++ "\n"

private def line (operatorWidth nameWidth : Nat) (operator name rest : String) :
    String :=
  padded operatorWidth operator ++ " | " ++ padded nameWidth name ++ " | " ++ rest ++
    "\n"

/-- The names of parameters, which have to be texts. -/
private def names (parameters : List GraphParameter) : Except Fault String := do
  let names ← parameters.mapM fun parameter =>
    match parameter.name.str? with
    | some name => .ok name
    | none => .error (.type s!"expected str instance, {parameter.name.typeName} found")
  return Datum.commaSeparated names

/-- The line that tells what flows in and out, if anything does. -/
private def flowLine (graph : Graph) : Except Fault String := do
  if graph.inputs.isEmpty && graph.outputs.isEmpty then return ""
  else
    return "inputs: " ++ (← names graph.inputs) ++ "  outputs: " ++
      (← names graph.outputs) ++ "\n"

/-- The chart of a graph. -/
def chart (graph : Graph) : Except Fault String := do
  if graph.nodes.isEmpty then return "Graph is empty."
  else
    let rows := graph.nodes.map row
    let widest (least : Nat) (part : Row → String) : Nat :=
      rows.foldl (fun width row => max width (part row).length) least
    let operatorWidth := widest 8 (·.operator)
    let nameWidth := widest 4 (·.name)
    let title :=
      if graph.name.truthy then "Graph '" ++ graph.name.text ++ "'\n" else "Graph\n"
    let lines := rows.map fun row =>
      line operatorWidth nameWidth row.operator row.name
        (row.inputs ++ " -> " ++ row.outputs)
    return title ++ rule ++
      line operatorWidth nameWidth "Operator" "Name" "Inputs -> Outputs" ++ rule ++
      String.join lines ++ rule ++ (← flowLine graph)

/-! ## Histograms -/

/-- A bar of a histogram: the nodes of one operator and category. -/
private structure Bar where
  operator : String
  category : String
  count : Nat

/-- The name of the category of nodes that have none. -/
private def otherCategory : String := "Other"

/-- The category of a node, which has to be one that nodes can be grouped by. -/
private def categoryOf (node : Node) : Except Fault String :=
  match node.category with
  | .list _ | .dict _ _ => .error (.type s!"unhashable type: '{node.category.typeName}'")
  | category =>
      .ok (if category.isNone || category.text.isEmpty then otherCategory
        else category.text)

private def addBar (operator category : String) : List Bar → List Bar
  | [] => [⟨operator, category, 1⟩]
  | bar :: rest =>
      if bar.operator == operator && bar.category == category then
        { bar with count := bar.count + 1 } :: rest
      else bar :: addBar operator category rest

/-- The bars of a graph, the highest first. -/
private def bars (graph : Graph) : Except Fault (List Bar) := do
  let bars ← graph.nodes.foldlM
    (fun bars node => do return addBar node.operator (← categoryOf node) bars) []
  return bars.mergeSort fun a b => b.count ≤ a.count

private def escaped (text : String) : String :=
  String.join (text.toList.map fun c =>
    match c with
    | '&' => "&amp;"
    | '<' => "&lt;"
    | '>' => "&gt;"
    | c => c.toString)

private def barRow (bar : Bar) : String :=
  "<tr><td>" ++ escaped bar.operator ++ "</td><td>" ++ escaped bar.category ++
    "</td><td>" ++ toString bar.count ++ "</td><td><meter min=\"0\" value=\"" ++
    toString bar.count ++ "\"></meter></td></tr>\n"

/-- The page of a histogram. -/
def histogram (graph : Graph) : Except Fault String := do
  if graph.nodes.isEmpty then
    return "<h1>Operator Histogram</h1><p>No data to display.</p>"
  else
    let rows := (← graph.bars).map barRow
    return "<!DOCTYPE html>\n<html>\n<head>\n<meta charset=\"utf-8\">\n" ++
      "<title>TorchScript Graph Operators</title>\n</head>\n<body>\n" ++
      "<h1>TorchScript Graph Operators</h1>\n<table>\n" ++
      "<tr><th>Operator</th><th>Category</th><th>Nodes</th><th></th></tr>\n" ++
      String.join rows ++ "</table>\n</body>\n</html>\n"

end Graph

end TorchArchive
