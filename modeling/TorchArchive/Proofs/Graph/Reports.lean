import Mathlib
import TorchArchive.Proofs.Steps
import TorchArchive.Report

/-!
# Reports tell what documents tell

A report shows a graph as the document of the graph does, and beside each value what
keeps its initializer from being read.  What it counts are the nodes and the initializers
that it shows.
-/

namespace TorchArchive

/-! ## Documents with parts changed -/

namespace Datum

/-- A dictionary without what is bound to a string. -/
def without (name : String) : Datum → Datum
  | dict ordered entries =>
      dict ordered (entries.filter fun entry => entry.1.str? != some name)
  | datum => datum

/-- A dictionary with what is bound to a string changed. -/
def changeAt (name : String) (change : Datum → Datum) : Datum → Datum
  | dict ordered entries =>
      dict ordered (entries.map fun entry =>
        if entry.1.str? = some name then (entry.1, change entry.2) else entry)
  | datum => datum

/-- A list with every item changed. -/
def changeItems (change : Datum → Datum) : Datum → Datum
  | list items => list (items.map change)
  | datum => datum

/-- The items of the list that is bound to a string. -/
def itemsAt (name : String) (datum : Datum) : List Datum :=
  ((datum.get? name).bind items?).getD []

/-- A list of parameters without the states of their values. -/
def parametersWithoutStates : Datum → Datum :=
  changeItems (changeAt "arguments" (changeItems (without "state")))

/-- A node without the states of its values. -/
def nodeWithoutStates (node : Datum) : Datum :=
  (node.changeAt "inputs" parametersWithoutStates).changeAt "outputs"
    parametersWithoutStates

/-- Whether the document of a value tells that it has an initializer. -/
def isFlagged (argument : Datum) : Bool :=
  match argument.get? "initializer" with
  | some (.atom (.bool flagged)) => flagged
  | _ => false

/-- The operator that the document of a node tells. -/
def operator? (node : Datum) : Option String := (node.get? "operator").bind str?

/-- The documents of the values that flow into a node. -/
def flowingIn (node : Datum) : List Datum :=
  (node.itemsAt "inputs").flatMap fun parameter => parameter.itemsAt "arguments"

end Datum

/-! ## Values, parameters and nodes -/

section Steps

variable {ε α β : Type}

/-- Where one step yields what another one does but changed, so do steps over a list. -/
theorem Except.mapM_map_of_ok {step other : α → Except ε β} {change : β → β}
    (changes : ∀ item result, step item = .ok result → other item = .ok (change result))
    {items : List α} {results : List β} (ends : items.mapM step = .ok results) :
    items.mapM other = .ok (results.map change) := by
  rw [mapM_eq_ok_iff] at ends ⊢
  induction ends with
  | nil => exact .nil
  | cons first _ inductionHypothesis =>
      exact .cons (changes _ _ first) inductionHypothesis

/-- What is told of each result is what is told of the item that it comes from. -/
theorem Except.map_eq_of_mapM {step : α → Except ε β} {γ : Type} {ofItem : α → γ}
    {ofResult : β → γ}
    (same : ∀ item result, step item = .ok result → ofResult result = ofItem item)
    {items : List α} {results : List β} (ends : items.mapM step = .ok results) :
    results.map ofResult = items.map ofItem := by
  rw [mapM_eq_ok_iff] at ends
  induction ends with
  | nil => rfl
  | cons first _ inductionHypothesis =>
      rw [List.map_cons, List.map_cons, same _ _ first, inductionHypothesis]

end Steps

theorem Argument.document_withoutState (argument : Argument) (document : Datum)
    (tells : argument.document true = .ok document) :
    argument.document false = .ok (document.without "state") := by
  rw [Argument.document, if_pos rfl] at tells
  dsimp only at tells
  split at tells
  · obtain ⟨state, _, same⟩ := Except.bind_eq_ok_iff.mp tells
    cases same
    rfl
  · cases tells
    rfl

theorem GraphParameter.document_withoutState (parameter : GraphParameter)
    (document : Datum) (tells : parameter.document true = .ok document) :
    parameter.document false =
      .ok (document.changeAt "arguments" (.changeItems (.without "state"))) := by
  obtain ⟨arguments, tellsArguments, same⟩ := Except.bind_eq_ok_iff.mp tells
  cases same
  rw [GraphParameter.document,
    Except.mapM_map_of_ok Argument.document_withoutState tellsArguments]
  rfl

theorem GraphParameter.documents_withoutStates {parameters : List GraphParameter}
    {document : Datum} (tells : documents true parameters = .ok document) :
    documents false parameters = .ok document.parametersWithoutStates := by
  obtain ⟨items, tellsItems, same⟩ := Except.bind_eq_ok_iff.mp tells
  cases same
  rw [documents, Except.mapM_map_of_ok document_withoutState tellsItems]
  rfl

theorem Node.document_withoutStates (node : Node) (document : Datum)
    (tells : node.document true = .ok document) :
    node.document false = .ok document.nodeWithoutStates := by
  obtain ⟨inputs, tellsInputs, tells⟩ := Except.bind_eq_ok_iff.mp tells
  obtain ⟨outputs, tellsOutputs, same⟩ := Except.bind_eq_ok_iff.mp tells
  cases same
  rw [Node.document, GraphParameter.documents_withoutStates tellsInputs,
    GraphParameter.documents_withoutStates tellsOutputs]
  rfl

/-- The parts of a report that show the graph come from the documents of the nodes, and
without states they are the document of the graph. -/
theorem Graph.documentParts_eq_ok {graph : Graph} {parts : List (String × Datum)}
    (tells : graph.documentParts true = .ok parts) :
    ∃ inputs outputs nodes,
      parts = [("inputs", inputs), ("outputs", outputs), ("nodes", .list nodes)] ∧
        graph.nodes.mapM (Node.document true) = .ok nodes ∧
          graph.document = .ok (.fields
            [("name", graph.name), ("inputs", inputs.parametersWithoutStates),
              ("outputs", outputs.parametersWithoutStates),
              ("nodes", .list (nodes.map Datum.nodeWithoutStates))]) := by
  obtain ⟨nodes, tellsNodes, tells⟩ := Except.bind_eq_ok_iff.mp tells
  obtain ⟨inputs, tellsInputs, tells⟩ := Except.bind_eq_ok_iff.mp tells
  obtain ⟨outputs, tellsOutputs, same⟩ := Except.bind_eq_ok_iff.mp tells
  cases same
  refine ⟨inputs, outputs, nodes, rfl, tellsNodes, ?_⟩
  rw [Graph.document, Graph.documentParts,
    Except.mapM_map_of_ok Node.document_withoutStates tellsNodes,
    GraphParameter.documents_withoutStates tellsInputs,
    GraphParameter.documents_withoutStates tellsOutputs]
  rfl

/-! ## What documents tell -/

theorem Argument.document_isFlagged (argument : Argument) (document : Datum)
    (tells : argument.document true = .ok document) :
    document.isFlagged = argument.initializer.isSome := by
  rw [Argument.document, if_pos rfl] at tells
  dsimp only at tells
  split at tells
  · obtain ⟨state, _, same⟩ := Except.bind_eq_ok_iff.mp tells
    cases same
    rfl
  · cases tells
    rfl

theorem GraphParameter.document_flags (parameter : GraphParameter) (document : Datum)
    (tells : parameter.document true = .ok document) :
    (document.itemsAt "arguments").map Datum.isFlagged =
      parameter.arguments.map fun argument => argument.initializer.isSome := by
  obtain ⟨arguments, tellsArguments, same⟩ := Except.bind_eq_ok_iff.mp tells
  cases same
  exact Except.map_eq_of_mapM Argument.document_isFlagged tellsArguments

theorem Node.document_flags (node : Node) (document : Datum)
    (tells : node.document true = .ok document) :
    document.flowingIn.map Datum.isFlagged =
      (node.inputs.flatMap (·.arguments)).map fun argument =>
        argument.initializer.isSome := by
  obtain ⟨inputs, tellsInputs, tells⟩ := Except.bind_eq_ok_iff.mp tells
  obtain ⟨outputs, _, same⟩ := Except.bind_eq_ok_iff.mp tells
  cases same
  obtain ⟨items, tellsItems, same⟩ := Except.bind_eq_ok_iff.mp tellsInputs
  cases same
  have flags := Except.map_eq_of_mapM GraphParameter.document_flags tellsItems
  rw [List.map_flatMap, List.flatMap_def, ← flags, ← List.flatMap_def, ← List.map_flatMap]
  rfl

theorem Node.document_operator (node : Node) (document : Datum)
    (tells : node.document true = .ok document) :
    document.operator? = some node.operator := by
  obtain ⟨inputs, _, tells⟩ := Except.bind_eq_ok_iff.mp tells
  obtain ⟨outputs, _, same⟩ := Except.bind_eq_ok_iff.mp tells
  cases same
  rfl

/-! ## Counts -/

namespace Graph

/-- How often each operator occurs in a list, in the order in which they occur first. -/
def tally (operators : List String) : Table String Nat :=
  operators.foldl
    (fun counts operator =>
      counts.insert operator ((counts.get? operator).getD 0 + 1))
    .empty

theorem operatorCounts_eq (graph : Graph) :
    graph.operatorCounts = tally (graph.nodes.map Node.operator) := by
  rw [operatorCounts, tally, List.foldl_map]

theorem tally_concat (operators : List String) (last : String) :
    tally (operators ++ [last]) =
      (tally operators).insert last (((tally operators).get? last).getD 0 + 1) := by
  rw [tally, List.foldl_append]
  rfl

theorem get?_tally (operators : List String) (operator : String) :
    (tally operators).get? operator =
      if operator ∈ operators then some (operators.count operator) else none := by
  induction operators using List.reverseRecOn with
  | nil => rfl
  | append_singleton operators last inductionHypothesis =>
      rw [tally_concat, Table.get?_insert, List.count_append, List.count_singleton]
      by_cases same : last = operator
      · subst same
        rw [inductionHypothesis]
        by_cases old : last ∈ operators
        · simp [old]
        · simp [old, List.count_eq_zero_of_not_mem old]
      · rw [if_neg same, inductionHypothesis]
        simp [same, Ne.symm same]

theorem keys_tally_nodup (operators : List String) : (tally operators).keys.Nodup := by
  induction operators using List.reverseRecOn with
  | nil => exact List.nodup_nil
  | append_singleton operators last inductionHypothesis =>
      rw [tally_concat, Table.keys_insert]
      split
      · exact inductionHypothesis
      · rename_i new
        exact List.nodup_append.mpr
          ⟨inductionHypothesis, List.nodup_singleton last, fun key old other isLast =>
            ne_of_mem_of_not_mem old (List.mem_singleton.mp isLast ▸ new)⟩

theorem mem_tally_iff {operators : List String} {operator : String} {count : Nat} :
    (operator, count) ∈ (tally operators).entries ↔
      0 < count ∧ count = operators.count operator := by
  have found :
      (operator, count) ∈ (tally operators).entries ↔
        (tally operators).get? operator = some count :=
    ⟨Table.get?_of_mem (keys_tally_nodup operators), Table.mem_of_get?⟩
  rw [found, get?_tally]
  constructor
  · intro counted
    split at counted
    · rename_i member
      cases counted
      exact ⟨List.count_pos_iff.mpr member, rfl⟩
    · cases counted
  · rintro ⟨positive, rfl⟩
    rw [if_pos (List.count_pos_iff.mp positive)]

/-- The counts of all operators add up to the number of occurrences. -/
theorem tally_sum (operators : List String) :
    ((tally operators).entries.map Prod.snd).sum = operators.length := by
  have counts :
      (tally operators).entries.map Prod.snd =
        (tally operators).keys.map operators.count := by
    rw [Table.keys, List.map_map]
    exact List.map_congr_left fun entry member => (mem_tally_iff.mp member).2
  have members (operator : String) :
      operator ∈ (tally operators).keys ↔ operator ∈ operators.dedup := by
    rw [Table.keys, List.mem_map, List.mem_dedup, ← List.count_pos_iff]
    constructor
    · rintro ⟨⟨_, count⟩, member, rfl⟩
      obtain ⟨positive, rfl⟩ := mem_tally_iff.mp member
      exact positive
    · intro positive
      exact ⟨_, mem_tally_iff.mpr ⟨positive, rfl⟩, rfl⟩
  have arranged : (tally operators).keys.Perm operators.dedup :=
    (List.perm_ext_iff_of_nodup (keys_tally_nodup operators) (List.nodup_dedup _)).mpr
      members
  rw [counts, (arranged.map _).sum_eq, List.sum_map_count_dedup_eq_length]

end Graph

/-! ## What is told of a report -/

/-- What a report tells is what the document of the graph tells, and its counts are those
of the nodes that it shows. -/
structure Report.Agrees (report document : Datum) : Prop where
  inputs : (report.get? "inputs").map Datum.parametersWithoutStates = document.get? "inputs"
  outputs :
    (report.get? "outputs").map Datum.parametersWithoutStates = document.get? "outputs"
  nodes :
    (report.get? "nodes").map (Datum.changeItems Datum.nodeWithoutStates) =
      document.get? "nodes"
  operators :
    ∃ counts : List (String × Nat),
      report.get? "operator_counts" =
          some (.fields (counts.map fun entry => (entry.1, .int entry.2))) ∧
        (∀ operator count, (operator, count) ∈ counts ↔
          0 < count ∧
            count = (report.itemsAt "nodes").countP (·.operator? = some operator)) ∧
        (counts.map Prod.fst).Nodup ∧
        (counts.map Prod.snd).sum = (report.itemsAt "nodes").length
  initializers :
    report.get? "initializer_count" =
      some (.int
        (((report.itemsAt "nodes").flatMap Datum.flowingIn).countP Datum.isFlagged))

namespace Graph

variable {graph : Graph} {nodes : List Datum}

/-- The nodes that are shown with an operator are those that have it. -/
theorem countP_operator (tells : graph.nodes.mapM (Node.document true) = .ok nodes)
    (operator : String) :
    nodes.countP (fun node => node.operator? = some operator) =
      (graph.nodes.map Node.operator).count operator := by
  calc nodes.countP (fun node => node.operator? = some operator)
    _ = (nodes.map Datum.operator?).countP (fun told => told = some operator) := by
        rw [List.countP_map]
        rfl
    _ = (graph.nodes.map fun node => some node.operator).countP
          (fun told => told = some operator) := by
        rw [Except.map_eq_of_mapM Node.document_operator tells]
    _ = (graph.nodes.map Node.operator).count operator := by
        rw [List.count, List.countP_map, List.countP_map]
        exact List.countP_congr fun node _ => by simp

/-- The initializers that flow into nodes are those that are flagged. -/
theorem initializerCount_eq (tells : graph.nodes.mapM (Node.document true) = .ok nodes) :
    graph.initializerCount = (nodes.flatMap Datum.flowingIn).countP Datum.isFlagged := by
  have flags :
      (nodes.flatMap Datum.flowingIn).map Datum.isFlagged =
        ((graph.nodes.flatMap (·.inputs)).flatMap (·.arguments)).map
          fun argument => argument.initializer.isSome := by
    rw [List.map_flatMap, List.flatMap_def, Except.map_eq_of_mapM Node.document_flags tells,
      ← List.flatMap_def, ← List.map_flatMap, List.flatMap_assoc]
  calc graph.initializerCount
    _ = (((graph.nodes.flatMap (·.inputs)).flatMap (·.arguments)).map
          fun argument => argument.initializer.isSome).countP id := by
        rw [List.countP_map]
        rfl
    _ = ((nodes.flatMap Datum.flowingIn).map Datum.isFlagged).countP id := by rw [flags]
    _ = (nodes.flatMap Datum.flowingIn).countP Datum.isFlagged := by
        rw [List.countP_map]
        rfl

end Graph

namespace WeightedSum

/-- A weight of two elements. -/
def weight : Initializer :=
  ⟨"w", some "float32", some [.int 2], some ⟨#[0, 0, 0, 0, 0, 0, 128, 63]⟩, .int 0, .int 10⟩

/-- A sum whose second operand is the weight, and a call without operands. -/
def model : Model where
  format := "TorchScript v1"
  producer := .str ""
  graph :=
    { name := .str "g"
      inputs := [.ofValue "x"]
      outputs := [.ofValue "2"]
      nodes :=
        [⟨"add", "", [⟨.str "input", true, [.named "x"]⟩,
            ⟨.str "other", true, [⟨"1", some weight, none⟩]⟩],
            [.ofValue "2"], [⟨"alpha", .tuple [.int 1, .int 2], .none, true⟩,
              ⟨"training", .bool true, .none, true⟩], .str "", .none⟩,
          ⟨"relu", "", [], [], [], .str "Activation", .none⟩] }

end WeightedSum

end TorchArchive
