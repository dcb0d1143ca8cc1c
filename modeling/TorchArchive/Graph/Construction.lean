import TorchArchive.Graph.Basic
import TorchArchive.Graph.Folding
import TorchArchive.Graph.Registration
import TorchArchive.Schema.Store

/-!
Construction of graphs: a node for each recorded call, named and described by the
operator's schema, and a node for each module that holds tensors and was not folded
into a call.
-/

namespace TorchArchive

/-! ## Recorded calls -/

/-- The number of items of a schema's list. -/
def itemCount (items : Datum) : Except Fault Nat :=
  match items with
  | .list items | .tuple items => .ok items.length
  | .dict _ entries => .ok entries.length
  | .atom (.str s) => .ok s.length
  | datum => .error (.type s!"object of type '{datum.typeName}' has no len()")

/-- The item of a schema's list at a place. -/
def itemAt (items : Datum) (place : Nat) : Except Fault Datum :=
  match items with
  | .list items | .tuple items => .ok (items[place]?.getD .none)
  | .dict _ entries =>
      match entries.find? fun entry => entry.1.equals (.int place) with
      | some entry => .ok entry.2
      | none => .error (.key (integerText place))
  | items => .ok items

/-- The name that a schema gives to the value at a place; values beyond the schema
are named by their place. -/
def schemaName (items : Datum) (place : Nat) : Except Fault Datum := do
  let plain : Datum := .str (integerText place)
  if (← itemCount items) ≤ place then return plain
  else
    match ← itemAt items place with
    | .dict ordered entries =>
        let name := ((Datum.dict ordered entries).get? "name").getD .none
        return if name.truthy then name else plain
    | item => throw (.member s!"'{item.typeName}' object has no attribute 'get'")

/-- Parameters for lists of values, named by a schema. -/
def schemaParameters (items : Datum) (values : List (List Argument)) :
    Except Fault (List GraphParameter) :=
  values.zipIdx.mapM fun (arguments, place) => do
    return ⟨← schemaName items place, true, arguments⟩

/-- An entry of an operator's schema, or a default. -/
def schemaEntry (catalogue : Catalogue) (operator name : String)
    (default : Datum) : Except Fault Datum := do
  return (← catalogue.entry? operator name).getD default

/-- The node of a recorded call but for the attributes. -/
def bareNode (heap : Heap) (tree : ModuleTree) (catalogue : Catalogue)
    (call : TraceNode) : Except Fault Node := do
  let operator := call.operator
  let category ← schemaEntry catalogue operator "category" (.str "")
  let documentation ← catalogue.documentation operator
  let name ← tree.qualifiedName heap (call.module.map fun n => (n : Int))
  let inputs ← schemaParameters (← schemaEntry catalogue operator "inputs" (.list []))
    (call.inputs.map fun arguments =>
      arguments.map fun argument => ⟨argument.id, argument.initializer, none⟩)
  let outputs ←
    schemaParameters (← schemaEntry catalogue operator "outputs" (.list []))
      (call.outputs.map fun id => [.named id])
  return {
    operator, name, inputs, outputs, category
    attributes := []
    documentation := documentation.getD .none }

/-- The node of a recorded call. -/
def callNode (heap : Heap) (tree : ModuleTree) (catalogue : Catalogue)
    (call : TraceNode) : Except Fault Node := do
  let node ← bareNode heap tree catalogue call
  let attributes ← call.attributes.mapM fun (name, value) => do
    Attribute.make (← catalogue.attribute? call.operator name) name (heap.snapshot value)
  return { node with attributes }

/-- The node of a recorded call, for which a store is asked. -/
def inquireNode (heap : Heap) (tree : ModuleTree) (call : TraceNode) : Inquiry Node := do
  let node ← ofExcept (bareNode heap tree (← get).catalogue call)
  let attributes ← call.attributes.mapM fun (name, value) => do
    let schema ← SchemaStore.attribute? call.operator name
    ofExcept (Attribute.make schema name (heap.snapshot value))
  return { node with attributes }

/-- The nodes of recorded calls; one store is asked for all of them. -/
def callNodes (heap : Heap) (tree : ModuleTree) (catalogue : Catalogue)
    (calls : List TraceNode) : Except Fault (List Node) :=
  match calls.mapM (inquireNode heap tree) (.ofCatalogue catalogue) with
  | .ok nodes _ => .ok nodes
  | .error fault _ => .error fault

/-! ## Modules -/

/-- The node of a module: its tensors flow in, and what they are named by flows
out. -/
def moduleNode (heap : Heap) (name : String) (ref : Ref .module) : Node :=
  let fields := heap.tensorFields ref
  { operator := "Module"
    name
    inputs := fields.map fun (name, tensor) =>
      ⟨heap.snapshot name, true, [⟨"", (heap.tensor tensor).initializer, none⟩]⟩
    outputs := fields.filterMap fun (name, tensor) =>
      match heap.list (heap.tensor tensor).outputs with
      | [] => none
      | outputs =>
          some ⟨heap.snapshot name, true,
            outputs.map fun id => .named (heap.text id)⟩
    attributes := []
    category := .str ""
    documentation := .none }

/-- Whether a module stands below another one in the tree: it was found there
first. -/
def isChild (heap : Heap) (parent child : Ref .module) : Bool :=
  let place := (heap.module parent).index
  (heap.module child).parent == place.map (fun n => (n : Int)) &&
    (heap.module child).index != place

/-- The node of a module by itself, unless it is hidden or has no parameters. -/
def ownNodes (heap : Heap) (tree : ModuleTree) (ref : Ref .module) :
    Except Fault (List Node) :=
  let module := heap.module ref
  if !module.hidden && heap.parameterCount ref > 0 then do
    let name ← tree.qualifiedName heap (module.index.map fun n => (n : Int))
    return [moduleNode heap name ref]
  else .ok []

/-- The nodes of a module and of those below it, down to a depth. -/
def nodesBelow (heap : Heap) (tree : ModuleTree) :
    Nat → Ref .module → Except Fault (List Node)
  | 0, _ => .error .depth
  | fuel + 1, ref => do
      let own ← ownNodes heap tree ref
      let below ← (← heap.submodules ref).mapM fun entry =>
        match entry.2 with
        | .module child =>
            if isChild heap ref child then nodesBelow heap tree fuel child
            else .ok []
        | _ => .ok []
      return own ++ below.flatten

/-- The nodes of a module and of all modules below it, each under the module that it
was found in first. -/
def moduleNodes (heap : Heap) (tree : ModuleTree) (root : Ref .module) :
    Except Fault (List Node) :=
  nodesBelow heap tree (tree.size + 1) root

end TorchArchive
