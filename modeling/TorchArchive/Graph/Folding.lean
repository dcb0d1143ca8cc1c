import TorchArchive.Event
import TorchArchive.Graph.ModuleTree
import TorchArchive.Registry.Trace

/-!
Folding: a module whose parameters are all consumed by one recorded call becomes
part of that call. The module is hidden then, and the call's arguments get the
tensors as initializers.
-/

namespace TorchArchive

/-- What folding a list of calls yields, and the fault that ended it early. -/
structure Folding where
  heap : Heap
  nodes : List TraceNode
  events : List Event
  fault : Option Fault

namespace Folding

/-- The number of calls that a module was folded into. -/
def count (folding : Folding) : Nat := folding.events.length

/-- The parameters that flow into a call, once for each argument. -/
def tensorsOf (parameters : Table String (Ref .tensor)) (node : TraceNode) :
    List (Ref .tensor) :=
  node.inputs.flatten.filterMap fun argument => parameters.get? argument.id

/-- The one owner of tensors; none if they are of several modules or of none. -/
def commonOwner? (heap : Heap) (tensors : List (Ref .tensor)) : Option Int :=
  match tensors with
  | [] => none
  | first :: rest =>
      let owner := (heap.tensor first).owner
      if rest.all fun ref => (heap.tensor ref).owner == owner then owner else none

/-- The call with initializers for the arguments that are parameters. -/
def bindArguments (heap : Heap) (parameters : Table String (Ref .tensor))
    (node : TraceNode) : TraceNode :=
  { node with
    inputs := node.inputs.map fun arguments =>
      arguments.map fun argument =>
        match parameters.get? argument.id with
        | some ref =>
            { argument with initializer := (heap.tensor ref).initializer }
        | none => argument }

/-- Folds the module that owns a call's parameters into the call, if it has no
others and was not folded yet. -/
def foldNode (tree : ModuleTree) (parameters : Table String (Ref .tensor))
    (heap : Heap) (node : TraceNode) :
    Except Fault (Option (Heap × TraceNode × Event)) := do
  let tensors := tensorsOf parameters node
  match commonOwner? heap tensors with
  | none => return none
  | some owner =>
      let ref ← tree.module? owner
      let module := heap.module ref
      if module.hidden || tensors.length != heap.parameterCount ref then
        return none
      else
        let place := module.index
        let name ← tree.qualifiedName heap (place.map fun n => (n : Int))
        return some
          (heap.updateModule ref ({ · with hidden := true }),
            { bindArguments heap parameters node with module := place },
            .folding name node.operator)

end Folding

/-- Folds modules into calls, from the first call to the last. -/
def foldNodes (tree : ModuleTree) (parameters : Table String (Ref .tensor))
    (heap : Heap) : List TraceNode → Folding
  | [] => ⟨heap, [], [], none⟩
  | node :: rest =>
      match Folding.foldNode tree parameters heap node with
      | .error fault => ⟨heap, node :: rest, [], some fault⟩
      | .ok none =>
          let folding := foldNodes tree parameters heap rest
          { folding with nodes := node :: folding.nodes }
      | .ok (some (heap, node, event)) =>
          let folding := foldNodes tree parameters heap rest
          { folding with
            nodes := node :: folding.nodes
            events := event :: folding.events }

end TorchArchive
