import TorchArchive.Graph.ModuleTree

/-!
Registration of modules: from the root, all modules that fields lead to are found
level by level, and each tensor becomes a parameter of the first module that is
found to hold it.
-/

namespace TorchArchive

namespace Heap

/-- The modules that stand in fields of modules, once for each field. -/
def fieldModules (heap : Heap) : List (Ref .module) :=
  heap.modules.cells.toList.flatMap fun module =>
    module.fields.pairs.filterMap fun entry =>
      match entry.2 with
      | .module ref => some ref
      | _ => none

end Heap

/-- What registration yields: the modules, which the heap knows the places of, and
the tensors through which one value flows, by its name. -/
structure Registration where
  heap : Heap
  tree : ModuleTree
  parameters : Table String (Ref .tensor)

namespace Registration

/-- The registration that begins with a heap. -/
def begin (heap : Heap) : Registration := ⟨heap, .empty, .empty⟩

/-- Makes a tensor that no module owns a parameter of a module. -/
def addTensor (displayLimit : Datum) (owner : Option Int)
    (registration : Registration) (ref : Ref .tensor) :
    Except Fault Registration := do
  let heap := registration.heap
  if (heap.tensor ref).owner.isSome then return registration
  else
    let view ← heap.initializer ref displayLimit
    let parameters :=
      match heap.identifier? ref with
      | some id => registration.parameters.insert (heap.text id) ref
      | none => registration.parameters
    return { registration with
      heap := heap.updateTensor ref ({ · with owner, initializer := some view })
      parameters }

/-- Whether a field is kept apart from the tree; its name has to be a string. -/
def isApart (heap : Heap) (name : Value) : Except Fault Bool :=
  match name.str? with
  | some name => .ok (name.startsWith "__")
  | none => .error (.member s!"'{heap.typeName name}' is not a name")

/-- Registers the fields of a module and gives the modules among them that were not
found before. -/
def addFields (displayLimit : Datum) (place : Option Int) :
    Registration → List (Value × Value) →
      Except Fault (List (Ref .module) × Registration)
  | registration, [] => .ok ([], registration)
  | registration, (_, .tensor ref) :: rest => do
      let registration ← addTensor displayLimit place registration ref
      addFields displayLimit place registration rest
  | registration, (name, .module ref) :: rest => do
      let apart ← isApart registration.heap name
      if apart || (registration.heap.module ref).index.isSome then
        addFields displayLimit place registration rest
      else
        let (_, tree, heap) :=
          registration.tree.add registration.heap ref place name.str?
        let (found, registration) ←
          addFields displayLimit place { registration with tree, heap } rest
        return (ref :: found, registration)
  | registration, _ :: rest => addFields displayLimit place registration rest

/-- Registers the modules of a queue and those that they lead to. Each module enters
the queue once, and all but the root stand in a field, so the number of modules in
fields bounds the rounds. -/
def addQueue (displayLimit : Datum) :
    Nat → List (Ref .module) → Registration → Except Fault Registration
  | 0, _, registration => .ok registration
  | _, [], registration => .ok registration
  | fuel + 1, ref :: queue, registration => do
      let module := registration.heap.module ref
      let place := module.index.map fun n => (n : Int)
      let (found, registration) ←
        addFields displayLimit place registration module.fields.pairs
      addQueue displayLimit fuel (queue ++ found) registration

/-- Registers a root and all modules that it leads to. -/
def addRoot (registration : Registration) (displayLimit : Datum)
    (root : Ref .module) : Except Fault Registration :=
  let (_, tree, heap) := registration.tree.add registration.heap root none none
  addQueue displayLimit (heap.fieldModules.length + 1) [root]
    { registration with tree, heap }

end Registration

end TorchArchive
