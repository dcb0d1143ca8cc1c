import TorchArchive.Heap.Sequence

/-!
The tree of modules: the modules of a model in the order in which they were found,
each with the place of the module that holds it. A module that is held by several
is found once, and stays where it was found first.
-/

namespace TorchArchive

/-- The modules that were found; the heap keeps the place of each. -/
structure ModuleTree where
  modules : List (Ref .module)

namespace ModuleTree

def empty : ModuleTree := ⟨[]⟩

def size (tree : ModuleTree) : Nat := tree.modules.length

/-- The module at a place; negative places count from the end. -/
def module? (tree : ModuleTree) (place : Int) : Except Fault (Ref .module) :=
  match (Heap.position? tree.size place).bind fun n => tree.modules[n]? with
  | some ref => .ok ref
  | none => .error .index

/-- The place of a module in the tree, which is given one if it has none. An
identifier that the module has already stays. -/
def add (tree : ModuleTree) (heap : Heap) (ref : Ref .module)
    (parent : Option Int) (identifier : Option String) :
    Nat × ModuleTree × Heap :=
  match (heap.module ref).index with
  | some place => (place, tree, heap)
  | none =>
      let heap := heap.updateModule ref fun module =>
        { module with
          index := some tree.size
          parent
          identifier := module.identifier.or identifier }
      (tree.size, ⟨tree.modules ++ [ref]⟩, heap)

/-- The identifiers from the root down to a place. -/
def path (tree : ModuleTree) (heap : Heap) :
    Nat → Int → List String → Except Fault (List String)
  | 0, _, _ => .error .depth
  | fuel + 1, place, below => do
      let module := heap.module (← tree.module? place)
      let names :=
        match module.identifier with
        | some name => if name.isEmpty then below else name :: below
        | none => below
      match module.parent with
      | some parent => path tree heap fuel parent names
      | none => return names

/-- The qualified name of the module at a place. -/
def qualifiedName (tree : ModuleTree) (heap : Heap) (place : Option Int) :
    Except Fault String :=
  match place with
  | none => .ok ""
  | some place => do
      return ".".intercalate (← path tree heap (tree.size + 1) place [])

end ModuleTree

namespace Heap

/-- The counter that modules for normalization keep; it is no parameter. -/
def bookkeepingField : String := "num_batches_tracked"

/-- The tensors among the fields of a module. -/
def tensorFields (heap : Heap) (ref : Ref .module) : List (Value × Ref .tensor) :=
  (heap.module ref).fields.pairs.filterMap fun entry =>
    match entry.2 with
    | .tensor tensor => some (entry.1, tensor)
    | _ => none

/-- The number of tensors that a module has for parameters. -/
def parameterCount (heap : Heap) (ref : Ref .module) : Nat :=
  (heap.tensorFields ref).countP fun field => field.1.str? != some bookkeepingField

end Heap

end TorchArchive
