import TorchArchive.Heap.Store
import TorchArchive.Initializer.Basic
import TorchArchive.Script.Syntax

/-!
The heap of archive code: everything that can change or is told apart by
identity, one store for each kind.
-/

namespace TorchArchive

/-! ## Scopes -/

/-- A frame of local names. The frame of a package knows the package's name. -/
structure Frame where
  table : Ref .table
  package : Option String
  deriving DecidableEq, Inhabited

/-- A chain of frames, from the innermost outwards. -/
structure Scope where
  inner : Frame
  outer : List Frame
  deriving DecidableEq, Inhabited

namespace Scope

def frames (scope : Scope) : List Frame := scope.inner :: scope.outer

/-- The scope with one more frame inside. -/
def push (scope : Scope) (table : Ref .table) : Scope :=
  ⟨⟨table, none⟩, scope.frames⟩

/-- The scope of a package's top level. -/
def pushPackage (scope : Scope) (table : Ref .table) (name : String) : Scope :=
  ⟨⟨table, some name⟩, scope.frames⟩

end Scope

/-! ## Objects -/

/-- A dictionary; an ordered one shows its order. -/
structure Dict where
  ordered : Bool
  entries : Entries
  deriving Inhabited

/-- A tensor, read from an archive or made while tracing. Its outputs are the
names of the values that flow out of it. -/
structure Tensor where
  typeModule : String
  typeName : String
  storage : Value
  offset : Value
  size : Value
  stride : Value
  name : String
  requiresGrad : Bool
  quantizer : Value
  value : Value
  outputs : Ref .list
  owner : Option Int
  initializer : Option Initializer

/-- A tensor without data, whose outputs are in the given list. -/
def Tensor.blank (outputs : Ref .list) : Tensor where
  typeModule := "torch"
  typeName := "Tensor"
  storage := .none
  offset := .int 0
  size := .none
  stride := .none
  name := ""
  requiresGrad := false
  quantizer := .none
  value := .none
  outputs := outputs
  owner := none
  initializer := none

instance : Inhabited Tensor := ⟨Tensor.blank default⟩

/-- The bytes that back tensors. -/
structure Storage where
  dataType : String
  itemSize : Int
  size : Value
  data : Option ByteArray
  key : Option String
  typeModule : String
  typeName : String
  deriving Inhabited

/-- An instance of a module class. -/
structure Module where
  moduleClass : Ref .moduleClass
  fields : Entries
  /-- Its place in the list of registered modules. -/
  index : Option Nat
  /-- The place of the module that holds it. -/
  parent : Option Int
  identifier : Option String
  hidden : Bool
  deriving Inhabited

/-- A module without fields that is not registered. -/
def Module.fresh (moduleClass : Ref .moduleClass) : Module :=
  ⟨moduleClass, .empty, none, none, none, false⟩

/-- A class of modules. -/
structure ModuleClass where
  module : String
  name : String
  members : Ref .table
  deriving Inhabited

/-- A dotted package, of archive code or of builtins. -/
structure Package where
  name : String
  file : Option String
  members : Ref .table
  deriving Inhabited

/-- A function of archive code, closed over the scope that it was declared in. -/
structure Function where
  module : String
  name : String
  parameters : Ref .list
  body : List Stmt
  closure : Scope
  deriving Inhabited

/-! ## The heap -/

structure Heap where
  lists : Store .list (List Value)
  dicts : Store .dict Dict
  tables : Store .table (Table String Value)
  tensors : Store .tensor Tensor
  storages : Store .storage Storage
  modules : Store .module Module
  moduleClasses : Store .moduleClass ModuleClass
  packages : Store .package Package
  functions : Store .function Function
  deriving Inhabited

namespace Heap

/-- The class of modules of no class of their own. -/
def baseClass : Ref .moduleClass := ⟨0⟩

/-- The heap that holds the base class only. -/
def initial : Heap :=
  { (default : Heap) with
    tables := Store.empty.add .empty
    moduleClasses := Store.empty.add ⟨"torch", "Module", ⟨0⟩⟩ }

def list (heap : Heap) (ref : Ref .list) : List Value := heap.lists.get ref
def dict (heap : Heap) (ref : Ref .dict) : Dict := heap.dicts.get ref
def table (heap : Heap) (ref : Ref .table) : Table String Value :=
  heap.tables.get ref
def tensor (heap : Heap) (ref : Ref .tensor) : Tensor := heap.tensors.get ref
def storage (heap : Heap) (ref : Ref .storage) : Storage :=
  heap.storages.get ref
def module (heap : Heap) (ref : Ref .module) : Module := heap.modules.get ref
def moduleClass (heap : Heap) (ref : Ref .moduleClass) : ModuleClass :=
  heap.moduleClasses.get ref
def package (heap : Heap) (ref : Ref .package) : Package :=
  heap.packages.get ref
def function (heap : Heap) (ref : Ref .function) : Function :=
  heap.functions.get ref

/-! ## New objects -/

def addList (heap : Heap) (items : List Value) : Ref .list × Heap :=
  (heap.lists.next, { heap with lists := heap.lists.add items })

def addDict (heap : Heap) (dict : Dict) : Ref .dict × Heap :=
  (heap.dicts.next, { heap with dicts := heap.dicts.add dict })

def addTable (heap : Heap) (table : Table String Value) : Ref .table × Heap :=
  (heap.tables.next, { heap with tables := heap.tables.add table })

def addTensor (heap : Heap) (tensor : Tensor) : Ref .tensor × Heap :=
  (heap.tensors.next, { heap with tensors := heap.tensors.add tensor })

def addStorage (heap : Heap) (storage : Storage) : Ref .storage × Heap :=
  (heap.storages.next, { heap with storages := heap.storages.add storage })

def addModule (heap : Heap) (module : Module) : Ref .module × Heap :=
  (heap.modules.next, { heap with modules := heap.modules.add module })

def addFunction (heap : Heap) (function : Function) : Ref .function × Heap :=
  (heap.functions.next, { heap with functions := heap.functions.add function })

/-- A new class without members. -/
def addModuleClass (heap : Heap) (module name : String) :
    Ref .moduleClass × Heap :=
  let (members, heap) := heap.addTable .empty
  (heap.moduleClasses.next,
    { heap with moduleClasses := heap.moduleClasses.add ⟨module, name, members⟩ })

/-- A new package without members. -/
def addPackage (heap : Heap) (name : String) : Ref .package × Heap :=
  let (members, heap) := heap.addTable .empty
  (heap.packages.next,
    { heap with packages := heap.packages.add ⟨name, none, members⟩ })

/-! ## Changes -/

def setList (heap : Heap) (ref : Ref .list) (items : List Value) : Heap :=
  { heap with lists := heap.lists.set ref items }

def setDict (heap : Heap) (ref : Ref .dict) (dict : Dict) : Heap :=
  { heap with dicts := heap.dicts.set ref dict }

/-- Binds a name in a table. -/
def bind (heap : Heap) (ref : Ref .table) (name : String) (value : Value) : Heap :=
  { heap with tables := heap.tables.update ref (·.insert name value) }

def updateTensor (heap : Heap) (ref : Ref .tensor) (change : Tensor → Tensor) :
    Heap :=
  { heap with tensors := heap.tensors.update ref change }

def updateModule (heap : Heap) (ref : Ref .module) (change : Module → Module) :
    Heap :=
  { heap with modules := heap.modules.update ref change }

def updatePackage (heap : Heap) (ref : Ref .package)
    (change : Package → Package) : Heap :=
  { heap with packages := heap.packages.update ref change }

/-! ## Views -/

/-- The class of a module. -/
def classOf (heap : Heap) (ref : Ref .module) : ModuleClass :=
  heap.moduleClass (heap.module ref).moduleClass

/-- The items of a list or a tuple. -/
def items? (heap : Heap) : Value → Option (List Value)
  | .list ref => some (heap.list ref)
  | .tuple items => some items
  | _ => none

/-- The tensors of a list or a tuple of tensors only. -/
def tensors? (heap : Heap) (value : Value) : Option (List (Ref .tensor)) := do
  let items ← heap.items? value
  items.mapM fun
    | .tensor ref => some ref
    | _ => none

/-! ## What a change shows -/

section Laws

variable (heap : Heap)

@[simp] theorem list_addList (items : List Value) (other : Ref .list) :
    (heap.addList items).2.list other =
      if (heap.addList items).1 = other then items else heap.list other :=
  Store.get_add heap.lists other items

@[simp] theorem tensor_addList (items : List Value) (other : Ref .tensor) :
    (heap.addList items).2.tensor other = heap.tensor other := rfl

@[simp] theorem module_addList (items : List Value) (other : Ref .module) :
    (heap.addList items).2.module other = heap.module other := rfl

@[simp] theorem list_addTensor (tensor : Tensor) (other : Ref .list) :
    (heap.addTensor tensor).2.list other = heap.list other := rfl

@[simp] theorem tensor_addTensor (tensor : Tensor) (other : Ref .tensor) :
    (heap.addTensor tensor).2.tensor other =
      if (heap.addTensor tensor).1 = other then tensor else heap.tensor other :=
  Store.get_add heap.tensors other tensor

@[simp] theorem module_addTensor (tensor : Tensor) (other : Ref .module) :
    (heap.addTensor tensor).2.module other = heap.module other := rfl

variable (ref : Ref .tensor) (change : Tensor → Tensor)

@[simp] theorem list_updateTensor (other : Ref .list) :
    (heap.updateTensor ref change).list other = heap.list other := rfl

@[simp] theorem tensor_updateTensor (other : Ref .tensor) :
    (heap.updateTensor ref change).tensor other =
      if ref = other then change (heap.tensor ref) else heap.tensor other :=
  Store.get_update heap.tensors ref other change

@[simp] theorem module_updateTensor (other : Ref .module) :
    (heap.updateTensor ref change).module other = heap.module other := rfl

variable (ref : Ref .module) (change : Module → Module)

@[simp] theorem list_updateModule (other : Ref .list) :
    (heap.updateModule ref change).list other = heap.list other := rfl

@[simp] theorem tensor_updateModule (other : Ref .tensor) :
    (heap.updateModule ref change).tensor other = heap.tensor other := rfl

@[simp] theorem module_updateModule (other : Ref .module) :
    (heap.updateModule ref change).module other =
      if ref = other then change (heap.module ref) else heap.module other :=
  Store.get_update heap.modules ref other change

end Laws

end Heap

end TorchArchive
