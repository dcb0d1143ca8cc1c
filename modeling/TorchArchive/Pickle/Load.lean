import TorchArchive.Evaluation.Package
import TorchArchive.Pickle.Reader
import TorchArchive.Pickle.Stack

/-!
Loading pickled objects. Names stand for what the code of the archive declares or
for builtins; tensors refer to storages, whose bytes are kept apart and which are
made once for each key.
-/

namespace TorchArchive.Pickle

open TorchArchive

/-- The stack and the storages that were referred to so far. -/
structure Loading where
  stack : Stack
  storages : Table String Value

/-- A step of a load. -/
abbrev Load := StateT Loading Run

def underflow : Fault := .pickle "unpickling stack underflow"

def missingMark : Fault := .pickle "could not find MARK"

/-! ## The stack -/

def push (value : Value) : Load Unit :=
  modify fun loading => { loading with stack := loading.stack.push value }

/-- A step on the stack that may fail. -/
def onStack (fault : Fault) (step : Stack → Option (α × Stack)) : Load α := do
  let loading ← get
  match step loading.stack with
  | some (a, stack) =>
      set { loading with stack }
      return a
  | none => throw fault

def pop : Load Value := onStack underflow Stack.pop?

def group : Load (List Value) := onStack missingMark Stack.group?

/-! ## Names -/

/-- Whether a module is one that archives declare their classes in. -/
def isArchiveModule (module : String) : Bool :=
  module == "__torch__" || module.startsWith "__torch__."

/-- What a name in a module stands for: something declared or built in, a new class
of an archive without source, or a stand-in. -/
def findGlobal (calls : Calls) (module name : String) : Run Value := do
  let qualifiedName := module ++ "." ++ name
  let found ← tryCatch (resolve calls qualifiedName) fun fault =>
    if fault.kind = .sourceNotFound then pure Value.missing else throw fault
  if !found.isMissing then return found
  else if isArchiveModule module then
    if name.toList.contains '\x00' then throw (.value "a class name holds no null character")
    .moduleClass <$> Run.allocate fun heap => heap.addModuleClass module name
  else if Builtin.hasStub qualifiedName then return .builtin (.stub qualifiedName)
  else throw (.unknownSymbol qualifiedName)

/-! ## Calls -/

/-- Calls a value. A class makes an instance that is left as it is. -/
def callObject (calls : Calls) (target : Value) (arguments : List Value) :
    Run Value := do
  match target with
  | .function ref => calls.apply ref none arguments
  | .moduleClass ref => .module <$> newInstance ref
  | .builtin builtin => Run.recorded (builtin.call arguments [])
  | .method method => Run.recorded (method.call arguments [])
  | .storageType type => Run.recorded (type.call arguments [])
  | target =>
      throw (.type s!"'{(← Run.heap).typeName target}' object is not callable")

/-- Makes an instance of a class. -/
def makeInstance (target arguments : Value) : Run Value := do
  match target, arguments with
  | .moduleClass ref, .tuple _ => .module <$> newInstance ref
  | .moduleClass _, _ => throw (.pickle "the arguments must be a tuple")
  | _, _ => throw (.pickle "the class must be a type")

/-! ## Storages -/

/-- Takes the first item of a persistent id. -/
def takePart : List Value → Except Fault (Value × List Value)
  | first :: rest => .ok (first, rest)
  | [] => .error .index

/-- The constructor of a storage that a value is. -/
def expectStorageType (found : Value) : Run StorageType := do
  match found with
  | .storageType type => return type
  | found => throw (.unknownStorageType ((← Run.heap).text found))

/-- The constructor of a storage, which may be told by name. -/
def storageType (calls : Calls) (value : Value) : Run StorageType := do
  match value with
  | .atom (.str name) => expectStorageType (← resolve calls name)
  | value => expectStorageType value

/-- The first item of the description of a view. -/
def viewKey (heap : Heap) (view : Value) : Except Fault String :=
  match heap.item? view (.int 0), view with
  | some key, _ => .ok (heap.text key)
  | none, .dict _ => .error (.key "0")
  | none, _ =>
      .error (.type s!"'{heap.typeName view}' object is not subscriptable")

/-- The storage of a key, made when the key is first met. -/
def storageOf (calls : Calls) (contents : Table String ByteArray) (type : Value)
    (key : String) (size : Value) : Load Value := do
  match (← get).storages.get? key with
  | some storage => return storage
  | none =>
      let type ← storageType calls type
      let made : Storage :=
        { type.make size with key := some key, data := contents.get? key }
      let ref ← (Run.allocate fun heap => heap.addStorage made : Run _)
      modify fun loading =>
        { loading with storages := loading.storages.insert key (.storage ref) }
      return .storage ref

/-- The storage of a view, which is not made. -/
def viewOf (view : Value) : Load Value := do
  let key ← ofExcept (viewKey (← Run.heap) view)
  match (← get).storages.get? key with
  | some known => return known
  | none =>
      modify fun loading =>
        { loading with storages := loading.storages.insert key .none }
      return .none

/-- The storage that the parts of a persistent id tell: its type, its key, its place,
its size and perhaps a view of it. -/
def referredStorage (calls : Calls) (contents : Table String ByteArray)
    (parts : List Value) : Load Value := do
  let (type, parts) ← ofExcept (takePart parts)
  let (key, parts) ← ofExcept (takePart parts)
  let key := (← Run.heap).text key
  let (_, parts) ← ofExcept (takePart parts)
  let storage ← storageOf calls contents type key (parts.headD .none)
  match parts.tail with
  | view :: _ => if (← Run.heap).truthy view then viewOf view else return storage
  | [] => return storage

/-- What a persistent id stands for, whose first part is its kind. -/
def loadPersistent (calls : Calls) (contents : Table String ByteArray)
    (id : Value) : Load Value := do
  let parts ← ofExcept ((← Run.heap).iterate id)
  let kind := parts.headD .none
  if kind.str? = some "storage" then referredStorage calls contents parts.tail
  else throw (.unknownPersistentType ((← Run.heap).text kind))

/-! ## Containers -/

def unhashable (heap : Heap) (value : Value) : Fault :=
  .type s!"unhashable type: '{heap.typeName value}'"

/-- The entries of keys and values that follow each other. -/
def putPairs (heap : Heap) (entries : Entries) :
    List Value → Except Fault Entries
  | [] => .ok entries
  | [_] => .error (.pickle "odd number of items")
  | key :: value :: rest =>
      match entries.put? key value with
      | some entries => putPairs heap entries rest
      | none => .error (unhashable heap key)

/-- Adds to the items of a set those that are new. -/
def addMembers (heap : Heap) (members : List Value) :
    List Value → Except Fault (List Value)
  | [] => .ok members
  | value :: rest =>
      match value.key? with
      | none => .error (unhashable heap value)
      | some key =>
          if members.any fun member => member.key? == some key then
            addMembers heap members rest
          else addMembers heap (members ++ [value]) rest

/-- The byte that an integer stands for. -/
def byteOf : Value → Except Fault UInt8
  | .atom atom =>
      match atom.integer? with
      | some (.ofNat n) =>
          if n < 0x100 then .ok n.toUInt8 else .error (.value "byte must be in range(0, 256)")
      | some (.negSucc _) => .error (.value "byte must be in range(0, 256)")
      | none => .error (.type "an integer is required")
  | _ => .error (.type "an integer is required")

/-- Adds items to a list, or bytes to a byte array. -/
def appendItems (target : Value) (items : List Value) : Run Value := do
  match target with
  | .list ref =>
      Run.modifyHeap fun heap => heap.setList ref (heap.list ref ++ items)
      return target
  | .atom (.byteArray bytes) =>
      let added ← ofExcept (items.mapM byteOf)
      return .atom (.byteArray (bytes ++ ⟨added.toArray⟩))
  | target =>
      throw (.member s!"'{(← Run.heap).typeName target}' object cannot be appended to")

/-- Replaces items of a list by index. -/
def replaceItems (heap : Heap) (items : List Value) :
    List Value → Except Fault (List Value)
  | [] => .ok items
  | [_] => .error (.pickle "odd number of items")
  | .atom index :: value :: rest =>
      match index.integer? with
      | none => .error (.type "list indices must be integers")
      | some n =>
          match Heap.position? items.length n with
          | some position => replaceItems heap (items.set position value) rest
          | none => .error .index
  | _ :: _ :: _ => .error (.type "list indices must be integers")

/-- Binds keys to values in a container, given in turn. -/
def putItems (target : Value) (items : List Value) : Run Unit := do
  match target with
  | .dict ref =>
      Run.tryHeap fun heap => do
        let dict := heap.dict ref
        return heap.setDict ref
          { dict with entries := ← putPairs heap dict.entries items }
  | .list ref =>
      Run.tryHeap fun heap => do
        return heap.setList ref (← replaceItems heap (heap.list ref) items)
  | target =>
      throw (.type
        s!"'{(← Run.heap).typeName target}' object does not support item assignment")

/-- Binds keys to values in a container, each key to the value behind it. -/
def setItems (target : Value) (items : List Value) : Run Unit := do
  if items.length % 2 ≠ 0 then throw (.pickle "odd number of items for SETITEMS")
  else putItems target items

/-! ## States -/

/-- The field of a module that holds a state without names. -/
def stateKey : String := "__state__"

/-- The fields of a module that is given a state: those that a dictionary names. -/
def takeState (heap : Heap) (state : Value) (fields : Entries) : Entries :=
  match state with
  | .dict state =>
      (heap.dict state).entries.pairs.foldl
        (fun fields entry => (fields.put? entry.1 entry.2).getD fields) fields
  | state => fields.putName stateKey state

/-- Gives a module its state. -/
def setModuleState (heap : Heap) (ref : Ref .module) (state : Value) : Heap :=
  heap.updateModule ref fun module =>
    { module with fields := takeState heap state module.fields }

/-- Whether the attributes of a value can be replaced. -/
def holdsAttributes : Value → Bool
  | .tensor _ | .storage _ | .package _ | .function _ | .storageType _
  | .builtin _ | .packed _ _ | .atom .missing | .atom (.typeRef _) => true
  | _ => false

/-- Gives an object that is no module a state, which has to be a dictionary. -/
def setPlainState (target state : Value) : Except Fault Unit := do
  let (attributes, slots) :=
    match state with
    | .tuple [attributes, slots] => (attributes, some slots)
    | state => (state, none)
  if !attributes.isNone then
    match attributes with
    | .dict _ =>
        if !holdsAttributes target then throw (.member "the object has no attributes")
    | _ => throw (.pickle "state is not a dictionary")
  match slots with
  | none | some (.dict _) => return ()
  | some _ => throw (.pickle "slot state is not a dictionary")

/-- Gives an object its state. -/
def setState (target state : Value) : Run Unit := do
  match target with
  | .module ref => Run.modifyHeap fun heap => setModuleState heap ref state
  | .moduleClass _ => throw (.type "a class has no state")
  | target => ofExcept (setPlainState target state)

/-! ## Instructions -/

/-- Executes an instruction that does not end the stream. -/
def execute (calls : Calls) (contents : Table String ByteArray)
    (instruction : Instruction) : Load Unit := do
  match instruction with
  | .stop | .skip => pure ()
  | .broken fault => throw fault
  | .mark => modify fun loading => { loading with stack := loading.stack.mark }
  | .pop => onStack underflow fun stack => stack.drop?.map fun stack => ((), stack)
  | .popGroup => let _ ← group
  | .duplicate =>
      onStack underflow fun stack =>
        stack.top.head?.map fun value => ((), stack.push value)
  | .push value => push (.atom value)
  | .emptyList => push (← Run.newList [])
  | .emptyDict =>
      push (.dict (← Run.allocate fun heap => heap.addDict ⟨false, .empty⟩))
  | .emptyTuple => push (.tuple [])
  | .emptySet => push (.set false [])
  | .listOfGroup => push (← Run.newList (← group))
  | .dictOfGroup =>
      let items ← group
      if items.length % 2 ≠ 0 then throw (.pickle "odd number of items for DICT")
      let entries ← ofExcept (putPairs (← Run.heap) .empty items)
      push (.dict (← Run.allocate fun heap => heap.addDict ⟨false, entries⟩))
  | .tupleOfGroup => push (.tuple (← group))
  | .frozenSetOfGroup =>
      push (.set true (← ofExcept (addMembers (← Run.heap) [] (← group))))
  | .tupleOf size =>
      push (.tuple (← onStack underflow fun stack => stack.take? size))
  | .append =>
      let value ← pop
      let target ← pop
      push (← appendItems target [value])
  | .appendGroup =>
      let items ← group
      let target ← pop
      push (← if items.isEmpty then pure target else appendItems target items)
  | .setItem =>
      let items ← onStack underflow fun stack => stack.take? 2
      let target ← pop
      setItems target items
      push target
  | .setItemsOfGroup =>
      let items ← group
      let target ← pop
      if !items.isEmpty then setItems target items
      push target
  | .addItemsOfGroup =>
      let items ← group
      let target ← pop
      match target with
      | .set false members =>
          push (.set false (← ofExcept (addMembers (← Run.heap) members items)))
      | target =>
          if items.isEmpty then push target
          else throw (.member "the object is not a set")
  | .global module name => push (← findGlobal calls module name)
  | .globalOnStack =>
      let name ← pop
      let module ← pop
      match module, name with
      | .atom (.str module), .atom (.str name) =>
          push (← findGlobal calls module name)
      | _, _ => throw (.pickle "STACK_GLOBAL requires str")
  | .instantiate names =>
      let arguments ← group
      let (module, name) ← ofExcept names
      push (← callObject calls (← findGlobal calls module name) arguments)
  | .instantiateGroup =>
      match ← group with
      | target :: arguments => push (← callObject calls target arguments)
      | [] => throw underflow
  | .newObject =>
      let arguments ← pop
      push (← makeInstance (← pop) arguments)
  | .newObjectWithKeywords =>
      let keywords ← pop
      let arguments ← pop
      let made ← makeInstance (← pop) arguments
      match keywords with
      | .dict _ => push made
      | _ => throw (.pickle "the keyword arguments must be a dictionary")
  | .call =>
      let arguments ← pop
      let target ← pop
      match arguments with
      | .tuple arguments => push (← callObject calls target arguments)
      | _ => throw (.type "argument list must be a tuple")
  | .build =>
      let state ← pop
      let target ← pop
      setState target state
      push target
  | .persistent id => push (← loadPersistent calls contents (.atom (.str id)))
  | .persistentOnStack => push (← loadPersistent calls contents (← pop))
  | .recall index =>
      match (← get).stack.fetch? index with
      | some value => push value
      | none => throw (.pickle "Memo value not found")
  | .keep index =>
      if (← get).stack.top.isEmpty then throw underflow
      let index ← ofExcept index
      onStack underflow fun stack => (stack.keep? index).map fun stack => ((), stack)
  | .keepNext =>
      onStack underflow fun stack =>
        (stack.keep? stack.memory.size).map fun stack => ((), stack)
  | .makeReadOnly =>
      let value ← pop
      match value with
      | .atom (.bytes _) | .atom (.byteArray _) => push value
      | _ => throw (.type "a bytes-like object is required")

/-- The object that a stream of pickled objects holds, given the bytes of the
storages. -/
def load (calls : Calls) (contents : Table String ByteArray) (data : ByteArray) :
    Run Value := do
  let steps := (read data).forM (execute calls contents) *> pop
  StateT.run' steps ⟨.empty, .empty⟩

end TorchArchive.Pickle
