import TorchArchive.Archive.Entry
import TorchArchive.Machine
import TorchArchive.Number.Reading
import TorchArchive.Schema.Catalogue

/-!
Descriptions: documents that tell the modules of a model and list its tensors. The
bytes of each tensor are an entry of the archive.
-/

namespace TorchArchive

/-! ## Element types -/

/-- The storage constructor for each element type that a description can name. -/
def describedTypes : List (String × StorageType) :=
  [("FLOAT", .float), ("FLOAT16", .half), ("DOUBLE", .double), ("INT32", .int),
    ("INT64", .long)]

/-- The storage constructor for an element type. -/
def storageTypeOf (dataType : Datum) : Except Fault StorageType :=
  match dataType.str?.bind fun name => describedTypes.lookup name with
  | some type => .ok type
  | none => .error (.unknownTensorType dataType.text)

namespace Description

/-! ## Documents -/

/-- An entry of an object. -/
def entry? (object : Datum) (name : String) : Except Fault (Option Datum) :=
  match object with
  | .dict ordered entries => .ok ((Datum.dict ordered entries).get? name)
  | datum => .error (.member s!"'{datum.typeName}' object has no attribute 'get'")

/-- An entry of an object, or a default. -/
def entry (object : Datum) (name : String) (default : Datum) :
    Except Fault Datum := do
  return (← entry? object name).getD default

/-- An entry of an object, or a default where it counts as false. -/
def entryOr (object : Datum) (name : String) (default : Datum) :
    Except Fault Datum := do
  let found ← entry object name .none
  return if found.truthy then found else default

/-- The integer that a datum is converted to. -/
def integerOf (datum : Datum) : Except Fault Int :=
  match datum with
  | .atom (.float x) =>
      match x.truncate? with
      | some n => .ok n
      | none => .error (if x.isNaN then .value "not a number" else .overflow)
  | .atom (.str text) =>
      match readInteger? text with
      | some n => .ok n
      | none => .error (.value "invalid literal for an integer")
  | datum => datum.toInteger

/-! ## Tensors -/

/-- The entry of the archive that holds the bytes of a tensor. -/
def dataKey (definition : Datum) : Except Fault String := do
  let key ← entry (← entryOr definition "data" (.fields [])) "key" (.str "")
  match key.str? with
  | some key => return key
  | none => throw (.type s!"can only concatenate str, not '{key.typeName}'")

/-- The extents of a tensor, if they are told. -/
def extents (definition : Datum) : Except Fault (Option (List Int)) := do
  let dims ← entry definition "dims" .none
  if dims.isNone then return none
  else return some (← (← Catalogue.itemsOf dims).mapM integerOf)

/-- Makes the tensor of an item of the table. -/
def makeTensor (folder : String) (entries : List Entry) (definition : Datum) :
    Run (Ref .tensor) := do
  let type ← ofExcept (do storageTypeOf (← entry definition "dataType" .none))
  let extents ← ofExcept (extents definition)
  let key ← ofExcept (dataKey definition)
  let offset ← ofExcept (do integerOf (← entry definition "offset" (.int 0)))
  let size ←
    match extents with
    | some extents => Run.newList (extents.map .int)
    | none => pure .none
  let storage : Storage :=
    { type.make size with
      key := some key
      data := Entry.data? entries (folder ++ key) }
  let storage ← Run.allocate fun heap => heap.addStorage storage
  let outputs ← Run.allocate fun heap => heap.addList []
  Run.allocate fun heap => heap.addTensor
    { Tensor.blank outputs with
      storage := .storage storage
      size
      name := key
      offset := .int offset }

/-! ## Modules -/

/-- The key of a field that a description names. -/
def fieldKey (name : Datum) : Except Fault (Value × Key) :=
  match name with
  | .atom a => .ok (.atom a, [.atom a.canonical])
  | datum => .error (.type s!"unhashable type: '{datum.typeName}'")

/-- Sets a field of a module. -/
def setField (owner : Ref .module) (name : Datum) (value : Value) :
    Run Unit := do
  let (form, key) ← ofExcept (fieldKey name)
  Run.modifyHeap fun heap =>
    heap.updateModule owner fun module =>
      { module with fields := module.fields.put key form value }

/-- Makes the modules inside of a module and gives each with its definition. -/
def makeSubmodules (owner : Ref .module) :
    List Datum → Run (List (Ref .module × Datum))
  | [] => pure []
  | definition :: rest => do
      let child ← Run.allocate fun heap => heap.addModule (.fresh Heap.baseClass)
      setField owner (← ofExcept (entry definition "name" (.str ""))) (.module child)
      return (child, definition) :: (← makeSubmodules owner rest)

/-- The parameters and arguments that a definition lists. -/
def listedParameters (definition : Datum) : Except Fault (List Datum) := do
  let parameters ← entry definition "parameters" (.list [])
  let arguments ← entry definition "arguments" (.list [])
  match parameters, arguments with
  | .list parameters, .list arguments => return parameters ++ arguments
  | .atom (.str _), .atom (.str _) => return []
  | _, _ => throw (.type "unsupported operands for a sum of lists")

/-- The name of the entry that tells which tensor a parameter is. -/
def tensorKey : String := "tensorId"

/-- Whether a parameter tells which tensor it is. -/
def tellsTensor (parameter : Datum) : Except Fault Bool :=
  match parameter with
  | .dict _ _ => .ok (parameter.get? tensorKey).isSome
  | .list items => .ok (items.any fun item => item.str? == some tensorKey)
  | .atom (.str text) => .ok ((text.splitOn tensorKey).length > 1)
  | datum => .error (.type s!"argument of type '{datum.typeName}' is not iterable")

/-- The entry of a parameter, which has to be there. -/
def neededEntry (parameter : Datum) (name : String) : Except Fault Datum :=
  match parameter with
  | .dict _ _ =>
      match parameter.get? name with
      | some datum => .ok datum
      | none => .error (.key (quotedText name))
  | _ => .error (.type "indices must be integers")

/-- Sets the field of a parameter that is one of the tensors. -/
def setParameter (tensors : List (Ref .tensor)) (owner : Ref .module)
    (parameter : Datum) : Run Unit := do
  if ← ofExcept (tellsTensor parameter) then
    let place ← ofExcept (do integerOf (← neededEntry parameter tensorKey))
    match if place < 0 then none else tensors[place.toNat]? with
    | some tensor =>
        setField owner (← ofExcept (neededEntry parameter "name")) (.tensor tensor)
    | none =>
        let name ← ofExcept (entry parameter "name" .none)
        throw (.tensorIndex place name.text)

/-- Fills the modules of a queue and those inside of them. Each step takes one
definition, so the size of the document bounds the steps. -/
def fillModules (tensors : List (Ref .tensor)) :
    Nat → List (Ref .module × Datum) → Run Unit
  | 0, _ => pure ()
  | _, [] => pure ()
  | fuel + 1, (owner, definition) :: queue => do
      let submodules ← ofExcept
        (do Catalogue.itemsOf (← entry definition "submodules" (.list [])))
      let children ← makeSubmodules owner submodules
      (← ofExcept (listedParameters definition)).forM (setParameter tensors owner)
      fillModules tensors fuel (queue ++ children)

/-! ## Models -/

/-- What a description tells beside the modules: a name, a producer and the file of
the code, each of which may be of any kind. -/
structure Header where
  name : Datum
  producer : Datum
  script : Datum

/-- The producer with its version behind it. -/
def producerOf (document : Datum) : Except Fault Datum := do
  let producer ← entryOr document "producerName" (.str "")
  let version ← entryOr document "producerVersion" .none
  if version.isNone then return producer
  else
    let suffix := " v" ++ version.text
    match producer with
    | .atom (.str name) => return .str (name ++ suffix)
    | .list items =>
        return .list (items ++ suffix.toList.map fun c => .str (String.ofList [c]))
    | producer => throw (.type s!"cannot add a version to '{producer.typeName}'")

def headerOf (producer main : Datum) : Except Fault Header := do
  let name ← entry main "name" (.str "")
  let code ← entry main "torchscriptArena" .none
  let script ← if code.truthy then entry code "key" .none else pure .none
  return ⟨name, producer, script⟩

/-- Makes the modules and tensors of a description. The tensors are the constants of
the model's code. -/
def load (folder : String) (entries : List Entry) (document : Datum) :
    Run (Header × Ref .module) := do
  let producer ← ofExcept (producerOf document)
  let main ← ofExcept (entryOr document "mainModule" (.fields []))
  let header ← ofExcept (headerOf producer main)
  let definitions ← ofExcept
    (do Catalogue.itemsOf (← entry document "tensors" (.list [])))
  let tensors ← definitions.mapM (makeTensor folder entries)
  modify fun machine =>
    { machine with constants := some (tensors.map .tensor) }
  let root ← Run.allocate fun heap => heap.addModule (.fresh Heap.baseClass)
  fillModules tensors document.size [(root, main)]
  return (header, root)

end Description

end TorchArchive
