import TorchArchive.Dump.Value
import TorchArchive.Number.Reading
import TorchArchive.Text.Split

/-!
Building values from their dumps. Besides what a dump tells, a document may name
values that were built before, and tensors and storages by those of their fields that
are not the usual ones.
-/

namespace TorchArchive.Dump

open TorchArchive

/-- Values that were built before. -/
abbrev Variables := Table String Value

/-- What building needs: the variables and the heap that is built in. -/
abbrev Build := ReaderT Variables (StateT Heap (Except Fault))

private def textOf (content : Datum) : String := content.str?.getD ""

private def partsOf (content : Datum) : List Datum := content.items?.getD []

private def change (step : Heap → α × Heap) : Build α := fun _ heap => .ok (step heap)

/-- The double of a dump. -/
private def readBits (text : String) : Binary64 :=
  if text = "nan" then .nan
  else
    let word := text.toList.foldl (fun n c => 16 * n + (hexValue? c).getD 0) 0
    .ofBits word.toUInt64

private def readBytes (content : Datum) : ByteArray :=
  (bytesOfHexText? (textOf content)).getD .empty

private def noValue : Fault := .value "not a dump of a value"

/-- Builds a dictionary of pairs. -/
private def buildDict (build : Datum → Build Value) (pairs : List Datum) : Build Value := do
  let entries ← pairs.foldlM
    (fun (entries : Entries) pair => do
      match partsOf pair with
      | [key, content] =>
          let key ← build key
          match entries.put? key (← build content) with
          | some more => return more
          | none => throw (.type "unhashable")
      | _ => throw noValue)
    .empty
  return .dict (← change fun heap => heap.addDict ⟨false, entries⟩)

/-- Builds a field, or takes its usual value. -/
private def buildField (build : Datum → Build Value) (fields : Datum) (name : String)
    (usual : Value) : Build Value :=
  match fields.get? name with
  | some content => build content
  | none => pure usual

private def tensorOf (build : Datum → Build Value) (fields : Datum) :
    Build (Ref .tensor) := do
  let outputs ←
    match ← buildField build fields "outputs" .missing with
    | .list ref => pure ref
    | _ => change fun heap => heap.addList []
  let blank := Tensor.blank outputs
  let storage ← buildField build fields "storage" .none
  let offset ← buildField build fields "storage_offset" (.int 0)
  let size ← buildField build fields "size" .none
  let stride ← buildField build fields "stride" .none
  let quantizer ← buildField build fields "quantizer_params" .none
  let value ← buildField build fields "value" .none
  let tensor : Tensor := { blank with
    typeModule := (fields.get? "type_module").elim blank.typeModule textOf
    typeName := (fields.get? "type_name").elim blank.typeName textOf
    storage, offset, size, stride, quantizer, value
    name := (fields.get? "name").elim "" textOf
    requiresGrad := (fields.get? "requires_grad").elim false Datum.truthy
    owner := (fields.get? "owner").bind Datum.integer? }
  change fun heap => heap.addTensor tensor

private def storageOf (build : Datum → Build Value) (fields : Datum) : Build Value := do
  let size ← buildField build fields "size" .none
  let data ← buildField build fields "data" .none
  let storage : Storage :=
    { dataType := ((fields.get? "dtype").map textOf).getD ""
      itemSize := ((fields.get? "itemsize").bind Datum.integer?).getD 0
      size
      data :=
        match data with
        | .atom (.bytes data) | .atom (.byteArray data) => some data
        | _ => none
      key := (fields.get? "key").bind Datum.str?
      typeModule := (fields.get? "type_module").elim "torch" textOf
      typeName := (fields.get? "type_name").elim "Storage" textOf }
  return .storage (← change fun heap => heap.addStorage storage)

/-- An instance of a new class, or of the class of all modules if it has no name. -/
private def instanceOf (name : String) : Build Value := do
  let moduleClass ←
    if name.isEmpty then pure Heap.baseClass
    else
      let parts := partsBetween '.' name
      change fun heap =>
        heap.addModuleClass (".".intercalate parts.dropLast) (parts.getLast?.getD "")
  return .module (← change fun heap => heap.addModule (.fresh moduleClass))

private def buildWithin : Nat → Datum → Build Value
  | 0, _ => throw noValue
  | fuel + 1, content => do
      let again := buildWithin fuel
      match content with
      | .atom a => return .atom a
      | .list items =>
          let items ← items.mapM again
          return .list (← change fun heap => heap.addList items)
      | .dict _ [(key, content)] =>
          match textOf key with
          | "int" => return .int ((readInteger? (textOf content)).getD 0)
          | "float" => return .float (readBits (textOf content))
          | "tuple" => return .tuple (← (partsOf content).mapM again)
          | "dict" => buildDict again (partsOf content)
          | "bytes" => return .atom (.bytes (readBytes content))
          | "missing" => return .missing
          | "typeref" => return .atom (.typeRef (textOf content))
          | "var" =>
              match (← read).get? (textOf content) with
              | some value => return value
              | none => throw (.key (quotedText (textOf content)))
          | "tensor" => return .tensor (← tensorOf again content)
          | "storage" => storageOf again content
          | "module" => instanceOf (textOf content)
          | "namespace" =>
              return .package (← change fun heap => heap.addPackage (textOf content))
          | _ => throw noValue
      | _ => throw noValue

/-- Builds the value of a dump in a heap. -/
def build (heap : Heap) (bound : Variables) (content : Datum) :
    Except Fault (Value × Heap) :=
  (buildWithin content.size content).run bound |>.run heap

/-- Builds a tensor of its fields in a heap. -/
def buildTensor (heap : Heap) (fields : Datum) : Except Fault (Ref .tensor × Heap) :=
  (tensorOf (buildWithin fields.size) fields).run .empty |>.run heap

/-- The data of a dump. -/
def readDatum (content : Datum) : Except Fault Datum := do
  let (value, heap) ← build .initial .empty content
  return heap.snapshot value

end TorchArchive.Dump
