import TorchArchive.Archive.Description
import TorchArchive.Evaluation.Nesting
import TorchArchive.Json.Reader

/-!
Containers: archives of scripted models. The entry named `version` tells the folder
of the archive; there lies a tree of modules, either pickled or described, beside
the code that the modules run.
-/

namespace TorchArchive

/-- A container whose modules were made. -/
structure Container where
  identifier : String
  /-- The folder of the archive, with its slash. -/
  folder : String
  entries : List Entry
  version : Datum
  header : Description.Header
  /-- The root of the tree of modules, or whatever else was pickled. -/
  data : Value

namespace Container

/-! ## Entries -/

def decodeText (data : ByteArray) : Except Fault String :=
  match String.fromUTF8? data with
  | some text => .ok text
  | none => .error .encoding

/-- The program of a file of the archive. -/
def program (folder : String) (entries : List Entry) (file : String) :
    Except Fault Program := do
  match Entry.data? entries (folder ++ file) with
  | none => throw (.missingSource file)
  | some data => Program.read (← decodeText data) (folder ++ file)

/-- The bytes of the storages in a folder, by key. -/
def storages (folder : String) (entries : List Entry) (name : String) :
    Table String ByteArray :=
  let place := folder ++ name ++ "/"
  .ofList (entries.filterMap fun entry =>
    if entry.name.startsWith place then
      some ((entry.name.drop place.length).toString, entry.data)
    else none)

/-- The data of an entry that is not empty. -/
def contents? (folder : String) (entries : List Entry) (name : String) :
    Option ByteArray :=
  (Entry.data? entries (folder ++ name)).filter fun data => !data.isEmpty

/-- What the code of an archive is run from. -/
def sources (folder : String) (entries : List Entry) : Sources where
  program := program folder entries
  constants := contents? folder entries "constants.pkl"
  constantStorages := storages folder entries "constants"

/-! ## Loading -/

/-- A header that tells nothing. -/
def plainHeader : Description.Header := ⟨.str "", .str "", .none⟩

/-- Makes the modules of an archive, which the pickled tree tells if there is one. -/
def load (identifier : String) (entries : List Entry) : Run Container := do
  match Entry.findVersion? entries with
  | none => throw .missingVersion
  | some versionEntry =>
      let folder := versionEntry.folder
      let version ← ofExcept (do Json.read (← decodeText versionEntry.data))
      let calls := Calls.of (sources folder entries)
      match contents? folder entries "data.pkl",
          Entry.data? entries (folder ++ "model.json") with
      | some data, _ =>
          Run.report (.readingPickle (folder ++ "data.pkl"))
          let data ← Pickle.load calls (storages folder entries "data") data
          return ⟨identifier, folder, entries, version, plainHeader, data⟩
      | none, some document =>
          Run.report (.readingDescription (folder ++ "model.json"))
          let document ← ofExcept (do Json.read (← decodeText document))
          let (header, root) ← Description.load folder entries document
          return ⟨identifier, folder, entries, version, header, .module root⟩
      | none, none => throw (.missingPayload folder)

/-- The calls of a container's code. -/
def calls (container : Container) : Calls :=
  Calls.of (sources container.folder container.entries)

/-- The constants of a container's code. -/
def constants (container : Container) : Run (List Value) :=
  container.calls.constants

/-! ## Tracing -/

/-- The name of the function that a model runs. -/
def entryName : String := "forward"

/-- The name of the package of a model's own code. -/
def scriptPackage : String := "__model__"

/-- What is bound to the name of the function that a model runs: in the file that the
description names, or else in the root. -/
def findEntry (container : Container) : Run Value := do
  let script := container.header.script
  if script.truthy then
    match script.str? with
    | some file =>
        let ref ← container.calls.package scriptPackage (some file)
        let heap ← Run.heap
        return ((heap.table (heap.package ref).members).get? entryName).getD .missing
    | none => throw (.type s!"can only concatenate str, not '{script.typeName}'")
  else return (← Run.heap).findMember container.data entryName

/-- The function that a model runs. -/
def entryPoint (container : Container) : Run Value := do
  match ← container.findEntry with
  | .function ref => return .function ref
  | _ => throw .noForward

/-- What the function of a model is run on, if there is anything. -/
def receiver (container : Container) : Option Value :=
  if container.data.isNone then none else some container.data

/-- Runs a model on placeholders and records what it calls; nothing if its code
cannot be run. -/
def trace (container : Container) : Run (Option TraceResult) :=
  tryCatch
    (do
      let entryPoint ← container.entryPoint
      return some (← traceFunction container.calls container.receiver entryPoint))
    fun fault => do
      if fault.isScriptFault then
        Run.report (.tracingFailed (.loading fault container.identifier))
        return none
      else throw fault

end Container

end TorchArchive
