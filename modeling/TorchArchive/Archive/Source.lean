import TorchArchive.Archive.Opening
import TorchArchive.Schema.Bundled
import TorchArchive.Zip.Reader

/-!
Opening the model that the settings name: its archive and the operator schemas are read
from files.
-/

namespace TorchArchive

/-- Whether a fault is about a file that cannot be read, or is no archive. -/
def isFileFault (fault : Fault) : Bool :=
  match fault.kind with
  | .missingFile | .isFolder | .notFolder | .fileExists | .invalidPlace
  | .notArchive => true
  | _ => false

/-- Whether a fault is about a file of schemas that cannot be read as a document. -/
def isDocumentFault (fault : Fault) : Bool :=
  match fault.kind with
  | .json | .encoding | .value => true
  | _ => isFileFault fault

/-- The operator schemas that the settings name; none if their file cannot be read. -/
def openCatalogue (files : Files) (settings : Settings) : Run Catalogue :=
  match settings.catalogueFile? with
  | none => return .bundled
  | some path =>
      match files.readText (plainPath path) >>= Catalogue.read with
      | .ok catalogue => return catalogue
      | .error fault => do
          if isDocumentFault fault then
            Run.report (.unreadableCatalogue path fault.message)
            return .empty
          else throw fault

/-- The model in an archive, with the operator schemas that the settings name. -/
def openEntries (files : Files) (identifier : String) (entries : List Entry)
    (settings : Settings) : Run Model := do
  openModel identifier entries (← openCatalogue files settings) settings

/-- The entries of the archive in a file. -/
private def readArchive (files : Files) (path : String) : Run (List Entry) :=
  match files.read path >>= Zip.read with
  | .ok entries => return entries
  | .error fault =>
      if isFileFault fault then throw (.loading fault (baseName path)) else throw fault

/-- The model that the settings name. -/
def openNamed (files : Files) (settings : Settings) : Run Model := do
  let model := settings.get "model"
  if !model.truthy then throw .noArchive
  Run.report (.loading model.text)
  match model.str? with
  | none => throw (.member s!"a '{model.typeName}' is no file")
  | some path =>
      let entries ← readArchive files path
      let name := baseName path
      if !Entry.isModel name entries then Run.report (.unlikelyModel path)
      openEntries files name entries settings

end TorchArchive
