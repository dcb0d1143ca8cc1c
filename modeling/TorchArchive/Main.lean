import TorchArchive.Command.Run

/-!
The command line. The files that a command names are read first; then the command runs,
and what it printed, reported and wrote is handed out.
-/

namespace TorchArchive.Main

open TorchArchive

def usage : String :=
  "usage: torch-archive inspect [-c CONFIG] [--no-trace] [--display-limit N] " ++
    "[--json FILE] [MODEL]\n" ++
    "       torch-archive report [-c CONFIG] [--no-trace] [--report FOLDER] [MODEL]"

/-- Adds the files that can be read under the given paths. -/
def addFiles (files : Files) (paths : List String) : IO Files :=
  paths.foldlM
    (fun files (path : String) => do
      try
        let data ← IO.FS.readBinFile path
        return ⟨files.files.insert (settledPath path) data⟩
      catch _ => return files)
    files

/-- The files that a command reads. -/
def filesOf (command : Command) : IO Files := do
  let files ← addFiles default command.config.toList
  match Settings.ofArguments files command.arguments with
  | .error _ => return files
  | .ok (settings, _) =>
      addFiles files ((settings.get "model").str?.toList ++ settings.catalogueFile?.toList)

def writeFile (path : String) (data : ByteArray) : IO Unit := do
  let folder := folderName path
  if !folder.isEmpty then IO.FS.createDirAll folder
  IO.FS.writeBinFile path data

/-- Runs a command and hands out what it did; the result is the status of the
process. -/
def run (command : Command) : IO UInt32 := do
  let files ← filesOf command
  let (ending, progress) := command.run (← IO.currentDir).toString files
  progress.events.forM fun event => IO.eprintln event.line
  IO.print progress.output
  progress.files.files.entries.forM fun (path, data) => do
    if files.files.get? path != some data then writeFile path data
  match ending with
  | .done => return 0
  | .failed fault | .broken fault =>
      IO.eprintln ("[ERROR] " ++ fault.message)
      return 1

end TorchArchive.Main

def main (words : List String) : IO UInt32 := do
  match TorchArchive.Request.ofWords words with
  | .run command => TorchArchive.Main.run command
  | .help =>
      IO.println TorchArchive.Main.usage
      return 0
  | .refused =>
      IO.eprintln TorchArchive.Main.usage
      return 2
