import TorchArchive.Archive.Source
import TorchArchive.Command.Request
import TorchArchive.Graph.Chart
import TorchArchive.Json.Printer
import TorchArchive.Report

/-!
Running commands. A run prints lines, reports events and writes files; what it did before
a fault stays done.
-/

namespace TorchArchive

/-- What a run did. -/
structure Progress where
  output : String
  events : List Event
  files : Files

/-- A step of a run. -/
abbrev Running := EStateM Fault Progress

namespace Running

private def print (line : String) : Running Unit :=
  modify fun progress => { progress with output := progress.output ++ line ++ "\n" }

private def report (events : List Event) : Running Unit :=
  modify fun progress => { progress with events := progress.events ++ events }

private def write (path text : String) : Running Unit := do
  let files ← ofExcept ((← get).files.write path text)
  modify fun progress => { progress with files }

private def demandFolder (path : String) : Running Unit := do
  ofExcept ((← get).files.demandFolder path)

/-! ## Steps -/

/-- The settings of a command. -/
private def settings (command : Command) : Running Settings := do
  let (settings, events) ←
    ofExcept (Settings.ofArguments (← get).files command.arguments)
  report events
  return settings

/-- The model that the settings name. -/
private def model (settings : Settings) : Running Model := do
  match openNamed (← get).files settings Machine.initial with
  | .ok model machine =>
      report machine.events
      return model
  | .error fault machine =>
      report machine.events
      throw fault

private def printOrigin (model : Model) : Running Unit := do
  if model.producer.truthy then print ("Producer: " ++ model.producer.text)

/-! ## Inspecting -/

/-- Writes a graph as a document. -/
private def writeGraph (graph : Graph) (path : String) : Running Unit := do
  let folder := folderName path
  if !folder.isEmpty then demandFolder folder
  write path (← ofExcept (do Json.print (.indented 2) (← graph.document)))
  print s!"[OK] Graph written to {path}"

private def inspect (command : Command) : Running Unit := do
  let settings ← settings command
  report [.inspecting (settings.get "model").text]
  let model ← model settings
  print ("Format: " ++ model.format)
  printOrigin model
  print (← ofExcept model.graph.chart)
  match command.graphFile with
  | some path => if !path.isEmpty then writeGraph model.graph path
  | none => return

/-! ## Reporting -/

/-- The names of the settings in the order in which they are shown. -/
private def shownSettings : List String := Settings.initial.values.keys

private def configurationLine (settings : Settings) : String :=
  "LoaderConfig(" ++
    Datum.commaSeparated
      (shownSettings.map fun name => name ++ "=" ++ (settings.get name).written) ++ ")"

/-- The path of a file in a folder. -/
private def pathIn (folder name : String) : String :=
  if folder == "." then name else folder ++ "/" ++ name

/-- Writes the report on a model and prints its summary. -/
private def writeReport (workingFolder : String) (model : Model) (settings : Settings) :
    Running Unit := do
  let document ← ofExcept (model.report settings)
  match (settings.get "report_dir").str? with
  | none => throw (.type "a path must be a text")
  | some folder =>
      let folder := plainPath folder
      demandFolder folder
      write (pathIn folder "report.json")
        (← ofExcept (Json.print (.indented 4) document))
      write (pathIn folder "report.html") (← ofExcept model.graph.histogram)
      print (← ofExcept model.graph.chart)
      print ("\nReports generated in " ++ absolutePath workingFolder folder)
      print ("\nFormat: " ++ model.format)
      printOrigin model
      let counts := model.graph.operatorCounts.entries.mergeSort fun a b => a.1 ≤ b.1
      if !counts.isEmpty then
        print "\nOperators:"
        counts.forM fun entry => print s!"  {entry.1}: {entry.2}"
      print s!"\nTotal Nodes: {model.graph.nodes.length}"

private def reportOn (workingFolder : String) (command : Command) : Running Unit := do
  let settings ← settings command
  print "--- Loader Configuration ---"
  print (configurationLine settings)
  print "----------------------------"
  let model ← model settings
  writeReport workingFolder model settings
  print ("[OK] Reports are in " ++ (settings.get "report_dir").text)

end Running

/-- How a run ended. -/
inductive Ending where
  | done
  /-- The archive or its code is at fault. -/
  | failed (fault : Fault)
  /-- Something else went wrong. -/
  | broken (fault : Fault)

namespace Command

/-- Runs a command in a working folder with the given files. -/
def run (command : Command) (workingFolder : String) (files : Files) :
    Ending × Progress :=
  let steps :=
    match command.kind with
    | .inspect => Running.inspect command
    | .report => Running.reportOn workingFolder command
  match steps ⟨"", [], files⟩ with
  | .ok () progress => (.done, progress)
  | .error fault progress =>
      (if fault.isArchiveFault then .failed fault else .broken fault, progress)

end Command

end TorchArchive
