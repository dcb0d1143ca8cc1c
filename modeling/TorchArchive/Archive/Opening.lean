import TorchArchive.Archive.Container
import TorchArchive.Graph.Construction
import TorchArchive.Settings

/-!
Opening models: from the entries of an archive to a graph. Whatever fails on the
way is reported as a fault of the archive.
-/

namespace TorchArchive

/-- The modules that a container's data lead to, and their tensors. The heap gets
their places and owners. -/
def registerModules (container : Container) (displayLimit : Datum) :
    Run Registration := do
  let start := Registration.begin (← Run.heap)
  let registration ←
    ofExcept <|
      match container.data with
      | .module root => start.addRoot displayLimit root
      | _ => .ok start
  Run.modifyHeap fun _ => registration.heap
  return registration

/-- Folds modules into the calls of a trace and gives the nodes of the calls. -/
def foldTrace (registration : Registration) (catalogue : Catalogue)
    (trace : TraceResult) : Run (List Node) := do
  let folding :=
    foldNodes registration.tree registration.parameters registration.heap trace.nodes
  Run.modifyHeap fun _ => folding.heap
  folding.events.forM Run.report
  match folding.fault with
  | some fault => throw fault
  | none =>
      Run.report (.traced trace.nodes.length folding.count)
      ofExcept (callNodes folding.heap registration.tree catalogue folding.nodes)

/-- The graph of a container: first the code is run to record its calls, then the
modules are registered, then modules are folded into calls, and calls and the
modules that are left become nodes. -/
def buildGraph (container : Container) (catalogue : Catalogue) (settings : Settings) :
    Run Graph := do
  let trace ← if settings.tracing then container.trace else pure none
  let values (names : List String) := names.map GraphParameter.ofValue
  let registration ← registerModules container settings.displayLimit
  let calls ← trace.elim (pure []) (foldTrace registration catalogue)
  let heap ← Run.heap
  let modules ←
    ofExcept <|
      match container.data with
      | .module root => moduleNodes heap registration.tree root
      | _ => .ok []
  return {
    name := container.header.name
    inputs := values (trace.elim [] (·.inputs))
    outputs := values (trace.elim [] (·.outputs))
    nodes := calls ++ modules }

/-- The model in an archive. -/
def openModel (identifier : String) (entries : List Entry) (catalogue : Catalogue)
    (settings : Settings) : Run Model :=
  tryCatch
    (do
      let container ← Container.load identifier entries
      let graph ← buildGraph container catalogue settings
      return {
        format := "TorchScript v" ++ container.version.text
        producer := container.header.producer
        graph })
    fun fault => throw (.loading fault identifier)

end TorchArchive
