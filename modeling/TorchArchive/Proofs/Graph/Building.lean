import TorchArchive.Archive.Opening
import TorchArchive.Proofs.Archive.Loading
import TorchArchive.Proofs.Graph.Construction
import TorchArchive.Proofs.Schema.Inquiries

/-!
# The stages of a graph

A graph that was built comes from a trace, a registration of the modules and a fold of
modules into the calls of the trace; its nodes are those of the calls and those of the
modules.
-/

namespace TorchArchive

/-- The nodes of a trace are those that were recorded last. -/
theorem traceFunction_nodes {calls : Calls} {receiver : Option Value} {function : Value}
    {before after : Machine} {result : TraceResult}
    (traces : traceFunction calls receiver function before = .ok result after) :
    result.nodes = after.recording.trace.nodes := by
  rw [traceFunction.eq_def] at traces
  split at traces
  · obtain ⟨started, _, _, traces⟩ := EStateM.bind_eq_ok_iff.mp traces
    obtain ⟨value, _, _, traces⟩ := EStateM.bind_eq_ok_iff.mp traces
    obtain ⟨heap, _, _, traces⟩ := EStateM.bind_eq_ok_iff.mp traces
    obtain ⟨tensors, _, _, traces⟩ := EStateM.bind_eq_ok_iff.mp traces
    obtain ⟨outputs, _, _, traces⟩ := EStateM.bind_eq_ok_iff.mp traces
    obtain ⟨machine, between, gets, traces⟩ := EStateM.bind_eq_ok_iff.mp traces
    cases gets
    cases traces
    rfl
  · cases traces

theorem Container.trace_nodes {container : Container} {before after : Machine}
    {result : TraceResult}
    (traces : container.trace before = .ok (some result) after) :
    result.nodes = after.recording.trace.nodes := by
  rcases EStateM.tryCatch_eq_ok_iff.mp traces with ends | ⟨fault, between, _, handles⟩
  · obtain ⟨_, _, _, ends⟩ := EStateM.bind_eq_ok_iff.mp ends
    obtain ⟨traced, _, tracesFunction, same⟩ := EStateM.bind_eq_ok_iff.mp ends
    cases same
    exact traceFunction_nodes tracesFunction
  · split at handles
    · obtain ⟨_, _, _, handles⟩ := EStateM.bind_eq_ok_iff.mp handles
      cases handles
    · cases handles

theorem registerModules_eq_ok {container : Container} {displayLimit : Datum}
    {before after : Machine} {registration : Registration} {root : Ref .module}
    (holds : container.data = .module root)
    (registers : registerModules container displayLimit before = .ok registration after) :
    (Registration.begin before.recording.heap).addRoot displayLimit root =
      .ok registration := by
  rw [registerModules, holds] at registers
  obtain ⟨heap, _, reads, registers⟩ := EStateM.bind_eq_ok_iff.mp registers
  cases reads
  obtain ⟨_, _, adds, registers⟩ := EStateM.bind_eq_ok_iff.mp registers
  obtain ⟨adds, _⟩ := EStateM.ofExcept_eq_ok_iff.mp adds
  obtain ⟨_, _, _, same⟩ := EStateM.bind_eq_ok_iff.mp registers
  cases same
  exact adds

theorem foldTrace_eq_ok {registration : Registration} {catalogue : Catalogue}
    {trace : TraceResult} {before after : Machine} {calls : List Node}
    (folds : foldTrace registration catalogue trace before = .ok calls after) :
    let folding :=
      foldNodes registration.tree registration.parameters registration.heap trace.nodes
    folding.fault = none ∧ after.heap = folding.heap ∧
      folding.nodes.mapM (callNode folding.heap registration.tree catalogue) =
        .ok calls := by
  intro folding
  obtain ⟨_, settled, settles, folds⟩ := EStateM.bind_eq_ok_iff.mp folds
  cases settles
  obtain ⟨_, reported, reports, folds⟩ := EStateM.bind_eq_ok_iff.mp folds
  have kept : reported.heap = folding.heap := by
    have reporting (event : Event) :
        Keeps (fun machine : Machine => machine.heap = folding.heap)
          (Run.report event) :=
      Keeps.modify fun _ same => same
    exact (Keeps.listForM reporting _).ok reports rfl
  cases faultless : folding.fault with
  | some fault =>
      rw [faultless] at folds
      cases folds
  | none =>
      rw [faultless] at folds
      obtain ⟨_, _, counts, folds⟩ := EStateM.bind_eq_ok_iff.mp folds
      cases counts
      obtain ⟨makes, rfl⟩ := EStateM.ofExcept_eq_ok_iff.mp folds
      exact ⟨rfl, kept, callNodes_eq _ _ _ _ ▸ makes⟩

/-- The stages of a graph of a module whose code was traced. -/
theorem buildGraph_stages {container : Container} {catalogue : Catalogue}
    {settings : Settings} {before traced after : Machine} {trace : TraceResult}
    {root : Ref .module} {graph : Graph} (tracing : settings.tracing = true)
    (traces : container.trace before = .ok (some trace) traced)
    (holds : container.data = .module root)
    (builds : buildGraph container catalogue settings before = .ok graph after) :
    ∃ registration,
      (Registration.begin traced.recording.heap).addRoot settings.displayLimit root =
          .ok registration ∧
        let folding :=
          foldNodes registration.tree registration.parameters registration.heap
            trace.nodes
        folding.fault = none ∧
          ∃ calls modules,
            folding.nodes.mapM (callNode folding.heap registration.tree catalogue) =
                .ok calls ∧
              moduleNodes folding.heap registration.tree root = .ok modules ∧
                graph.nodes = calls ++ modules := by
  rw [buildGraph, tracing, if_pos rfl, holds] at builds
  obtain ⟨_, _, tracesHere, builds⟩ := EStateM.bind_eq_ok_iff.mp builds
  rw [traces] at tracesHere
  cases tracesHere
  obtain ⟨registration, _, registers, builds⟩ := EStateM.bind_eq_ok_iff.mp builds
  obtain ⟨calls, _, folds, builds⟩ := EStateM.bind_eq_ok_iff.mp builds
  obtain ⟨faultless, heap, makesCalls⟩ := foldTrace_eq_ok folds
  obtain ⟨_, _, reads, builds⟩ := EStateM.bind_eq_ok_iff.mp builds
  cases reads
  obtain ⟨modules, _, makesModules, same⟩ := EStateM.bind_eq_ok_iff.mp builds
  cases same
  rw [heap] at makesModules
  obtain ⟨makesModules, _⟩ := EStateM.ofExcept_eq_ok_iff.mp makesModules
  exact ⟨registration, registerModules_eq_ok holds registers, faultless, calls, modules,
    makesCalls, makesModules, rfl⟩

/-! ## Archives that pass a test -/

/-- Whether an archive is loaded into a container that passes a test. -/
def loadsTo (test : Container → Machine → Bool) (entries : List Entry)
    (start : Machine) : Bool :=
  match Container.load "model" entries start with
  | .ok container loaded => test container loaded
  | .error _ _ => false

theorem exists_of_loadsTo {test : Container → Machine → Bool} {entries : List Entry}
    {start : Machine} (pass : loadsTo test entries start = true) :
    ∃ container loaded,
      Container.load "model" entries start = .ok container loaded ∧
        test container loaded = true := by
  rw [loadsTo] at pass
  split at pass
  · exact ⟨_, _, ‹_›, pass⟩
  · cases pass

end TorchArchive
