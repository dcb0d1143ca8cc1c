import TorchArchive.Proofs.Graph.Agreement
import TorchArchive.Proofs.Trace.Rollback

/-!
# Graphs after a failed trace

If the code of a model fails, its graph falls back to the nodes of the modules.  The names
that the run gave to tensors are taken back, but nothing else is: what the code sets in
fields of modules, or in the lists that names and sizes are kept in, is seen in the graph.
Where it sets none of these, the graph is the one of a model whose code is not run.
-/

namespace TorchArchive

namespace Heap

/-- Below a root, fields have names, and tensors are plain objects of the heap that have
no names yet. -/
structure IsFresh (heap : Heap) (root : Ref .module) : Prop where
  byName : ∀ ref, heap.Reaches root ref → (heap.module ref).fields.ByName
  plain : ∀ tensor, heap.HasTensorBelow root tensor → heap.IsPlain tensor
  unnamed :
    ∀ tensor, heap.HasTensorBelow root tensor →
      heap.list (heap.tensor tensor).outputs = []
  held : ∀ tensor, heap.HasTensorBelow root tensor → heap.tensors.Holds tensor
  stored :
    ∀ tensor, heap.HasTensorBelow root tensor →
      ∀ storage, (heap.tensor tensor).storage = .storage storage →
        heap.storages.Holds storage

end Heap

namespace Container

/-- What archive code would have to leave alone in a run, below the root of a container:
the fields of modules, and the lists in which tensors keep their names and sizes. -/
structure Undisturbed (container : Container) (loaded traced : Machine)
    (root : Ref .module) : Prop where
  fields :
    ∀ ref, loaded.recording.heap.Reaches root ref →
      (traced.recording.heap.module ref).fields = (loaded.recording.heap.module ref).fields
  /-- The code that is run before the trace begins names no tensor. -/
  entry :
    ∀ tensor, loaded.recording.heap.HasTensorBelow root tensor →
      ((stateAfter container.entryPoint loaded).recording.heap.tensor tensor).outputs =
        (loaded.recording.heap.tensor tensor).outputs
  names :
    ∀ tensor, loaded.recording.heap.HasTensorBelow root tensor →
      traced.recording.heap.list (loaded.recording.heap.tensor tensor).outputs = []
  sizes :
    ∀ tensor, loaded.recording.heap.HasTensorBelow root tensor →
      traced.recording.heap.items? (loaded.recording.heap.tensor tensor).size =
        loaded.recording.heap.items? (loaded.recording.heap.tensor tensor).size

variable {container : Container} {loaded traced : Machine} {root : Ref .module}

/-- After a failed run that disturbed nothing, a graph shows what it would have before. -/
theorem Undisturbed.agreesBelow (undisturbed : container.Undisturbed loaded traced root)
    (fresh : loaded.recording.heap.IsFresh root)
    (fails : container.trace loaded = .ok none traced) :
    loaded.recording.heap.AgreesBelow traced.recording.heap root := by
  obtain ⟨keeps, names⟩ := trace_failed fails
  have entry := ((Recording.notes_persist loaded.recording.heap).lasts.entryPoint container loaded
    (.begin loaded.recording)).keeps
  constructor
  case byName => exact fresh.byName
  case fields => exact undisturbed.fields
  case plain => exact fresh.plain
  case views =>
    intro tensor below
    obtain ⟨outputs, same⟩ := keeps.tensor tensor (fresh.held tensor below)
    exact
      { form := ⟨outputs, _, _, same⟩
        storage := fun storage stands =>
          keeps.storage storage (fresh.stored tensor below storage stands)
        size := undisturbed.sizes tensor below }
  case unnamed => exact fresh.unnamed
  case unnamedAfter =>
    intro tensor below
    rcases names tensor (entry.held tensor (fresh.held tensor below)) with none | kept
    · exact none
    · rw [kept, undisturbed.entry tensor below]
      exact undisturbed.names tensor below

end Container

namespace Settings

theorem tracing_set_false (settings : Settings) :
    (settings.set "trace" (.bool false)).tracing = false := by
  rw [tracing, get, set, Table.get?_insert, if_pos rfl]
  rfl

theorem displayLimit_set_trace (settings : Settings) (value : Datum) :
    (settings.set "trace" value).displayLimit = settings.displayLimit := by
  have different : "trace" ≠ "display_limit" := by decide
  rw [displayLimit, displayLimit, get, get, set, Table.get?_insert, if_neg different]

end Settings

/-- If the code of a model fails and disturbed nothing, the graph is the one that comes
about when the code is not run. -/
theorem buildGraph_eq_untraced {container : Container} (catalogue : Catalogue)
    {settings : Settings} {loaded traced : Machine} (tracing : settings.tracing = true)
    (fails : container.trace loaded = .ok none traced)
    (unmarked : loaded.recording.Unmarked)
    (fresh :
      ∀ root, container.data = .module root → loaded.recording.heap.IsFresh root)
    (undisturbed :
      ∀ root, container.data = .module root →
        container.Undisturbed loaded traced root) :
    ∃ graph after last,
      buildGraph container catalogue settings loaded = .ok graph after ∧
        buildGraph container catalogue (settings.set "trace" (.bool false)) loaded =
          .ok graph last := by
  have fallsBack :
      (if settings.tracing then container.trace else pure none) loaded =
        .ok none traced := by
    rw [if_pos tracing]
    exact fails
  have untraced :
      (if (settings.set "trace" (.bool false)).tracing then container.trace
        else pure none) loaded = .ok none loaded := by
    rw [settings.tracing_set_false]
    rfl
  by_cases holdsModule : ∃ root, container.data = .module root
  · obtain ⟨root, holds⟩ := holdsModule
    have agrees := (undisturbed root holds).agreesBelow (fresh root holds) fails
    have unmarkedTrace : traced.recording.Unmarked :=
      (Recording.unmarked_endures.ofMachine.trace container).ok fails unmarked
    obtain ⟨left, right, nodes, addsLeft, addsRight, walksLeft, walksRight⟩ :=
      Registration.exists_moduleNodes agrees unmarked.heap unmarkedTrace.heap
        settings.displayLimit
    obtain ⟨after, builds⟩ :=
      buildGraph_eq_of_no_trace catalogue fallsBack holds addsRight walksRight
    rw [← settings.displayLimit_set_trace (.bool false)] at addsLeft
    obtain ⟨last, buildsUntraced⟩ :=
      buildGraph_eq_of_no_trace catalogue untraced holds addsLeft walksLeft
    exact ⟨_, after, last, builds, buildsUntraced⟩
  · have other := not_exists.mp holdsModule
    obtain ⟨after, builds⟩ := buildGraph_eq_of_no_module catalogue fallsBack other
    obtain ⟨last, buildsUntraced⟩ := buildGraph_eq_of_no_module catalogue untraced other
    exact ⟨_, after, last, builds, buildsUntraced⟩

/-! ### A run that fails after it named a tensor -/

namespace FailedRun

/-- The code names the only tensor of the model, and fails then. -/
def entries : List Entry :=
  [⟨"version", "1".toUTF8⟩, ⟨"model.json", OneTensor.description.toUTF8⟩,
    ⟨"m", "def forward(self):\n  x = torch.relu(self.w)\n  return torch.frobnicate(x)".toUTF8⟩]

/-- The fields of the only module. -/
def fields : Entries := Entries.putName .empty "w" (.tensor ⟨0⟩)

/-- Whether the one with the tensor is the only module. -/
def hasOneModule (heap : Heap) : Bool :=
  match heap.modules.cells.toList with
  | [module] =>
      match module.fields.entries with
      | [(key, .atom (.str "w"), .tensor ⟨0⟩)] => key == Value.nameKey "w"
      | _ => false
  | _ => false

/-- Whether the tensor is plain and has no names. -/
def hasPlainTensor (heap : Heap) : Bool :=
  let tensor := heap.tensor ⟨0⟩
  decide (heap.tensors.Holds ⟨0⟩) && decide (heap.storages.Holds ⟨0⟩) &&
    (heap.list tensor.outputs).isEmpty &&
      match tensor.storage, tensor.offset, tensor.size with
      | .storage ⟨0⟩, .atom _, .atom .none => true
      | _, _, _ => false

/-- Whether a run left everything alone but the names that operators give. -/
def leavesAlone (loaded entered traced : Heap) : Bool :=
  hasOneModule loaded && hasOneModule traced && hasPlainTensor loaded &&
    (entered.tensor ⟨0⟩).outputs == (loaded.tensor ⟨0⟩).outputs &&
      (traced.list (loaded.tensor ⟨0⟩).outputs).isEmpty

/-- Whether the code of a container of modules fails, and a test is passed. -/
def failsTo (test : Heap → Heap → Heap → Bool) (container : Container)
    (loaded : Machine) : Bool :=
  match container.data, container.trace loaded with
  | .module _, .ok none traced =>
      test loaded.recording.heap
        (stateAfter container.entryPoint loaded).recording.heap traced.recording.heap
  | _, _ => false

set_option maxRecDepth 100000 in
private theorem runs : loadsTo (failsTo leavesAlone) entries OneTensor.start = true := by
  rw [loadsTo, Container.load_first_version rfl rfl rfl OneTensor.reads_description]
  decide +kernel

theorem fields_of_hasOneModule {heap : Heap} (one : hasOneModule heap = true)
    (ref : Ref .module) :
    (heap.module ref).fields = if ref = ⟨0⟩ then fields else .empty := by
  rw [hasOneModule] at one
  split at one
  · rename_i module cells
    split at one
    · rename_i key held
      have isKey : key = Value.nameKey "w" := beq_iff_eq.mp one
      rw [isKey] at held
      have isFields : module.fields = fields := congrArg Table.mk held
      have isCells : heap.modules.cells = #[module] := congrArg Array.mk cells
      rw [Heap.module, Store.get, isCells]
      obtain ⟨_ | index⟩ := ref
      · rw [if_pos rfl]
        exact isFields
      · rw [if_neg (fun same => by cases same)]
        rfl
    · cases one
  · cases one

theorem tensor_of_below {heap : Heap} {root : Ref .module} {tensor : Ref .tensor}
    (one : hasOneModule heap = true) (below : heap.HasTensorBelow root tensor) :
    tensor = ⟨0⟩ := by
  obtain ⟨ref, name, _, field⟩ := below
  rw [Heap.HasField, fields_of_hasOneModule one ref] at field
  split at field
  · cases List.mem_singleton.mp field
    rfl
  · cases field

theorem size_of_hasPlainTensor {heap : Heap} (plain : hasPlainTensor heap = true) :
    (heap.tensor ⟨0⟩).size = .none := by
  obtain ⟨_, form⟩ := Bool.and_eq_true_iff.mp plain
  split at form
  · assumption
  · cases form

theorem fresh_of_hasPlainTensor {heap : Heap} (one : hasOneModule heap = true)
    (plain : hasPlainTensor heap = true) (root : Ref .module) : heap.IsFresh root := by
  obtain ⟨rest, form⟩ := Bool.and_eq_true_iff.mp plain
  obtain ⟨holds, empty⟩ := Bool.and_eq_true_iff.mp rest
  obtain ⟨held, stored⟩ := Bool.and_eq_true_iff.mp holds
  split at form
  · rename_i offset isStorage isOffset isSize
    constructor
    case byName =>
      intro ref _
      rw [fields_of_hasOneModule one ref]
      split
      · exact Entries.ByName.empty.putName "w" _
      · exact .empty
    case plain =>
      intro tensor below
      rw [tensor_of_below one below]
      exact ⟨Or.inr ⟨_, isStorage⟩, ⟨_, isOffset⟩, Or.inl isSize⟩
    case unnamed =>
      intro tensor below
      rw [tensor_of_below one below]
      exact List.isEmpty_iff.mp empty
    case held =>
      intro tensor below
      rw [tensor_of_below one below]
      exact of_decide_eq_true held
    case stored =>
      intro tensor below storage stands
      rw [tensor_of_below one below, isStorage] at stands
      cases stands
      exact of_decide_eq_true stored
  · cases form

/-- The graph of the model is the one that comes about when its code is not run. -/
theorem graph_eq_untraced :
    ∃ container loaded traced root,
      container.data = .module root ∧
        Settings.initial.tracing = true ∧
        container.trace loaded = .ok none traced ∧
        loaded.recording.Unmarked ∧
        (∀ root, container.data = .module root →
          loaded.recording.heap.IsFresh root) ∧
        (∀ root, container.data = .module root →
          container.Undisturbed loaded traced root) ∧
        ∃ graph after last,
          buildGraph container .empty .initial loaded = .ok graph after ∧
            buildGraph container .empty (Settings.initial.set "trace" (.bool false))
              loaded = .ok graph last := by
  obtain ⟨container, loaded, loads, pass⟩ := exists_of_loadsTo runs
  rw [failsTo] at pass
  split at pass
  · rename_i root traced holds fails
    obtain ⟨rest, noNames⟩ := Bool.and_eq_true_iff.mp pass
    obtain ⟨rest, entry⟩ := Bool.and_eq_true_iff.mp rest
    obtain ⟨rest, plain⟩ := Bool.and_eq_true_iff.mp rest
    obtain ⟨before, after⟩ := Bool.and_eq_true_iff.mp rest
    have undisturbed (root : Ref .module) : container.Undisturbed loaded traced root := by
      constructor
      case fields =>
        intro ref _
        rw [fields_of_hasOneModule before, fields_of_hasOneModule after]
      case entry =>
        intro tensor below
        rw [tensor_of_below before below]
        exact beq_iff_eq.mp entry
      case names =>
        intro tensor below
        rw [tensor_of_below before below]
        exact List.isEmpty_iff.mp noNames
      case sizes =>
        intro tensor below
        rw [tensor_of_below before below, size_of_hasPlainTensor plain]
        rfl
    have tracing : Settings.initial.tracing = true := by decide
    have unmarked := Container.load_unmarked OneTensor.start_unmarked loads
    have fresh := fresh_of_hasPlainTensor before plain
    exact ⟨container, loaded, traced, root, holds, tracing, fails, unmarked,
      fun root _ => fresh root, fun root _ => undisturbed root,
      buildGraph_eq_untraced .empty tracing fails unmarked (fun root _ => fresh root)
        fun root _ => undisturbed root⟩
  · cases pass

end FailedRun

/-! ### A field that a failed run set -/

namespace KeptField

/-- The code sets a field of the root, and fails then. -/
def entries : List Entry :=
  [⟨"version", "1".toUTF8⟩,
    ⟨"model.json",
      "\x7b\"mainModule\":\x7b\"torchscriptArena\":\x7b\"key\":\"m.py\"\x7d\x7d\x7d".toUTF8⟩,
    ⟨"m.py",
      ("def forward(self, x):\n  self.y = torch.relu(x)\n" ++
        "  return torch.frobnicate(x)").toUTF8⟩]

/-- Whether no trace of a container comes about, and its graphs with and without a run of
the code pass a test. -/
def fallsBackTo (test : Graph → Graph → Bool) (container : Container) (loaded : Machine) :
    Bool :=
  match container.trace loaded, buildGraph container .empty .initial loaded,
    buildGraph container .empty (Settings.initial.set "trace" (.bool false)) loaded with
  | .ok none _, .ok graph _, .ok other _ => test graph other
  | _, _, _ => false

/-- Whether one graph has the node of a module with an output, and the other has none. -/
def differ (graph other : Graph) : Bool :=
  graph.nodes.map (fun node => (node.operator, node.outputs.length)) == [("Module", 1)] &&
    other.nodes.isEmpty

set_option maxRecDepth 100000 in
private theorem builds : loadsTo (fallsBackTo differ) entries Machine.initial = true := by
  rw [Machine.initial_eq]
  decide +kernel

/-- The code fails, and the field that it set makes a node of the root. -/
theorem exists_field_kept :
    ∃ container loaded traced graph after other last,
      Container.load "model" entries Machine.initial = .ok container loaded ∧
        Settings.initial.tracing = true ∧
        container.trace loaded = .ok none traced ∧
        buildGraph container .empty .initial loaded = .ok graph after ∧
        buildGraph container .empty (Settings.initial.set "trace" (.bool false)) loaded =
          .ok other last ∧
        graph.nodes.map (fun node => (node.operator, node.outputs.length)) =
          [("Module", 1)] ∧
        other.nodes = [] := by
  obtain ⟨container, loaded, loads, pass⟩ := exists_of_loadsTo builds
  rw [fallsBackTo] at pass
  split at pass
  · rename_i traced graph after other last fails buildsGraph buildsOther
    obtain ⟨one, none⟩ := Bool.and_eq_true_iff.mp pass
    have tracing : Settings.initial.tracing = true := by decide
    exact ⟨container, loaded, traced, graph, after, other, last, loads, tracing, fails,
      buildsGraph, buildsOther, beq_iff_eq.mp one, List.isEmpty_iff.mp none⟩
  · cases pass

end KeptField

end TorchArchive
