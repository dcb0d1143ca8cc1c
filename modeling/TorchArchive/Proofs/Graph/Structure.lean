import TorchArchive.Proofs.Graph.Building
import TorchArchive.Proofs.Graph.Naming
import TorchArchive.Proofs.Graph.Walk

/-!
# Graphs without a trace

The graph of a model whose code is not run consists of the modules with parameters, in
the order of the walk from the root.  A module has a node for each visit of the walk: one
that its parent holds in two fields is visited twice, and so are the modules below it.
-/

namespace TorchArchive

namespace Registration

/-- The modules that the walk from a root comes to. -/
def visits (registration : Registration) (root : Ref .module) : List (Ref .module) :=
  registration.heap.visits (registration.tree.size + 1) root

/-- What the nodes of the modules come to that a root leads to. -/
structure Walked (heap : Heap) (root : Ref .module) (registration : Registration)
    (nodes : List Node) : Prop where
  /-- The nodes are those of the visits to modules with parameters. -/
  nodes :
    List.Forall₂ (IsModuleNode registration.heap registration.tree)
      ((registration.visits root).filter fun ref => 0 < heap.parameterCount ref) nodes
  reached : ∀ ref, ref ∈ registration.visits root ↔ heap.Reaches root ref
  first : (registration.visits root).count root = 1
  /-- A module is visited as often as its parent, times the number of open fields in
  which the parent holds it. -/
  later :
    ∀ ref, heap.Reaches root ref → ref ≠ root →
      ∃ (above : Nat) (parent : Ref .module),
        registration.tree.modules[above]? = some parent ∧
        (registration.heap.module ref).parent = some (above : Int) ∧
        (registration.visits root).count ref =
          (registration.visits root).count parent * (heap.openModules parent).count ref
  once :
    (registration.visits root).Nodup ↔
      ∀ ref, heap.Reaches root ref → (registration.heap.childrenOf ref).Nodup

variable {heap : Heap} {root : Ref .module} {registration : Registration}

/-- Registered modules have nodes, and these are the nodes of the walk. -/
theorem Sound.exists_walked (sound : registration.Sound heap root)
    (covered : ∀ ref ∈ registration.tree.modules, registration.CoversModule heap ref)
    (byName : ∀ ref, heap.Reaches root ref → (heap.module ref).fields.ByName) :
    ∃ nodes, moduleNodes registration.heap registration.tree root = .ok nodes ∧
      registration.Walked heap root nodes := by
  have settled := sound.settled
  have coveredHere :
      ∀ ref ∈ registration.tree.modules,
        registration.CoversModule registration.heap ref := by
    intro ref member name value field
    exact covered ref member name value (sound.hasField_iff.mp field)
  have reached := sound.mem_iff_reaches covered
  have unchanged := Folding.OnlyHides.refl registration.heap
  have named : ∀ ref ∈ registration.tree.modules,
      (registration.heap.module ref).fields.ByName := by
    intro ref member
    rw [sound.fields ref]
    exact byName ref ((reached ref).mp member)
  obtain ⟨nodes, walks⟩ := exists_nodesBelow settled coveredHere unchanged named
    (registration.tree.size + 1) sound.first (by omega)
  refine ⟨nodes, walks, ?_⟩
  constructor
  case nodes =>
    have made := nodesBelow_forall₂ _ walks
    have shown : registration.heap.isShown =
        fun ref => decide (0 < heap.parameterCount ref) := by
      funext ref
      rw [Heap.isShown, sound.shown ref, Heap.parameterCount_congr (sound.fields ref)]
      rfl
    rw [shown] at made
    exact made
  case reached =>
    intro ref
    rw [← reached ref]
    exact mem_visits_iff settled coveredHere unchanged
  case first => exact count_visits_root settled coveredHere unchanged _
  case later =>
    intro ref reaches different
    have member := (reached ref).mpr reaches
    obtain ⟨place, listed⟩ := List.getElem?_of_mem member
    obtain ⟨above, parent, _, _, parentListed, parentOf, _⟩ :=
      sound.found place ref listed different
    have count := count_visits settled coveredHere unchanged member different parentListed
      parentOf (registration.tree.size + 1) sound.first (by omega)
    rw [if_neg (Ne.symm different), Nat.zero_add,
      Heap.openModules_congr (sound.fields parent)] at count
    exact ⟨above, parent, parentListed, parentOf, count⟩
  case once =>
    have distinct := visits_nodup_iff settled coveredHere unchanged
    rw [visits, distinct]
    constructor
    · intro each ref reaches
      exact each ref ((reached ref).mpr reaches)
    · intro each ref member
      exact each ref ((reached ref).mp member)

end Registration

/-- Where no trace came about, the graph has the nodes of the modules only. -/
theorem buildGraph_of_no_trace {container : Container} (catalogue : Catalogue)
    {settings : Settings} {before between marked : Machine} {registration : Registration}
    {nodes : List Node}
    (ends :
      (if settings.tracing then container.trace else pure none) before =
        .ok none between)
    (registers :
      registerModules container settings.displayLimit between = .ok registration marked)
    (walks :
      (match container.data with
        | .module root => moduleNodes marked.heap registration.tree root
        | _ => .ok []) = .ok nodes) :
    buildGraph container catalogue settings before =
      .ok ⟨container.header.name, [], [], nodes⟩ marked := by
  rw [buildGraph]
  -- Whether code is run or not, the same steps follow.
  by_cases tracing : settings.tracing = true
  on_goal 1 => rw [if_pos tracing] at ends ⊢
  on_goal 2 => rw [if_neg tracing] at ends ⊢
  all_goals
    refine EStateM.bind_eq_ok_iff.mpr ⟨none, between, ends, ?_⟩
    refine EStateM.bind_eq_ok_iff.mpr ⟨registration, marked, registers, ?_⟩
    refine EStateM.bind_eq_ok_iff.mpr ⟨[], marked, rfl, ?_⟩
    refine EStateM.bind_eq_ok_iff.mpr ⟨marked.heap, marked, rfl, ?_⟩
    exact EStateM.bind_eq_ok_iff.mpr
      ⟨nodes, marked, EStateM.ofExcept_eq_ok_iff.mpr ⟨walks, rfl⟩, rfl⟩

/-- The same for a container that holds a module. -/
theorem buildGraph_eq_of_no_trace {container : Container} (catalogue : Catalogue)
    {settings : Settings} {before between : Machine} {root : Ref .module}
    {registration : Registration} {nodes : List Node}
    (ends :
      (if settings.tracing then container.trace else pure none) before =
        .ok none between)
    (holds : container.data = .module root)
    (adds :
      (Registration.begin between.recording.heap).addRoot settings.displayLimit root =
        .ok registration)
    (walks : moduleNodes registration.heap registration.tree root = .ok nodes) :
    ∃ after,
      buildGraph container catalogue settings before =
        .ok ⟨container.header.name, [], [], nodes⟩ after := by
  let marked : Machine :=
    { between with recording := { between.recording with heap := registration.heap } }
  have registers :
      registerModules container settings.displayLimit between = .ok registration marked := by
    rw [registerModules, holds]
    refine EStateM.bind_eq_ok_iff.mpr ⟨_, _, rfl, ?_⟩
    refine EStateM.bind_eq_ok_iff.mpr
      ⟨registration, between, EStateM.ofExcept_eq_ok_iff.mpr ⟨adds, rfl⟩, ?_⟩
    exact EStateM.bind_eq_ok_iff.mpr ⟨_, _, rfl, rfl⟩
  have walksHere :
      (match container.data with
        | .module root => moduleNodes marked.heap registration.tree root
        | _ => .ok []) = .ok nodes := by
    rw [holds]
    exact walks
  exact ⟨marked, buildGraph_of_no_trace catalogue ends registers walksHere⟩

/-- Where a container holds no module, its graph is empty unless a trace fills it. -/
theorem buildGraph_eq_of_no_module {container : Container} (catalogue : Catalogue)
    {settings : Settings} {before between : Machine}
    (ends :
      (if settings.tracing then container.trace else pure none) before =
        .ok none between)
    (other : ∀ root, container.data ≠ .module root) :
    ∃ after,
      buildGraph container catalogue settings before =
        .ok ⟨container.header.name, [], [], []⟩ after := by
  have registers : ∃ registration after,
      registerModules container settings.displayLimit between =
        .ok registration after := by
    rw [registerModules]
    split
    · rename_i root holds
      exact absurd holds (other root)
    · exact ⟨_, _, rfl⟩
  obtain ⟨registration, marked, registers⟩ := registers
  refine ⟨marked, buildGraph_of_no_trace catalogue ends registers ?_⟩
  split
  · rename_i root holds
    exact absurd holds (other root)
  · rfl

/-- The graph of a model whose code is not run always comes about.  It consists of the
nodes of the modules that the root leads to and that have parameters, one for each visit
of the walk; the walk comes to each module once if and only if no module holds one of its
children in two open fields. -/
theorem buildGraph_walks {container : Container} (catalogue : Catalogue)
    {settings : Settings} {before : Machine} {root : Ref .module}
    (untraced : settings.tracing = false) (holds : container.data = .module root)
    (unmarked : before.recording.heap.Unmarked)
    (regular : before.recording.heap.Regular root) :
    ∃ registration graph after,
      (Registration.begin before.recording.heap).addRoot settings.displayLimit root =
          .ok registration ∧
        buildGraph container catalogue settings before = .ok graph after ∧
        graph.inputs = [] ∧ graph.outputs = [] ∧
        registration.Walked before.recording.heap root graph.nodes := by
  obtain ⟨registration, adds⟩ :=
    Registration.exists_addRoot unmarked regular settings.displayLimit
  obtain ⟨sound, covered⟩ := Registration.addRoot_sound unmarked adds
  obtain ⟨nodes, walks, walked⟩ := sound.exists_walked covered regular.byName
  have ends :
      (if settings.tracing then container.trace else pure none) before =
        .ok none before := by
    rw [untraced]
    rfl
  obtain ⟨after, builds⟩ := buildGraph_eq_of_no_trace catalogue ends holds adds walks
  exact ⟨registration, _, after, adds, builds, rfl, rfl, walked⟩

/-- Settings under which the code of an archive is not run. -/
def Settings.untraced : Settings := Settings.initial.set "trace" (.bool false)

/-! ## A module in two fields -/

namespace SharedLayer

def container : Container :=
  ⟨"model", "", [], .int 1, Container.plainHeader, .module root⟩

def start : Machine := { (default : Machine) with recording := ⟨heap, .empty⟩ }

/-- What is known of all graphs without a trace holds of a shared layer. -/
theorem graph_walks :
    Settings.untraced.tracing = false ∧ container.data = .module root ∧
      start.recording.heap.Unmarked ∧ start.recording.heap.Regular root ∧
      ∃ registration graph after,
        (Registration.begin start.recording.heap).addRoot
            Settings.untraced.displayLimit root = .ok registration ∧
          buildGraph container .empty Settings.untraced start = .ok graph after ∧
          graph.inputs = [] ∧ graph.outputs = [] ∧
          registration.Walked start.recording.heap root graph.nodes := by
  have untraced : Settings.untraced.tracing = false := by decide
  exact ⟨untraced, rfl, unmarked, regular,
    buildGraph_walks .empty untraced rfl unmarked regular⟩

end SharedLayer

namespace TwoFields

/-- A root whose fields `a` and `b` hold one layer, which has a tensor. -/
def pickled : String :=
  "c__torch__\nM\n)R\x7d(Va\nc__torch__\nL\n)Rp0\n\x7dVw\nctorch._utils\n" ++
    "_rebuild_tensor_v2\n((Vstorage\nctorch\nFloatStorage\nV0\nVcpu\nI1\ntQ" ++
      "I0\n(I1\nt(I1\ntI00\n\x7dtRsbVb\ng0\nub."

def entries : List Entry := [⟨"version", "1".toUTF8⟩, ⟨"data.pkl", pickled.toUTF8⟩]

/-- Whether the graph of a container passes a test together with the registration that
it comes from. -/
def buildsTo (test : Registration → Graph → Bool) (container : Container)
    (loaded : Machine) : Bool :=
  match container.data, buildGraph container .empty Settings.untraced loaded with
  | .module root, .ok graph _ =>
      match (Registration.begin loaded.recording.heap).addRoot
        Settings.untraced.displayLimit root with
      | .ok registration => test registration graph
      | .error _ => false
  | _, _ => false

/-- Whether one module has parameters, but two nodes have its name. -/
def emitsTwice (registration : Registration) (graph : Graph) : Bool :=
  (registration.tree.modules.countP fun ref =>
      0 < registration.heap.parameterCount ref) == 1 &&
    graph.nodes.map (fun node => (node.operator, node.name)) ==
      [("Module", "a"), ("Module", "a")]

set_option maxRecDepth 100000 in
private theorem builds : loadsTo (buildsTo emitsTwice) entries Machine.initial = true := by
  rw [Machine.initial_eq]
  decide +kernel

/-- The root leads to one module with parameters, which has two nodes. -/
theorem exists_module_twice :
    ∃ container loaded root registration graph after,
      Container.load "model" entries Machine.initial = .ok container loaded ∧
        container.data = .module root ∧
        Settings.untraced.tracing = false ∧
        buildGraph container .empty Settings.untraced loaded = .ok graph after ∧
        (Registration.begin loaded.recording.heap).addRoot
            Settings.untraced.displayLimit root = .ok registration ∧
        (registration.tree.modules.countP fun ref =>
            0 < registration.heap.parameterCount ref) = 1 ∧
        graph.nodes.map (fun node => (node.operator, node.name)) =
          [("Module", "a"), ("Module", "a")] := by
  obtain ⟨container, loaded, loads, pass⟩ := exists_of_loadsTo builds
  rw [buildsTo] at pass
  split at pass
  · rename_i root graph after holds buildsGraph
    split at pass
    · rename_i registration registers
      obtain ⟨one, two⟩ := Bool.and_eq_true_iff.mp pass
      have untraced : Settings.untraced.tracing = false := by decide
      exact ⟨container, loaded, root, registration, graph, after, loads, holds, untraced,
        buildsGraph, registers, beq_iff_eq.mp one, beq_iff_eq.mp two⟩
    · cases pass
  · cases pass

end TwoFields

end TorchArchive
