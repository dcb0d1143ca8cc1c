import TorchArchive.Proofs.Graph.Building

/-!
# Parameters through folding

A graph shows the data of a module's parameters in the node of the module, or, if the
module was folded into a call, as arguments of the call.  Folding only compares numbers:
a call takes a module if it consumes tensors of the module only, as many as the module
has parameters.  So a call that consumes a tensor twice, or the counter of a module for
normalization, hides a module of which it lacks a parameter.
-/

namespace TorchArchive

namespace Heap

/-- A parameter of a module: a tensor in a field other than the bookkeeping one. -/
def HasParameter (heap : Heap) (ref : Ref .module) (name : Value)
    (tensor : Ref .tensor) : Prop :=
  heap.HasField ref name (.tensor tensor) ∧ name.str? ≠ some bookkeepingField

variable {heap : Heap} {ref : Ref .module} {name : Value} {tensor : Ref .tensor}

theorem mem_tensorFields_iff :
    (name, tensor) ∈ heap.tensorFields ref ↔ heap.HasField ref name (.tensor tensor) := by
  rw [tensorFields, List.mem_filterMap]
  constructor
  · rintro ⟨⟨field, value⟩, member, same⟩
    cases value with
    | tensor other =>
        cases same
        exact member
    | _ => cases same
  · intro field
    exact ⟨(name, .tensor tensor), field, rfl⟩

theorem HasParameter.count_pos (parameter : heap.HasParameter ref name tensor) :
    0 < heap.parameterCount ref := by
  refine List.countP_pos_iff.mpr ⟨(name, tensor), mem_tensorFields_iff.mpr parameter.1, ?_⟩
  exact bne_iff_ne.mpr parameter.2

end Heap

/-- The stages of a graph: the registration of its modules, and the fold of modules into
calls. -/
structure GraphStages where
  registration : Registration
  folding : Folding
  graph : Graph

namespace GraphStages

/-- How a graph shows the data of a module's parameter. -/
inductive Shows (stages : GraphStages) (place : Nat) (ref : Ref .module) (name : Value)
    (tensor : Ref .tensor) : Prop
  /-- The module is a node, which has an input with the name of the field. -/
  | own {node : Node} {input : GraphParameter} {argument : Argument} :
      (stages.folding.heap.module ref).hidden = false →
      node ∈ stages.graph.nodes → node.operator = "Module" →
      stages.registration.tree.qualifiedName stages.folding.heap
          (some (place : Int)) = .ok node.name →
      input ∈ node.inputs → input.name = stages.folding.heap.snapshot name →
      argument ∈ input.arguments → argument.initializer.isSome = true →
      argument.initializer = (stages.registration.heap.tensor tensor).initializer →
      Shows stages place ref name tensor
  /-- The module was folded into a call, whose node has an argument with the name of the
  tensor. -/
  | folded {position : Nat} {call : TraceNode} {node : Node} {input : GraphParameter}
      {argument : Argument} :
      (stages.folding.heap.module ref).hidden = true →
      stages.folding.nodes[position]? = some call → call.module = some place →
      stages.graph.nodes[position]? = some node →
      input ∈ node.inputs → argument ∈ input.arguments →
      stages.registration.parameters.get? argument.id = some tensor →
      argument.initializer.isSome = true →
      argument.initializer = (stages.registration.heap.tensor tensor).initializer →
      Shows stages place ref name tensor

end GraphStages

/-! ## What a call consumes -/

namespace Folding

/-- The call consumes all parameters of a module. -/
def ConsumesAll (parameters : Table String (Ref .tensor)) (heap : Heap)
    (call : TraceNode) (ref : Ref .module) : Prop :=
  ∀ name tensor, heap.HasParameter ref name tensor → tensor ∈ tensorsOf parameters call

/-- Each call that a module was folded into consumes all parameters of the module. -/
def Complete (registration : Registration) (folding : Folding) : Prop :=
  ∀ call ∈ folding.nodes, ∀ place ref, call.module = some place →
    registration.tree.modules[place]? = some ref →
      ConsumesAll registration.parameters registration.heap call ref

variable {tree : ModuleTree} {parameters : Table String (Ref .tensor)} {heap : Heap}
  {call before after : TraceNode} {place : Nat} {ref : Ref .module}

/-- The tensors in the fields that are counted. -/
def parametersOf (heap : Heap) (ref : Ref .module) : List (Ref .tensor) :=
  ((heap.tensorFields ref).filter fun field =>
    field.1.str? != some Heap.bookkeepingField).map Prod.snd

theorem mem_parametersOf_iff {tensor : Ref .tensor} :
    tensor ∈ parametersOf heap ref ↔ ∃ name, heap.HasParameter ref name tensor := by
  rw [parametersOf, List.mem_map]
  constructor
  · rintro ⟨⟨name, other⟩, member, rfl⟩
    obtain ⟨field, counted⟩ := List.mem_filter.mp member
    exact ⟨name, Heap.mem_tensorFields_iff.mp field, bne_iff_ne.mp counted⟩
  · rintro ⟨name, field, counted⟩
    refine ⟨(name, tensor), List.mem_filter.mpr ⟨?_, bne_iff_ne.mpr counted⟩, rfl⟩
    exact Heap.mem_tensorFields_iff.mpr field

/-- A call that qualifies for a module whose parameters are distinct consumes all of
them if and only if it consumes none of them twice, and nothing else. -/
theorem Qualifies.consumesAll_iff
    (qualifies : Qualifies tree parameters heap call place ref)
    (distinct : (parametersOf heap ref).Nodup) :
    ConsumesAll parameters heap call ref ↔
      (tensorsOf parameters call).Nodup ∧
        tensorsOf parameters call ⊆ parametersOf heap ref := by
  have lengths : (tensorsOf parameters call).length = (parametersOf heap ref).length := by
    rw [qualifies.count, parametersOf, List.length_map, ← List.countP_eq_length_filter]
    rfl
  constructor
  · intro all
    have subset : parametersOf heap ref ⊆ tensorsOf parameters call := by
      intro tensor member
      obtain ⟨name, parameter⟩ := mem_parametersOf_iff.mp member
      exact all name tensor parameter
    have same := (List.Nodup.subperm distinct subset).perm_of_length_le
      (Nat.le_of_eq lengths)
    exact ⟨same.nodup_iff.mp distinct, same.symm.subset⟩
  · rintro ⟨once, subset⟩ name tensor parameter
    have same := (List.Nodup.subperm once subset).perm_of_length_le
      (Nat.le_of_eq lengths.symm)
    exact same.symm.subset (mem_parametersOf_iff.mpr ⟨name, parameter⟩)

/-- An argument that stands for a parameter has its data in a call that a module was
folded into. -/
theorem Outcome.initializer (outcome : Outcome tree parameters heap before after)
    (names : after.module = some place) {argument : TraceArgument}
    (member : argument ∈ after.inputs.flatten) {tensor : Ref .tensor}
    (resolves : parameters.get? argument.id = some tensor) :
    argument.initializer = (heap.tensor tensor).initializer := by
  cases outcome with
  | kept unnamed =>
      rw [unnamed] at names
      cases names
  | folded qualifies bound =>
      obtain ⟨arguments, argumentsMember, inside⟩ := List.mem_flatten.mp member
      obtain ⟨row, rowInside, rowFound⟩ := List.getElem_of_mem argumentsMember
      have rowBefore : row < before.inputs.length := bound.length_eq ▸ rowInside
      have boundRow := bound.get rowBefore rowInside
      simp only [List.get_eq_getElem, rowFound] at boundRow
      obtain ⟨column, columnInside, columnFound⟩ := List.getElem_of_mem inside
      have columnBefore : column < before.inputs[row].length :=
        boundRow.length_eq ▸ columnInside
      have boundArgument := boundRow.get columnBefore columnInside
      simp only [List.get_eq_getElem, columnFound] at boundArgument
      cases boundArgument with
      | parameter resolvesBefore _ =>
          rw [resolvesBefore] at resolves
          cases resolves
          rfl
      | other unresolved =>
          rw [unresolved] at resolves
          cases resolves

theorem mem_tensorsOf_iff {tensor : Ref .tensor} :
    tensor ∈ tensorsOf parameters call ↔
      ∃ argument ∈ call.inputs.flatten, parameters.get? argument.id = some tensor :=
  List.mem_filterMap

end Folding

/-! ## What a graph shows -/

namespace GraphStages

/-- What is known of the stages of a graph. -/
structure Built (stages : GraphStages) (catalogue : Catalogue) (root : Ref .module)
    (recorded : List TraceNode) (calls modules : List Node) : Prop where
  sound : stages.registration.Sound stages.registration.heap root
  covered :
    ∀ ref ∈ stages.registration.tree.modules,
      stages.registration.CoversModule stages.registration.heap ref
  accounts :
    Folding.Accounts stages.registration.tree stages.registration.parameters
      stages.registration.heap recorded stages.folding
  makesCalls :
    List.Forall₂
      (fun call node =>
        callNode stages.folding.heap stages.registration.tree catalogue call = .ok node)
      stages.folding.nodes calls
  makesModules :
    moduleNodes stages.folding.heap stages.registration.tree root = .ok modules
  nodes : stages.graph.nodes = calls ++ modules

namespace Built

variable {stages : GraphStages} {catalogue : Catalogue} {root : Ref .module}
  {recorded : List TraceNode} {calls modules : List Node} {place : Nat}
  {ref : Ref .module} {name : Value} {tensor : Ref .tensor}
  (built : stages.Built catalogue root recorded calls modules)

include built

/-- A parameter of a registered module has data. -/
theorem initializer (member : ref ∈ stages.registration.tree.modules)
    (parameter : stages.registration.heap.HasParameter ref name tensor) :
    (stages.registration.heap.tensor tensor).initializer.isSome = true := by
  have owned := (built.covered ref member name (.tensor tensor) parameter.1).1 tensor rfl
  obtain ⟨owner, owns⟩ := Option.isSome_iff_exists.mp owned
  exact (built.sound.owned tensor owner owns).1

/-- A module that is not hidden shows all its parameters. -/
theorem shows_of_shown
    (found : stages.registration.tree.modules[place]? = some ref)
    (shown : (stages.folding.heap.module ref).hidden = false)
    (parameter : stages.registration.heap.HasParameter ref name tensor) :
    stages.Shows place ref name tensor := by
  have changes := built.accounts.changes
  have view := built.initializer (List.mem_of_getElem? found) parameter
  have count : 0 < stages.folding.heap.parameterCount ref := by
    rw [Heap.parameterCount_congr (changes.fields ref)]
    exact parameter.count_pos
  obtain ⟨qualified, named, member⟩ :=
    moduleNodes_own built.sound changes built.makesModules found shown count
  have field : (name, tensor) ∈ stages.folding.heap.tensorFields ref := by
    rw [Heap.tensorFields_congr (changes.fields ref)]
    exact Heap.mem_tensorFields_iff.mpr parameter.1
  have inGraph : moduleNode stages.folding.heap qualified ref ∈ stages.graph.nodes := by
    rw [built.nodes]
    exact List.mem_append_right _ member
  have same : (stages.folding.heap.tensor tensor).initializer =
      (stages.registration.heap.tensor tensor).initializer := by
    rw [changes.tensors tensor]
  refine .own shown inGraph rfl named (List.mem_map.mpr ⟨(name, tensor), field, rfl⟩) rfl
    List.mem_cons_self ?_ same
  rw [same]
  exact view

/-- A parameter that a call consumes is shown by the call, if a module was folded into
it. -/
theorem shows_of_consumed {call : TraceNode} (member : call ∈ stages.folding.nodes)
    (names : call.module = some place)
    (found : stages.registration.tree.modules[place]? = some ref)
    (parameter : stages.registration.heap.HasParameter ref name tensor)
    (consumed :
      tensor ∈ Folding.tensorsOf stages.registration.parameters call) :
    stages.Shows place ref name tensor := by
  have view := built.initializer (List.mem_of_getElem? found) parameter
  obtain ⟨other, otherFound, _, hidden⟩ := built.accounts.spared call member place names
  cases Option.some.inj (otherFound.symm.trans found)
  obtain ⟨position, inside, atPosition⟩ := List.getElem_of_mem member
  obtain ⟨argument, argumentMember, resolves⟩ := Folding.mem_tensorsOf_iff.mp consumed
  have data : argument.initializer =
      (stages.registration.heap.tensor tensor).initializer := by
    have before : position < recorded.length :=
      built.accounts.outcomes.length_eq ▸ inside
    have outcome := built.accounts.outcomes.get before inside
    simp only [List.get_eq_getElem, atPosition] at outcome
    exact outcome.initializer names argumentMember resolves
  have nodeInside : position < calls.length := built.makesCalls.length_eq ▸ inside
  have makes := built.makesCalls.get inside nodeInside
  simp only [List.get_eq_getElem, atPosition] at makes
  have graphNode : stages.graph.nodes[position]? = some calls[position] := by
    rw [built.nodes, List.getElem?_append_left nodeInside]
    exact List.getElem?_eq_getElem nodeInside
  have listed : (⟨argument.id, argument.initializer, none⟩ : Argument) ∈
      (calls[position].inputs.map fun input => input.arguments).flatten := by
    rw [callNode_arguments makes]
    exact List.mem_map.mpr ⟨argument, argumentMember, rfl⟩
  obtain ⟨arguments, argumentsMember, argumentListed⟩ := List.mem_flatten.mp listed
  obtain ⟨input, inputMember, rfl⟩ := List.mem_map.mp argumentsMember
  refine .folded hidden ?_ names graphNode inputMember argumentListed resolves ?_ data
  · rw [← atPosition]
    exact List.getElem?_eq_getElem inside
  · rw [data]
    exact view

/-- A hidden module shows only what the call consumes that it was folded into. -/
theorem consumed_of_shows {call : TraceNode} (member : call ∈ stages.folding.nodes)
    (names : call.module = some place)
    (found : stages.registration.tree.modules[place]? = some ref)
    (shows : stages.Shows place ref name tensor) :
    tensor ∈ Folding.tensorsOf stages.registration.parameters call := by
  obtain ⟨other, otherFound, _, hidden⟩ := built.accounts.spared call member place names
  cases Option.some.inj (otherFound.symm.trans found)
  cases shows with
  | own shown =>
      rw [shown] at hidden
      cases hidden
  | @folded position other node input argument _ callFound namesToo nodeFound inputMember
      argumentMember resolves _ _ =>
      have same := built.accounts.named_unique (List.mem_of_getElem? callFound) member
        namesToo names
      subst same
      obtain ⟨inside, atPosition⟩ := List.getElem?_eq_some_iff.mp callFound
      have nodeInside : position < calls.length := built.makesCalls.length_eq ▸ inside
      have makes := built.makesCalls.get inside nodeInside
      simp only [List.get_eq_getElem, atPosition] at makes
      rw [built.nodes, List.getElem?_append_left nodeInside,
        List.getElem?_eq_getElem nodeInside] at nodeFound
      cases nodeFound
      have listed : argument ∈
          (calls[position].inputs.map fun input => input.arguments).flatten :=
        List.mem_flatten.mpr ⟨input.arguments, List.mem_map.mpr ⟨input, inputMember, rfl⟩,
          argumentMember⟩
      rw [callNode_arguments makes] at listed
      obtain ⟨recordedArgument, recordedMember, rfl⟩ := List.mem_map.mp listed
      exact Folding.mem_tensorsOf_iff.mpr ⟨recordedArgument, recordedMember, resolves⟩

/-- All parameters of all modules are shown if and only if each call that a module was
folded into consumes all parameters of the module. -/
theorem shows_iff :
    (∀ place ref, stages.registration.tree.modules[place]? = some ref →
        ∀ name tensor, stages.registration.heap.HasParameter ref name tensor →
          stages.Shows place ref name tensor) ↔
      Folding.Complete stages.registration stages.folding := by
  constructor
  · intro all call member place ref names found name tensor parameter
    exact built.consumed_of_shows member names found
      (all place ref found name tensor parameter)
  · intro complete place ref found name tensor parameter
    cases hidden : (stages.folding.heap.module ref).hidden with
    | false => exact built.shows_of_shown found hidden parameter
    | true =>
        obtain ⟨call, member, other, names, otherFound⟩ :=
          built.accounts.exists_named built.sound.tree_placed
            (List.mem_of_getElem? found) (built.sound.shown ref) hidden
        cases built.sound.tree_placed.place_unique otherFound found
        exact built.shows_of_consumed member names found parameter
          (complete call member place ref names found name tensor parameter)

end Built

end GraphStages

/-! ## Whole graphs -/

/-- The graph of a container whose trace succeeds shows each parameter of each
registered module, in the node of the module or in the call that the module was folded
into, if and only if each call that a module was folded into consumes all parameters of
that module. -/
theorem buildGraph_shows_iff {identifier : String} {entries : List Entry}
    {start loaded traced after : Machine} {container : Container}
    {catalogue : Catalogue} {settings : Settings} {trace : TraceResult}
    {root : Ref .module} {graph : Graph} (unmarked : start.recording.Unmarked)
    (loads : Container.load identifier entries start = .ok container loaded)
    (tracing : settings.tracing = true)
    (traces : container.trace loaded = .ok (some trace) traced)
    (holds : container.data = .module root)
    (builds : buildGraph container catalogue settings loaded = .ok graph after) :
    ∃ registration,
      (Registration.begin traced.recording.heap).addRoot settings.displayLimit root =
          .ok registration ∧
        let folding :=
          foldNodes registration.tree registration.parameters registration.heap
            trace.nodes
        ((∀ place ref, registration.tree.modules[place]? = some ref →
            ∀ name tensor, registration.heap.HasParameter ref name tensor →
              GraphStages.Shows ⟨registration, folding, graph⟩ place ref name tensor) ↔
          Folding.Complete registration folding) := by
  have unmarkedTrace : traced.recording.Unmarked :=
    (Recording.unmarked_endures.ofMachine.trace container).ok traces
      (Container.load_unmarked unmarked loads)
  obtain ⟨registration, registers, faultless, calls, modules, makesCalls, makesModules,
    nodes⟩ := buildGraph_stages tracing traces holds builds
  obtain ⟨sound, covered⟩ := Registration.addRoot_spec unmarkedTrace.heap registers
  refine ⟨registration, registers, ?_⟩
  have unnamed : ∀ node ∈ trace.nodes, node.module = none := by
    rw [Container.trace_nodes traces]
    exact fun node member => (unmarkedTrace.nodes node member).1
  have accounts := Folding.foldNodes_accounts_of_faultless sound.ownersPlaced
    sound.tree_placed unnamed faultless
  have built : GraphStages.Built ⟨registration, _, graph⟩ catalogue root trace.nodes
      calls modules :=
    ⟨sound, covered, accounts, Except.mapM_eq_ok_iff.mp makesCalls, makesModules, nodes⟩
  exact built.shows_iff

/-! ## Small archives -/

/-- A run from an archive to a graph, as settings that nobody changed have it. -/
structure BuildsFrom (entries : List Entry) (start : Machine) (stages : GraphStages) :
    Prop where
  exists_run :
    ∃ container loaded trace traced root after,
      Container.load "model" entries start = .ok container loaded ∧
        container.trace loaded = .ok (some trace) traced ∧
        container.data = .module root ∧
        buildGraph container .empty .initial loaded = .ok stages.graph after ∧
        (Registration.begin traced.recording.heap).addRoot
            Settings.initial.displayLimit root = .ok stages.registration ∧
        stages.folding =
          foldNodes stages.registration.tree stages.registration.parameters
            stages.registration.heap trace.nodes

/-- Whether an archive leads to a graph whose stages pass a test. -/
def passes (test : GraphStages → Bool) (entries : List Entry) (start : Machine) : Bool :=
  match Container.load "model" entries start with
  | .error _ _ => false
  | .ok container loaded =>
      match container.data, container.trace loaded,
        buildGraph container .empty .initial loaded with
      | .module root, .ok (some trace) traced, .ok graph _ =>
          match (Registration.begin traced.recording.heap).addRoot
            Settings.initial.displayLimit root with
          | .error _ => false
          | .ok registration =>
              test
                ⟨registration,
                  foldNodes registration.tree registration.parameters registration.heap
                    trace.nodes,
                  graph⟩
      | _, _, _ => false

theorem exists_of_passes {test : GraphStages → Bool} {entries : List Entry}
    {start : Machine} (pass : passes test entries start = true) :
    ∃ stages, BuildsFrom entries start stages ∧ test stages = true := by
  rw [passes] at pass
  split at pass
  · cases pass
  · rename_i container loaded loads
    split at pass
    · rename_i root trace traced graph after holds traces builds
      split at pass
      · cases pass
      · rename_i registration registers
        refine ⟨_, ⟨container, loaded, trace, traced, root, after, loads, traces, holds,
          builds, registers, rfl⟩, pass⟩
    · cases pass

/-! ### A model with one tensor -/

namespace OneTensor

/-- A start in which archive code finds one operator. -/
def start : Machine :=
  let (table, heap) := Heap.initial.addTable .empty
  let root : Scope := ⟨⟨table, none⟩, []⟩
  match heap.bindQualified root "torch.relu" (.builtin (.operator "torch.relu")) with
  | .ok heap => ⟨⟨heap, .empty⟩, root, .empty, none, [], []⟩
  | .error _ => ⟨⟨heap, .empty⟩, root, .empty, none, [], []⟩

def description : String :=
  "\x7b\"mainModule\":\x7b\"torchscriptArena\":\x7b\"key\":\"m\"\x7d," ++
    "\"parameters\":[\x7b\"name\":\"w\",\"tensorId\":0\x7d]\x7d," ++
      "\"tensors\":[\x7b\"dataType\":\"FLOAT\"\x7d]\x7d"

/-- The code consumes the only tensor of the model once. -/
def entries : List Entry :=
  [⟨"version", "1".toUTF8⟩, ⟨"model.json", description.toUTF8⟩,
    ⟨"m", "def forward(self): return torch.relu(self.w)".toUTF8⟩]

theorem start_unmarked : start.recording.Unmarked := by
  have table : (Heap.initial.addTable .empty).2.Unmarked :=
    Heap.Unmarked.initial.edit (.table .empty)
  rw [start]
  dsimp only
  split
  · rename_i bound
    exact ⟨table.edits (Heap.bindQualified_edits (fun _ => trivial) bound),
      fun _ member => by cases member⟩
  · exact ⟨table, fun _ member => by cases member⟩

/-- What the description tells. -/
def document : Datum :=
  .fields
    [("mainModule",
      .fields
        [("torchscriptArena", .fields [("key", .str "m")]),
          ("parameters", .list [.fields [("name", .str "w"), ("tensorId", .int 0)]])]),
      ("tensors", .list [.fields [("dataType", .str "FLOAT")]])]

theorem reads_description : Json.reads description document = true := by
  have spelled : description.toList = _ := Spells.append (.append .literal .literal) .literal
  rw [Json.reads, Json.read, spelled]
  decide +kernel

set_option maxRecDepth 100000 in
private theorem builds : passes (fun _ => true) entries start = true := by
  rw [passes, Container.load_first_version rfl rfl rfl reads_description]
  decide +kernel

/-- What is known of all graphs holds of the model with one tensor. -/
theorem graph_shows_iff :
    ∃ container loaded trace traced root graph after,
      start.recording.Unmarked ∧
        Container.load "model" entries start = .ok container loaded ∧
        Settings.initial.tracing = true ∧
        container.trace loaded = .ok (some trace) traced ∧
        container.data = .module root ∧
        buildGraph container .empty .initial loaded = .ok graph after ∧
        ∃ registration,
          (Registration.begin traced.recording.heap).addRoot
              Settings.initial.displayLimit root = .ok registration ∧
            let folding :=
              foldNodes registration.tree registration.parameters registration.heap
                trace.nodes
            ((∀ place ref, registration.tree.modules[place]? = some ref →
                ∀ name tensor, registration.heap.HasParameter ref name tensor →
                  GraphStages.Shows ⟨registration, folding, graph⟩ place ref name
                    tensor) ↔
              Folding.Complete registration folding) := by
  obtain ⟨stages, ⟨container, loaded, trace, traced, root, after, loads, traces, holds,
    builds, _, _⟩, _⟩ := exists_of_passes builds
  have tracing : Settings.initial.tracing = true := by decide
  exact ⟨container, loaded, trace, traced, root, stages.graph, after, start_unmarked,
    loads, tracing, traces, holds, builds,
    buildGraph_shows_iff start_unmarked loads tracing traces holds builds⟩

end OneTensor

/-! ### A layer that loses its bias -/

namespace LostBias

def description : String :=
  "\x7b\"mainModule\":\x7b\"torchscriptArena\":\x7b\"key\":\"m.py\"\x7d," ++
    "\"submodules\":[\x7b\"name\":\"l\",\"parameters\":[" ++
      "\x7b\"name\":\"weight\",\"tensorId\":0\x7d," ++
        "\x7b\"name\":\"bias\",\"tensorId\":1\x7d]\x7d]\x7d," ++
          "\"tensors\":[\x7b\"dataType\":\"FLOAT\",\"data\":\x7b\"key\":\"w\"\x7d\x7d," ++
            "\x7b\"dataType\":\"FLOAT\",\"data\":\x7b\"key\":\"b\"\x7d\x7d]\x7d"

/-- The code consumes the weight of the layer twice and its bias never. -/
def entries : List Entry :=
  [⟨"version", "1".toUTF8⟩, ⟨"model.json", description.toUTF8⟩,
    ⟨"m.py", "def forward(self):\n  return torch.add(self.l.weight, self.l.weight)".toUTF8⟩]

/-- Whether no argument of a graph has data of the name that a view has. -/
def lacks (graph : Graph) (view : Option Initializer) : Bool :=
  graph.nodes.all fun node => node.inputs.all fun input =>
    input.arguments.all fun argument =>
      (argument.initializer.map fun data => data.name) != view.map fun data => data.name

/-- Whether a parameter is in no node of the graph. -/
def loses (stages : GraphStages) : Bool :=
  stages.registration.tree.modules.any fun ref =>
    (stages.registration.heap.tensorFields ref).any fun field =>
      field.1.str? != some Heap.bookkeepingField &&
        lacks stages.graph (stages.registration.heap.tensor field.2).initializer

theorem lacks_spec {graph : Graph} {view : Option Initializer}
    (lacking : lacks graph view = true) :
    ∀ node ∈ graph.nodes, ∀ input ∈ node.inputs, ∀ argument ∈ input.arguments,
      argument.initializer ≠ view := by
  intro node nodeMember input inputMember argument argumentMember same
  have inNode := List.all_eq_true.mp lacking node nodeMember
  have inInput := List.all_eq_true.mp inNode input inputMember
  have apart := List.all_eq_true.mp inInput argument argumentMember
  rw [same, bne_self_eq_false] at apart
  cases apart

/-- What the description tells. -/
def document : Datum :=
  .fields
    [("mainModule",
      .fields
        [("torchscriptArena", .fields [("key", .str "m.py")]),
          ("submodules",
            .list
              [.fields
                [("name", .str "l"),
                  ("parameters", .list [parameter "weight" 0, parameter "bias" 1])]])]),
      ("tensors", .list [tensor "w", tensor "b"])]
where
  parameter (name : String) (place : Int) : Datum :=
    .fields [("name", .str name), ("tensorId", .int place)]
  tensor (key : String) : Datum :=
    .fields [("dataType", .str "FLOAT"), ("data", .fields [("key", .str key)])]

set_option maxRecDepth 100000 in
private theorem reads_description : Json.reads description document = true := by
  have spelled : description.toList = _ :=
    Spells.append
      (.append (.append (.append (.append .literal .literal) .literal) .literal) .literal)
      .literal
  rw [Json.reads, Json.read, spelled]
  decide +kernel

set_option maxRecDepth 100000 in
private theorem builds : passes loses entries Machine.initial = true := by
  rw [Machine.initial_eq, passes, Container.load_first_version rfl rfl rfl reads_description]
  decide +kernel

/-- The layer is folded into the call, and its bias is in no node of the graph. -/
theorem exists_parameter_nowhere :
    ∃ stages, BuildsFrom entries Machine.initial stages ∧
      ∃ (place : Nat) (ref : Ref .module) (name : Value) (tensor : Ref .tensor),
        stages.registration.tree.modules[place]? = some ref ∧
          stages.registration.heap.HasParameter ref name tensor ∧
            ∀ node ∈ stages.graph.nodes, ∀ input ∈ node.inputs,
              ∀ argument ∈ input.arguments,
                argument.initializer ≠
                  (stages.registration.heap.tensor tensor).initializer := by
  obtain ⟨stages, run, lost⟩ := exists_of_passes builds
  obtain ⟨ref, member, inModule⟩ := List.any_eq_true.mp lost
  obtain ⟨⟨name, tensor⟩, field, inField⟩ := List.any_eq_true.mp inModule
  obtain ⟨counted, lacking⟩ := Bool.and_eq_true_iff.mp inField
  obtain ⟨place, found⟩ := List.getElem?_of_mem member
  exact ⟨stages, run, place, ref, name, tensor, found,
    ⟨Heap.mem_tensorFields_iff.mp field, bne_iff_ne.mp counted⟩, lacks_spec lacking⟩

end LostBias

end TorchArchive
