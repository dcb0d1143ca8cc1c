import TorchArchive.Proofs.Graph.Parameters
import TorchArchive.Proofs.Graph.Walk
import TorchArchive.Proofs.Trace.Session

/-!
# What flows from modules into calls

The name of a tensor that is consumed by a call is defined in one of two ways: the module
that owns the tensor was folded into the call, which has the data then, or the tensor
flows out of the node of a module that holds it.  Names do this alone if no two tensors
have one, as in any trace in single-assignment form.
-/

namespace TorchArchive

/-- A value flows out of a node. -/
def Node.Defines (node : Node) (id : String) : Prop :=
  ∃ output ∈ node.outputs, ∃ argument ∈ output.arguments, argument.id = id

/-- What flows out of a module's node is what flows out of its tensors. -/
theorem moduleNode_defines_iff {heap : Heap} {name id : String} {ref : Ref .module} :
    (moduleNode heap name ref).Defines id ↔
      ∃ field tensor, heap.HasField ref field (.tensor tensor) ∧
        ∃ value ∈ heap.list (heap.tensor tensor).outputs, heap.text value = id := by
  constructor
  · rintro ⟨output, outputMember, argument, argumentMember, rfl⟩
    obtain ⟨⟨field, tensor⟩, fieldMember, makes⟩ := List.mem_filterMap.mp outputMember
    refine ⟨field, tensor, Heap.mem_tensorFields_iff.mp fieldMember, ?_⟩
    dsimp only at makes
    split at makes
    · cases makes
    · cases makes
      obtain ⟨value, member, rfl⟩ := List.mem_map.mp argumentMember
      exact ⟨value, member, rfl⟩
  · rintro ⟨field, tensor, stands, value, member, rfl⟩
    refine ⟨⟨heap.snapshot field, true,
      (heap.list (heap.tensor tensor).outputs).map fun id => .named (heap.text id)⟩,
      ?_, .named (heap.text value), List.mem_map.mpr ⟨value, member, rfl⟩, rfl⟩
    refine List.mem_filterMap.mpr
      ⟨(field, tensor), Heap.mem_tensorFields_iff.mpr stands, ?_⟩
    dsimp only
    split
    · rename_i empty
      rw [empty] at member
      cases member
    · rfl

/-! ## Names through registration and folding -/

namespace Registration

/-- A tensor that has both an owner and a name is found by the name. -/
def Resolves (recording : Recording) (registration : Registration) : Prop :=
  ∀ tensor name, (registration.heap.tensor tensor).owner.isSome = true →
    recording.HasName tensor name → registration.parameters.get? name = some tensor

variable {recording : Recording} {asked : List String} {displayLimit : Datum}


/-- What the registration of a tensor does to the table of names. -/
theorem addTensor_parameters {before after : Registration} {owner : Option Int}
    {tensor : Ref .tensor}
    (adds : addTensor displayLimit owner before tensor = .ok after) :
    after = before ∨
      (∀ other, (after.heap.tensor other).owner.isSome = true →
        other = tensor ∨ (before.heap.tensor other).owner.isSome = true) ∧
      after.parameters =
        match before.heap.identifier? tensor with
        | some id => before.parameters.insert (before.heap.text id) tensor
        | none => before.parameters := by
  rw [addTensor] at adds
  dsimp only at adds
  split at adds
  · cases adds
    exact Or.inl rfl
  · obtain ⟨view, _, same⟩ := Except.bind_eq_ok_iff.mp adds
    cases same
    refine Or.inr ⟨?_, rfl⟩
    intro other owns
    rw [Heap.tensor_updateTensor] at owns
    by_cases same : tensor = other
    · exact Or.inl same.symm
    · rw [if_neg same] at owns
      exact Or.inr owns

theorem resolves_kept (named : recording.Named asked)
    (held :
      ∀ ref name tensor, recording.heap.HasField ref name (.tensor tensor) →
        recording.heap.tensors.Holds tensor) :
    Kept recording.heap displayLimit fun registration =>
      recording.heap.OnlyMarks registration.heap ∧ registration.Resolves recording where
  fields := fun both => both.1.fields
  tensor := by
    rintro before after owner tensor holder field stands adds ⟨marks, resolves⟩
    refine ⟨(marks_kept recording.heap).tensor stands adds marks, ?_⟩
    rcases addTensor_parameters adds with rfl | ⟨owners, parameters⟩
    · exact resolves
    · intro other name owns has
      have outputs (ref : Ref .tensor) :
          before.heap.list (before.heap.tensor ref).outputs = recording.outputs ref := by
        rw [marks.outputs ref, marks.list]
        rfl
      rw [parameters, Heap.identifier?, outputs tensor]
      rcases named.single tensor (held holder field tensor stands) with
        empty | ⟨own, hasOwn⟩
      · -- A tensor without a name leaves the table, and it is not the one asked for.
        rw [empty]
        rcases owners other owns with same | ownsBefore
        · rw [same, Recording.HasName, empty] at has
          cases has.2
        · exact resolves other name ownsBefore has
      · rw [hasOwn.2]
        simp only [Heap.text_str, Table.get?_insert]
        by_cases same : own = name
        · rw [if_pos same]
          exact congrArg some (named.unique tensor other name (same ▸ hasOwn) has)
        · rw [if_neg same]
          rcases owners other owns with rfl | ownsBefore
          · exact absurd (hasOwn.name_unique has) same
          · exact resolves other name ownsBefore has
  module := by
    rintro before child parent identifier ⟨marks, resolves⟩
    exact ⟨marks.trans (push_marks before child parent identifier), resolves⟩

/-- Registration finds the tensors of the modules by their names. -/
theorem addRoot_resolves {root : Ref .module} {registration : Registration}
    (unmarked : recording.heap.Unmarked) (named : recording.Named asked)
    (held :
      ∀ ref name tensor, recording.heap.HasField ref name (.tensor tensor) →
        recording.heap.tensors.Holds tensor)
    (adds :
      (begin recording.heap).addRoot displayLimit root = .ok registration) :
    registration.Resolves recording := by
  refine (addRoot_keeps (resolves_kept named held) unmarked adds ⟨.refl _, ?_⟩).2
  intro tensor name owns _
  have unowned : ((begin recording.heap).heap.tensor tensor).owner = none :=
    (unmarked.tensors tensor).1
  rw [unowned] at owns
  cases owns

end Registration

/-- Folding changes nothing but marks either. -/
theorem foldNodes_marks {tree : ModuleTree} {parameters : Table String (Ref .tensor)}
    (nodes : List TraceNode) (heap : Heap) :
    heap.OnlyMarks (foldNodes tree parameters heap nodes).heap := by
  induction nodes generalizing heap with
  | nil => exact .refl heap
  | cons node rest inductionHypothesis =>
      rw [foldNodes]
      split
      · exact .refl heap
      · exact inductionHypothesis heap
      · rename_i after folded event folds
        have hides : heap.OnlyMarks after := by
          rw [Folding.foldNode] at folds
          dsimp only at folds
          split at folds
          · cases folds
          · obtain ⟨ref, _, folds⟩ := Except.bind_eq_ok_iff.mp folds
            split at folds
            · cases folds
            · obtain ⟨_, _, same⟩ := Except.bind_eq_ok_iff.mp folds
              cases same
              exact .module heap ref _ rfl
        exact hides.trans (inductionHypothesis after)

namespace GraphStages

/-- A value flows out of the node of a module: these nodes follow those of the calls. -/
def DefinesByModule (stages : GraphStages) (id : String) : Prop :=
  ∃ node ∈ stages.graph.nodes.drop stages.folding.nodes.length,
    node.operator = "Module" ∧ node.Defines id

/-- A registered module that holds a tensor, in a field of any name. -/
def Holds (stages : GraphStages) (ref : Ref .module) (tensor : Ref .tensor) : Prop :=
  ref ∈ stages.registration.tree.modules ∧
    ∃ name, stages.registration.heap.HasField ref name (.tensor tensor)

/-- How the names that calls consume are defined. -/
structure Closed (stages : GraphStages) : Prop where
  /-- The node of a call has the arguments of the call. -/
  calls :
    ∀ (position : Nat) call, stages.folding.nodes[position]? = some call →
      ∃ node, stages.graph.nodes[position]? = some node ∧
        (node.inputs.map fun input => input.arguments).flatten =
          call.inputs.flatten.map fun argument =>
            ⟨argument.id, argument.initializer, none⟩
  /-- The module that owns a tensor was folded into the call, which has the data. -/
  own :
    ∀ call ∈ stages.folding.nodes, ∀ argument ∈ call.inputs.flatten, ∀ ref,
      stages.Holds ref argument.tensor → ∀ owner : Nat,
        (stages.registration.heap.tensor argument.tensor).owner = some (owner : Int) →
        call.module = some owner →
          argument.initializer.isSome = true ∧
            argument.initializer =
              (stages.registration.heap.tensor argument.tensor).initializer
  /-- Or it was not, and then the name is defined by modules only. -/
  other :
    ∀ call ∈ stages.folding.nodes, ∀ argument ∈ call.inputs.flatten, ∀ ref,
      stages.Holds ref argument.tensor → ∀ owner : Nat,
        (stages.registration.heap.tensor argument.tensor).owner = some (owner : Int) →
        call.module ≠ some owner →
          argument.initializer = none ∧
            (stages.DefinesByModule argument.id ↔
              ∃ holder, stages.Holds holder argument.tensor ∧
                (stages.folding.heap.module holder).hidden = false ∧
                  0 < stages.registration.heap.parameterCount holder)
  /-- A tensor that a module holds has an owner. -/
  owned :
    ∀ ref tensor, stages.Holds ref tensor → ∃ owner : Nat,
      (stages.registration.heap.tensor tensor).owner = some (owner : Int)
  /-- A name is left without a definition if and only if each module that holds its
  tensor was folded into another call or has no parameters. -/
  undefined :
    ∀ call ∈ stages.folding.nodes, ∀ argument ∈ call.inputs.flatten, ∀ ref,
      stages.Holds ref argument.tensor →
        ((argument.initializer = none ∧ ¬ stages.DefinesByModule argument.id) ↔
          ∀ holder, stages.Holds holder argument.tensor →
            (∃ elsewhere ∈ stages.folding.nodes, elsewhere ≠ call ∧
                ∃ place : Nat, elsewhere.module = some place ∧
                  stages.registration.tree.modules[place]? = some holder) ∨
              stages.registration.heap.parameterCount holder = 0)

/-- How the stages of a graph stand to the trace that they come from. -/
structure Linked (stages : GraphStages) (recording : Recording) (asked : List String)
    (recorded : List TraceNode) : Prop where
  named : recording.Named asked
  held :
    ∀ ref name tensor, recording.heap.HasField ref name (.tensor tensor) →
      recording.heap.tensors.Holds tensor
  registers : recording.heap.OnlyMarks stages.registration.heap
  folds : stages.registration.heap.OnlyMarks stages.folding.heap
  resolves : stages.registration.Resolves recording
  plain : ∀ call ∈ recorded, call.Plain
  arguments :
    ∀ call ∈ recorded, ∀ argument ∈ call.inputs.flatten,
      recording.HasName argument.tensor argument.id

/-! ## Arguments of folded calls -/

section Arguments

variable {stages : GraphStages} {catalogue : Catalogue} {root : Ref .module}
  {recorded : List TraceNode} {calls modules : List Node} {recording : Recording}
  {asked : List String} {call : TraceNode} {argument : TraceArgument}
  (built : stages.Built catalogue root recorded calls modules)
  (linked : stages.Linked recording asked recorded)

include built linked

/-- An argument of a call has the name of its tensor.  Its data are those of the
parameter with that name, if a module was folded into the call. -/
theorem argument_cases (member : call ∈ stages.folding.nodes)
    (inside : argument ∈ call.inputs.flatten) :
    recording.HasName argument.tensor argument.id ∧
      (argument.initializer = none ∧
          (call.module = none ∨
            stages.registration.parameters.get? argument.id = none) ∨
        ∃ (place : Nat) (tensor : Ref .tensor), call.module = some place ∧
          stages.registration.parameters.get? argument.id = some tensor ∧
          (stages.registration.heap.tensor tensor).owner = some (place : Int) ∧
          argument.initializer =
            (stages.registration.heap.tensor tensor).initializer) := by
  obtain ⟨before, beforeMember, outcome⟩ :=
    exists_partner built.accounts.outcomes.flip member
  have unbound (original : TraceArgument) (stands : original ∈ before.inputs.flatten) :
      original.initializer = none := by
    obtain ⟨arguments, group, listed⟩ := List.mem_flatten.mp stands
    exact (linked.plain before beforeMember).2 arguments group original listed
  cases outcome with
  | kept unnamed =>
      refine ⟨linked.arguments call beforeMember argument inside, Or.inl ?_⟩
      exact ⟨unbound argument inside, Or.inl unnamed⟩
  | @folded place ref inputs _ bound =>
      have bindings := List.rel_flatten bound
      obtain ⟨original, stands, binding⟩ := exists_partner bindings.flip inside
      have has := linked.arguments before beforeMember original stands
      cases binding with
      | @parameter tensor resolves owns =>
          exact ⟨has, Or.inr ⟨place, tensor, rfl, resolves, owns, rfl⟩⟩
      | other unresolved =>
          exact ⟨has, Or.inl ⟨unbound argument stands, Or.inr unresolved⟩⟩

omit linked in
/-- A tensor that a registered module holds has an owner and data. -/
theorem exists_owner {ref : Ref .module} {tensor : Ref .tensor}
    (holds : stages.Holds ref tensor) :
    ∃ (owner : Nat) (holder : Ref .module),
      (stages.registration.heap.tensor tensor).owner = some (owner : Int) ∧
        stages.registration.tree.modules[owner]? = some holder ∧
        stages.Holds holder tensor ∧
        (stages.registration.heap.tensor tensor).initializer.isSome = true := by
  obtain ⟨listed, name, field⟩ := holds
  have owned := (built.covered ref listed name (.tensor tensor) field).1 tensor rfl
  obtain ⟨owner, owns⟩ := Option.isSome_iff_exists.mp owned
  obtain ⟨view, place, holder, text, rfl, found, stands⟩ := built.sound.owned tensor owner owns
  exact ⟨place, holder, owns, found, ⟨List.mem_of_getElem? found, text, stands⟩, view⟩

/-- Only the owner of an argument's tensor is folded into the call; then, and only then,
the argument has data. -/
theorem module_eq_owner (member : call ∈ stages.folding.nodes)
    (inside : argument ∈ call.inputs.flatten) {owner : Nat}
    (owns :
      (stages.registration.heap.tensor argument.tensor).owner = some (owner : Int)) :
    (argument.initializer = none ∧ call.module = none) ∨
      (argument.initializer =
          (stages.registration.heap.tensor argument.tensor).initializer ∧
        call.module = some owner) := by
  obtain ⟨has, cases_⟩ := argument_cases built linked member inside
  have owned : (stages.registration.heap.tensor argument.tensor).owner.isSome = true := by
    rw [owns]
    rfl
  have resolves := linked.resolves argument.tensor argument.id owned has
  rcases cases_ with ⟨dataless, unnamed | unresolved⟩ |
    ⟨place, tensor, names, resolvesHere, ownsHere, data⟩
  · exact Or.inl ⟨dataless, unnamed⟩
  · rw [resolves] at unresolved
    cases unresolved
  · rw [resolves] at resolvesHere
    cases resolvesHere
    rw [owns] at ownsHere
    have same : owner = place := Int.ofNat.inj (Option.some.inj ownsHere)
    exact Or.inr ⟨data, same ▸ names⟩

/-! ## Definitions by modules -/

/-- A name is defined by the modules that hold its tensor, as far as they are nodes. -/
theorem definesByModule_iff {tensor : Ref .tensor} {id : String}
    (has : recording.HasName tensor id) :
    stages.DefinesByModule id ↔
      ∃ holder, stages.Holds holder tensor ∧
        (stages.folding.heap.module holder).hidden = false ∧
          0 < stages.registration.heap.parameterCount holder := by
  have nodes := nodesBelow_forall₂ _ built.makesModules
  have changes := built.accounts.changes
  have lengths : stages.folding.nodes.length = calls.length := built.makesCalls.length_eq
  have outputs (other : Ref .tensor) :
      stages.folding.heap.list (stages.folding.heap.tensor other).outputs =
        recording.outputs other := by
    have marks := linked.registers.trans linked.folds
    rw [marks.outputs other, marks.list]
    rfl
  have fields (ref : Ref .module) (name : Value) (other : Ref .tensor) :
      stages.folding.heap.HasField ref name (.tensor other) ↔
        stages.registration.heap.HasField ref name (.tensor other) :=
    Heap.hasField_congr (changes.fields ref)
  rw [DefinesByModule, built.nodes, lengths, List.drop_left]
  constructor
  · rintro ⟨node, member, _, defines⟩
    obtain ⟨ref, visited, name, _, rfl⟩ := exists_partner nodes.flip member
    obtain ⟨visits, shown⟩ := List.mem_filter.mp visited
    obtain ⟨unhidden, counted⟩ := Bool.and_eq_true_iff.mp shown
    obtain ⟨field, other, stands, value, flows, named⟩ := moduleNode_defines_iff.mp defines
    rw [outputs other] at flows
    rw [fields ref field other] at stands
    have listed : ref ∈ stages.registration.tree.modules :=
      (visits_listed built.sound built.covered changes _ built.sound.first ref visits).1
    have heldOther : recording.heap.tensors.Holds other := by
      refine linked.held ref field other ?_
      exact (Heap.hasField_congr (linked.registers.fields ref)).mp stands
    -- Both tensors have the name, so they are one.
    have same : other = tensor := by
      rcases linked.named.single other heldOther with empty | ⟨text, hasOther⟩
      · rw [empty] at flows
        cases flows
      · rw [hasOther.2, List.mem_singleton] at flows
        rw [flows, Heap.text_str] at named
        exact linked.named.unique other tensor id (named ▸ hasOther) has
    refine ⟨ref, ⟨listed, field, same ▸ stands⟩, ?_, ?_⟩
    · exact Bool.not_eq_true' _ ▸ unhidden
    · rw [← Heap.parameterCount_congr (changes.fields ref)]
      exact of_decide_eq_true counted
  · rintro ⟨holder, ⟨listed, field, stands⟩, shown, counted⟩
    obtain ⟨place, found⟩ := List.getElem?_of_mem listed
    rw [← Heap.parameterCount_congr (changes.fields holder)] at counted
    obtain ⟨name, _, inNodes⟩ :=
      moduleNodes_own built.sound changes built.makesModules found shown counted
    refine ⟨_, inNodes, rfl, moduleNode_defines_iff.mpr ?_⟩
    refine ⟨field, tensor, (fields holder field tensor).mpr stands, .str id, ?_, rfl⟩
    rw [outputs tensor, has.2]
    exact List.mem_singleton_self _

omit linked in
/-- A module is hidden if and only if it was folded into a call. -/
theorem hidden_iff_folded {place : Nat} {ref : Ref .module}
    (found : stages.registration.tree.modules[place]? = some ref) :
    (stages.folding.heap.module ref).hidden = true ↔
      ∃ call ∈ stages.folding.nodes, call.module = some place := by
  constructor
  · intro hidden
    obtain ⟨call, member, other, names, otherFound⟩ :=
      built.accounts.exists_named built.sound.tree_placed (List.mem_of_getElem? found)
        (built.sound.shown ref) hidden
    cases built.sound.tree_placed.place_unique otherFound found
    exact ⟨call, member, names⟩
  · rintro ⟨call, member, names⟩
    obtain ⟨other, otherFound, _, hidden⟩ := built.accounts.spared call member place names
    cases Option.some.inj (otherFound.symm.trans found)
    exact hidden

omit linked in
/-- A module that was folded into a call has parameters. -/
theorem parameterCount_pos_of_folded {place : Nat} {ref : Ref .module}
    (member : call ∈ stages.folding.nodes) (names : call.module = some place)
    (found : stages.registration.tree.modules[place]? = some ref) :
    0 < stages.registration.heap.parameterCount ref := by
  obtain ⟨before, _, outcome⟩ := exists_partner built.accounts.outcomes.flip member
  cases outcome with
  | kept unnamed =>
      rw [unnamed] at names
      cases names
  | folded qualifies _ =>
      cases names
      cases Option.some.inj (qualifies.found.symm.trans found)
      rw [← qualifies.count]
      exact List.length_pos_of_ne_nil qualifies.consumes

/-- The names that calls consume are defined by the data that was folded into them or by
modules, or else not at all. -/
theorem Built.closed : stages.Closed where
  calls := by
    intro position call found
    obtain ⟨inside, atPosition⟩ := List.getElem?_eq_some_iff.mp found
    have nodeInside : position < calls.length := built.makesCalls.length_eq ▸ inside
    have makes := built.makesCalls.get inside nodeInside
    simp only [List.get_eq_getElem, atPosition] at makes
    refine ⟨calls[position], ?_, callNode_arguments makes⟩
    rw [built.nodes, List.getElem?_append_left nodeInside]
    exact List.getElem?_eq_getElem nodeInside
  own := by
    intro call member argument inside ref holds owner owns names
    obtain ⟨other, _, _, _, _, view⟩ := exists_owner built holds
    rcases module_eq_owner built linked member inside owns with ⟨_, unnamed⟩ | ⟨data, _⟩
    · rw [unnamed] at names
      cases names
    · exact ⟨data ▸ view, data⟩
  other := by
    intro call member argument inside ref holds owner owns notOwner
    obtain ⟨has, _⟩ := argument_cases built linked member inside
    rcases module_eq_owner built linked member inside owns with ⟨dataless, _⟩ | ⟨_, names⟩
    · exact ⟨dataless, definesByModule_iff built linked has⟩
    · exact absurd names notOwner
  owned := by
    intro ref tensor holds
    obtain ⟨owner, _, owns, _⟩ := exists_owner built holds
    exact ⟨owner, owns⟩
  undefined := by
    intro call member argument inside ref holds
    obtain ⟨has, _⟩ := argument_cases built linked member inside
    obtain ⟨owner, ownerRef, owns, ownerFound, ownerHolds, view⟩ := exists_owner built holds
    rw [definesByModule_iff built linked has]
    constructor
    · rintro ⟨dataless, undefined⟩ holder holderHolds
      by_cases counted : stages.registration.heap.parameterCount holder = 0
      · exact Or.inr counted
      · obtain ⟨place, found⟩ := List.getElem?_of_mem holderHolds.1
        have hidden : (stages.folding.heap.module holder).hidden = true := by
          by_contra shown
          exact undefined ⟨holder, holderHolds, eq_false_of_ne_true shown,
            Nat.pos_of_ne_zero counted⟩
        obtain ⟨elsewhere, elsewhereMember, names⟩ :=
          (hidden_iff_folded built found).mp hidden
        refine Or.inl ⟨elsewhere, elsewhereMember, ?_, place, names, found⟩
        rintro rfl
        rcases module_eq_owner built linked member inside owns with
          ⟨_, unnamed⟩ | ⟨data, _⟩
        · rw [unnamed] at names
          cases names
        · rw [← data, dataless] at view
          cases view
    · intro without
      have notHere : call.module ≠ some owner := by
        intro names
        rcases without ownerRef ownerHolds with
          ⟨elsewhere, elsewhereMember, different, place, namesToo, found⟩ | none
        · cases built.sound.tree_placed.place_unique found ownerFound
          exact different
            (built.accounts.named_unique elsewhereMember member namesToo names)
        · have some := parameterCount_pos_of_folded built member names ownerFound
          omega
      refine ⟨?_, ?_⟩
      · rcases module_eq_owner built linked member inside owns with
          ⟨dataless, _⟩ | ⟨_, names⟩
        · exact dataless
        · exact absurd names notHere
      · rintro ⟨holder, holderHolds, shown, counted⟩
        rcases without holder holderHolds with
          ⟨elsewhere, elsewhereMember, _, place, names, found⟩ | none
        · have hidden := (hidden_iff_folded built found).mpr
            ⟨elsewhere, elsewhereMember, names⟩
          rw [shown] at hidden
          cases hidden
        · omega

end Arguments

end GraphStages

/-! ## Whole graphs -/

namespace OneTensor

/-- A recording of one tensor, which has no name. -/
def unnamed : Recording :=
  ⟨{ (default : Heap) with lists := ⟨#[[]]⟩, tensors := ⟨#[.blank ⟨0⟩]⟩ }, .empty⟩

theorem unnamed_blank : unnamed.Blank := by
  refine ⟨rfl, rfl, ?_, ?_⟩
  all_goals
    intro ref held
    obtain ⟨_ | index⟩ := ref
  · exact Nat.zero_lt_one
  · exact absurd held (Nat.not_lt_of_le (Nat.le_add_left 1 index))
  · rfl
  · exact absurd held (Nat.not_lt_of_le (Nat.le_add_left 1 index))

/-- The session in which the operator is called on the tensor. -/
def session : Session :=
  let (output, recording) := unnamed.call "torch.relu" [.tensor ⟨0⟩] []
  ⟨recording, [output], []⟩

theorem reachable_session : session.Reachable := by
  have below : ∀ value ∈ [Value.tensor ⟨0⟩],
      unnamed.TensorsBelow unnamed.heap.tensors.size value := by
    intro value member refs found ref listed
    rw [List.mem_singleton.mp member] at found
    cases found
    rw [List.mem_singleton.mp listed]
    exact Nat.zero_lt_one
  have ends : (Builtin.operator "torch.relu").call [.tensor ⟨0⟩] [] unnamed =
      .ok (.tensor (unnamed.call "torch.relu" [.tensor ⟨0⟩] []).1) session.recording := rfl
  exact .step (.start unnamed_blank) (.operator below ends)

/-- Whether one name flows out of a tensor, and is kept in a list of the heap. -/
def hasName (recording : Recording) (ref : Ref .tensor) (name : String) : Bool :=
  decide (recording.heap.lists.Holds (recording.heap.tensor ref).outputs) &&
    match recording.outputs ref with
    | [.atom (.str text)] => text == name
    | _ => false

/-- Whether the tensors in fields are tensors of the heap. -/
def holdsFields (heap : Heap) : Bool :=
  heap.modules.cells.toList.all fun module =>
    module.fields.pairs.all fun entry =>
      match entry.2 with
      | .tensor tensor => decide (heap.tensors.Holds tensor)
      | _ => true

/-- Whether a recording has the one call, and two tensors with the names of the call. -/
def isTraced (recording : Recording) : Bool :=
  (match recording.trace with
    | ⟨[⟨"relu", "torch.relu", [[⟨"2", ⟨0⟩, none⟩]], ["1"], [], none⟩], [⟨0⟩], 2⟩ => true
    | _ => false) &&
  recording.heap.tensors.size == 2 && hasName recording ⟨0⟩ "2" &&
    hasName recording ⟨1⟩ "1" && holdsFields recording.heap

theorem outputs_of_hasName {recording : Recording} {ref : Ref .tensor} {name : String}
    (has : hasName recording ref name = true) :
    recording.heap.lists.Holds (recording.heap.tensor ref).outputs ∧
      recording.outputs ref = [.str name] := by
  obtain ⟨held, flows⟩ := Bool.and_eq_true_iff.mp has
  refine ⟨of_decide_eq_true held, ?_⟩
  split at flows
  · rename_i same
    rw [same, ← beq_iff_eq.mp flows]
    rfl
  · cases flows

theorem held_of_holdsFields {heap : Heap} (all : holdsFields heap = true)
    (ref : Ref .module) (name : Value) (tensor : Ref .tensor)
    (field : heap.HasField ref name (.tensor tensor)) : heap.tensors.Holds tensor := by
  have fields := List.all_eq_true.mp all _ field.module_mem
  exact of_decide_eq_true (List.all_eq_true.mp fields _ field)

/-- A recording of the one call is what a session comes to. -/
theorem exists_session {recording : Recording} (traced : isTraced recording = true) :
    (∃ session : Session, session.Reachable ∧ session.recording = recording) ∧
      ∀ ref name tensor, recording.heap.HasField ref name (.tensor tensor) →
        recording.heap.tensors.Holds tensor := by
  rw [isTraced] at traced
  simp only [Bool.and_eq_true] at traced
  obtain ⟨⟨⟨⟨call, size⟩, first⟩, second⟩, fields⟩ := traced
  obtain ⟨firstHeld, firstNamed⟩ := outputs_of_hasName first
  obtain ⟨secondHeld, secondNamed⟩ := outputs_of_hasName second
  have sizes : recording.heap.tensors.size = 2 := beq_iff_eq.mp size
  have leaves : session.recording.LeavesNames recording := by
    constructor
    case trace =>
      split at call
      · rename_i same
        rw [same]
        rfl
      · cases call
    case outputsHeld =>
      intro ref held
      obtain ⟨_ | _ | index⟩ := ref
      · exact firstHeld
      · exact secondHeld
      · rw [Store.Holds, sizes] at held
        exact absurd held (Nat.not_lt_of_le (Nat.le_add_left 2 index))
    case old =>
      intro ref held
      obtain ⟨_ | _ | index⟩ := ref
      · exact ⟨by rw [Store.Holds, sizes]; exact Nat.zero_lt_two, firstNamed⟩
      · exact ⟨by rw [Store.Holds, sizes]; exact Nat.one_lt_two, secondNamed⟩
      · exact absurd held (Nat.not_lt_of_le (Nat.le_add_left 2 index))
    case new =>
      intro ref held new
      rw [Store.Holds, sizes] at held
      exact absurd held new
  exact ⟨⟨_, .step reachable_session (.between leaves), rfl⟩, held_of_holdsFields fields⟩

/-- Whether a container leads to a graph by way of a recording that passes a test. -/
def tracesTo (test : Recording → Bool) (container : Container) (loaded : Machine) : Bool :=
  match container.data, container.trace loaded,
    buildGraph container .empty .initial loaded with
  | .module _, .ok (some _) traced, .ok _ _ => test traced.recording
  | _, _, _ => false

set_option maxRecDepth 100000 in
private theorem traces : loadsTo (tracesTo isTraced) entries start = true := by
  rw [loadsTo, Container.load_first_version rfl rfl rfl reads_description]
  decide +kernel

end OneTensor

end TorchArchive
