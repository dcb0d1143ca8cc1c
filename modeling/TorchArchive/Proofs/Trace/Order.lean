import Mathlib.Data.List.Forall2
import TorchArchive.Proofs.Trace.Names

/-!
# Recorded calls

A recorded call names each of its inputs with the name that the tensor has, and its
output with the name of a tensor that is newer than all of its inputs.  Names that
are given later do not change that.
-/

namespace TorchArchive

/-- A text is its own text. -/
@[simp] theorem Heap.text_str (heap : Heap) (name : String) :
    heap.text (.str name) = name := rfl

namespace Recording

variable {before after : Recording} {asked : List String}

/-! ## Asking for names -/

/-- Tensors of the heap were asked for their names. -/
structure Identifies (before after : Recording) : Prop where
  size : after.heap.tensors.size = before.heap.tensors.size
  nodes : after.trace.nodes = before.trace.nodes
  keeps : ∀ ref name, before.HasName ref name → after.HasName ref name
  lists :
    ∀ list, after.heap.list list = before.heap.list list ∨
      ∃ name, after.heap.list list = [.str name]

theorem Identifies.refl (recording : Recording) : recording.Identifies recording where
  size := rfl
  nodes := rfl
  keeps := fun _ _ has => has
  lists := fun _ => Or.inl rfl

theorem Identifies.holds (identifies : before.Identifies after) {ref : Ref .tensor}
    (held : before.heap.tensors.Holds ref) : after.heap.tensors.Holds ref :=
  Nat.lt_of_lt_of_eq held identifies.size.symm

theorem Identifies.trans {between : Recording} (first : before.Identifies between)
    (second : between.Identifies after) : before.Identifies after where
  size := second.size.trans first.size
  nodes := second.nodes.trans first.nodes
  keeps := fun ref name has => second.keeps ref name (first.keeps ref name has)
  lists := by
    intro list
    rcases second.lists list with same | named
    · rw [same]
      exact first.lists list
    · exact Or.inr named

section Asking

variable (plain : ∀ name ∈ asked, ∀ number : Nat, name ≠ integerText number)

include plain

theorem identify_spec (named : before.Named asked) {ref : Ref .tensor}
    (held : before.heap.tensors.Holds ref) :
    (before.identify ref).2.Named asked ∧
      before.Identifies (before.identify ref).2 ∧
      (before.identify ref).2.HasName ref (before.identify ref).1 := by
  rcases named.single ref held with empty | ⟨name, has⟩
  · have names := putOutputs_names named.outputsHeld held empty before.freshName.1
    rw [identify_eq empty]
    refine ⟨?_, ⟨?_, rfl, fun _ _ => names.keeps, ?_⟩, names.has⟩
    · refine named.of_names ⟨names.has, names.unnamed, names.others⟩
        (named.fresh_unused plain) (outputsHeld_putOutputs named.outputsHeld _ held) ?_
        (Nat.le_succ _) (fun _ member => member) ?_
      · intro other member
        simpa using member
      · exact Or.inr ⟨before.trace.names + 1, Nat.le_refl _, rfl⟩
    · exact size_putOutputs _ held
    · intro list
      simp only [putOutputs, Heap.list_updateTensor, Heap.list_addList]
      split
      · exact Or.inr ⟨before.freshName.1, rfl⟩
      · exact Or.inl rfl
  · rw [has.identify_eq]
    exact ⟨named, .refl before, has⟩

theorem identifyAll_spec :
    ∀ (refs : List (Ref .tensor)) {before : Recording}, before.Named asked →
      (∀ ref ∈ refs, before.heap.tensors.Holds ref) →
        (before.identifyAll refs).2.Named asked ∧
          before.Identifies (before.identifyAll refs).2 ∧
          List.Forall₂ (fun ref name => (before.identifyAll refs).2.HasName ref name)
            refs (before.identifyAll refs).1
  | [], before, named, _ => ⟨named, .refl before, .nil⟩
  | ref :: rest, before, named, held => by
      obtain ⟨namedFirst, first, has⟩ :=
        identify_spec plain named (held ref List.mem_cons_self)
      have heldRest (other : Ref .tensor) (member : other ∈ rest) :
          (before.identify ref).2.heap.tensors.Holds other :=
        first.holds (held other (List.mem_cons_of_mem ref member))
      obtain ⟨namedRest, others, names⟩ := identifyAll_spec rest namedFirst heldRest
      exact ⟨namedRest, first.trans others,
        .cons (others.keeps ref _ has) names⟩

theorem arguments_spec (named : before.Named asked) {refs : List (Ref .tensor)}
    (held : ∀ ref ∈ refs, before.heap.tensors.Holds ref) :
    (before.arguments refs).2.Named asked ∧
      before.Identifies (before.arguments refs).2 ∧
      ∀ argument ∈ (before.arguments refs).1,
        (before.arguments refs).2.HasName argument.tensor argument.id ∧
          argument.tensor ∈ refs := by
  obtain ⟨namedAfter, identifies, names⟩ := identifyAll_spec plain refs named held
  refine ⟨namedAfter, identifies, ?_⟩
  intro argument member
  obtain ⟨⟨name, ref⟩, pair, rfl⟩ := List.mem_map.mp member
  refine ⟨?_, (List.of_mem_zip pair).2⟩
  exact (List.forall₂_iff_zip.mp names.flip).2 pair

/-! ## Inputs -/

omit plain in
/-- The tensors of a value are among the first tensors of the heap. -/
def TensorsBelow (recording : Recording) (bound : Nat) (value : Value) : Prop :=
  ∀ refs, tensorsOf recording.heap value = some refs → ∀ ref ∈ refs, ref.index < bound

omit plain in
/-- New lists of names are no lists of tensors. -/
theorem TensorsBelow.mono {bound : Nat} {value : Value}
    (below : before.TensorsBelow bound value)
    (lists :
      ∀ list, after.heap.list list = before.heap.list list ∨
        ∃ name, after.heap.list list = [.str name]) :
    after.TensorsBelow bound value := by
  intro refs found ref member
  cases value with
  | list list =>
      rcases lists list with same | ⟨name, named⟩
      · refine below refs ?_ ref member
        simpa only [tensorsOf, Heap.tensors?, Heap.items?, same] using found
      · simp [tensorsOf, Heap.tensors?, Heap.items?, named, Value.str] at found
  | _ => exact below refs found ref member

theorem inputs_spec {bound : Nat} :
    ∀ (values : List Value) {before : Recording}, before.Named asked →
      bound ≤ before.heap.tensors.size →
      (∀ value ∈ values, before.TensorsBelow bound value) →
        (before.inputs values).2.Named asked ∧
          before.Identifies (before.inputs values).2 ∧
          ∀ arguments ∈ (before.inputs values).1, ∀ argument ∈ arguments,
            (before.inputs values).2.HasName argument.tensor argument.id ∧
              argument.tensor.index < bound
  | [], before, named, _, _ => by
      refine ⟨named, .refl before, ?_⟩
      intro arguments member
      cases member
  | value :: rest, before, named, inside, below => by
      rw [inputs]
      cases found : tensorsOf before.heap value with
      | none =>
          refine ⟨named, .refl before, ?_⟩
          intro arguments member
          cases member
      | some refs =>
          have belowFirst := below value List.mem_cons_self refs found
          have held (ref : Ref .tensor) (member : ref ∈ refs) :
              before.heap.tensors.Holds ref :=
            Nat.lt_of_lt_of_le (belowFirst ref member) inside
          obtain ⟨namedFirst, first, arguments⟩ := arguments_spec plain named held
          have belowRest (other : Value) (member : other ∈ rest) :
              (before.arguments refs).2.TensorsBelow bound other :=
            (below other (List.mem_cons_of_mem value member)).mono first.lists
          obtain ⟨namedRest, others, inputs⟩ :=
            inputs_spec rest namedFirst (first.size ▸ inside) belowRest
          refine ⟨namedRest, first.trans others, ?_⟩
          intro group member argument within
          rcases List.mem_cons.mp member with rfl | later
          · obtain ⟨has, listed⟩ := arguments argument within
            exact ⟨others.keeps _ _ has, belowFirst _ listed⟩
          · exact inputs group later argument within

end Asking

/-! ## New tensors -/

/-- A new tensor with a name that no tensor has. -/
theorem addTensor_spec {given : List String} (named : before.Named asked) {name : String}
    (change : Tensor → Tensor)
    (kept : ∀ tensor, (change tensor).outputs = tensor.outputs)
    (unused : ∀ other, ¬ before.HasName other name)
    (longer : ∀ name ∈ asked, name ∈ given) (known : before.Known given name) :
    (before.addTensor name change).2.Named given ∧
      before.Names (before.addTensor name change).2 (before.addTensor name change).1
        name := by
  obtain ⟨names, outputsHeld⟩ := addTensor_names named.outputsHeld name kept
  refine ⟨?_, names⟩
  exact named.of_names names unused outputsHeld (fun _ member => Or.inl member)
    (Nat.le_refl _) longer known

/-- The count of names does not matter to the names that tensors have. -/
theorem Named.count (named : before.Named asked) : before.freshName.2.Named asked :=
  named.of_namesNone (fun _ held => Or.inr ⟨held, rfl⟩) named.outputsHeld
    named.identified (Nat.le_succ _)

/-- A new tensor with a fresh name. -/
theorem freshTensor_spec (plain : ∀ name ∈ asked, ∀ number : Nat, name ≠ integerText number)
    (named : before.Named asked) (change : Tensor → Tensor)
    (kept : ∀ tensor, (change tensor).outputs = tensor.outputs) :
    (before.freshName.2.addTensor before.freshName.1 change).2.Named asked ∧
      before.Names (before.freshName.2.addTensor before.freshName.1 change).2
        (before.freshName.2.addTensor before.freshName.1 change).1
        before.freshName.1 := by
  obtain ⟨namedAfter, names⟩ :=
    addTensor_spec named.count change kept (named.fresh_unused plain)
      (fun _ member => member) (Or.inr ⟨before.trace.names + 1, Nat.le_refl _, rfl⟩)
  exact ⟨namedAfter, names.has, names.unnamed, names.others⟩

/-! ## Calls -/

/-- How a recorded call stands to the tensor that it returned. -/
structure Records (recording : Recording) (node : TraceNode) (output : Ref .tensor) :
    Prop where
  named : ∃ name, node.outputs = [name] ∧ recording.HasName output name
  inputs :
    ∀ arguments ∈ node.inputs, ∀ argument ∈ arguments,
      recording.HasName argument.tensor argument.id ∧
        argument.tensor.index < output.index

theorem Records.mono {node : TraceNode} {output : Ref .tensor}
    (records : before.Records node output)
    (keeps : ∀ ref name, before.HasName ref name → after.HasName ref name) :
    after.Records node output where
  named := by
    obtain ⟨name, outputs, has⟩ := records.named
    exact ⟨name, outputs, keeps output name has⟩
  inputs := by
    intro arguments member argument inside
    obtain ⟨has, older⟩ := records.inputs arguments member argument inside
    exact ⟨keeps _ _ has, older⟩

theorem call_spec (plain : ∀ name ∈ asked, ∀ number : Nat, name ≠ integerText number)
    (named : before.Named asked) (qualifiedName : String) {positional : List Value}
    (keywords : List (String × Value))
    (held :
      ∀ value ∈ positional, before.TensorsBelow before.heap.tensors.size value) :
    (before.call qualifiedName positional keywords).2.Named asked ∧
      (∀ ref name, before.HasName ref name →
        (before.call qualifiedName positional keywords).2.HasName ref name) ∧
      (∀ ref, before.heap.tensors.Holds ref →
        ref.index < (before.call qualifiedName positional keywords).1.index) ∧
      ∃ node,
        (before.call qualifiedName positional keywords).2.trace.nodes =
            before.trace.nodes ++ [node] ∧
          (before.call qualifiedName positional keywords).2.Records node
            (before.call qualifiedName positional keywords).1 := by
  -- The output is made first, then the inputs and at last the output are named.
  obtain ⟨namedNew, new⟩ :=
    freshTensor_spec plain named ({ · with size := Value.none }) fun _ => rfl
  have placeholder :
      before.placeholder none .none =
        before.freshName.2.addTensor before.freshName.1
          ({ · with size := Value.none }) := rfl
  rw [← placeholder] at namedNew new
  have bound :
      before.heap.tensors.size ≤ (before.placeholder none .none).2.heap.tensors.size :=
    Nat.le_of_lt new.has.1
  have below (value : Value) (member : value ∈ positional) :
      (before.placeholder none .none).2.TensorsBelow before.heap.tensors.size
        value := by
    refine (held value member).mono ?_
    intro list
    change (before.heap.addList [.str before.freshName.1]).2.list list = _ ∨
      ∃ name, (before.heap.addList [.str before.freshName.1]).2.list list = _
    rw [Heap.list_addList]
    split
    · exact Or.inr ⟨before.freshName.1, rfl⟩
    · exact Or.inl rfl
  obtain ⟨namedInputs, inputs, arguments⟩ :=
    inputs_spec plain positional namedNew bound below
  have outputHeld (ref : Ref .tensor)
      (member : ref ∈ [(before.placeholder none .none).1]) :
      ((before.placeholder none .none).2.inputs positional).2.heap.tensors.Holds
        ref := by
    rw [List.mem_singleton.mp member]
    exact inputs.holds new.has.1
  obtain ⟨namedAfter, output, names⟩ :=
    identifyAll_spec plain [(before.placeholder none .none).1] namedInputs outputHeld
  refine ⟨?_, ?_, fun _ older => older,
    ⟨lastPart qualifiedName, qualifiedName,
      ((before.placeholder none .none).2.inputs positional).1,
      (((before.placeholder none .none).2.inputs positional).2.identifyAll
        [(before.placeholder none .none).1]).1, keywords, none⟩, ?_, ⟨?_, ?_⟩⟩
  · exact namedAfter.of_namesNone (fun _ holds => Or.inr ⟨holds, rfl⟩)
      namedAfter.outputsHeld namedAfter.identified (Nat.le_refl _)
  · intro ref name has
    exact output.keeps ref name (inputs.keeps ref name (new.keeps has))
  · rw [call]
    exact congrArg (· ++ _) (output.nodes.trans inputs.nodes)
  · obtain ⟨name, others, has, none, same⟩ := List.forall₂_cons_left_iff.mp names
    rw [List.forall₂_nil_left_iff.mp none] at same
    exact ⟨name, same, has⟩
  · intro group member argument inside
    obtain ⟨has, older⟩ := arguments group member argument inside
    exact ⟨output.keeps _ _ has, older⟩

end Recording

end TorchArchive
