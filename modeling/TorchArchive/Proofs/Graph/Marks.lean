import TorchArchive.Proofs.Evaluation.Containers
import TorchArchive.Proofs.Trace.Names

/-!
# Archives come without marks

Registration marks modules with their places and tensors with their owners, and folding
marks modules and calls.  Neither the load of an archive nor a run of its code leaves
such marks, so the objects of a container that was just traced have none.
-/

namespace TorchArchive

/-- A recorded call into which nothing was folded. -/
def TraceNode.Plain (node : TraceNode) : Prop :=
  node.module = none ∧
    ∀ arguments ∈ node.inputs, ∀ argument ∈ arguments, argument.initializer = none

namespace Heap

/-- A heap without marks: no module has a place, and no tensor an owner. -/
structure Unmarked (heap : Heap) : Prop where
  modules :
    ∀ ref, (heap.module ref).index = none ∧ (heap.module ref).parent = none ∧
      (heap.module ref).identifier = none ∧ (heap.module ref).hidden = false
  tensors :
    ∀ ref, (heap.tensor ref).owner = none ∧ (heap.tensor ref).initializer = none

variable {heap after : Heap}

/-- Marks stay away where modules and tensors stay. -/
theorem Unmarked.congr (unmarked : heap.Unmarked)
    (modules : ∀ ref, after.module ref = heap.module ref)
    (tensors : ∀ ref, after.tensor ref = heap.tensor ref) : after.Unmarked where
  modules := by
    intro ref
    rw [modules ref]
    exact unmarked.modules ref
  tensors := by
    intro ref
    rw [tensors ref]
    exact unmarked.tensors ref

theorem Unmarked.edit (unmarked : heap.Unmarked) (edit : heap.Edit .everywhere after) :
    after.Unmarked := by
  cases edit with
  | module moduleClass =>
      refine ⟨?_, unmarked.tensors⟩
      intro ref
      have shown : (heap.addModule (.fresh moduleClass)).2.module ref =
          if heap.modules.next = ref then .fresh moduleClass else heap.module ref :=
        Store.get_add heap.modules ref _
      rw [shown]
      split
      · exact ⟨rfl, rfl, rfl, rfl⟩
      · exact unmarked.modules ref
  | setFields changed change =>
      refine ⟨?_, unmarked.tensors⟩
      intro ref
      rw [module_updateModule]
      split
      · exact unmarked.modules changed
      · exact unmarked.modules ref
  | _ => exact unmarked.congr (fun _ => rfl) (fun _ => rfl)

theorem Unmarked.initial : Heap.initial.Unmarked where
  modules := fun ref => by
    have none : Heap.initial.module ref = default :=
      Store.get_of_not_holds _ (Nat.not_lt_zero _)
    rw [none]
    exact ⟨rfl, rfl, rfl, rfl⟩
  tensors := fun ref => by
    have none : Heap.initial.tensor ref = default :=
      Store.get_of_not_holds _ (Nat.not_lt_zero _)
    rw [none]
    exact ⟨rfl, rfl⟩

end Heap

namespace Recording

/-- A recording without marks. -/
structure Unmarked (recording : Recording) : Prop where
  heap : recording.heap.Unmarked
  nodes : ∀ node ∈ recording.trace.nodes, node.Plain

variable {recording : Recording}

theorem Unmarked.addWith (unmarked : recording.Unmarked) (items : List Value)
    {tensor : Ref .list → Tensor}
    (plain :
      ∀ outputs, (tensor outputs).owner = none ∧ (tensor outputs).initializer = none) :
    (recording.addWith items tensor).Unmarked where
  heap :=
    { modules := unmarked.heap.modules
      tensors := by
        intro ref
        rw [tensor_addWith]
        split
        · exact plain _
        · exact unmarked.heap.tensors ref }
  nodes := unmarked.nodes

theorem Unmarked.addTensor (unmarked : recording.Unmarked) (name : String)
    {change : Tensor → Tensor}
    (kept :
      ∀ tensor, (change tensor).owner = tensor.owner ∧
        (change tensor).initializer = tensor.initializer) :
    (recording.addTensor name change).2.Unmarked := by
  rw [addTensor_eq]
  exact unmarked.addWith _ fun outputs => kept (.blank outputs)

theorem Unmarked.putOutputs (unmarked : recording.Unmarked) (items : List Value)
    (ref : Ref .tensor) : (recording.putOutputs items ref).Unmarked where
  heap :=
    { modules := unmarked.heap.modules
      tensors := by
        intro other
        rw [tensor_putOutputs]
        split
        · exact unmarked.heap.tensors ref
        · exact unmarked.heap.tensors other }
  nodes := unmarked.nodes

theorem Unmarked.freshName (unmarked : recording.Unmarked) :
    recording.freshName.2.Unmarked := ⟨unmarked.heap, unmarked.nodes⟩

theorem Unmarked.identify (unmarked : recording.Unmarked) (ref : Ref .tensor) :
    (recording.identify ref).2.Unmarked := by
  rw [Recording.identify]
  split
  · exact unmarked
  · exact ⟨(unmarked.putOutputs [.str recording.freshName.1] ref).heap, unmarked.nodes⟩

theorem Unmarked.inputs (unmarked : recording.Unmarked) (values : List Value) :
    (recording.inputs values).2.Unmarked ∧
      ∀ arguments ∈ (recording.inputs values).1, ∀ argument ∈ arguments,
        argument.initializer = none := by
  induction values generalizing recording with
  | nil =>
      refine ⟨unmarked, ?_⟩
      intro arguments member
      cases member
  | cons value rest inductionHypothesis =>
      rw [Recording.inputs]
      split
      · refine ⟨unmarked, ?_⟩
        intro arguments member
        cases member
      · rename_i refs found
        obtain ⟨unmarkedRest, plainRest⟩ :=
          inductionHypothesis (identifyAll_keeps (fun ref before => before.identify ref) refs
            unmarked)
        refine ⟨unmarkedRest, ?_⟩
        intro arguments member argument inside
        rcases List.mem_cons.mp member with rfl | later
        · obtain ⟨_, _, rfl⟩ := List.mem_map.mp inside
          rfl
        · exact plainRest arguments later argument inside

theorem Unmarked.call (unmarked : recording.Unmarked) (name : String)
    (positional : List Value) (keywords : List (String × Value)) :
    (recording.call name positional keywords).2.Unmarked := by
  have placeholder : (recording.placeholder none .none).2.Unmarked :=
    unmarked.freshName.addTensor _ fun _ => ⟨rfl, rfl⟩
  obtain ⟨inputs, plain⟩ := placeholder.inputs positional
  have outputs := inputs.identify (recording.placeholder none .none).1
  refine ⟨outputs.heap, ?_⟩
  intro node member
  rcases List.mem_append.mp member with earlier | last
  · exact outputs.nodes node earlier
  · rw [List.mem_singleton.mp last]
    exact ⟨rfl, plain⟩

theorem Unmarked.rollback (unmarked : recording.Unmarked) :
    recording.rollback.Unmarked := by
  rw [rollback_eq]
  refine ⟨?_, fun _ member => by cases member⟩
  exact (List.foldlRecOn (motive := Unmarked) recording.trace.identified
    (Recording.putOutputs · []) unmarked fun _ before ref _ =>
      before.putOutputs [] ref).heap

/-- Archive code leaves no marks. -/
theorem unmarked_endures : Endures Unmarked where
  edit := fun edit before => ⟨before.heap.edit edit, before.nodes⟩
  unnamed := fun plain before => before.addWith [] fun outputs => (plain outputs).2
  fresh := fun change kept before =>
    before.freshName.addTensor _ fun tensor => (kept tensor).2
  call := fun name positional keywords before => before.call name positional keywords
  placeholder := fun name _ before => before.addTensor name fun _ => ⟨rfl, rfl⟩
  identify := fun ref before => before.identify ref
  reset := fun before => ⟨before.heap, fun _ member => by cases member⟩
  rollback := fun before => before.rollback

end Recording

theorem Heap.Unmarked.edits {heap after : Heap} (unmarked : heap.Unmarked)
    (edits : heap.Edits .everywhere after) : after.Unmarked := by
  induction edits with
  | refl => exact unmarked
  | tail _ edit inductionHypothesis => exact inductionHypothesis.edit edit

/-- The builtins are bound without marks. -/
theorem Registry.initial_unmarked : Registry.initial.1.Unmarked :=
  (Heap.Unmarked.initial.edit (.table .empty)).edits initial_edits

theorem Machine.initial_unmarked : Machine.initial.recording.Unmarked :=
  ⟨Registry.initial_unmarked, fun _ member => by cases member⟩

/-- The load of a container and the trace of its code leave no marks. -/
theorem Container.load_unmarked {identifier : String} {entries : List Entry}
    {before after : Machine} {container : Container}
    (unmarked : before.recording.Unmarked)
    (loads : Container.load identifier entries before = .ok container after) :
    after.recording.Unmarked :=
  have lasts (sources : Sources) : Machine.Lasts sources (OfRecording Recording.Unmarked) :=
    Recording.unmarked_endures.ofMachine.toLasts
  (Machine.Lasts.container lasts (fun _ before => before) identifier entries).ok loads unmarked

end TorchArchive
