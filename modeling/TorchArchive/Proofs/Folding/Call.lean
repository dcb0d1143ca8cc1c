import TorchArchive.Graph.Folding
import TorchArchive.Proofs.ModuleTree

/-!
# Folding a module into one call

A call qualifies for a module if it consumes parameters, all of which are the
module's, and as many as the module has.  A call that qualifies for a module which
is not hidden yet gets it; every other call stays as it is.
-/

namespace TorchArchive

namespace Folding

/-! ## Calls that qualify for a module -/

/-- The call consumes parameters of the module at a place only, and as many as the
module has. -/
structure Qualifies (tree : ModuleTree) (parameters : Table String (Ref .tensor))
    (heap : Heap) (node : TraceNode) (place : Nat) (ref : Ref .module) : Prop where
  found : tree.modules[place]? = some ref
  consumes : tensorsOf parameters node ≠ []
  owned :
    ∀ tensor ∈ tensorsOf parameters node,
      (heap.tensor tensor).owner = some (place : Int)
  count : (tensorsOf parameters node).length = heap.parameterCount ref

/-- Parameters are owned by no module or by one of the tree. -/
def OwnersPlaced (tree : ModuleTree) (parameters : Table String (Ref .tensor))
    (heap : Heap) : Prop :=
  ∀ id tensor,
    parameters.get? id = some tensor →
      ∀ owner, (heap.tensor tensor).owner = some owner →
        ∃ place : Nat, owner = place ∧ place < tree.size

theorem commonOwner?_eq_some_iff {heap : Heap} {tensors : List (Ref .tensor)}
    {owner : Int} :
    commonOwner? heap tensors = some owner ↔
      tensors ≠ [] ∧
        ∀ tensor ∈ tensors, (heap.tensor tensor).owner = some owner := by
  cases tensors with
  | nil =>
      simp [commonOwner?]
  | cons first rest =>
      simp only [commonOwner?, ne_eq, reduceCtorEq, not_false_eq_true, true_and,
        List.forall_mem_cons]
      split
      · rename_i same
        simp only [List.all_eq_true, beq_iff_eq] at same
        constructor
        · intro equality
          refine ⟨equality, ?_⟩
          intro tensor member
          exact (same tensor member).trans equality
        · exact fun both => both.1
      · rename_i different
        constructor
        · intro impossible
          cases impossible
        · rintro ⟨firstOwner, restOwners⟩
          refine absurd ?_ different
          simp only [List.all_eq_true, beq_iff_eq]
          intro tensor member
          exact (restOwners tensor member).trans firstOwner.symm

variable {tree : ModuleTree} {parameters : Table String (Ref .tensor)}
  {heap : Heap} {node : TraceNode} {place : Nat} {ref : Ref .module}

theorem Qualifies.commonOwner
    (qualifies : Qualifies tree parameters heap node place ref) :
    commonOwner? heap (tensorsOf parameters node) = some (place : Int) :=
  commonOwner?_eq_some_iff.mpr ⟨qualifies.consumes, qualifies.owned⟩

/-- A call qualifies for one module at most. -/
theorem Qualifies.unique
    (qualifies : Qualifies tree parameters heap node place ref)
    {otherPlace : Nat} {other : Ref .module}
    (otherwise : Qualifies tree parameters heap node otherPlace other) :
    otherPlace = place ∧ other = ref := by
  have owners := otherwise.commonOwner.symm.trans qualifies.commonOwner
  have samePlace : otherPlace = place := by
    exact Int.ofNat.inj (Option.some.inj owners)
  subst samePlace
  have refs := otherwise.found.symm.trans qualifies.found
  exact ⟨rfl, Option.some.inj refs⟩

/-! ## One call -/

/-- The heap with a module hidden. -/
def hide (heap : Heap) (ref : Ref .module) : Heap :=
  heap.updateModule ref ({ · with hidden := true })

/-- The call with a module folded into it. -/
def folded (heap : Heap) (parameters : Table String (Ref .tensor))
    (node : TraceNode) (place : Nat) : TraceNode :=
  { bindArguments heap parameters node with module := some place }

theorem foldNode_of_hidden
    (qualifies : Qualifies tree parameters heap node place ref)
    (hidden : (heap.module ref).hidden = true) :
    foldNode tree parameters heap node = .ok none := by
  simp only [foldNode, qualifies.commonOwner,
    ModuleTree.module?_place qualifies.found, bind, Except.bind, hidden,
    Bool.true_or, if_true]
  rfl

theorem foldNode_of_shown (placed : tree.Placed heap)
    (qualifies : Qualifies tree parameters heap node place ref)
    (shown : (heap.module ref).hidden = false) :
    foldNode tree parameters heap node =
      (tree.qualifiedName heap (some (place : Int))).map fun name =>
        some (hide heap ref, folded heap parameters node place,
          .folding name node.operator) := by
  have index := placed place ref qualifies.found
  simp only [foldNode, qualifies.commonOwner,
    ModuleTree.module?_place qualifies.found, bind, Except.bind, shown, index,
    qualifies.count, bne_self_eq_false, Bool.or_self, Bool.false_eq_true, if_false,
    Option.bind_some, Option.pure_def, Option.map_some]
  cases tree.qualifiedName heap (some (place : Int)) with
  | error fault => rfl
  | ok name => rfl

theorem foldNode_of_not_qualifies (owned : OwnersPlaced tree parameters heap)
    (never : ∀ place ref, ¬ Qualifies tree parameters heap node place ref) :
    foldNode tree parameters heap node = .ok none := by
  rw [foldNode]
  cases common : commonOwner? heap (tensorsOf parameters node) with
  | none =>
      rfl
  | some owner =>
      obtain ⟨consumes, owners⟩ := commonOwner?_eq_some_iff.mp common
      obtain ⟨tensor, member⟩ := List.exists_mem_of_ne_nil _ consumes
      obtain ⟨argument, _, resolves⟩ := List.mem_filterMap.mp member
      obtain ⟨place, rfl, inside⟩ :=
        owned argument.id tensor resolves owner (owners tensor member)
      obtain ⟨ref, found⟩ := ModuleTree.exists_module tree inside
      have miscounted :
          (tensorsOf parameters node).length ≠ heap.parameterCount ref := by
        intro count
        exact never place ref ⟨found, consumes, owners, count⟩
      simp only [ModuleTree.module?_place found, bind, Except.bind,
        bne_iff_ne.mpr miscounted, Bool.or_true, if_true]
      rfl

end Folding

end TorchArchive
