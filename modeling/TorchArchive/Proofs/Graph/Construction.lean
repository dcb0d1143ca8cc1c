import TorchArchive.Graph.Construction
import TorchArchive.Proofs.Folding.Accounts
import TorchArchive.Proofs.Graph.Registration

/-!
# What becomes a node

A recorded call becomes a node with the same arguments.  From the root, the walk over
the modules reaches each registered module through the module that it was found in
first, and every module on the way that is not hidden and has parameters becomes a node.
-/

namespace TorchArchive

/-! ## Calls -/

theorem schemaParameters_eq_ok {items : Datum} {values : List (List Argument)}
    {results : List GraphParameter}
    (makes : schemaParameters items values = .ok results) :
    results.map (fun result => result.arguments) = values := by
  have made := Except.mapM_eq_ok_iff.mp makes
  have places : values.zipIdx.map Prod.fst = values := List.zipIdx_map_fst 0 values
  rw [← places]
  clear places makes
  revert made
  generalize values.zipIdx = placed
  intro made
  induction made with
  | nil => rfl
  | cons first _ inductionHypothesis =>
      obtain ⟨name, _, same⟩ := Except.bind_eq_ok_iff.mp first
      cases same
      rw [List.map_cons, List.map_cons, inductionHypothesis]

/-- The arguments of a call's node are those of the call. -/
theorem callNode_arguments {heap : Heap} {tree : ModuleTree} {catalogue : Catalogue}
    {call : TraceNode} {node : Node}
    (makes : callNode heap tree catalogue call = .ok node) :
    (node.inputs.map fun input => input.arguments).flatten =
      call.inputs.flatten.map fun argument =>
        ⟨argument.id, argument.initializer, none⟩ := by
  obtain ⟨bare, makesBare, makes⟩ := Except.bind_eq_ok_iff.mp makes
  obtain ⟨attributes, _, makes⟩ := Except.bind_eq_ok_iff.mp makes
  cases makes
  obtain ⟨category, _, makes⟩ := Except.bind_eq_ok_iff.mp makesBare
  obtain ⟨documentation, _, makes⟩ := Except.bind_eq_ok_iff.mp makes
  obtain ⟨name, _, makes⟩ := Except.bind_eq_ok_iff.mp makes
  obtain ⟨schema, _, makes⟩ := Except.bind_eq_ok_iff.mp makes
  obtain ⟨inputs, makesInputs, makes⟩ := Except.bind_eq_ok_iff.mp makes
  obtain ⟨outputSchema, _, makes⟩ := Except.bind_eq_ok_iff.mp makes
  obtain ⟨outputs, _, makes⟩ := Except.bind_eq_ok_iff.mp makes
  cases makes
  rw [schemaParameters_eq_ok makesInputs, List.map_flatten]

/-! ## The walk over the modules -/

namespace Heap

/-- A module in an open field is among the submodules. -/
theorem mem_submodules {heap : Heap} {ref child : Ref .module} {name : Value}
    {entries : List (Value × Value)} (lists : heap.submodules ref = .ok entries)
    (field : heap.HasField ref name (.module child)) (isOpen : IsOpenField name) :
    (name, .module child) ∈ entries := by
  obtain ⟨text, isText, notApart⟩ := isOpen
  rw [submodules] at lists
  rw [HasField] at field
  revert lists field
  generalize (heap.module ref).fields.pairs = pairs
  intro lists field
  induction pairs generalizing entries with
  | nil => cases field
  | cons first rest inductionHypothesis =>
      rw [List.filterMapM_cons] at lists
      obtain ⟨kept, decides, others⟩ := Except.bind_eq_ok_iff.mp lists
      rcases List.mem_cons.mp field with rfl | later
      · rw [isText] at decides
        simp only [notApart] at decides
        cases decides
        obtain ⟨_, _, same⟩ := Except.bind_eq_ok_iff.mp others
        cases same
        exact List.mem_cons_self
      · cases kept with
        | none => exact inductionHypothesis others later
        | some entry =>
            obtain ⟨more, listsRest, same⟩ := Except.bind_eq_ok_iff.mp others
            cases same
            exact List.mem_cons_of_mem _ (inductionHypothesis listsRest later)

end Heap

section Walk

variable {heap : Heap} {tree : ModuleTree} {ref child : Ref .module} {fuel : Nat}
  {nodes : List Node}

theorem nodesBelow_own (walks : nodesBelow heap tree (fuel + 1) ref = .ok nodes)
    (shown : (heap.module ref).hidden = false) (parameters : 0 < heap.parameterCount ref) :
    ∃ name,
      tree.qualifiedName heap ((heap.module ref).index.map fun n => (n : Int)) =
          .ok name ∧
        moduleNode heap name ref ∈ nodes := by
  rw [nodesBelow] at walks
  obtain ⟨own, makesOwn, walks⟩ := Except.bind_eq_ok_iff.mp walks
  obtain ⟨entries, _, walks⟩ := Except.bind_eq_ok_iff.mp walks
  obtain ⟨below, _, same⟩ := Except.bind_eq_ok_iff.mp walks
  cases same
  rw [ownNodes] at makesOwn
  simp only [shown, Bool.not_false, Bool.true_and, decide_eq_true_eq] at makesOwn
  rw [if_pos parameters] at makesOwn
  obtain ⟨name, named, same⟩ := Except.bind_eq_ok_iff.mp makesOwn
  cases same
  exact ⟨name, named, List.mem_append_left _ List.mem_cons_self⟩

theorem nodesBelow_child {name : Value}
    (walks : nodesBelow heap tree (fuel + 1) ref = .ok nodes)
    (field : heap.HasField ref name (.module child)) (isOpen : IsOpenField name)
    (below : isChild heap ref child = true) :
    ∃ childNodes, nodesBelow heap tree fuel child = .ok childNodes ∧
      childNodes ⊆ nodes := by
  rw [nodesBelow] at walks
  obtain ⟨own, _, walks⟩ := Except.bind_eq_ok_iff.mp walks
  obtain ⟨entries, lists, walks⟩ := Except.bind_eq_ok_iff.mp walks
  obtain ⟨results, walksAll, same⟩ := Except.bind_eq_ok_iff.mp walks
  cases same
  have member := Heap.mem_submodules lists field isOpen
  obtain ⟨place, inside, found⟩ := List.getElem_of_mem member
  have all := Except.mapM_eq_ok_iff.mp walksAll
  have resultInside : place < results.length := all.length_eq ▸ inside
  have walksChild := all.get inside resultInside
  simp only [List.get_eq_getElem, found, below, if_true] at walksChild
  refine ⟨results[place], walksChild, ?_⟩
  intro node nodeMember
  refine List.mem_append_right _ (List.mem_flatten.mpr ⟨results[place], ?_, nodeMember⟩)
  exact List.getElem_mem resultInside

/-- The walk reaches every registered module. -/
theorem nodesBelow_reaches {root : Ref .module} {registration : Registration}
    (sound : registration.Sound registration.heap root)
    (changes : Folding.OnlyHides registration.heap heap)
    (walks : nodesBelow heap registration.tree fuel root = .ok nodes) (place : Nat) :
    ∀ ref, registration.tree.modules[place]? = some ref →
      ∃ depth own, nodesBelow heap registration.tree depth ref = .ok own ∧
        own ⊆ nodes := by
  induction place using Nat.strongRecOn with
  | ind place inductionHypothesis =>
      intro ref found
      by_cases same : ref = root
      · rw [same]
        exact ⟨fuel, nodes, walks, List.Subset.refl nodes⟩
      · obtain ⟨above, parent, name, order, parentFound, parentOf, _, isOpen, field⟩ :=
          sound.found place ref found same
        obtain ⟨depth, parentNodes, walksParent, inside⟩ :=
          inductionHypothesis above order parent parentFound
        cases depth with
        | zero => cases walksParent
        | succ depth =>
            have child : isChild heap parent ref = true := by
              have parentIndex := (sound.placed above parent).mp parentFound
              have index := (sound.placed place ref).mp found
              have apart : place ≠ above := by omega
              simp [isChild, changes.index, changes.parent, parentIndex, index, parentOf,
                apart]
            have fieldHere : heap.HasField parent name (.module ref) := by
              rw [Heap.HasField, changes.fields parent]
              exact field
            obtain ⟨own, walksChild, below⟩ :=
              nodesBelow_child walksParent fieldHere isOpen child
            exact ⟨depth, own, walksChild, List.Subset.trans below inside⟩

/-- A registered module that is shown and has parameters becomes a node. -/
theorem moduleNodes_own {root : Ref .module} {registration : Registration}
    (sound : registration.Sound registration.heap root)
    (changes : Folding.OnlyHides registration.heap heap)
    (makes : moduleNodes heap registration.tree root = .ok nodes) {place : Nat}
    (found : registration.tree.modules[place]? = some ref)
    (shown : (heap.module ref).hidden = false) (parameters : 0 < heap.parameterCount ref) :
    ∃ name, registration.tree.qualifiedName heap (some (place : Int)) = .ok name ∧
      moduleNode heap name ref ∈ nodes := by
  obtain ⟨depth, own, walks, inside⟩ := nodesBelow_reaches sound changes makes place ref found
  cases depth with
  | zero => cases walks
  | succ depth =>
      obtain ⟨name, named, member⟩ := nodesBelow_own walks shown parameters
      have index : (heap.module ref).index = some place := by
        rw [changes.index ref]
        exact (sound.placed place ref).mp found
      rw [index] at named
      exact ⟨name, named, inside member⟩

end Walk

end TorchArchive
