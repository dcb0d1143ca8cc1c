import TorchArchive.Proofs.Graph.Parameters
import TorchArchive.Proofs.Graph.Structure

/-!
# Heaps that agree below a root

What a graph without calls shows depends on no more than the fields of the modules that
the root leads to, the form and the data of the tensors in these fields, and their names.
Two heaps that agree on this are registered with the same marks, step by step, and the
walks over their modules make the same nodes.
-/

namespace TorchArchive

namespace Heap

variable {before between after first second : Heap} {root ref : Ref .module}
  {tensor : Ref .tensor}

/-! ## What tensors show -/

/-- A tensor of plain form: its data stand in a storage, if anywhere, its offset is an
atom and its size consists of atoms, if it has one. -/
structure IsPlain (heap : Heap) (tensor : Ref .tensor) : Prop where
  storage :
    (heap.tensor tensor).storage = .none ∨
      ∃ storage, (heap.tensor tensor).storage = .storage storage
  offset : ∃ offset, (heap.tensor tensor).offset = .atom offset
  size :
    (heap.tensor tensor).size = .none ∨
      ∃ extents : List Atom,
        heap.items? (heap.tensor tensor).size = some (extents.map .atom)

/-- A tensor has the same data in the same form. -/
structure SameView (before after : Heap) (tensor : Ref .tensor) : Prop where
  form :
    ∃ outputs owner view,
      after.tensor tensor =
        { before.tensor tensor with outputs, owner, initializer := view }
  storage :
    ∀ storage, (before.tensor tensor).storage = .storage storage →
      after.storage storage = before.storage storage
  size :
    after.items? (before.tensor tensor).size =
      before.items? (before.tensor tensor).size

theorem iterate?_of_items? {heap : Heap} {value : Value} {items : List Value}
    (listed : heap.items? value = some items) : heap.iterate? value = some items := by
  cases value with
  | list ref => exact listed
  | tuple others => exact listed
  | _ => cases listed

theorem IsPlain.isViewable (plain : before.IsPlain tensor) : before.IsViewable tensor where
  storage := plain.storage
  size := by
    rcases plain.size with none | ⟨extents, sized⟩
    · exact Or.inl none
    · exact Or.inr ⟨_, iterate?_of_items? sized⟩

theorem SameView.trans (early : before.SameView between tensor)
    (late : between.SameView after tensor) : before.SameView after tensor := by
  obtain ⟨_, _, _, isBetween⟩ := early.form
  obtain ⟨outputs, owner, view, isAfter⟩ := late.form
  have stored := late.storage
  have sized := late.size
  rw [isBetween] at isAfter stored sized
  exact
    { form := ⟨outputs, owner, view, isAfter⟩
      storage := fun storage stands =>
        (stored storage stands).trans (early.storage storage stands)
      size := sized.trans early.size }

theorem OnlyMarks.sameView (marks : before.OnlyMarks after) (tensor : Ref .tensor) :
    before.SameView after tensor where
  form := by
    obtain ⟨owner, view, same⟩ := marks.tensors tensor
    exact ⟨_, owner, view, same⟩
  storage := fun storage _ =>
    congrArg (fun storages => storages.get storage) marks.storages
  size := by
    cases (before.tensor tensor).size with
    | list ref => exact congrArg some (marks.list ref)
    | _ => rfl

theorem snapshot_atom (heap : Heap) (content : Atom) :
    heap.snapshot (.atom content) = .atom content := rfl

/-- The view of a plain tensor is made from its data and its form alone. -/
theorem IsPlain.initializer_eq (plain : before.IsPlain tensor)
    (same : before.SameView after tensor) (displayLimit : Datum) :
    after.initializer tensor displayLimit = before.initializer tensor displayLimit := by
  obtain ⟨outputs, owner, view, isAfter⟩ := same.form
  have parts : after.storageParts (before.tensor tensor).storage =
      before.storageParts (before.tensor tensor).storage := by
    rcases plain.storage with none | ⟨storage, stands⟩
    · rw [none]
      rfl
    · rw [stands, storageParts, storageParts, same.storage storage stands]
  obtain ⟨offset, isOffset⟩ := plain.offset
  have counts (heap : Heap) : heap.truthy (.atom offset) = offset.truthy := rfl
  rw [initializer, initializer, isAfter]
  dsimp only
  rw [parts, isOffset, counts, counts, snapshot_atom, snapshot_atom]
  rcases plain.size with none | ⟨extents, sized⟩
  · have unsized : (before.tensor tensor).size.isNone = true := by
      rw [none]
      rfl
    simp only [if_pos unsized]
  · have sizedAfter := same.size.trans sized
    have dims (heap : Heap) : (extents.map Value.atom).map heap.snapshot =
        extents.map Datum.atom := by
      rw [List.map_map]
      exact List.map_congr_left fun content _ => heap.snapshot_atom content
    rw [iterate, iterate, iterate?_of_items? sized, iterate?_of_items? sizedAfter]
    simp only [Except.map, dims]

/-! ## Agreement -/

/-- A tensor stands in a field of a module that a root leads to. -/
def HasTensorBelow (heap : Heap) (root : Ref .module) (tensor : Ref .tensor) : Prop :=
  ∃ ref name, heap.Reaches root ref ∧ heap.HasField ref name (.tensor tensor)

/-- Two heaps agree on the modules that a root leads to and on their tensors, which have
no names. -/
structure AgreesBelow (first second : Heap) (root : Ref .module) : Prop where
  byName : ∀ ref, first.Reaches root ref → (first.module ref).fields.ByName
  fields :
    ∀ ref, first.Reaches root ref →
      (second.module ref).fields = (first.module ref).fields
  plain : ∀ tensor, first.HasTensorBelow root tensor → first.IsPlain tensor
  views : ∀ tensor, first.HasTensorBelow root tensor → first.SameView second tensor
  unnamed :
    ∀ tensor, first.HasTensorBelow root tensor →
      first.list (first.tensor tensor).outputs = []
  unnamedAfter :
    ∀ tensor, first.HasTensorBelow root tensor →
      second.list (second.tensor tensor).outputs = []

namespace AgreesBelow

variable (agrees : first.AgreesBelow second root)

include agrees

theorem regular : first.Regular root where
  byName := agrees.byName
  viewable := fun ref name tensor reaches field =>
    (agrees.plain tensor ⟨ref, name, reaches, field⟩).isViewable

theorem reaches (leads : second.Reaches root ref) : first.Reaches root ref := by
  induction leads with
  | root => exact .root
  | @field holder _ _ _ field isOpen inductionHypothesis =>
      have same := agrees.fields holder inductionHypothesis
      exact .field inductionHypothesis ((hasField_congr same).mp field) isOpen

end AgreesBelow

/-! ## Walks -/

/-- Walks are the same where modules have the same children. -/
theorem visits_congr (reached : Ref .module → Prop)
    (closed : ∀ ref, reached ref → ∀ child ∈ first.childrenOf ref, reached child)
    (children : ∀ ref, reached ref → second.childrenOf ref = first.childrenOf ref) :
    ∀ (fuel : Nat) (ref : Ref .module), reached ref →
      second.visits fuel ref = first.visits fuel ref
  | 0, _, _ => rfl
  | fuel + 1, ref, isReached => by
      rw [visits, visits, children ref isReached]
      congr 1
      exact List.flatMap_congr fun child isBelow =>
        visits_congr reached closed children fuel child (closed ref isReached child isBelow)

end Heap

namespace Registration

variable {first second : Heap} {root : Ref .module}
  {left right leftAfter : Registration} {displayLimit : Datum}

/-! ## Registrations side by side -/

/-- Registrations that began with two heaps and have set the same marks. -/
structure Paired (first second : Heap) (left right : Registration) : Prop where
  leftMarks : first.OnlyMarks left.heap
  rightMarks : second.OnlyMarks right.heap
  tree : right.tree = left.tree
  index : ∀ ref, (right.heap.module ref).index = (left.heap.module ref).index
  parent : ∀ ref, (right.heap.module ref).parent = (left.heap.module ref).parent
  identifier :
    ∀ ref, (right.heap.module ref).identifier = (left.heap.module ref).identifier
  owner : ∀ ref, (right.heap.tensor ref).owner = (left.heap.tensor ref).owner
  view : ∀ ref, (right.heap.tensor ref).initializer = (left.heap.tensor ref).initializer

theorem Paired.begin (unmarkedFirst : first.Unmarked) (unmarkedSecond : second.Unmarked) :
    Paired first second (.begin first) (.begin second) where
  leftMarks := .refl first
  rightMarks := .refl second
  tree := rfl
  index := fun ref =>
    (unmarkedSecond.modules ref).1.trans (unmarkedFirst.modules ref).1.symm
  parent := fun ref =>
    (unmarkedSecond.modules ref).2.1.trans (unmarkedFirst.modules ref).2.1.symm
  identifier := fun ref =>
    (unmarkedSecond.modules ref).2.2.1.trans (unmarkedFirst.modules ref).2.2.1.symm
  owner := fun ref =>
    (unmarkedSecond.tensors ref).1.trans (unmarkedFirst.tensors ref).1.symm
  view := fun ref =>
    (unmarkedSecond.tensors ref).2.trans (unmarkedFirst.tensors ref).2.symm

/-- A module that is given one place on both sides. -/
theorem Paired.push (paired : Paired first second left right) (child : Ref .module)
    (parent : Option Int) (identifier : Option String) :
    Paired first second (left.push child parent identifier)
      (right.push child parent identifier) where
  leftMarks := paired.leftMarks.trans (push_marks left child parent identifier)
  rightMarks := paired.rightMarks.trans (push_marks right child parent identifier)
  tree := by
    rw [Registration.push, Registration.push, paired.tree]
  index := by
    intro ref
    by_cases same : ref = child
    · rw [same, module_push_self, module_push_self]
      exact congrArg (fun tree => some tree.size) paired.tree
    · rw [module_push_of_ne _ _ _ same, module_push_of_ne _ _ _ same]
      exact paired.index ref
  parent := by
    intro ref
    by_cases same : ref = child
    · rw [same, module_push_self, module_push_self]
    · rw [module_push_of_ne _ _ _ same, module_push_of_ne _ _ _ same]
      exact paired.parent ref
  identifier := by
    intro ref
    by_cases same : ref = child
    · rw [same, module_push_self, module_push_self]
      exact congrArg (Option.or · identifier) (paired.identifier child)
    · rw [module_push_of_ne _ _ _ same, module_push_of_ne _ _ _ same]
      exact paired.identifier ref
  owner := paired.owner
  view := paired.view

variable (agrees : first.AgreesBelow second root)

include agrees

/-- A tensor that is registered on the left is registered on the right. -/
theorem Paired.addTensor (paired : Paired first second left right)
    {tensor : Ref .tensor} (below : first.HasTensorBelow root tensor) {owner : Option Int}
    (adds : addTensor displayLimit owner left tensor = .ok leftAfter) :
    ∃ rightAfter, Registration.addTensor displayLimit owner right tensor =
        .ok rightAfter ∧
      Paired first second leftAfter rightAfter := by
  have plain := agrees.plain tensor below
  have views :
      right.heap.initializer tensor displayLimit =
        left.heap.initializer tensor displayLimit := by
    rw [plain.initializer_eq (paired.leftMarks.sameView tensor),
      plain.initializer_eq
        ((agrees.views tensor below).trans (paired.rightMarks.sameView tensor))]
  rw [Registration.addTensor] at adds ⊢
  dsimp only at adds ⊢
  rw [paired.owner tensor, views]
  split at adds
  · rename_i owned
    cases adds
    rw [if_pos owned]
    exact ⟨right, rfl, paired⟩
  · rename_i free
    rw [if_neg free]
    obtain ⟨view, makes, same⟩ := Except.bind_eq_ok_iff.mp adds
    cases same
    rw [makes]
    refine ⟨_, rfl, ?_⟩
    exact
      { leftMarks := paired.leftMarks.trans (.tensor _ tensor owner (some view))
        rightMarks := paired.rightMarks.trans (.tensor _ tensor owner (some view))
        tree := paired.tree
        index := paired.index
        parent := paired.parent
        identifier := paired.identifier
        owner := by
          intro other
          rw [Heap.tensor_updateTensor, Heap.tensor_updateTensor]
          split
          · rfl
          · exact paired.owner other
        view := by
          intro other
          rw [Heap.tensor_updateTensor, Heap.tensor_updateTensor]
          split
          · rfl
          · exact paired.view other }

omit agrees in
theorem isApart_congr {heap other : Heap} {name : Value} {apart : Bool}
    (decides : isApart heap name = .ok apart) : isApart other name = .ok apart := by
  rw [isApart] at decides ⊢
  cases text : name.str? with
  | none =>
      rw [text] at decides
      cases decides
  | some text' =>
      rw [text] at decides
      exact decides

/-- Fields that are registered on the left are registered on the right, and lead to the
same modules. -/
theorem Paired.addFields {holder : Ref .module} (leads : first.Reaches root holder)
    {place : Option Int} :
    ∀ (fields : List (Value × Value)) {left right leftAfter : Registration}
      {found : List (Ref .module)},
      Paired first second left right →
      (∀ entry ∈ fields, first.HasField holder entry.1 entry.2) →
      addFields displayLimit place left fields = .ok (found, leftAfter) →
      ∃ rightAfter, Registration.addFields displayLimit place right fields =
          .ok (found, rightAfter) ∧
        Paired first second leftAfter rightAfter
  | [], left, right, leftAfter, found, paired, _, adds => by
      rw [Registration.addFields] at adds ⊢
      cases adds
      exact ⟨right, rfl, paired⟩
  | (name, value) :: rest, left, right, leftAfter, found, paired, fields, adds => by
      obtain ⟨field, fieldsRest⟩ := List.forall_mem_cons.mp fields
      cases value with
      | tensor tensor =>
          rw [Registration.addFields] at adds ⊢
          obtain ⟨between, addsTensor, addsRest⟩ := Except.bind_eq_ok_iff.mp adds
          obtain ⟨rightBetween, addsRight, pairedBetween⟩ :=
            paired.addTensor agrees ⟨holder, name, leads, field⟩ addsTensor
          rw [addsRight]
          exact Paired.addFields leads rest pairedBetween fieldsRest addsRest
      | module child =>
          rw [Registration.addFields] at adds ⊢
          obtain ⟨apart, decides, addsRest⟩ := Except.bind_eq_ok_iff.mp adds
          rw [isApart_congr decides]
          simp only [Bind.bind, Except.bind, paired.index child]
          split at addsRest
          · rename_i done
            rw [if_pos done]
            exact Paired.addFields leads rest paired fieldsRest addsRest
          · rename_i new
            have unplaced := Option.not_isSome_iff_eq_none.mp
              (not_or.mp (mt (Bool.or_eq_true _ _).mpr new)).2
            rw [if_neg new, add_eq _ _ ((paired.index child).trans unplaced)]
            rw [add_eq _ _ unplaced] at addsRest
            obtain ⟨⟨others, last⟩, addsOthers, same⟩ :=
              Except.bind_eq_ok_iff.mp addsRest
            cases same
            obtain ⟨rightAfter, addsRight, pairedAfter⟩ :=
              Paired.addFields leads rest (paired.push child place name.str?) fieldsRest
                addsOthers
            refine ⟨rightAfter, ?_, pairedAfter⟩
            exact congrArg (Except.bind · fun result =>
              .ok (child :: result.1, result.2)) addsRight
      | _ =>
          rw [Registration.addFields] at adds ⊢
          · exact Paired.addFields leads rest paired fieldsRest adds
          all_goals
            intro _ _ same
            cases same

/-- A queue that is worked off on the left is worked off on the right. -/
theorem Paired.addQueue :
    ∀ (fuel : Nat) {queue : List (Ref .module)} {left right leftAfter : Registration},
      Paired first second left right → (∀ ref ∈ queue, first.Reaches root ref) →
      addQueue displayLimit fuel queue left = .ok leftAfter →
      ∃ rightAfter, Registration.addQueue displayLimit fuel queue right =
          .ok rightAfter ∧
        Paired first second leftAfter rightAfter
  | 0, _, left, right, leftAfter, paired, _, adds => by
      cases adds
      exact ⟨right, rfl, paired⟩
  | fuel + 1, [], left, right, leftAfter, paired, _, adds => by
      cases adds
      exact ⟨right, rfl, paired⟩
  | fuel + 1, ref :: queue, left, right, leftAfter, paired, reached, adds => by
      obtain ⟨leads, leadsQueue⟩ := List.forall_mem_cons.mp reached
      rw [Registration.addQueue] at adds ⊢
      obtain ⟨⟨found, between⟩, addsFields, addsQueue⟩ := Except.bind_eq_ok_iff.mp adds
      rw [paired.leftMarks.fields ref] at addsFields
      obtain ⟨rightBetween, addsRight, pairedBetween⟩ :=
        paired.addFields agrees leads _ (fun _ member => member) addsFields
      have leadsFound : ∀ child ∈ found, first.Reaches root child := by
        intro child member
        obtain ⟨_, inside⟩ := addFields_keeps (marks_kept first) _
          (fun _ member => member) addsFields paired.leftMarks
        obtain ⟨name, isOpen, field⟩ := inside child member
        exact .field leads field isOpen
      rw [paired.index ref, paired.rightMarks.fields ref, agrees.fields ref leads, addsRight]
      exact Paired.addQueue fuel pairedBetween
        (List.forall_mem_append.mpr ⟨leadsQueue, leadsFound⟩) addsQueue

omit agrees in
/-- Enough rounds register a root. -/
theorem addRoot_eq {heap : Heap} (unmarked : heap.Unmarked) {fuel : Nat}
    (enough :
      ((begin heap).push root none none).heap.fieldModules.length + 1 ≤ fuel) :
    (begin heap).addRoot displayLimit root =
      Registration.addQueue displayLimit fuel [root] ((begin heap).push root none none) := by
  have unplaced : ((begin heap).heap.module root).index = none :=
    (unmarked.modules root).1
  obtain ⟨more, rfl⟩ := Nat.exists_eq_add_of_le enough
  rw [addRoot, add_eq none none unplaced]
  refine (addQueue_more more _ [] (push_root_sound unmarked root) rfl ?_ ?_).symm
  · exact fun _ member => by cases member
  · exact Nat.le_of_eq (Nat.zero_add _).symm

/-- Agreeing heaps are registered with the same marks. -/
theorem exists_paired (unmarkedFirst : first.Unmarked) (unmarkedSecond : second.Unmarked)
    (displayLimit : Datum) :
    ∃ left right,
      (begin first).addRoot displayLimit root = .ok left ∧
        (begin second).addRoot displayLimit root = .ok right ∧
        Paired first second left right := by
  obtain ⟨left, addsLeft⟩ :=
    exists_addRoot unmarkedFirst agrees.regular displayLimit
  have paired := (Paired.begin unmarkedFirst unmarkedSecond).push root none none
  have reached : ∀ ref ∈ [root], first.Reaches root ref := by
    intro ref member
    rw [List.mem_singleton.mp member]
    exact .root
  have adds := addsLeft
  rw [addRoot_eq unmarkedFirst (Nat.le_max_left _
    (((begin second).push root none none).heap.fieldModules.length + 1))] at adds
  obtain ⟨right, addsRight, pairedAfter⟩ := paired.addQueue agrees _ reached adds
  refine ⟨left, right, addsLeft, ?_, pairedAfter⟩
  rw [addRoot_eq unmarkedSecond (Nat.le_max_right _ _)]
  exact addsRight

/-! ## Nodes -/

namespace Paired

variable (paired : Paired first second left right) {ref : Ref .module}

include paired

theorem fields_eq (leads : first.Reaches root ref) :
    (right.heap.module ref).fields = (left.heap.module ref).fields := by
  rw [paired.rightMarks.fields ref, agrees.fields ref leads, paired.leftMarks.fields ref]

/-- The node of a module shows the same on both sides. -/
theorem moduleNode_eq (leads : first.Reaches root ref) (name : String) :
    moduleNode right.heap name ref = moduleNode left.heap name ref := by
  have tensors (field : Value) (tensor : Ref .tensor)
      (member : (field, tensor) ∈ left.heap.tensorFields ref) :
      (∃ text, field = .str text) ∧ first.HasTensorBelow root tensor := by
    have stands := (Heap.hasField_congr (paired.leftMarks.fields ref)).mp
      (Heap.mem_tensorFields_iff.mp member)
    exact ⟨(agrees.byName ref leads).exists_text stands, ref, field, leads, stands⟩
  have unnamed (tensor : Ref .tensor) (below : first.HasTensorBelow root tensor) :
      left.heap.list (left.heap.tensor tensor).outputs = [] ∧
        right.heap.list (right.heap.tensor tensor).outputs = [] := by
    rw [paired.leftMarks.outputs, paired.leftMarks.list, paired.rightMarks.outputs,
      paired.rightMarks.list]
    exact ⟨agrees.unnamed tensor below, agrees.unnamedAfter tensor below⟩
  rw [moduleNode, moduleNode, Heap.tensorFields_congr (paired.fields_eq agrees leads),
    Node.mk.injEq]
  refine ⟨rfl, rfl, ?_, ?_, rfl, rfl, rfl⟩
  · refine List.map_congr_left ?_
    rintro ⟨field, tensor⟩ member
    obtain ⟨⟨text, named⟩, _⟩ := tensors field tensor member
    dsimp only
    rw [paired.view tensor, named]
    rfl
  · refine List.filterMap_congr ?_
    rintro ⟨field, tensor⟩ member
    obtain ⟨_, below⟩ := tensors field tensor member
    dsimp only
    rw [(unnamed tensor below).1, (unnamed tensor below).2]

theorem isModuleNode (leads : first.Reaches root ref) {node : Node}
    (shows : IsModuleNode right.heap right.tree ref node) :
    IsModuleNode left.heap left.tree ref node := by
  obtain ⟨name, named, rfl⟩ := shows
  refine ⟨name, ?_, paired.moduleNode_eq agrees leads name⟩
  rw [paired.tree, paired.index ref,
    ModuleTree.qualifiedName_congr paired.identifier paired.parent] at named
  exact named

theorem childrenOf_eq (leads : first.Reaches root ref) :
    right.heap.childrenOf ref = left.heap.childrenOf ref := by
  rw [Heap.childrenOf, Heap.childrenOf,
    Heap.openModules_congr (paired.fields_eq agrees leads)]
  refine List.filter_congr fun child _ => ?_
  rw [isChild, isChild, paired.index ref, paired.index child, paired.parent child]

theorem visits_eq : right.visits root = left.visits root := by
  rw [visits, visits, paired.tree]
  refine Heap.visits_congr (first.Reaches root) ?_ ?_ _ root .root
  · intro ref leads child isBelow
    obtain ⟨name, field, isOpen⟩ :=
      Heap.mem_openModules_iff.mp (List.mem_filter.mp isBelow).1
    exact .field leads ((Heap.hasField_congr (paired.leftMarks.fields ref)).mp field) isOpen
  · exact fun ref leads => paired.childrenOf_eq agrees leads

end Paired

/-- From agreeing heaps, the modules make the same nodes. -/
theorem exists_moduleNodes (unmarkedFirst : first.Unmarked)
    (unmarkedSecond : second.Unmarked) (displayLimit : Datum) :
    ∃ left right nodes,
      (begin first).addRoot displayLimit root = .ok left ∧
        (begin second).addRoot displayLimit root = .ok right ∧
        moduleNodes left.heap left.tree root = .ok nodes ∧
        moduleNodes right.heap right.tree root = .ok nodes := by
  obtain ⟨left, right, addsLeft, addsRight, paired⟩ :=
    exists_paired agrees unmarkedFirst unmarkedSecond displayLimit
  obtain ⟨soundLeft, coveredLeft⟩ := addRoot_sound unmarkedFirst addsLeft
  obtain ⟨soundRight, coveredRight⟩ := addRoot_sound unmarkedSecond addsRight
  have byName : ∀ ref, second.Reaches root ref → (second.module ref).fields.ByName := by
    intro ref leads
    rw [agrees.fields ref (agrees.reaches leads)]
    exact agrees.byName ref (agrees.reaches leads)
  obtain ⟨nodes, walksLeft, walkedLeft⟩ := soundLeft.exists_walked coveredLeft agrees.byName
  obtain ⟨others, walksRight, walkedRight⟩ := soundRight.exists_walked coveredRight byName
  have shown :
      (right.visits root).filter (fun ref => 0 < second.parameterCount ref) =
        (left.visits root).filter (fun ref => 0 < first.parameterCount ref) := by
    rw [paired.visits_eq agrees]
    refine List.filter_congr fun ref member => ?_
    have leads := (walkedLeft.reached ref).mp member
    rw [Heap.parameterCount_congr (agrees.fields ref leads)]
  have leads : ∀ ref ∈ (left.visits root).filter (fun ref => 0 < first.parameterCount ref),
      first.Reaches root ref :=
    fun ref member => (walkedLeft.reached ref).mp (List.mem_filter.mp member).1
  have nodesRight := walkedRight.nodes
  rw [shown] at nodesRight
  have alike := ((List.forall₂_and_left _ _).mpr ⟨leads, nodesRight⟩).imp
    fun ref node both => paired.isModuleNode agrees both.1 both.2
  have unique : Relator.RightUnique (IsModuleNode left.heap left.tree) := by
    rintro ref node other ⟨name, named, rfl⟩ ⟨text, named', rfl⟩
    cases named.symm.trans named'
    rfl
  have same := List.right_unique_forall₂' unique walkedLeft.nodes alike
  exact ⟨left, right, nodes, addsLeft, addsRight, walksLeft, same ▸ walksRight⟩

end Registration

end TorchArchive
