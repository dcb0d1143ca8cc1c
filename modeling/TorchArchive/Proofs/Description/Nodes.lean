import TorchArchive.Proofs.Description.Rounds
import TorchArchive.Proofs.Description.Tensors

/-!
# The nodes of a description

Registration finds each module of a description through the one field that it stands in, so
the parents and the names that it marks are those of the document.  The walk over the
modules follows them, and its nodes are those of the rows, in the order of the rows.
-/

namespace TorchArchive

/-! ## Views of registered tensors -/

namespace Registration

variable {start : Heap} {root : Ref .module} {registration : Registration}
  {displayLimit : Datum}

/-- A plain tensor that has an owner has the view that it had from the start. -/
def HasViews (start : Heap) (displayLimit : Datum) (registration : Registration) : Prop :=
  ∀ tensor, start.IsPlain tensor →
    (registration.heap.tensor tensor).owner.isSome = true →
      ∃ view, start.initializer tensor displayLimit = .ok view ∧
        (registration.heap.tensor tensor).initializer = some view

theorem views_kept (start : Heap) :
    Kept start displayLimit fun registration =>
      start.OnlyMarks registration.heap ∧ registration.HasViews start displayLimit where
  fields := fun both => both.1.fields
  tensor := by
    intro before after owner tensor holder name field adds both
    obtain ⟨marks, views⟩ := both
    refine ⟨(marks_kept start).tensor field adds marks, ?_⟩
    rw [addTensor] at adds
    dsimp only at adds
    split at adds
    · cases adds
      exact views
    · obtain ⟨view, makes, same⟩ := Except.bind_eq_ok_iff.mp adds
      cases same
      intro other plain owned
      rw [Heap.tensor_updateTensor] at owned ⊢
      by_cases same : tensor = other
      · subst same
        rw [if_pos rfl]
        exact ⟨view, (plain.initializer_eq (marks.sameView tensor) displayLimit) ▸ makes, rfl⟩
      · rw [if_neg same] at owned ⊢
        exact views other plain owned
  module := by
    intro before child parent identifier both
    exact ⟨both.1.trans (push_marks before child parent identifier), both.2⟩

theorem addRoot_views (unmarked : start.Unmarked)
    (adds : (begin start).addRoot displayLimit root = .ok registration) :
    registration.HasViews start displayLimit := by
  refine (addRoot_keeps (views_kept start) unmarked adds ⟨.refl start, ?_⟩).2
  intro tensor _ owned
  have unowned : ((begin start).heap.tensor tensor).owner = none := (unmarked.tensors tensor).1
  rw [unowned] at owned
  cases owned

end Registration

namespace Description

variable {folder : String} {entries : List Entry} {heap : Heap} {root ref child : Ref .module}
  {tensors : List (Ref .tensor)} {table : List TensorRow} {parameters : List (String × Int)}
  {submodules : List (String × ModuleRow)} {children : List (String × Ref .module)}
  {name : Value} {value : Value} {row : ModuleRow}

/-! ## Fields of modules that stand for rows -/

theorem StandAll.names (stand : StandAll heap tensors submodules children) :
    children.map (·.1) = submodules.map (·.1) := by
  induction submodules generalizing children with
  | nil =>
      rw [show children = [] from stand]
      rfl
  | cons first rest inductionHypothesis =>
      obtain ⟨child, others, rfl, _, standRest⟩ := stand
      exact congrArg (first.1 :: ·) (inductionHypothesis standRest)

theorem StandAll.exists_row (stand : StandAll heap tensors submodules children)
    {child : String × Ref .module} (member : child ∈ children) :
    ∃ row, (child.1, row) ∈ submodules ∧ Stands heap tensors row child.2 := by
  induction submodules generalizing children with
  | nil =>
      rw [show children = [] from stand] at member
      cases member
  | cons first rest inductionHypothesis =>
      obtain ⟨made, others, rfl, stands, standRest⟩ := stand
      rcases List.mem_cons.mp member with rfl | later
      · exact ⟨first.2, List.mem_cons_self, stands⟩
      · obtain ⟨row, inside, standsLater⟩ := inductionHypothesis standRest later
        exact ⟨row, List.mem_cons_of_mem _ inside, standsLater⟩

/-- The names of a module's fields are those that its row tells. -/
theorem names_fieldsOf (stand : StandAll heap tensors submodules children)
    (parameters : List (String × Int)) :
    (fieldsOf tensors children parameters).map (·.1) =
      submodules.map (·.1) ++ parameters.map (·.1) := by
  rw [← stand.names, fieldsOf, List.map_append, List.map_map, List.map_map]
  rfl

theorem byName_fieldEntries {fields : List (String × Value)}
    (distinct : (fields.map (·.1)).Nodup) : (Pickle.fieldEntries fields).ByName where
  named := by
    intro key name value member
    obtain ⟨field, _, same⟩ := List.mem_map.mp member
    cases same
    exact ⟨field.1, rfl, rfl⟩
  distinct := by
    rw [Table.keys, Pickle.fieldEntries, List.map_map]
    have keys : ((fun entry : Key × Value × Value => entry.1) ∘
        fun field : String × Value => (Value.nameKey field.1, Value.str field.1, field.2)) =
          Value.nameKey ∘ fun field => field.1 := rfl
    rw [keys, ← List.map_map]
    exact distinct.map Pickle.nameKey_injective

section Fields

variable
  (own : (heap.module ref).fields = Pickle.fieldEntries (fieldsOf tensors children parameters))

include own

theorem pairs_of_fields :
    (heap.module ref).fields.pairs =
      (children.map fun child => (.str child.1, .module child.2)) ++
        parameters.map fun parameter =>
          (.str parameter.1, .tensor (tensorAt tensors parameter.2)) := by
  rw [own, Entries.pairs, Table.values, Pickle.fieldEntries, fieldsOf, List.map_map,
    List.map_append, List.map_map, List.map_map]
  rfl

theorem tensorFields_of_fields :
    heap.tensorFields ref =
      parameters.map fun parameter =>
        (.str parameter.1, tensorAt tensors parameter.2) := by
  rw [Heap.tensorFields, pairs_of_fields own, List.filterMap_append, List.filterMap_map,
    List.filterMap_map]
  refine (congrArg₂ (· ++ ·) (List.filterMap_eq_nil_iff.mpr fun _ _ => rfl) ?_).trans
    (List.nil_append _)
  rw [← List.filterMap_eq_map]
  rfl

theorem openModules_of_fields
    (isOpen : ∀ child ∈ children, child.1.startsWith "__" = false) :
    heap.openModules ref = children.map (·.2) := by
  rw [Heap.openModules, pairs_of_fields own, List.filterMap_append]
  have none : (parameters.map fun parameter =>
      (Value.str parameter.1, Value.tensor (tensorAt tensors parameter.2))).filterMap
        Heap.openModule? = [] := by
    rw [List.filterMap_map]
    exact List.filterMap_eq_nil_iff.mpr fun _ _ => rfl
  rw [none, List.append_nil, List.filterMap_map, ← List.filterMap_eq_map]
  refine List.filterMap_congr fun child member => ?_
  exact Heap.openModule?_eq_some_iff.mpr ⟨rfl, child.1, rfl, isOpen child member⟩

theorem hasField_iff_of_fields :
    heap.HasField ref name value ↔
      (∃ child ∈ children, name = .str child.1 ∧ value = .module child.2) ∨
        ∃ parameter ∈ parameters,
          name = .str parameter.1 ∧ value = .tensor (tensorAt tensors parameter.2) := by
  rw [Heap.HasField, pairs_of_fields own, List.mem_append, List.mem_map, List.mem_map]
  simp only [Prod.mk.injEq, eq_comm]

end Fields

/-! ## What the root leads to -/

/-- All modules that the root leads to stand for rows. -/
theorem Stands.of_reaches {size : Nat} (stands : Stands heap tensors row root)
    (lawful : row.Lawful) (inRange : row.InRange size) (reaches : heap.Reaches root ref) :
    ∃ below, Stands heap tensors below ref ∧ below.Lawful ∧ below.InRange size := by
  induction reaches with
  | root => exact ⟨row, stands, lawful, inRange⟩
  | field _ field _ inductionHypothesis =>
      obtain ⟨⟨parameters, submodules⟩, standsHolder, lawfulHolder, inRangeHolder⟩ :=
        inductionHypothesis
      obtain ⟨children, own, standAll⟩ := standsHolder
      rcases (hasField_iff_of_fields own).mp field with ⟨child, member, rfl, same⟩ | never
      · cases same
        obtain ⟨below, inside, standsBelow⟩ := standAll.exists_row member
        exact ⟨below, standsBelow, (lawfulHolder.2.of_mem inside).2,
          (ModuleRow.inRange_mk_iff.mp inRangeHolder).2 _ inside⟩
      · obtain ⟨_, _, _, never⟩ := never
        cases never

/-- The tensor at a place of the table was made of the row at this place. -/
theorem isTensor_tensorAt (areTensors : List.Forall₂ (IsTensor folder entries heap) table tensors)
    {place : Int} (inside : ModuleRow.IsPlace tensors.length place) :
    ∃ row, table[place.toNat]? = some row ∧
      IsTensor folder entries heap row (tensorAt tensors place) := by
  have short : place.toNat < tensors.length := by
    obtain ⟨low, high⟩ := inside
    omega
  have shortTable : place.toNat < table.length := areTensors.length_eq ▸ short
  refine ⟨table[place.toNat], List.getElem?_eq_getElem shortTable, ?_⟩
  have isTensor := areTensors.get shortTable short
  rw [tensorAt, List.getD_eq_getElem?_getD, List.getElem?_eq_getElem short]
  exact isTensor

/-- Below the root, fields have names and tensors can be shown. -/
theorem Stands.regular (stands : Stands heap tensors row root) (lawful : row.Lawful)
    (inRange : row.InRange tensors.length)
    (areTensors : List.Forall₂ (IsTensor folder entries heap) table tensors) :
    heap.Regular root where
  byName := by
    intro ref reaches
    obtain ⟨⟨parameters, submodules⟩, ⟨children, own, standAll⟩, lawfulRef, _⟩ :=
      stands.of_reaches lawful inRange reaches
    rw [own]
    refine byName_fieldEntries ?_
    rw [names_fieldsOf standAll]
    exact lawfulRef.1
  viewable := by
    intro ref name tensor reaches field
    obtain ⟨⟨parameters, submodules⟩, ⟨children, own, standAll⟩, _, inRangeRef⟩ :=
      stands.of_reaches lawful inRange reaches
    rcases (hasField_iff_of_fields own).mp field with never | ⟨parameter, member, _, same⟩
    · obtain ⟨_, _, _, never⟩ := never
      cases never
    · cases same
      obtain ⟨_, _, isTensor⟩ := isTensor_tensorAt areTensors
        ((ModuleRow.inRange_mk_iff.mp inRangeRef).1 parameter member)
      exact isTensor.isPlain.isViewable

/-! ## The way to a module -/

/-- A module is registered at a place, and the way from the root leads through fields with
these names. -/
def LeadsTo (registration : Registration) (path : List String) (place : Nat)
    (ref : Ref .module) : Prop :=
  registration.tree.modules[place]? = some ref ∧
    ∀ fuel, place < fuel → ∀ below,
      registration.tree.path registration.heap fuel (place : Int) below = .ok (path ++ below)

theorem LeadsTo.qualifiedName {registration : Registration} {path : List String} {place : Nat}
    (leads : LeadsTo registration path place ref) :
    registration.tree.qualifiedName registration.heap (some (place : Int)) =
      .ok (".".intercalate path) := by
  have short := Nat.lt_succ_of_lt (ModuleTree.place_lt leads.1)
  rw [ModuleTree.qualifiedName, leads.2 _ short [], List.append_nil]
  rfl

/-- What was registered of the modules of a description. -/
structure Registered (heap : Heap) (root : Ref .module) (tensors : List (Ref .tensor))
    (views : List Initializer) (registration : Registration) : Prop where
  sound : registration.Sound heap root
  covered : ∀ ref ∈ registration.tree.modules, registration.CoversModule heap ref
  tidy : Tidy heap root
  /-- A tensor of the table that has an owner has the view that is listed. -/
  viewed :
    ∀ place, ModuleRow.IsPlace tensors.length place →
      (registration.heap.tensor (tensorAt tensors place)).owner.isSome = true →
        (registration.heap.tensor (tensorAt tensors place)).initializer =
          views[place.toNat]?
  /-- No value flows out of a tensor of the table. -/
  unnamed :
    ∀ place, ModuleRow.IsPlace tensors.length place →
      registration.heap.list
        (registration.heap.tensor (tensorAt tensors place)).outputs = []

namespace Registered

variable {views : List Initializer} {registration : Registration} {path : List String}
  {place fuel : Nat} (registered : Registered heap root tensors views registration)

include registered

theorem leadsTo_root : LeadsTo registration [] 0 root := by
  refine ⟨registered.sound.first, fun fuel positive below => ?_⟩
  cases fuel with
  | zero => exact absurd positive (Nat.lt_irrefl 0)
  | succ fuel =>
      rw [ModuleTree.path, ModuleTree.module?_place registered.sound.first]
      simp only [bind, Except.bind]
      rw [registered.sound.rootParent, registered.sound.rootIdentifier]
      rfl

/-- A field with a name leads on to the module in it, which has been found through it. -/
theorem leadsTo_child (leads : LeadsTo registration path place ref) {text : String}
    (named : text ≠ "") (isOpen : text.startsWith "__" = false)
    (field : heap.HasField ref (.str text) (.module child)) :
    isChild registration.heap ref child = true ∧
      ∃ below, place < below ∧ LeadsTo registration (path ++ [text]) below child := by
  have sound := registered.sound
  have found := (registered.covered ref (List.mem_of_getElem? leads.1) _ _ field).2 child rfl
    ⟨text, rfl, isOpen⟩
  obtain ⟨below, index⟩ := Option.isSome_iff_exists.mp found
  have listed := (sound.placed below child).mpr index
  have different := (registered.tidy.held field).2
  obtain ⟨above, parent, name, order, parentListed, parentOf, identified, _, stands⟩ :=
    sound.found below child listed different
  -- The child stands in one field only, so it was found through this one.
  obtain ⟨rfl, rfl⟩ := registered.tidy.sole stands field
  obtain rfl := sound.tree_placed.place_unique parentListed leads.1
  have chosen := (isChild_iff sound.settled (Folding.OnlyHides.refl registration.heap)
    parentListed (List.mem_of_getElem? listed)).mpr ⟨different, parentOf⟩
  refine ⟨chosen, below, order, listed, fun fuel short rest => ?_⟩
  cases fuel with
  | zero => exact absurd short (Nat.not_lt_zero _)
  | succ fuel =>
      have identifier : (registration.heap.module child).identifier = some text := identified
      have nonempty : ¬ text.isEmpty = true := by
        rw [String.isEmpty_iff]
        exact named
      rw [ModuleTree.path, ModuleTree.module?_place listed]
      simp only [bind, Except.bind]
      rw [parentOf, identifier]
      simp only [if_neg nonempty]
      rw [leads.2 fuel (by omega) (text :: rest), List.append_assoc]
      rfl

/-! ## The walk -/

omit registered in
/-- Pairs along two lists give pairs of their ends. -/
theorem forall₂_comp {α β γ : Type} {first : α → β → Prop} {second : β → γ → Prop}
    {both : α → γ → Prop}
    (related : ∀ left middle right, first left middle → second middle right → both left right)
    {lefts : List α} {middles : List β} {rights : List γ}
    (firsts : List.Forall₂ first lefts middles) (seconds : List.Forall₂ second middles rights) :
    List.Forall₂ both lefts rights := by
  induction firsts generalizing rights with
  | nil =>
      cases seconds
      exact .nil
  | cons here _ inductionHypothesis =>
      cases seconds with
      | cons there rest => exact .cons (related _ _ _ here there) (inductionHypothesis rest)

/-- The node of a module by itself is that of its row. -/
theorem ownNodes_eq (leads : LeadsTo registration path place ref)
    (own :
      (heap.module ref).fields =
        Pickle.fieldEntries (fieldsOf tensors children parameters))
    (inside : ∀ parameter ∈ parameters, ModuleRow.IsPlace tensors.length parameter.2) :
    ownNodes registration.heap registration.tree ref =
      .ok (ModuleRow.ownNodes views path parameters) := by
  have sound := registered.sound
  have ownHere : (registration.heap.module ref).fields =
      Pickle.fieldEntries (fieldsOf tensors children parameters) :=
    (sound.fields ref).trans own
  have fields := tensorFields_of_fields ownHere
  have count : (0 < registration.heap.parameterCount ref) ↔
      (parameters.any fun parameter => parameter.1 != Heap.bookkeepingField) = true := by
    rw [Heap.parameterCount, fields, List.countP_map, List.countP_pos_iff, List.any_eq_true]
    refine exists_congr fun parameter => and_congr_right fun _ => ?_
    simp only [Function.comp, Value.str, Value.str?, bne_iff_ne, ne_eq, Option.some.injEq]
  have node : moduleNode registration.heap (".".intercalate path) ref =
      { operator := "Module"
        name := ".".intercalate path
        inputs := parameters.map (ModuleRow.input views)
        outputs := []
        attributes := []
        category := .str ""
        documentation := .none } := by
    have inputs : (registration.heap.tensorFields ref).map (fun field : Value × Ref .tensor =>
        (⟨registration.heap.snapshot field.1, true,
          [⟨"", (registration.heap.tensor field.2).initializer, none⟩]⟩ : GraphParameter)) =
        parameters.map (ModuleRow.input views) := by
      rw [fields, List.map_map]
      refine List.map_congr_left fun parameter member => ?_
      have field : heap.HasField ref (.str parameter.1)
          (.tensor (tensorAt tensors parameter.2)) :=
        (hasField_iff_of_fields own).mpr (Or.inr ⟨parameter, member, rfl, rfl⟩)
      have owned := (registered.covered ref (List.mem_of_getElem? leads.1) _ _ field).1 _ rfl
      have viewed := registered.viewed parameter.2 (inside parameter member) owned
      rw [ModuleRow.input, ← viewed]
      rfl
    rw [moduleNode]
    refine congrArg₂ (fun inputs outputs => Node.mk "Module" (".".intercalate path) inputs
      outputs [] (.str "") .none) inputs ?_
    rw [fields, List.filterMap_map]
    refine List.filterMap_eq_nil_iff.mpr fun parameter member => ?_
    simp only [Function.comp, registered.unnamed parameter.2 (inside parameter member)]
  have named : registration.tree.qualifiedName registration.heap
      ((registration.heap.module ref).index.map fun n => (n : Int)) =
        .ok (".".intercalate path) := by
    rw [(sound.placed place ref).mp leads.1]
    exact leads.qualifiedName
  rw [ownNodes, ModuleRow.ownNodes]
  simp only [sound.shown ref, named, count, Bool.not_false, Bool.true_and, decide_eq_true_eq]
  split
  · exact congrArg (fun node => Except.ok [node]) node
  · rfl

mutual

/-- The walk from a module makes the nodes of its row. -/
theorem nodesBelow_eq :
    ∀ (fuel : Nat) {row : ModuleRow} {place : Nat} {ref : Ref .module} {path : List String},
      Stands heap tensors row ref → row.Lawful → row.InRange tensors.length →
      LeadsTo registration path place ref → registration.tree.size ≤ place + fuel →
      nodesBelow registration.heap registration.tree fuel ref = .ok (row.nodes views path)
  | 0, _, place, ref, path, _, _, _, leads, enough => by
      have inside := ModuleTree.place_lt leads.1
      omega
  | fuel + 1, .mk parameters submodules, place, ref, path, ⟨children, own, standAll⟩, lawful,
      inRange, leads, enough => by
      obtain ⟨inside, below⟩ := ModuleRow.inRange_mk_iff.mp inRange
      have sound := registered.sound
      have isOpen : ∀ child ∈ children, child.1.startsWith "__" = false := by
        intro child member
        obtain ⟨_, listed, _⟩ := standAll.exists_row member
        exact (lawful.2.of_mem listed).1.2
      have ownHere : (registration.heap.module ref).fields =
          Pickle.fieldEntries (fieldsOf tensors children parameters) :=
        (sound.fields ref).trans own
      have byName : (registration.heap.module ref).fields.ByName := by
        rw [ownHere]
        refine byName_fieldEntries ?_
        rw [names_fieldsOf standAll]
        exact lawful.1
      have held : ∀ child ∈ children, heap.HasField ref (.str child.1) (.module child.2) :=
        fun child member =>
          (hasField_iff_of_fields own).mpr (Or.inl ⟨child, member, rfl, rfl⟩)
      obtain ⟨entries, lists⟩ := Heap.exists_submodules byName
      have childEntries := Heap.submodules_forall₂ lists
      rw [openModules_of_fields ownHere isOpen] at childEntries
      obtain ⟨results, walks, flat⟩ :=
        allNodesBelow_eq fuel standAll lawful.2 below held leads (by omega)
      have walksAll : entries.mapM (fun entry =>
          match entry.2 with
          | .module child =>
              if isChild registration.heap ref child then
                nodesBelow registration.heap registration.tree fuel child
              else .ok []
          | _ => .ok []) = .ok results := by
        refine Except.mapM_eq_ok_iff.mpr
          (forall₂_comp ?_ (List.forall₂_map_right_iff.mp childEntries) walks)
        rintro entry child result stands ⟨chosen, walksChild⟩
        simp only [stands, if_pos chosen, walksChild]
      rw [nodesBelow, ModuleRow.nodes, ← flat]
      refine Except.bind_eq_ok_iff.mpr
        ⟨_, registered.ownNodes_eq leads own inside, ?_⟩
      refine Except.bind_eq_ok_iff.mpr ⟨entries, lists, ?_⟩
      exact Except.bind_eq_ok_iff.mpr ⟨results, walksAll, rfl⟩

/-- The walks from the modules inside of a module make the nodes of their rows. -/
theorem allNodesBelow_eq :
    ∀ (fuel : Nat) {submodules : List (String × ModuleRow)}
      {children : List (String × Ref .module)} {place : Nat} {ref : Ref .module}
      {path : List String},
      StandAll heap tensors submodules children → ModuleRow.AllLawful submodules →
      (∀ entry ∈ submodules, entry.2.InRange tensors.length) →
      (∀ child ∈ children, heap.HasField ref (.str child.1) (.module child.2)) →
      LeadsTo registration path place ref → registration.tree.size ≤ place + 1 + fuel →
      ∃ results,
        List.Forall₂ (fun child result =>
            isChild registration.heap ref child.2 = true ∧
              nodesBelow registration.heap registration.tree fuel child.2 = .ok result)
          children results ∧
        results.flatten = ModuleRow.allNodes views path submodules
  | _, [], children, _, _, _, stand, _, _, _, _, _ => by
      rw [show children = [] from stand]
      exact ⟨[], .nil, rfl⟩
  | fuel, (name, row) :: rest, _, place, ref, path, ⟨child, others, rfl, stands, standRest⟩,
      ⟨⟨named, isOpen⟩, lawful, lawfulRest⟩, inRange, held, leads, enough => by
      obtain ⟨inRangeHere, inRangeRest⟩ := List.forall_mem_cons.mp inRange
      obtain ⟨field, heldRest⟩ := List.forall_mem_cons.mp held
      obtain ⟨chosen, below, order, leadsBelow⟩ :=
        registered.leadsTo_child leads named isOpen field
      have walks := nodesBelow_eq fuel stands lawful inRangeHere leadsBelow (by omega)
      obtain ⟨results, walksRest, flat⟩ :=
        allNodesBelow_eq fuel standRest lawfulRest inRangeRest heldRest leads enough
      refine ⟨_ :: results, .cons ⟨chosen, walks⟩ walksRest, ?_⟩
      rw [List.flatten_cons, flat, ModuleRow.allNodes]

end

end Registered

end Description

end TorchArchive
