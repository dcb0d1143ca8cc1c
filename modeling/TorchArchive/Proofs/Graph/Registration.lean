import Mathlib.Data.List.Perm.Subperm
import TorchArchive.Graph.Registration
import TorchArchive.Proofs.Folding.Call
import TorchArchive.Proofs.Graph.Marks
import TorchArchive.Proofs.ModuleTree

/-!
# What registration finds

From a heap without marks, registration finds modules in the order of their places.
Every module but the root stands in a field of a module that was found before, every
owner of a tensor holds it, and at the end nothing that a found module holds is missed.

The queue is the part of the tree that was found and not visited yet.  Every found module
but the root stands in a field, so there are at most as many rounds as the fuel allows.
-/

namespace TorchArchive

/-- A field whose module belongs to the tree: its name does not begin with two
underscores. -/
def IsOpenField (name : Value) : Prop :=
  ∃ text, name.str? = some text ∧ text.startsWith "__" = false

namespace Heap

/-- A field of a module. -/
def HasField (heap : Heap) (ref : Ref .module) (name value : Value) : Prop :=
  (name, value) ∈ (heap.module ref).fields.pairs

/-- What fields a module has depends on them only. -/
theorem hasField_congr {heap other : Heap} {ref : Ref .module} {name value : Value}
    (fields : (other.module ref).fields = (heap.module ref).fields) :
    other.HasField ref name value ↔ heap.HasField ref name value := by
  rw [HasField, HasField, fields]

/-- A reference stands for a module of the heap or for one without fields. -/
theorem module_mem_or_default (heap : Heap) (ref : Ref .module) :
    heap.module ref ∈ heap.modules.cells.toList ∨ heap.module ref = default := by
  by_cases held : heap.modules.Holds ref
  · left
    have inside : ref.index < heap.modules.cells.size := held
    rw [Heap.module, Store.get, Array.getD_eq_getD_getElem?,
      Array.getElem?_eq_getElem inside]
    exact Array.getElem_mem_toList inside
  · exact Or.inr (Store.get_of_not_holds _ held)

/-- A module that has a field is one of the heap. -/
theorem HasField.module_mem {heap : Heap} {ref : Ref .module} {name value : Value}
    (field : heap.HasField ref name value) :
    heap.module ref ∈ heap.modules.cells.toList := by
  refine (heap.module_mem_or_default ref).resolve_right fun none => ?_
  rw [HasField, none] at field
  cases field

/-- A module in a field is one of those that stand in fields. -/
theorem mem_fieldModules {heap : Heap} {holder child : Ref .module} {name : Value}
    (field : heap.HasField holder name (.module child)) : child ∈ heap.fieldModules := by
  refine List.mem_flatMap.mpr ⟨heap.module holder, field.module_mem, ?_⟩
  exact List.mem_filterMap.mpr ⟨(name, .module child), field, rfl⟩

end Heap

namespace Registration

/-- How a registration stands to the heap that it began with. -/
structure Sound (start : Heap) (root : Ref .module) (registration : Registration) :
    Prop where
  fields :
    ∀ ref, (registration.heap.module ref).fields = (start.module ref).fields
  shown : ∀ ref, (registration.heap.module ref).hidden = false
  placed :
    ∀ place ref, registration.tree.modules[place]? = some ref ↔
      (registration.heap.module ref).index = some place
  first : registration.tree.modules[0]? = some root
  rootParent : (registration.heap.module root).parent = none
  rootIdentifier : (registration.heap.module root).identifier = none
  unidentified :
    ∀ ref, (registration.heap.module ref).index = none →
      (registration.heap.module ref).identifier = none
  /-- A module but the root stands in an open field of its parent, which was found
  before it, and is identified by the name of the field. -/
  found :
    ∀ place ref, registration.tree.modules[place]? = some ref → ref ≠ root →
      ∃ (above : Nat) (parent : Ref .module) (name : Value), above < place ∧
        registration.tree.modules[above]? = some parent ∧
        (registration.heap.module ref).parent = some (above : Int) ∧
        (registration.heap.module ref).identifier = name.str? ∧
        IsOpenField name ∧ start.HasField parent name (.module ref)
  /-- An owner of a tensor holds it, and the tensor has a view. -/
  owned :
    ∀ tensor owner, (registration.heap.tensor tensor).owner = some owner →
      (registration.heap.tensor tensor).initializer.isSome = true ∧
        ∃ (place : Nat) (ref : Ref .module) (name : Value), owner = place ∧
          registration.tree.modules[place]? = some ref ∧
          start.HasField ref name (.tensor tensor)
  /-- No module that was found before the owner of a tensor holds it. -/
  least :
    ∀ tensor owner, (registration.heap.tensor tensor).owner = some owner →
      ∀ (place : Nat) ref name, registration.tree.modules[place]? = some ref →
        start.HasField ref name (.tensor tensor) → owner ≤ place
  parameters :
    ∀ id tensor, registration.parameters.get? id = some tensor →
      (registration.heap.tensor tensor).owner.isSome = true

/-- Registration went on: what was found stays, and so does what was marked. -/
structure Extends (before after : Registration) (found : List (Ref .module)) :
    Prop where
  modules : after.tree.modules = before.tree.modules ++ found
  indices :
    ∀ ref, (before.heap.module ref).index.isSome = true →
      (after.heap.module ref).index.isSome = true
  owners :
    ∀ tensor, (before.heap.tensor tensor).owner.isSome = true →
      (after.heap.tensor tensor).owner.isSome = true

/-- What a field leads to was found. -/
def Covers (registration : Registration) (name value : Value) : Prop :=
  (∀ tensor, value = .tensor tensor →
    (registration.heap.tensor tensor).owner.isSome = true) ∧
  (∀ child, value = .module child → IsOpenField name →
    (registration.heap.module child).index.isSome = true)

/-- What the fields of a module lead to was found. -/
def CoversModule (start : Heap) (registration : Registration) (ref : Ref .module) :
    Prop :=
  ∀ name value, start.HasField ref name value → registration.Covers name value

variable {start : Heap} {root : Ref .module} {registration after : Registration}

theorem Extends.refl (registration : Registration) : registration.Extends registration [] :=
  ⟨(List.append_nil _).symm, fun _ marked => marked, fun _ owned => owned⟩

theorem Extends.trans {between : Registration} {first second : List (Ref .module)}
    (left : registration.Extends between first) (right : between.Extends after second) :
    registration.Extends after (first ++ second) where
  modules := by rw [right.modules, left.modules, List.append_assoc]
  indices := fun ref marked => right.indices ref (left.indices ref marked)
  owners := fun tensor owned => right.owners tensor (left.owners tensor owned)

theorem Covers.extend {found : List (Ref .module)} {name value : Value}
    (covers : registration.Covers name value) (more : registration.Extends after found) :
    after.Covers name value :=
  ⟨fun tensor same => more.owners tensor (covers.1 tensor same),
    fun child same isOpen => more.indices child (covers.2 child same isOpen)⟩

/-- The places before one that is taken stay covered. -/
theorem Extends.covers_before {found : List (Ref .module)} {place : Nat}
    (more : registration.Extends after found) (inside : place ≤ registration.tree.size)
    (covered :
      ∀ other ref, other < place → registration.tree.modules[other]? = some ref →
        CoversModule start registration ref) :
    ∀ other ref, other < place → after.tree.modules[other]? = some ref →
      CoversModule start after ref := by
  intro other ref before listed name value field
  rw [more.modules, List.getElem?_append_left (Nat.lt_of_lt_of_le before inside)] at listed
  exact (covered other ref before listed name value field).extend more

/-! ## Tensors -/

theorem addTensor_spec {displayLimit : Datum} {place : Nat} {holder : Ref .module}
    {name : Value} {tensor : Ref .tensor} (sound : registration.Sound start root)
    (found : registration.tree.modules[place]? = some holder)
    (field : start.HasField holder name (.tensor tensor))
    (covered :
      ∀ other ref, other < place → registration.tree.modules[other]? = some ref →
        CoversModule start registration ref)
    (adds :
      addTensor displayLimit (some (place : Int)) registration tensor = .ok after) :
    after.Sound start root ∧ registration.Extends after [] ∧
      (after.heap.tensor tensor).owner.isSome = true := by
  rw [addTensor] at adds
  dsimp only at adds
  split at adds
  · rename_i owned
    cases adds
    exact ⟨sound, .refl _, owned⟩
  · rename_i unowned
    obtain ⟨view, _, made⟩ := Except.bind_eq_ok_iff.mp adds
    cases made
    have tensors (other : Ref .tensor) :=
      Heap.tensor_updateTensor registration.heap tensor
        ({ · with owner := some (place : Int), initializer := some view }) other
    have ownersKept (other : Ref .tensor)
        (owned : (registration.heap.tensor other).owner.isSome = true) :
        ((registration.heap.updateTensor tensor
          ({ · with owner := some (place : Int), initializer := some view })).tensor
            other).owner.isSome = true := by
      rw [tensors other]
      split
      · rfl
      · exact owned
    have ownsTensor :
        ((registration.heap.updateTensor tensor
          ({ · with owner := some (place : Int), initializer := some view })).tensor
            tensor).owner.isSome = true := by
      rw [tensors tensor, if_pos rfl]
      rfl
    refine ⟨⟨sound.fields, sound.shown, sound.placed, sound.first, sound.rootParent,
      sound.rootIdentifier, sound.unidentified, sound.found, ?_, ?_, ?_⟩,
      ⟨(List.append_nil _).symm, fun _ marked => marked, ownersKept⟩, ownsTensor⟩
    · intro other owner owns
      rw [tensors other] at owns ⊢
      by_cases same : tensor = other
      · subst same
        rw [if_pos rfl] at owns ⊢
        exact ⟨rfl, place, holder, name, (Option.some.inj owns).symm, found, field⟩
      · rw [if_neg same] at owns ⊢
        exact sound.owned other owner owns
    · intro other owner owns otherPlace ref text listed holds
      rw [tensors other] at owns
      by_cases same : tensor = other
      · subst same
        rw [if_pos rfl] at owns
        cases owns
        -- A module that was found before would have owned the tensor already.
        rcases Nat.lt_or_ge otherPlace place with before | notBefore
        · have covers := covered otherPlace ref before listed text (.tensor tensor) holds
          exact absurd (covers.1 tensor rfl) unowned
        · exact Int.ofNat_le.mpr notBefore
      · rw [if_neg same] at owns
        exact sound.least other owner owns otherPlace ref text listed holds
    · intro id other resolves
      dsimp only at resolves
      split at resolves
      · rw [Table.get?_insert] at resolves
        split at resolves
        · cases resolves
          exact ownsTensor
        · exact ownersKept other (sound.parameters id other resolves)
      · exact ownersKept other (sound.parameters id other resolves)

/-! ## Modules -/

/-- The registration with one more module, which is given the next place. -/
def push (registration : Registration) (child : Ref .module) (parent : Option Int)
    (identifier : Option String) : Registration :=
  { registration with
    tree := ⟨registration.tree.modules ++ [child]⟩
    heap := registration.heap.updateModule child fun module =>
      { module with
        index := some registration.tree.size
        parent
        identifier := module.identifier.or identifier } }

theorem add_eq {child : Ref .module} (parent : Option Int) (identifier : Option String)
    (unplaced : (registration.heap.module child).index = none) :
    registration.tree.add registration.heap child parent identifier =
      (registration.tree.size, (registration.push child parent identifier).tree,
        (registration.push child parent identifier).heap) := by
  rw [ModuleTree.add, unplaced]
  rfl

section Pushing

variable (child : Ref .module) (parent : Option Int) (identifier : Option String)

theorem module_push_self :
    ((registration.push child parent identifier).heap.module child) =
      { registration.heap.module child with
        index := some registration.tree.size
        parent
        identifier := (registration.heap.module child).identifier.or identifier } := by
  rw [push, Heap.module_updateModule, if_pos rfl]

theorem module_push_of_ne {ref : Ref .module} (different : ref ≠ child) :
    (registration.push child parent identifier).heap.module ref =
      registration.heap.module ref := by
  rw [push, Heap.module_updateModule, if_neg (Ne.symm different)]

theorem fields_push (ref : Ref .module) :
    ((registration.push child parent identifier).heap.module ref).fields =
      (registration.heap.module ref).fields := by
  by_cases same : ref = child
  · rw [same, module_push_self]
  · rw [module_push_of_ne child parent identifier same]

theorem hidden_push (ref : Ref .module) :
    ((registration.push child parent identifier).heap.module ref).hidden =
      (registration.heap.module ref).hidden := by
  by_cases same : ref = child
  · rw [same, module_push_self]
  · rw [module_push_of_ne child parent identifier same]

theorem getElem?_push_of_some {place : Nat} {ref : Ref .module}
    (found : registration.tree.modules[place]? = some ref) :
    (registration.push child parent identifier).tree.modules[place]? = some ref := by
  rw [push, List.getElem?_append_left (ModuleTree.place_lt found)]
  exact found

theorem getElem?_push_cases {place : Nat} {ref : Ref .module}
    (found : (registration.push child parent identifier).tree.modules[place]? =
      some ref) :
    registration.tree.modules[place]? = some ref ∨
      place = registration.tree.size ∧ ref = child := by
  have inside := ModuleTree.place_lt found
  rw [ModuleTree.size, push, List.length_append, List.length_singleton] at inside
  rw [push] at found
  by_cases old : place < registration.tree.modules.length
  · rw [List.getElem?_append_left old] at found
    exact Or.inl found
  · have last : place = registration.tree.modules.length := by omega
    subst last
    rw [List.getElem?_append_right (Nat.le_refl _), Nat.sub_self] at found
    exact Or.inr ⟨rfl, (Option.some.inj found).symm⟩

theorem getElem?_push_size :
    (registration.push child parent identifier).tree.modules[registration.tree.size]? =
      some child := by
  rw [push, ModuleTree.size, List.getElem?_append_right (Nat.le_refl _), Nat.sub_self]
  rfl

end Pushing

theorem push_placed
    (placed :
      ∀ place ref, registration.tree.modules[place]? = some ref ↔
        (registration.heap.module ref).index = some place)
    {child : Ref .module} (unplaced : (registration.heap.module child).index = none)
    (parent : Option Int) (identifier : Option String) (place : Nat)
    (ref : Ref .module) :
    (registration.push child parent identifier).tree.modules[place]? = some ref ↔
      ((registration.push child parent identifier).heap.module ref).index =
        some place := by
  by_cases same : ref = child
  · subst same
    rw [module_push_self]
    constructor
    · intro found
      rcases getElem?_push_cases ref parent identifier found with old | ⟨last, _⟩
      · have index := (placed place ref).mp old
        rw [unplaced] at index
        cases index
      · rw [last]
    · intro index
      rw [← Option.some.inj index]
      exact getElem?_push_size ref parent identifier
  · rw [module_push_of_ne child parent identifier same, ← placed place ref]
    constructor
    · intro found
      rcases getElem?_push_cases child parent identifier found with old | ⟨_, new⟩
      · exact old
      · exact absurd new same
    · exact getElem?_push_of_some child parent identifier

/-- A module stands in a field of one that was found before it, be it the new module or one
that was there. -/
theorem found_push {place : Nat} {holder child : Ref .module} {name : Value}
    (sound : registration.Sound start root)
    (found : registration.tree.modules[place]? = some holder)
    (field : start.HasField holder name (.module child)) (isOpen : IsOpenField name)
    (unplaced : (registration.heap.module child).index = none) {other : Nat}
    {ref : Ref .module} (notRoot : ref ≠ root)
    (listed :
      (registration.push child (some (place : Int)) name.str?).tree.modules[other]? = some ref) :
    let pushed := registration.push child (some (place : Int)) name.str?
    ∃ (above : Nat) (parent : Ref .module) (text : Value), above < other ∧
      pushed.tree.modules[above]? = some parent ∧
      (pushed.heap.module ref).parent = some (above : Int) ∧
      (pushed.heap.module ref).identifier = text.str? ∧
      IsOpenField text ∧ start.HasField parent text (.module ref) := by
  intro pushed
  rcases getElem?_push_cases _ _ _ listed with old | ⟨rfl, rfl⟩
  · obtain ⟨above, parent, text, order, parentFound, parentOf, identified, rest⟩ :=
      sound.found other ref old notRoot
    have different : ref ≠ child := by
      rintro rfl
      have index := (sound.placed other ref).mp old
      rw [unplaced] at index
      cases index
    have same : pushed.heap.module ref = registration.heap.module ref :=
      module_push_of_ne _ _ _ different
    rw [same]
    exact ⟨above, parent, text, order, getElem?_push_of_some _ _ _ parentFound, parentOf,
      identified, rest⟩
  · refine ⟨place, holder, name, ModuleTree.place_lt found,
      getElem?_push_of_some _ _ _ found, ?_, ?_, isOpen, field⟩
    · rw [module_push_self]
    · rw [module_push_self, sound.unidentified ref unplaced]
      rfl

theorem push_sound {place : Nat} {holder child : Ref .module} {name : Value}
    (sound : registration.Sound start root)
    (found : registration.tree.modules[place]? = some holder)
    (field : start.HasField holder name (.module child)) (isOpen : IsOpenField name)
    (unplaced : (registration.heap.module child).index = none) :
    (registration.push child (some (place : Int)) name.str?).Sound start root := by
  have rootOld : root ≠ child := by
    rintro rfl
    have index := (sound.placed 0 root).mp sound.first
    rw [unplaced] at index
    cases index
  constructor
  case fields => exact fun ref => (fields_push ..).trans (sound.fields ref)
  case shown => exact fun ref => (hidden_push ..).trans (sound.shown ref)
  case placed => exact push_placed sound.placed unplaced _ _
  case first => exact getElem?_push_of_some _ _ _ sound.first
  case rootParent =>
    rw [module_push_of_ne _ _ _ rootOld]
    exact sound.rootParent
  case rootIdentifier =>
    rw [module_push_of_ne _ _ _ rootOld]
    exact sound.rootIdentifier
  case unidentified =>
    intro ref index
    have different : ref ≠ child := by
      rintro rfl
      rw [module_push_self] at index
      cases index
    rw [module_push_of_ne _ _ _ different] at index ⊢
    exact sound.unidentified ref index
  case found =>
    exact fun _ _ listed notRoot => found_push sound found field isOpen unplaced notRoot listed
  case owned =>
    intro tensor owner owns
    obtain ⟨view, other, ref, text, same, listed, holds⟩ := sound.owned tensor owner owns
    exact ⟨view, other, ref, text, same, getElem?_push_of_some _ _ _ listed, holds⟩
  case least =>
    intro tensor owner owns other ref text listed holds
    rcases getElem?_push_cases _ _ _ listed with old | ⟨rfl, _⟩
    · exact sound.least tensor owner owns other ref text old holds
    · obtain ⟨_, ownerPlace, _, _, rfl, ownerListed, _⟩ := sound.owned tensor owner owns
      exact Int.ofNat_le.mpr (Nat.le_of_lt (ModuleTree.place_lt ownerListed))
  case parameters => exact sound.parameters

theorem push_extends (child : Ref .module) (parent : Option Int) (identifier : Option String) :
    registration.Extends (registration.push child parent identifier) [child] := by
  refine ⟨rfl, ?_, fun _ owned => owned⟩
  intro ref marked
  by_cases same : ref = child
  · rw [same, module_push_self]
    rfl
  · rw [module_push_of_ne _ _ _ same]
    exact marked

/-! ## Fields -/

theorem isApart_eq_ok {heap : Heap} {name : Value} {apart : Bool}
    (decides : isApart heap name = .ok apart) : apart = false ↔ IsOpenField name := by
  rw [isApart] at decides
  cases text : name.str? with
  | none =>
      rw [text] at decides
      cases decides
  | some text' =>
      rw [text] at decides
      cases decides
      constructor
      · intro isOpen
        exact ⟨text', text, isOpen⟩
      · rintro ⟨other, same, isOpen⟩
        rw [text] at same
        cases same
        exact isOpen

theorem addFields_spec {displayLimit : Datum} {place : Nat} {holder : Ref .module} :
    ∀ (fields : List (Value × Value)) {registration after : Registration}
      {found : List (Ref .module)}, registration.Sound start root →
      registration.tree.modules[place]? = some holder →
      (∀ entry ∈ fields, start.HasField holder entry.1 entry.2) →
      (∀ other ref, other < place → registration.tree.modules[other]? = some ref →
        CoversModule start registration ref) →
      addFields displayLimit (some (place : Int)) registration fields =
        .ok (found, after) →
      after.Sound start root ∧ registration.Extends after found ∧
        ∀ entry ∈ fields, after.Covers entry.1 entry.2
  | [], registration, after, found, sound, _, _, _, adds => by
      rw [addFields] at adds
      cases adds
      exact ⟨sound, .refl _, fun _ member => by cases member⟩
  | (name, value) :: rest, registration, after, found, sound, listed, fields, before,
      adds => by
      have inside := Nat.le_of_lt (ModuleTree.place_lt listed)
      obtain ⟨field, others⟩ := List.forall_mem_cons.mp fields
      -- A field that leads nowhere leaves the rest of the fields to do.
      have skip {found : List (Ref .module)} (covers : registration.Covers name value)
          (adds : addFields displayLimit (some (place : Int)) registration rest =
            .ok (found, after)) :
          after.Sound start root ∧ registration.Extends after found ∧
            ∀ entry ∈ (name, value) :: rest, after.Covers entry.1 entry.2 := by
        obtain ⟨soundAfter, extends_, covered⟩ :=
          addFields_spec rest sound listed others before adds
        exact ⟨soundAfter, extends_,
          List.forall_mem_cons.mpr ⟨covers.extend extends_, covered⟩⟩
      cases value with
      | tensor tensor =>
          rw [addFields] at adds
          obtain ⟨between, addsTensor, addsRest⟩ := Except.bind_eq_ok_iff.mp adds
          obtain ⟨soundBetween, first, owned⟩ :=
            addTensor_spec sound listed field before addsTensor
          have listedBetween : between.tree.modules[place]? = some holder := by
            rw [first.modules, List.append_nil]
            exact listed
          obtain ⟨soundAfter, second, covered⟩ :=
            addFields_spec rest soundBetween listedBetween others
              (first.covers_before inside before) addsRest
          refine ⟨soundAfter, first.trans second, List.forall_mem_cons.mpr ⟨?_, covered⟩⟩
          refine ⟨fun other same => ?_, fun _ same => by cases same⟩
          cases same
          exact second.owners tensor owned
      | module child =>
          rw [addFields] at adds
          obtain ⟨apart, decides, addsRest⟩ := Except.bind_eq_ok_iff.mp adds
          split at addsRest
          · rename_i done
            refine skip ⟨fun _ same => (by cases same), ?_⟩ addsRest
            intro other same isOpen
            cases same
            have notApart := (isApart_eq_ok decides).mpr isOpen
            rw [notApart, Bool.false_or] at done
            exact done
          · rename_i new
            obtain ⟨notApart, unplaced⟩ : apart = false ∧
                (registration.heap.module child).index = none := by
              simpa using new
            have isOpen : IsOpenField name := (isApart_eq_ok decides).mp notApart
            rw [add_eq _ _ unplaced] at addsRest
            obtain ⟨⟨others', after'⟩, addsOthers, same⟩ :=
              Except.bind_eq_ok_iff.mp addsRest
            cases same
            have soundBetween := push_sound sound listed field isOpen unplaced
            have first : registration.Extends
                (registration.push child (some (place : Int)) name.str?) [child] :=
              push_extends child _ _
            have listedBetween := getElem?_push_of_some child (some (place : Int))
              name.str? listed
            obtain ⟨soundAfter, second, covered⟩ :=
              addFields_spec rest soundBetween listedBetween others
                (first.covers_before inside before) addsOthers
            refine ⟨soundAfter, first.trans second,
              List.forall_mem_cons.mpr ⟨?_, covered⟩⟩
            refine ⟨fun _ same => (by cases same), fun other same _ => ?_⟩
            cases same
            exact second.indices child (by rw [module_push_self]; rfl)
      | _ =>
          rw [addFields] at adds
          · exact skip ⟨fun _ same => (by cases same), fun _ same => (by cases same)⟩
              adds
          · intro _ _ same
            cases same
          · intro _ _ same
            cases same

/-! ## The queue -/

namespace Sound

variable (sound : registration.Sound start root)

include sound

theorem tree_placed : registration.tree.Placed registration.heap :=
  fun place ref found => (sound.placed place ref).mp found

/-- All modules but the root stand in fields, so there are not more of them. -/
theorem size_le : registration.tree.size ≤ start.fieldModules.length + 1 := by
  have subset : registration.tree.modules ⊆ root :: start.fieldModules := by
    intro ref member
    obtain ⟨place, found⟩ := List.getElem?_of_mem member
    by_cases same : ref = root
    · rw [same]
      exact List.mem_cons_self
    · obtain ⟨_, _, _, _, _, _, _, _, field⟩ := sound.found place ref found same
      exact List.mem_cons_of_mem _ (Heap.mem_fieldModules field)
  exact (List.Nodup.subperm sound.tree_placed.nodup subset).length_le

theorem tree_rooted : registration.tree.Rooted registration.heap := by
  intro place ref found parent parentOf
  by_cases same : ref = root
  · rw [same, sound.rootParent] at parentOf
    cases parentOf
  · obtain ⟨above, _, _, order, _, aboveOf, _⟩ := sound.found place ref found same
    rw [parentOf] at aboveOf
    exact ⟨above, Option.some.inj aboveOf, order⟩

theorem ownersPlaced :
    Folding.OwnersPlaced registration.tree registration.parameters
      registration.heap := by
  intro id tensor _ owner owns
  obtain ⟨_, place, ref, _, same, found, _⟩ := sound.owned tensor owner owns
  exact ⟨place, same, ModuleTree.place_lt found⟩

theorem hasField_iff {ref : Ref .module} {name value : Value} :
    registration.heap.HasField ref name value ↔ start.HasField ref name value :=
  Heap.hasField_congr (sound.fields ref)

/-- A registration stands to all heaps with the same fields alike. -/
theorem rebase {other : Heap}
    (fields : ∀ ref, (other.module ref).fields = (start.module ref).fields) :
    registration.Sound other root where
  fields := by
    intro ref
    rw [fields ref]
    exact sound.fields ref
  shown := sound.shown
  placed := sound.placed
  first := sound.first
  rootParent := sound.rootParent
  rootIdentifier := sound.rootIdentifier
  unidentified := sound.unidentified
  found := by
    intro place ref found different
    obtain ⟨above, parent, name, order, listed, parentOf, identified, isOpen, field⟩ :=
      sound.found place ref found different
    exact ⟨above, parent, name, order, listed, parentOf, identified, isOpen,
      (Heap.hasField_congr (fields parent)).mpr field⟩
  owned := by
    intro tensor owner owns
    obtain ⟨view, place, ref, name, same, listed, field⟩ :=
      sound.owned tensor owner owns
    exact ⟨view, place, ref, name, same, listed,
      (Heap.hasField_congr (fields ref)).mpr field⟩
  least := by
    intro tensor owner owns place ref name listed field
    exact sound.least tensor owner owns place ref name listed
      ((Heap.hasField_congr (fields ref)).mp field)
  parameters := sound.parameters

/-- Registration leaves the fields, so it stands to its own heap as to the first. -/
theorem settled : registration.Sound registration.heap root :=
  sound.rebase sound.fields

end Sound

/-- A round of the queue: the first of those that were not visited yet is. -/
theorem addQueue_round {displayLimit : Datum} {visited queue found : List (Ref .module)}
    {ref : Ref .module} {registration between : Registration}
    (sound : registration.Sound start root)
    (modules : registration.tree.modules = visited ++ ref :: queue)
    (covered : ∀ ref ∈ visited, registration.CoversModule start ref)
    (adds :
      addFields displayLimit
        ((registration.heap.module ref).index.map fun n => (n : Int)) registration
        (registration.heap.module ref).fields.pairs = .ok (found, between)) :
    between.Sound start root ∧
      between.tree.modules = (visited ++ [ref]) ++ (queue ++ found) ∧
        ∀ other ∈ visited ++ [ref], between.CoversModule start other := by
  have listed : registration.tree.modules[visited.length]? = some ref := by
    rw [modules, List.getElem?_append_right (Nat.le_refl _), Nat.sub_self]
    rfl
  rw [(sound.placed _ _).mp listed, sound.fields ref] at adds
  have coversEarlier (other : Nat) (earlier : Ref .module)
      (before : other < visited.length)
      (listedEarlier : registration.tree.modules[other]? = some earlier) :
      registration.CoversModule start earlier := by
    rw [modules, List.getElem?_append_left before] at listedEarlier
    exact covered earlier (List.mem_of_getElem? listedEarlier)
  obtain ⟨soundBetween, more, coversRef⟩ :=
    addFields_spec _ sound listed (fun _ member => member) coversEarlier adds
  refine ⟨soundBetween, ?_, ?_⟩
  · rw [more.modules, modules, List.append_assoc, List.append_assoc]
    rfl
  · intro other member name value field
    rcases List.mem_append.mp member with earlier | last
    · exact (covered other earlier name value field).extend more
    · rw [List.mem_singleton.mp last] at field
      exact coversRef (name, value) field

/-- Modules that were found are too few for the rounds to run out. -/
theorem Sound.visited_lt {visited queue : List (Ref .module)} {ref : Ref .module}
    {registration : Registration} (sound : registration.Sound start root)
    (modules : registration.tree.modules = visited ++ ref :: queue) :
    visited.length < start.fieldModules.length + 1 := by
  have bound := sound.size_le
  rw [ModuleTree.size, modules, List.length_append, List.length_cons] at bound
  omega

theorem addQueue_spec {displayLimit : Datum} :
    ∀ (fuel : Nat) (visited : List (Ref .module)) {queue : List (Ref .module)}
      {registration after : Registration},
      registration.Sound start root →
      registration.tree.modules = visited ++ queue →
      (∀ ref ∈ visited, registration.CoversModule start ref) →
      start.fieldModules.length + 1 ≤ visited.length + fuel →
      addQueue displayLimit fuel queue registration = .ok after →
      after.Sound start root ∧
        ∀ ref ∈ after.tree.modules, after.CoversModule start ref
  | fuel, visited, [], registration, after, sound, modules, covered, _, adds => by
      have same : registration = after := by
        cases fuel with
        | zero => exact Except.ok.inj adds
        | succ fuel => exact Except.ok.inj adds
      subst same
      refine ⟨sound, ?_⟩
      rw [modules, List.append_nil]
      exact covered
  | 0, visited, ref :: queue, registration, after, sound, modules, _, enough, _ => by
      have few := sound.visited_lt modules
      omega
  | fuel + 1, visited, ref :: queue, registration, after, sound, modules, covered,
      enough, adds => by
      rw [addQueue] at adds
      obtain ⟨⟨found, between⟩, addsFields, addsQueue⟩ := Except.bind_eq_ok_iff.mp adds
      obtain ⟨soundBetween, modulesBetween, coveredBetween⟩ :=
        addQueue_round sound modules covered addsFields
      refine addQueue_spec fuel (visited ++ [ref]) soundBetween modulesBetween
        coveredBetween ?_ addsQueue
      rw [List.length_append, List.length_singleton]
      omega

/-- More rounds than enough change nothing. -/
theorem addQueue_more {displayLimit : Datum} (more : Nat) :
    ∀ (fuel : Nat) (visited : List (Ref .module)) {queue : List (Ref .module)}
      {registration : Registration},
      registration.Sound start root →
      registration.tree.modules = visited ++ queue →
      (∀ ref ∈ visited, registration.CoversModule start ref) →
      start.fieldModules.length + 1 ≤ visited.length + fuel →
      addQueue displayLimit (fuel + more) queue registration =
        addQueue displayLimit fuel queue registration
  | fuel, visited, [], registration, _, _, _, _ => by
      have empty (rounds : Nat) : addQueue displayLimit rounds [] registration =
          .ok registration := by
        cases rounds with
        | zero => rfl
        | succ rounds => rfl
      rw [empty, empty]
  | 0, visited, ref :: queue, registration, sound, modules, _, enough => by
      have few := sound.visited_lt modules
      omega
  | fuel + 1, visited, ref :: queue, registration, sound, modules, covered, enough => by
      rw [Nat.add_right_comm, addQueue, addQueue]
      dsimp only
      cases addsFields : addFields displayLimit
          ((registration.heap.module ref).index.map fun n => (n : Int)) registration
          (registration.heap.module ref).fields.pairs with
      | error fault => rfl
      | ok result =>
          obtain ⟨found, between⟩ := result
          obtain ⟨soundBetween, modulesBetween, coveredBetween⟩ :=
            addQueue_round sound modules covered addsFields
          refine addQueue_more more fuel (visited ++ [ref]) soundBetween modulesBetween
            coveredBetween ?_
          rw [List.length_append, List.length_singleton]
          omega

/-! ## The root -/

theorem push_root_sound {heap : Heap} (unmarked : heap.Unmarked) (root : Ref .module) :
    ((begin heap).push root none none).Sound ((begin heap).push root none none).heap
      root := by
  have noOther {ref : Ref .module} (different : ref ≠ root) :
      ((begin heap).push root none none).heap.module ref = heap.module ref :=
    module_push_of_ne root none none different
  have unplaced (ref : Ref .module) : ((begin heap).heap.module ref).index = none :=
    (unmarked.modules ref).1
  constructor
  case fields => exact fun _ => rfl
  case shown =>
    exact fun ref => (hidden_push root none none ref).trans (unmarked.modules ref).2.2.2
  case placed =>
    refine push_placed ?_ (unplaced root) none none
    intro place ref
    rw [unplaced ref]
    constructor
    · intro found
      cases found
    · intro found
      cases found
  case first => rfl
  case rootParent => rw [module_push_self]
  case rootIdentifier =>
    rw [module_push_self]
    exact congrArg (Option.or · none) (unmarked.modules root).2.2.1
  case unidentified =>
    intro ref _
    by_cases same : ref = root
    · rw [same, module_push_self]
      exact congrArg (Option.or · none) (unmarked.modules root).2.2.1
    · rw [noOther same]
      exact (unmarked.modules ref).2.2.1
  case found =>
    intro place ref found different
    rcases getElem?_push_cases root none none found with old | ⟨_, new⟩
    · cases old
    · exact absurd new different
  case owned =>
    intro tensor owner owns
    have unowned : (heap.tensor tensor).owner = none := (unmarked.tensors tensor).1
    have kept : (((begin heap).push root none none).heap.tensor tensor).owner =
        (heap.tensor tensor).owner := rfl
    rw [kept, unowned] at owns
    cases owns
  case least =>
    intro tensor owner owns
    have unowned : (heap.tensor tensor).owner = none := (unmarked.tensors tensor).1
    have kept : (((begin heap).push root none none).heap.tensor tensor).owner =
        (heap.tensor tensor).owner := rfl
    rw [kept, unowned] at owns
    cases owns
  case parameters =>
    intro id tensor resolves
    have empty : ((begin heap).push root none none).parameters.get? id = none :=
      Table.get?_empty id
    rw [empty] at resolves
    cases resolves

/-- From a heap without marks, registration finds all that the root leads to. -/
theorem addRoot_sound {displayLimit : Datum} {heap : Heap} (unmarked : heap.Unmarked)
    (adds : (begin heap).addRoot displayLimit root = .ok registration) :
    registration.Sound heap root ∧
      ∀ ref ∈ registration.tree.modules, registration.CoversModule heap ref := by
  have unplaced : ((begin heap).heap.module root).index = none :=
    (unmarked.modules root).1
  rw [addRoot, add_eq none none unplaced] at adds
  have none : ∀ ref ∈ ([] : List (Ref .module)),
      ((begin heap).push root none none).CoversModule
        ((begin heap).push root none none).heap ref := fun _ member => by cases member
  obtain ⟨sound, covered⟩ := addQueue_spec _ [] (push_root_sound unmarked root) rfl none
    (Nat.le_of_eq (Nat.zero_add _).symm) adds
  have fields (ref : Ref .module) : (heap.module ref).fields =
      (((begin heap).push root Option.none Option.none).heap.module ref).fields := by
    by_cases same : ref = root
    · rw [same, module_push_self]
      rfl
    · rw [module_push_of_ne _ _ _ same]
      rfl
  refine ⟨sound.rebase fields, ?_⟩
  intro ref member name value field
  exact covered ref member name value ((Heap.hasField_congr (fields ref)).mp field)

/-- The same of the heap that registration leaves. -/
theorem addRoot_spec {displayLimit : Datum} {heap : Heap} (unmarked : heap.Unmarked)
    (adds : (begin heap).addRoot displayLimit root = .ok registration) :
    registration.Sound registration.heap root ∧
      ∀ ref ∈ registration.tree.modules,
        registration.CoversModule registration.heap ref := by
  obtain ⟨sound, covered⟩ := addRoot_sound unmarked adds
  refine ⟨sound.settled, ?_⟩
  intro ref member name value field
  exact covered ref member name value (sound.hasField_iff.mp field)

end Registration

end TorchArchive
