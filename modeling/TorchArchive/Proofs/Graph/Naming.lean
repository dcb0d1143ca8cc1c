import TorchArchive.Proofs.Graph.Reaching
import TorchArchive.Proofs.Package.Names

/-!
# Names lead back to modules

The qualified name of a module lists the fields on the way to it, from the root through
the modules in which each was found first.  If no field on the way has a dot in its name
or no name at all, the name can be taken apart again, and so no two modules share one.
-/

namespace TorchArchive

/-- A name that can be told within a dotted one. -/
def IsPlainName (name : String) : Prop := name ≠ "" ∧ '.' ∉ name.toList

namespace Heap

/-! ## Dotted names -/

theorem nameParts_intercalate {names : List String} (some : names ≠ [])
    (plain : ∀ name ∈ names, IsPlainName name) :
    nameParts (".".intercalate names) = names :=
  nameParts_intercalate_of_dotless some fun name inside => (plain name inside).2

/-- The fields that a qualified name lists; the name of a root is empty. -/
def pathOf (name : String) : List String :=
  if name = "" then [] else nameParts name

theorem pathOf_intercalate {names : List String}
    (plain : ∀ name ∈ names, IsPlainName name) :
    pathOf (".".intercalate names) = names := by
  cases names with
  | nil => rfl
  | cons first rest =>
      have parts := nameParts_intercalate (List.cons_ne_nil first rest) plain
      have named : ".".intercalate (first :: rest) ≠ "" := by
        intro empty
        rw [empty] at parts
        have unnamed : first = "" := (List.cons.inj parts).1.symm
        exact (plain first List.mem_cons_self).1 unnamed
      rw [pathOf, if_neg named, parts]

/-! ## Field by field -/

/-- The module to which fields lead from another one, field by field. -/
def descend (heap : Heap) (ref : Ref .module) : List String → Option (Ref .module)
  | [] => some ref
  | name :: rest =>
      match (heap.module ref).fields.getName? name with
      | some (.module child) => heap.descend child rest
      | _ => none

theorem descend_append (heap : Heap) (names : List String) {ref between : Ref .module}
    (first : heap.descend ref names = some between) (rest : List String) :
    heap.descend ref (names ++ rest) = heap.descend between rest := by
  induction names generalizing ref with
  | nil =>
      cases first
      rfl
  | cons name names inductionHypothesis =>
      rw [List.cons_append]
      rw [descend] at first ⊢
      split at first
      · exact inductionHypothesis first
      · cases first

theorem descend_field {heap : Heap} {holder child : Ref .module} {text : String}
    (byName : (heap.module holder).fields.ByName)
    (field : heap.HasField holder (.str text) (.module child)) :
    heap.descend holder [text] = some child := by
  rw [descend, byName.getName?_eq field]
  rfl

end Heap

namespace Registration

/-- The names by which modules were found can be told within dotted ones. -/
def HasPlainNames (registration : Registration) : Prop :=
  ∀ ref ∈ registration.tree.modules, ∀ name,
    (registration.heap.module ref).identifier = some name → IsPlainName name

namespace Sound

variable {start : Heap} {root : Ref .module} {registration : Registration}

/-- The identifiers from the root down to a place lead to the module there. -/
theorem path_leads (sound : registration.Sound start root)
    (byName : ∀ ref ∈ registration.tree.modules, (start.module ref).fields.ByName)
    (plain : registration.HasPlainNames) :
    ∀ (fuel : Nat) {place : Nat} {ref : Ref .module} (below : List String),
      registration.tree.modules[place]? = some ref → place < fuel →
      ∃ names,
        registration.tree.path registration.heap fuel (place : Int) below =
            .ok (names ++ below) ∧
          (∀ name ∈ names, IsPlainName name) ∧ start.descend root names = some ref
  | 0, _, _, _, _, short => absurd short (Nat.not_lt_zero _)
  | fuel + 1, place, ref, below, listed, short => by
      rw [ModuleTree.path, ModuleTree.module?_place listed]
      simp only [bind, Except.bind]
      by_cases same : ref = root
      · subst same
        rw [sound.rootParent, sound.rootIdentifier]
        exact ⟨[], rfl, List.forall_mem_nil _, rfl⟩
      · obtain ⟨above, parent, field, order, parentListed, parentOf, identified, _,
          stands⟩ := sound.found place ref listed same
        have parentByName := byName parent (List.mem_of_getElem? parentListed)
        obtain ⟨text, rfl⟩ := parentByName.exists_text stands
        have identifier : (registration.heap.module ref).identifier = some text :=
          identified
        have plainText := plain ref (List.mem_of_getElem? listed) text identifier
        have nonempty : ¬ text.isEmpty = true := by
          rw [String.isEmpty_iff]
          exact plainText.1
        obtain ⟨names, ends, plainNames, leads⟩ :=
          sound.path_leads byName plain fuel (text :: below) parentListed (by omega)
        rw [parentOf, identifier]
        simp only [if_neg nonempty]
        refine ⟨names ++ [text], ?_, ?_, ?_⟩
        · rw [ends, List.append_assoc]
          rfl
        · exact List.forall_mem_append.mpr
            ⟨plainNames, List.forall_mem_singleton.mpr plainText⟩
        · rw [start.descend_append names leads]
          exact Heap.descend_field parentByName stands

/-- The qualified name of a module leads from the root to the module. -/
theorem qualifiedName_leads (sound : registration.Sound start root)
    (byName : ∀ ref ∈ registration.tree.modules, (start.module ref).fields.ByName)
    (plain : registration.HasPlainNames) {place : Nat} {ref : Ref .module}
    (listed : registration.tree.modules[place]? = some ref) :
    ∃ name,
      registration.tree.qualifiedName registration.heap (some (place : Int)) = .ok name ∧
        start.descend root (Heap.pathOf name) = some ref := by
  have short : place < registration.tree.size + 1 :=
    Nat.lt_succ_of_lt (ModuleTree.place_lt listed)
  obtain ⟨names, ends, plainNames, leads⟩ :=
    sound.path_leads byName plain (registration.tree.size + 1) [] listed short
  rw [List.append_nil] at ends
  refine ⟨".".intercalate names, ?_, ?_⟩
  · rw [ModuleTree.qualifiedName, ends]
    rfl
  · rw [Heap.pathOf_intercalate plainNames]
    exact leads

end Sound

/-! ## Complete registration -/

/-- What registration of all that a root leads to comes to. -/
structure Complete (heap : Heap) (root : Ref .module) (registration : Registration) :
    Prop where
  reached : ∀ ref, ref ∈ registration.tree.modules ↔ heap.Reaches root ref
  once : registration.tree.modules.Nodup
  first : registration.tree.modules[0]? = some root
  placed :
    ∀ place ref, registration.tree.modules[place]? = some ref →
      (registration.heap.module ref).index = some place
  /-- A module but the root is held by one that was found before it, in the field that
  it is identified by. -/
  held :
    ∀ place ref, registration.tree.modules[place]? = some ref → ref ≠ root →
      ∃ (above : Nat) (parent : Ref .module) (name : String), above < place ∧
        registration.tree.modules[above]? = some parent ∧
        (registration.heap.module ref).parent = some (above : Int) ∧
        (registration.heap.module ref).identifier = some name ∧
        heap.HasField parent (.str name) (.module ref)
  /-- The owner of a tensor is the first of all found modules that hold it. -/
  owned :
    ∀ place ref name tensor, registration.tree.modules[place]? = some ref →
      heap.HasField ref name (.tensor tensor) →
      ∃ (owner : Nat) (holder : Ref .module) (field : Value), owner ≤ place ∧
        (registration.heap.tensor tensor).owner = some (owner : Int) ∧
        registration.tree.modules[owner]? = some holder ∧
        heap.HasField holder field (.tensor tensor) ∧
        (registration.heap.tensor tensor).initializer.isSome = true
  named :
    ∀ place : Nat, place < registration.tree.size → ∃ name,
      registration.tree.qualifiedName registration.heap (some (place : Int)) = .ok name
  /-- A qualified name leads from the root to its module. -/
  leads :
    registration.HasPlainNames → ∀ (place : Nat) ref name,
      registration.tree.modules[place]? = some ref →
      registration.tree.qualifiedName registration.heap (some (place : Int)) = .ok name →
      heap.descend root (Heap.pathOf name) = some ref
  distinct :
    registration.HasPlainNames → ∀ (left right : Nat) name, left < registration.tree.size →
      right < registration.tree.size →
      registration.tree.qualifiedName registration.heap (some (left : Int)) = .ok name →
      registration.tree.qualifiedName registration.heap (some (right : Int)) = .ok name →
      left = right

variable {heap : Heap} {root : Ref .module} {registration : Registration}

theorem Sound.complete (sound : registration.Sound heap root)
    (covered : ∀ ref ∈ registration.tree.modules, registration.CoversModule heap ref)
    (byName : ∀ ref, heap.Reaches root ref → (heap.module ref).fields.ByName) :
    registration.Complete heap root := by
  have reached := sound.mem_iff_reaches covered
  have byNameHere : ∀ ref ∈ registration.tree.modules, (heap.module ref).fields.ByName :=
    fun ref member => byName ref ((reached ref).mp member)
  have leads (plain : registration.HasPlainNames) (place : Nat) (ref : Ref .module)
      (name : String) (listed : registration.tree.modules[place]? = some ref)
      (named :
        registration.tree.qualifiedName registration.heap (some (place : Int)) =
          .ok name) :
      heap.descend root (Heap.pathOf name) = some ref := by
    obtain ⟨other, namedOther, leadsOther⟩ :=
      sound.qualifiedName_leads byNameHere plain listed
    rw [named] at namedOther
    cases namedOther
    exact leadsOther
  refine
    { reached
      once := sound.tree_placed.nodup
      first := sound.first
      placed := sound.tree_placed
      held := ?_
      owned := ?_
      named := fun place inside => sound.tree_rooted.qualifiedName_ok inside
      leads
      distinct := ?_ }
  · intro place ref listed different
    obtain ⟨above, parent, field, order, parentListed, parentOf, identified, _, stands⟩ :=
      sound.found place ref listed different
    have parentByName := byNameHere parent (List.mem_of_getElem? parentListed)
    obtain ⟨text, rfl⟩ := parentByName.exists_text stands
    exact ⟨above, parent, text, order, parentListed, parentOf, identified, stands⟩
  · intro place ref name tensor listed stands
    have covers := covered ref (List.mem_of_getElem? listed) name (.tensor tensor) stands
    obtain ⟨owner, owns⟩ := Option.isSome_iff_exists.mp (covers.1 tensor rfl)
    obtain ⟨view, ownerPlace, holder, field, rfl, ownerListed, holds⟩ :=
      sound.owned tensor owner owns
    have least := sound.least tensor ownerPlace owns place ref name listed stands
    exact ⟨ownerPlace, holder, field, Int.ofNat_le.mp least, owns, ownerListed, holds, view⟩
  · intro plain left right name leftInside rightInside leftNamed rightNamed
    obtain ⟨leftRef, leftListed⟩ := ModuleTree.exists_module _ leftInside
    obtain ⟨rightRef, rightListed⟩ := ModuleTree.exists_module _ rightInside
    have leftLeads := leads plain left leftRef name leftListed leftNamed
    have rightLeads := leads plain right rightRef name rightListed rightNamed
    rw [leftLeads] at rightLeads
    cases rightLeads
    exact sound.tree_placed.place_unique leftListed rightListed

/-- Registration from a heap without marks ends and is complete: it finds the modules
that the root leads to, each once, gives each tensor to the first module that holds it,
and names modules so that the names lead back to them. -/
theorem addRoot_complete (unmarked : heap.Unmarked) (regular : heap.Regular root)
    (displayLimit : Datum) :
    ∃ registration, (begin heap).addRoot displayLimit root = .ok registration ∧
      registration.Complete heap root := by
  obtain ⟨registration, adds⟩ := exists_addRoot unmarked regular displayLimit
  obtain ⟨sound, covered⟩ := addRoot_sound unmarked adds
  exact ⟨registration, adds, sound.complete covered regular.byName⟩

end Registration

/-! ## A module that is shared and one that holds its holder -/

namespace SharedLayer

def root : Ref .module := ⟨0⟩

def layer : Ref .module := ⟨1⟩

def tensor : Ref .tensor := ⟨0⟩

def rootFields : Entries :=
  ((Entries.putName .empty "a" (.module layer)).putName "b" (.module layer)).putName "w"
    (.tensor tensor)

def layerFields : Entries :=
  (Entries.putName .empty "w" (.tensor tensor)).putName "up" (.module root)

/-- The root holds a layer in two fields; the layer holds the root, and both hold one
tensor. -/
def heap : Heap :=
  { Heap.initial with
    lists := ⟨#[[]]⟩
    tensors := ⟨#[.blank ⟨0⟩]⟩
    modules :=
      ⟨#[{ Module.fresh Heap.baseClass with fields := rootFields },
        { Module.fresh Heap.baseClass with fields := layerFields }]⟩ }

theorem module_cases (ref : Ref .module) :
    heap.module ref = { Module.fresh Heap.baseClass with fields := rootFields } ∨
      heap.module ref = { Module.fresh Heap.baseClass with fields := layerFields } ∨
        heap.module ref = default := by
  obtain ⟨_ | _ | index⟩ := ref
  · exact Or.inl rfl
  · exact Or.inr (Or.inl rfl)
  · refine Or.inr (Or.inr (Store.get_of_not_holds _ ?_))
    exact Nat.not_lt_of_le (Nat.le_add_left 2 index)

theorem tensor_eq (ref : Ref .tensor) : heap.tensor ref = .blank ⟨0⟩ := by
  obtain ⟨_ | index⟩ := ref
  · rfl
  · refine Store.get_of_not_holds _ ?_
    exact Nat.not_lt_of_le (Nat.le_add_left 1 index)

theorem unmarked : heap.Unmarked where
  modules := by
    intro ref
    rcases module_cases ref with same | same | same
    all_goals
      rw [same]
      exact ⟨rfl, rfl, rfl, rfl⟩
  tensors := by
    intro ref
    rw [tensor_eq]
    exact ⟨rfl, rfl⟩

theorem regular : heap.Regular root where
  byName := by
    intro ref _
    rcases module_cases ref with same | same | same
    · rw [same]
      exact ((Entries.ByName.empty.putName "a" _).putName "b" _).putName "w" _
    · rw [same]
      exact (Entries.ByName.empty.putName "w" _).putName "up" _
    · rw [same]
      exact Entries.ByName.empty
  viewable := by
    intro ref name tensor _ _
    constructor
    · rw [tensor_eq]
      exact Or.inl rfl
    · rw [tensor_eq]
      exact Or.inl rfl

/-- The shared layer is registered once, although its fields lead back to the root. -/
theorem registers_completely :
    heap.Unmarked ∧ heap.Regular root ∧
      ∃ registration,
        (Registration.begin heap).addRoot (.int 10000) root = .ok registration ∧
          registration.Complete heap root :=
  ⟨unmarked, regular, Registration.addRoot_complete unmarked regular (.int 10000)⟩

end SharedLayer

end TorchArchive
