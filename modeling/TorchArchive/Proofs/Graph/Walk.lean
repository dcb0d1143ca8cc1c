import TorchArchive.Proofs.Graph.Construction
import TorchArchive.Proofs.Graph.Reaching

/-!
# The walk over the modules

The walk that makes nodes of modules goes from each module to those that were found
first in its fields.  It comes to all registered modules, and to each of them once for
each way: a module is visited as often as the one that it was found in, times the number
of open fields in which that one holds it.
-/

namespace TorchArchive

namespace Heap

/-! ## Modules in open fields -/

/-- The module that an open field holds. -/
def openModule? (field : Value × Value) : Option (Ref .module) :=
  match field.1.str?, field.2 with
  | some name, .module child => if name.startsWith "__" then none else some child
  | _, _ => none

/-- The modules in the open fields of a module, once for each field. -/
def openModules (heap : Heap) (ref : Ref .module) : List (Ref .module) :=
  (heap.module ref).fields.pairs.filterMap openModule?

variable {heap other : Heap} {ref child : Ref .module} {name value : Value}

theorem openModule?_eq_some_iff :
    openModule? (name, value) = some child ↔ value = .module child ∧ IsOpenField name := by
  rw [openModule?]
  constructor
  · intro holds
    split at holds
    · rename_i text held named stands
      split at holds
      · cases holds
      · rename_i isOpen
        cases holds
        exact ⟨stands, text, named, eq_false_of_ne_true isOpen⟩
    · cases holds
  · rintro ⟨rfl, text, named, isOpen⟩
    simp only [named, isOpen]
    rfl

theorem mem_openModules_iff :
    child ∈ heap.openModules ref ↔
      ∃ name, heap.HasField ref name (.module child) ∧ IsOpenField name := by
  rw [openModules, List.mem_filterMap]
  constructor
  · rintro ⟨⟨name, value⟩, field, holds⟩
    obtain ⟨rfl, isOpen⟩ := openModule?_eq_some_iff.mp holds
    exact ⟨name, field, isOpen⟩
  · rintro ⟨name, field, isOpen⟩
    exact ⟨(name, .module child), field, openModule?_eq_some_iff.mpr ⟨rfl, isOpen⟩⟩

theorem openModules_congr
    (fields : (other.module ref).fields = (heap.module ref).fields) :
    other.openModules ref = heap.openModules ref := by
  rw [openModules, openModules, fields]

/-! ## The order of the walk -/

/-- The modules to which the walk goes from a module, once for each field. -/
def childrenOf (heap : Heap) (ref : Ref .module) : List (Ref .module) :=
  (heap.openModules ref).filter (isChild heap ref)

/-- The modules that the walk from a module comes to, down to a depth. -/
def visits (heap : Heap) : Nat → Ref .module → List (Ref .module)
  | 0, _ => []
  | fuel + 1, ref => ref :: (heap.childrenOf ref).flatMap (heap.visits fuel)

/-- Whether a module becomes a node: it is not hidden and has parameters. -/
def isShown (heap : Heap) (ref : Ref .module) : Bool :=
  !(heap.module ref).hidden && heap.parameterCount ref > 0

end Heap

/-- The node of a module, named by the way to the module. -/
def IsModuleNode (heap : Heap) (tree : ModuleTree) (ref : Ref .module) (node : Node) :
    Prop :=
  ∃ name,
    tree.qualifiedName heap ((heap.module ref).index.map fun n => (n : Int)) = .ok name ∧
      node = moduleNode heap name ref

/-- The submodules of a module are the modules in its open fields. -/
theorem Heap.submodules_forall₂ {heap : Heap} {ref : Ref .module}
    {entries : List (Value × Value)} (lists : heap.submodules ref = .ok entries) :
    List.Forall₂ (fun entry child => entry.2 = .module child) entries
      (heap.openModules ref) := by
  rw [submodules] at lists
  rw [openModules]
  revert lists
  generalize (heap.module ref).fields.pairs = pairs
  intro lists
  induction pairs generalizing entries with
  | nil =>
      cases lists
      exact .nil
  | cons first rest inductionHypothesis =>
      obtain ⟨name, value⟩ := first
      rw [List.filterMapM_cons] at lists
      obtain ⟨kept, decides, others⟩ := Except.bind_eq_ok_iff.mp lists
      cases text : name.str? with
      | none =>
          rw [text] at decides
          cases decides
      | some text' =>
          rw [text] at decides
          have skip (unheld : openModule? (name, value) = none) (dropped : kept = none) :
              List.Forall₂ (fun entry child => entry.2 = .module child) entries
                (((name, value) :: rest).filterMap openModule?) := by
            subst dropped
            rw [List.filterMap_cons_none unheld]
            exact inductionHypothesis others
          cases value with
          | module child =>
              by_cases apart : text'.startsWith "__" = true
              · simp only [if_pos apart] at decides
                cases decides
                refine skip ?_ rfl
                simp only [openModule?, text, if_pos apart]
              · simp only [if_neg apart] at decides
                cases decides
                have held : openModule? (name, .module child) = some child := by
                  simp only [openModule?, text, if_neg apart]
                obtain ⟨more, listsRest, same⟩ := Except.bind_eq_ok_iff.mp others
                cases same
                rw [List.filterMap_cons_some held]
                exact .cons rfl (inductionHypothesis listsRest)
          | _ =>
              cases decides
              refine skip ?_ rfl
              simp only [openModule?, text]

theorem Heap.exists_submodules {heap : Heap} {ref : Ref .module}
    (byName : (heap.module ref).fields.ByName) :
    ∃ entries, heap.submodules ref = .ok entries := by
  have named (name value : Value) (member : (name, value) ∈ (heap.module ref).fields.pairs) :
      ∃ text, name = .str text := byName.exists_text member
  rw [submodules]
  revert named
  generalize (heap.module ref).fields.pairs = pairs
  intro named
  induction pairs with
  | nil => exact ⟨[], rfl⟩
  | cons first rest inductionHypothesis =>
      obtain ⟨name, value⟩ := first
      obtain ⟨text, rfl⟩ := named name value List.mem_cons_self
      obtain ⟨entries, lists⟩ := inductionHypothesis fun other held member =>
        named other held (List.mem_cons_of_mem _ member)
      rw [List.filterMapM_cons, lists]
      cases value with
      | module child =>
          by_cases apart : text.startsWith "__" = true
          · exact ⟨entries, by simp [Value.str, Value.str?, apart, Bind.bind, Except.bind]⟩
          · exact ⟨_, by simp [Value.str, Value.str?, apart, Bind.bind, Except.bind]; rfl⟩
      | _ => exact ⟨entries, rfl⟩

/-! ## The nodes of the walk -/

section Nodes

variable {heap : Heap} {tree : ModuleTree} {ref : Ref .module} {nodes : List Node}

theorem ownNodes_eq_ok (makes : ownNodes heap tree ref = .ok nodes) :
    List.Forall₂ (IsModuleNode heap tree) ([ref].filter heap.isShown) nodes := by
  rw [ownNodes] at makes
  by_cases shown : heap.isShown ref = true
  · rw [List.filter_cons_of_pos shown, List.filter_nil]
    simp only [Heap.isShown] at shown
    simp only [if_pos shown] at makes
    obtain ⟨name, named, same⟩ := Except.bind_eq_ok_iff.mp makes
    cases same
    exact .cons ⟨name, named, rfl⟩ .nil
  · rw [List.filter_cons_of_neg shown, List.filter_nil]
    simp only [Heap.isShown] at shown
    simp only [if_neg shown] at makes
    cases makes
    exact .nil

theorem exists_ownNodes {name : String}
    (named :
      tree.qualifiedName heap ((heap.module ref).index.map fun n => (n : Int)) =
        .ok name) :
    ∃ nodes, ownNodes heap tree ref = .ok nodes := by
  rw [ownNodes]
  simp only [named]
  split
  · exact ⟨_, rfl⟩
  · exact ⟨_, rfl⟩

/-- What a step yields for the submodules that are children, one after another. -/
theorem below_forall₂ {step : Ref .module → Except Fault (List Node)}
    {chosen : Ref .module → Bool} {relation : Ref .module → Node → Prop}
    {below : Ref .module → List (Ref .module)}
    (steps :
      ∀ child own, step child = .ok own → List.Forall₂ relation (below child) own)
    {entries : List (Value × Value)} {held : List (Ref .module)}
    {results : List (List Node)}
    (children : List.Forall₂ (fun entry child => entry.2 = .module child) entries held)
    (walks :
      List.Forall₂
        (fun entry result =>
          (match entry.2 with
            | .module child => if chosen child then step child else .ok []
            | _ => .ok []) = .ok result)
        entries results) :
    List.Forall₂ relation ((held.filter chosen).flatMap below) results.flatten := by
  induction walks generalizing held with
  | nil =>
      cases children
      exact .nil
  | cons walksEntry _ inductionHypothesis =>
      cases children with
      | @cons _ child _ others stands childrenRest =>
          have later := inductionHypothesis childrenRest
          simp only [stands] at walksEntry
          by_cases isBelow : chosen child = true
          · rw [if_pos isBelow] at walksEntry
            rw [List.filter_cons_of_pos isBelow, List.flatMap_cons, List.flatten_cons]
            exact List.rel_append (steps child _ walksEntry) later
          · rw [if_neg isBelow] at walksEntry
            cases walksEntry
            rw [List.filter_cons_of_neg isBelow]
            exact later

/-- The nodes that the walk makes are those of the modules that it comes to. -/
theorem nodesBelow_forall₂ :
    ∀ (fuel : Nat) {ref : Ref .module} {nodes : List Node},
      nodesBelow heap tree fuel ref = .ok nodes →
        List.Forall₂ (IsModuleNode heap tree) ((heap.visits fuel ref).filter heap.isShown)
          nodes
  | 0, _, _, walks => by cases walks
  | fuel + 1, ref, nodes, walks => by
      rw [nodesBelow] at walks
      obtain ⟨own, makesOwn, walks⟩ := Except.bind_eq_ok_iff.mp walks
      obtain ⟨entries, lists, walks⟩ := Except.bind_eq_ok_iff.mp walks
      obtain ⟨below, walksAll, same⟩ := Except.bind_eq_ok_iff.mp walks
      cases same
      have later := below_forall₂
        (fun _ _ walksChild => nodesBelow_forall₂ fuel walksChild)
        (Heap.submodules_forall₂ lists) (Except.mapM_eq_ok_iff.mp walksAll)
      rw [Heap.visits, Heap.childrenOf, ← List.singleton_append, List.filter_append,
        List.filter_flatMap]
      exact List.rel_append (ownNodes_eq_ok makesOwn) later

end Nodes

/-! ## Registered modules -/

section Registered

variable {root : Ref .module} {registration : Registration} {heap : Heap}
  (sound : registration.Sound registration.heap root)
  (covered :
    ∀ ref ∈ registration.tree.modules,
      registration.CoversModule registration.heap ref)
  (changes : Folding.OnlyHides registration.heap heap)

include sound changes

/-- The children of a module are those whose place was found from it. -/
theorem isChild_iff {above : Nat} {parent child : Ref .module}
    (parentListed : registration.tree.modules[above]? = some parent)
    (childListed : child ∈ registration.tree.modules) :
    isChild heap parent child = true ↔
      child ≠ root ∧ (registration.heap.module child).parent = some (above : Int) := by
  have parentIndex := (sound.placed above parent).mp parentListed
  rw [isChild, changes.index parent, changes.index child, changes.parent child, parentIndex]
  constructor
  · intro both
    obtain ⟨parentOf, _⟩ := Bool.and_eq_true_iff.mp both
    have parentIs := beq_iff_eq.mp parentOf
    refine ⟨?_, parentIs⟩
    rintro rfl
    rw [sound.rootParent] at parentIs
    cases parentIs
  · rintro ⟨different, parentOf⟩
    obtain ⟨place, listed⟩ := List.getElem?_of_mem childListed
    obtain ⟨other, _, _, order, _, otherParent, _⟩ := sound.found place child listed different
    rw [parentOf] at otherParent
    have same : above = other := Int.ofNat.inj (Option.some.inj otherParent)
    have index := (sound.placed place child).mp listed
    have apart : place ≠ above := by omega
    rw [Bool.and_eq_true_iff, index]
    exact ⟨beq_iff_eq.mpr parentOf, bne_iff_ne.mpr (fun equal => apart (Option.some.inj equal))⟩

include covered

theorem openModules_listed {ref child : Ref .module}
    (listed : ref ∈ registration.tree.modules) (held : child ∈ heap.openModules ref) :
    child ∈ registration.tree.modules := by
  rw [Heap.openModules_congr (changes.fields ref)] at held
  obtain ⟨name, field, isOpen⟩ := Heap.mem_openModules_iff.mp held
  have found := (covered ref listed name _ field).2 child rfl isOpen
  obtain ⟨place, index⟩ := Option.isSome_iff_exists.mp found
  exact List.mem_of_getElem? ((sound.placed place child).mpr index)

/-- A child stands behind the module that it is a child of. -/
theorem child_place {above : Nat} {parent child : Ref .module}
    (parentListed : registration.tree.modules[above]? = some parent)
    (isBelow : child ∈ heap.childrenOf parent) :
    child ≠ root ∧ (registration.heap.module child).parent = some (above : Int) ∧
      ∃ place, above < place ∧ registration.tree.modules[place]? = some child := by
  obtain ⟨held, chosen⟩ := List.mem_filter.mp isBelow
  have childListed := openModules_listed sound covered changes
    (List.mem_of_getElem? parentListed) held
  obtain ⟨different, parentOf⟩ := (isChild_iff sound changes parentListed childListed).mp chosen
  obtain ⟨place, listed⟩ := List.getElem?_of_mem childListed
  obtain ⟨other, _, _, order, _, otherParent, _⟩ := sound.found place child listed different
  rw [parentOf] at otherParent
  have same : above = other := Int.ofNat.inj (Option.some.inj otherParent)
  exact ⟨different, parentOf, place, same ▸ order, listed⟩

/-- The walk comes to registered modules only, and to the root only at its start. -/
theorem visits_listed :
    ∀ (fuel : Nat) {place : Nat} {ref : Ref .module},
      registration.tree.modules[place]? = some ref →
      ∀ other ∈ heap.visits fuel ref,
        other ∈ registration.tree.modules ∧ (other = ref ∨ other ≠ root)
  | 0, _, _, _, other, member => by cases member
  | fuel + 1, place, ref, listed, other, member => by
      rcases List.mem_cons.mp member with same | below
      · rw [same]
        exact ⟨List.mem_of_getElem? listed, Or.inl rfl⟩
      · obtain ⟨child, isBelow, deeper⟩ := List.mem_flatMap.mp below
        obtain ⟨different, _, childPlace, _, childListed⟩ :=
          child_place sound covered changes listed isBelow
        obtain ⟨otherListed, position⟩ := visits_listed fuel childListed other deeper
        refine ⟨otherListed, Or.inr ?_⟩
        rcases position with same | notRoot
        · rw [same]
          exact different
        · exact notRoot

/-- The walk from the root comes to it once. -/
theorem count_visits_root (fuel : Nat) : (heap.visits (fuel + 1) root).count root = 1 := by
  have below : root ∉ (heap.childrenOf root).flatMap (heap.visits fuel) := by
    intro member
    obtain ⟨child, isBelow, deeper⟩ := List.mem_flatMap.mp member
    obtain ⟨different, _, place, _, listed⟩ :=
      child_place sound covered changes sound.first isBelow
    obtain ⟨_, same | notRoot⟩ :=
      visits_listed sound covered changes fuel listed root deeper
    · exact different same.symm
    · exact notRoot rfl
  rw [Heap.visits, List.count_cons_self, List.count_eq_zero_of_not_mem below]

/-- The walk comes to a module as often as to the one that it was found in, times the
number of open fields in which that one holds it. -/
theorem count_visits {above : Nat} {parent child : Ref .module}
    (childListed : child ∈ registration.tree.modules) (different : child ≠ root)
    (parentListed : registration.tree.modules[above]? = some parent)
    (parentOf : (registration.heap.module child).parent = some (above : Int)) :
    ∀ (fuel : Nat) {place : Nat} {ref : Ref .module},
      registration.tree.modules[place]? = some ref →
      registration.tree.size ≤ place + fuel →
      (heap.visits fuel ref).count child =
        (if ref = child then 1 else 0) +
          (heap.visits fuel ref).count parent * (heap.openModules parent).count child
  | 0, place, ref, listed, enough => by
      have inside := ModuleTree.place_lt listed
      omega
  | fuel + 1, place, ref, listed, enough => by
      have deeper :
          ∀ others : List (Ref .module), (∀ other ∈ others, other ∈ heap.childrenOf ref) →
            (others.flatMap (heap.visits fuel)).count child =
              others.count child +
                (others.flatMap (heap.visits fuel)).count parent *
                  (heap.openModules parent).count child := by
        intro others inside
        induction others with
        | nil =>
            simp only [List.flatMap_nil, List.count_nil, Nat.zero_mul, Nat.add_zero]
        | cons other rest inductionHypothesis =>
            obtain ⟨isBelow, insideRest⟩ := List.forall_mem_cons.mp inside
            obtain ⟨_, _, otherPlace, order, otherListed⟩ :=
              child_place sound covered changes listed isBelow
            have first := count_visits childListed different parentListed parentOf fuel
              otherListed (by omega)
            rw [List.flatMap_cons, List.count_append, List.count_append,
              inductionHypothesis insideRest, first, List.count_cons, Nat.add_mul]
            simp only [beq_iff_eq]
            omega
      have held :
          (heap.childrenOf ref).count child =
            (if ref = parent then 1 else 0) * (heap.openModules parent).count child := by
        by_cases same : ref = parent
        · have chosen : isChild heap parent child = true :=
            (isChild_iff sound changes parentListed childListed).mpr ⟨different, parentOf⟩
          rw [if_pos same, same, Nat.one_mul, Heap.childrenOf, List.count_filter chosen]
        · rw [if_neg same, Nat.zero_mul]
          refine List.count_eq_zero_of_not_mem ?_
          intro isBelow
          obtain ⟨_, otherParent, _⟩ := child_place sound covered changes listed isBelow
          rw [parentOf] at otherParent
          have samePlace : above = place := Int.ofNat.inj (Option.some.inj otherParent)
          rw [samePlace, listed] at parentListed
          exact same (Option.some.inj parentListed)
      rw [Heap.visits, List.count_cons, List.count_cons,
        deeper (heap.childrenOf ref) (fun _ member => member), held, Nat.add_mul]
      simp only [beq_iff_eq]
      omega

/-- The walk from the root comes to all registered modules. -/
theorem mem_visits_iff {ref : Ref .module} :
    ref ∈ heap.visits (registration.tree.size + 1) root ↔
      ref ∈ registration.tree.modules := by
  constructor
  · intro member
    exact (visits_listed sound covered changes _ sound.first ref member).1
  · intro member
    obtain ⟨place, listed⟩ := List.getElem?_of_mem member
    revert ref
    induction place using Nat.strongRecOn with
    | ind place inductionHypothesis =>
        intro ref member listed
        by_cases same : ref = root
        · rw [same]
          exact List.mem_cons_self
        · obtain ⟨above, parent, name, order, parentListed, parentOf, _, isOpen, field⟩ :=
            sound.found place ref listed same
          have visited := inductionHypothesis above order
            (List.mem_of_getElem? parentListed) parentListed
          have held : ref ∈ heap.openModules parent := by
            rw [Heap.openModules_congr (changes.fields parent)]
            exact Heap.mem_openModules_iff.mpr ⟨name, field, isOpen⟩
          have count := count_visits sound covered changes member same parentListed parentOf
            (registration.tree.size + 1) sound.first (by omega)
          rw [if_neg (Ne.symm same), Nat.zero_add] at count
          have some : 0 < (heap.visits (registration.tree.size + 1) root).count ref := by
            rw [count]
            exact Nat.mul_pos (List.count_pos_iff.mpr visited) (List.count_pos_iff.mpr held)
          exact List.count_pos_iff.mp some

/-- The walk comes to each module once if and only if no module has two open fields with
one child. -/
theorem visits_nodup_iff :
    (heap.visits (registration.tree.size + 1) root).Nodup ↔
      ∀ ref ∈ registration.tree.modules, (heap.childrenOf ref).Nodup := by
  have formula {place above : Nat} {ref parent : Ref .module} (different : ref ≠ root)
      (listed : registration.tree.modules[place]? = some ref)
      (parentListed : registration.tree.modules[above]? = some parent)
      (parentOf : (registration.heap.module ref).parent = some (above : Int)) :
      (heap.visits (registration.tree.size + 1) root).count ref =
        (heap.visits (registration.tree.size + 1) root).count parent *
          (heap.childrenOf parent).count ref := by
    have member := List.mem_of_getElem? listed
    have chosen := (isChild_iff sound changes parentListed member).mpr ⟨different, parentOf⟩
    have count := count_visits sound covered changes member different parentListed parentOf
      (registration.tree.size + 1) sound.first (by omega)
    rw [if_neg (Ne.symm different), Nat.zero_add] at count
    rw [Heap.childrenOf, List.count_filter chosen]
    exact count
  rw [List.nodup_iff_count_le_one]
  constructor
  · intro once ref member
    rw [List.nodup_iff_count_le_one]
    intro child
    by_cases isBelow : child ∈ heap.childrenOf ref
    · obtain ⟨above, listed⟩ := List.getElem?_of_mem member
      obtain ⟨different, parentOf, place, _, childListed⟩ :=
        child_place sound covered changes listed isBelow
      have count := formula different childListed listed parentOf
      have visited : 0 < (heap.visits (registration.tree.size + 1) root).count ref :=
        List.count_pos_iff.mpr ((mem_visits_iff sound covered changes).mpr member)
      have atMost := once child
      rw [count] at atMost
      exact Nat.le_trans (Nat.le_mul_of_pos_left _ visited) atMost
    · rw [List.count_eq_zero_of_not_mem isBelow]
      exact Nat.zero_le 1
  · intro distinct ref
    by_cases visited : ref ∈ heap.visits (registration.tree.size + 1) root
    · have member := (mem_visits_iff sound covered changes).mp visited
      obtain ⟨place, listed⟩ := List.getElem?_of_mem member
      clear visited member
      revert ref
      induction place using Nat.strongRecOn with
      | ind place inductionHypothesis =>
          intro ref listed
          by_cases same : ref = root
          · rw [same]
            exact Nat.le_of_eq (count_visits_root sound covered changes _)
          · obtain ⟨above, parent, _, order, parentListed, parentOf, _⟩ :=
              sound.found place ref listed same
            have parentOnce := inductionHypothesis above order parent parentListed
            have fieldOnce := List.nodup_iff_count_le_one.mp
              (distinct parent (List.mem_of_getElem? parentListed)) ref
            rw [formula same listed parentListed parentOf]
            exact Nat.mul_le_mul parentOnce fieldOnce
    · rw [List.count_eq_zero_of_not_mem visited]
      exact Nat.zero_le 1

/-- The walk ends where fields have names: each step leads to a later place. -/
theorem exists_nodesBelow
    (byName : ∀ ref ∈ registration.tree.modules, (heap.module ref).fields.ByName) :
    ∀ (fuel : Nat) {place : Nat} {ref : Ref .module},
      registration.tree.modules[place]? = some ref →
      registration.tree.size ≤ place + fuel →
      ∃ nodes, nodesBelow heap registration.tree fuel ref = .ok nodes
  | 0, place, ref, listed, enough => by
      have inside := ModuleTree.place_lt listed
      omega
  | fuel + 1, place, ref, listed, enough => by
      have member := List.mem_of_getElem? listed
      obtain ⟨name, named⟩ :=
        sound.tree_rooted.qualifiedName_ok (ModuleTree.place_lt listed)
      have namedHere :
          registration.tree.qualifiedName heap
            ((heap.module ref).index.map fun n => (n : Int)) = .ok name := by
        rw [changes.qualifiedName, changes.index ref, (sound.placed place ref).mp listed]
        exact named
      obtain ⟨own, makesOwn⟩ := exists_ownNodes namedHere
      obtain ⟨entries, lists⟩ := Heap.exists_submodules (byName ref member)
      have children := Heap.submodules_forall₂ lists
      have walks : ∀ entry ∈ entries, ∃ result,
          (match entry.2 with
            | .module child =>
                if isChild heap ref child then nodesBelow heap registration.tree fuel child
                else .ok []
            | _ => .ok []) = .ok result := by
        intro entry entryMember
        obtain ⟨child, held, stands⟩ := exists_partner children entryMember
        simp only [stands]
        by_cases isBelow : isChild heap ref child = true
        · rw [if_pos isBelow]
          obtain ⟨_, _, childPlace, order, childListed⟩ :=
            child_place sound covered changes listed (List.mem_filter.mpr ⟨held, isBelow⟩)
          exact exists_nodesBelow byName fuel childListed (by omega)
        · rw [if_neg isBelow]
          exact ⟨[], rfl⟩
      obtain ⟨below, walksAll⟩ := Except.exists_mapM walks
      refine ⟨own ++ below.flatten, Except.bind_eq_ok_iff.mpr ⟨own, makesOwn, ?_⟩⟩
      refine Except.bind_eq_ok_iff.mpr ⟨entries, lists, ?_⟩
      exact Except.bind_eq_ok_iff.mpr ⟨below, walksAll, rfl⟩

end Registered

end TorchArchive
