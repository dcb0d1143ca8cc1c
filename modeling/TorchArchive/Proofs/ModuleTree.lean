import Mathlib.Data.List.Nodup
import TorchArchive.Graph.ModuleTree
import TorchArchive.Proofs.Steps

/-!
# Places and names in the tree of modules

A module of the tree knows its place, and the places of its parents lead up to the
root.  Both facts are properties of the heap that a tree is read in; names depend
on nothing but the identifiers and parents that stand there.
-/

namespace TorchArchive

namespace ModuleTree

variable {tree : ModuleTree} {heap : Heap}

/-- Every module of the tree knows its place. -/
def Placed (tree : ModuleTree) (heap : Heap) : Prop :=
  ∀ place ref,
    tree.modules[place]? = some ref → (heap.module ref).index = some place

/-- A parent stands in the tree before the modules that it holds. -/
def Rooted (tree : ModuleTree) (heap : Heap) : Prop :=
  ∀ place ref,
    tree.modules[place]? = some ref →
      ∀ parent, (heap.module ref).parent = some parent →
        ∃ above : Nat, parent = above ∧ above < place

theorem place_lt {place : Nat} {ref : Ref .module}
    (found : tree.modules[place]? = some ref) : place < tree.size :=
  (List.getElem?_eq_some_iff.mp found).1

theorem exists_module (tree : ModuleTree) {place : Nat} (inside : place < tree.size) :
    ∃ ref, tree.modules[place]? = some ref :=
  ⟨tree.modules[place], List.getElem?_eq_getElem inside⟩

theorem module?_place {place : Nat} {ref : Ref .module}
    (found : tree.modules[place]? = some ref) :
    tree.module? (place : Int) = .ok ref := by
  have inside := place_lt found
  have position : Heap.position? tree.size (place : Int) = some place := by
    simp [Heap.position?, inside]
  simp only [module?, position, Option.bind_some, found]

theorem Placed.place_unique (placed : tree.Placed heap) {left right : Nat}
    {ref : Ref .module} (first : tree.modules[left]? = some ref)
    (second : tree.modules[right]? = some ref) : left = right := by
  have equality := (placed left ref first).symm.trans (placed right ref second)
  exact Option.some.inj equality

theorem Placed.nodup (placed : tree.Placed heap) : tree.modules.Nodup := by
  rw [List.nodup_iff_getElem?_ne_getElem?]
  intro left right order inside same
  obtain ⟨ref, found⟩ := exists_module tree inside
  have unique := placed.place_unique (same.trans found) found
  omega

/-! ## Names -/

/-- The way up from a place depends on identifiers and parents only. -/
theorem path_congr {other : Heap}
    (identifiers :
      ∀ ref, (other.module ref).identifier = (heap.module ref).identifier)
    (parents : ∀ ref, (other.module ref).parent = (heap.module ref).parent) :
    ∀ (fuel : Nat) (place : Int) (below : List String),
      tree.path other fuel place below = tree.path heap fuel place below
  | 0, _, _ => rfl
  | fuel + 1, place, below => by
      rw [path, path]
      congr 1
      funext ref
      dsimp only
      rw [identifiers ref, parents ref]
      cases (heap.module ref).parent with
      | none => rfl
      | some parent => exact path_congr identifiers parents fuel parent _

theorem qualifiedName_congr {other : Heap}
    (identifiers :
      ∀ ref, (other.module ref).identifier = (heap.module ref).identifier)
    (parents : ∀ ref, (other.module ref).parent = (heap.module ref).parent)
    (place : Option Int) :
    tree.qualifiedName other place = tree.qualifiedName heap place := by
  cases place with
  | none => rfl
  | some place =>
      rw [qualifiedName, qualifiedName, path_congr identifiers parents]

/-- The way up is shorter than the number of the place that it begins at. -/
theorem Rooted.path_ok (rooted : tree.Rooted heap) :
    ∀ (fuel place : Nat) (below : List String),
      place < fuel → place < tree.size →
        ∃ names, tree.path heap fuel (place : Int) below = .ok names
  | 0, _, _, short, _ => by omega
  | fuel + 1, place, below, short, inside => by
      obtain ⟨ref, found⟩ := exists_module tree inside
      rw [path, module?_place found]
      simp only [bind, Except.bind]
      cases parentEquality : (heap.module ref).parent with
      | none => exact ⟨_, rfl⟩
      | some parent =>
          obtain ⟨above, rfl, order⟩ := rooted place ref found parent parentEquality
          exact rooted.path_ok fuel above _ (by omega) (by omega)

theorem Rooted.qualifiedName_ok (rooted : tree.Rooted heap) {place : Nat}
    (inside : place < tree.size) :
    ∃ name, tree.qualifiedName heap (some (place : Int)) = .ok name := by
  obtain ⟨names, equality⟩ :=
    rooted.path_ok (tree.size + 1) place [] (by omega) inside
  exact ⟨".".intercalate names, by rw [qualifiedName, equality]; rfl⟩

end ModuleTree

namespace Heap

variable {heap other : Heap}

/-- The tensors of a module depend on its fields only. -/
theorem tensorFields_congr {ref : Ref .module}
    (fields : (other.module ref).fields = (heap.module ref).fields) :
    other.tensorFields ref = heap.tensorFields ref := by
  rw [tensorFields, tensorFields, fields]

theorem parameterCount_congr {ref : Ref .module}
    (fields : (other.module ref).fields = (heap.module ref).fields) :
    other.parameterCount ref = heap.parameterCount ref := by
  rw [parameterCount, parameterCount, tensorFields_congr fields]

end Heap

end TorchArchive
