import TorchArchive.Value

/-!
Stores: objects of one kind, named by references in the order in which they were
made. A store only grows; `Store.get_set` says what a change does to every
reference.
-/

namespace TorchArchive

/-- The objects of a kind. -/
structure Store (kind : Kind) (α : Type) where
  cells : Array α

namespace Store

variable {kind : Kind} {α : Type}

def empty : Store kind α := ⟨#[]⟩

instance : Inhabited (Store kind α) := ⟨empty⟩

def size (store : Store kind α) : Nat := store.cells.size

/-- Whether a reference names an object of the store. -/
def Holds (store : Store kind α) (ref : Ref kind) : Prop := ref.index < store.size

instance (store : Store kind α) (ref : Ref kind) : Decidable (store.Holds ref) :=
  inferInstanceAs (Decidable (ref.index < store.size))

/-- The reference that the next object gets. -/
def next (store : Store kind α) : Ref kind := ⟨store.size⟩

/-- Adds an object under the next reference. -/
def add (store : Store kind α) (object : α) : Store kind α :=
  ⟨store.cells.push object⟩

/-- The object of a reference. -/
def get [Inhabited α] (store : Store kind α) (ref : Ref kind) : α :=
  store.cells.getD ref.index default

/-- Replaces the object of a reference. The references on the way to one that names
no object yet come to name the default object, which is what they stand for. -/
def set [Inhabited α] (store : Store kind α) (ref : Ref kind) (object : α) :
    Store kind α :=
  ⟨(store.cells.rightpad (ref.index + 1) default).setIfInBounds ref.index object⟩

/-- Changes the object of a reference. -/
def update [Inhabited α] (store : Store kind α) (ref : Ref kind) (change : α → α) :
    Store kind α :=
  store.set ref (change (store.get ref))

@[simp] theorem size_empty : (empty : Store kind α).size = 0 := rfl

@[simp] theorem size_add (store : Store kind α) (object : α) :
    (store.add object).size = store.size + 1 := by
  simp [size, add]

variable [Inhabited α]

/-- A reference that names no object stands for the default object. -/
theorem get_of_not_holds (store : Store kind α) {ref : Ref kind}
    (dangling : ¬ store.Holds ref) : store.get ref = default := by
  have outside : store.cells.size ≤ ref.index := Nat.le_of_not_lt dangling
  simp [get, Array.getD_eq_getD_getElem?, outside]

@[simp] theorem size_set (store : Store kind α) (ref : Ref kind) (object : α) :
    (store.set ref object).size = max store.size (ref.index + 1) := by
  simp [size, set]
  omega

theorem get_add_next (store : Store kind α) (object : α) :
    (store.add object).get store.next = object := by
  simp [get, add, next, size]

theorem get_add_of_holds (store : Store kind α) (object : α) {ref : Ref kind}
    (held : store.Holds ref) : (store.add object).get ref = store.get ref := by
  have small : ref.index < store.cells.size := held
  have distinct : ref.index ≠ store.cells.size := by omega
  simp only [get, add, Array.getD_eq_getD_getElem?, Array.getElem?_push,
    if_neg distinct]

/-- A new object is seen through the next reference only. -/
theorem get_add (store : Store kind α) (other : Ref kind) (object : α) :
    (store.add object).get other =
      if store.next = other then object else store.get other := by
  by_cases same : store.next = other
  · rw [if_pos same, ← same]
    exact get_add_next store object
  · have distinct : other.index ≠ store.cells.size := by
      intro equality
      apply same
      cases other
      simp only [next, size, Ref.mk.injEq] at equality ⊢
      exact equality.symm
    rw [if_neg same]
    simp only [get, add, Array.getD_eq_getD_getElem?, Array.getElem?_push,
      if_neg distinct]

private theorem getD_rightpad (cells : Array α) (width index : Nat) :
    (cells.rightpad width default).getD index default =
      cells.getD index default := by
  by_cases inside : index < cells.size
  · simp [Array.getD_eq_getD_getElem?, Array.rightpad, Array.getElem?_append, inside]
  · simp only [Array.getD_eq_getD_getElem?, Array.rightpad, Array.getElem?_append,
      if_neg inside, Array.getElem?_replicate,
      Array.getElem?_eq_none (Nat.le_of_not_lt inside)]
    split <;> rfl

/-- A change is seen through its own reference only. -/
@[simp] theorem get_set (store : Store kind α) (ref other : Ref kind) (object : α) :
    (store.set ref object).get other =
      if ref = other then object else store.get other := by
  by_cases same : ref = other
  · subst same
    have inside :
        ref.index < (store.cells.rightpad (ref.index + 1) default).size := by
      simp only [Array.size_rightpad]
      omega
    rw [if_pos rfl]
    simp only [get, set, Array.getD_eq_getD_getElem?]
    rw [Array.getElem?_setIfInBounds_self_of_lt inside]
    rfl
  · have distinct : ref.index ≠ other.index := by
      intro equality
      exact same (by cases ref; cases other; simp_all)
    rw [if_neg same]
    simp only [get, set, Array.getD_eq_getD_getElem?,
      Array.getElem?_setIfInBounds_ne distinct]
    rw [← Array.getD_eq_getD_getElem?, ← Array.getD_eq_getD_getElem?]
    exact getD_rightpad store.cells (ref.index + 1) other.index

@[simp] theorem get_update (store : Store kind α) (ref other : Ref kind)
    (change : α → α) :
    (store.update ref change).get other =
      if ref = other then change (store.get ref) else store.get other :=
  get_set store ref other (change (store.get ref))

end Store

end TorchArchive
