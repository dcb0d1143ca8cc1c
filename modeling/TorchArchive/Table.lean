/-!
Tables: finite maps from names that remember the order in which the names were
first bound. Rebinding a name keeps its place.
-/

namespace TorchArchive

/-- A finite map whose keys keep the order of their first insertion. -/
structure Table (κ : Type) (α : Type) where
  entries : List (κ × α)
  deriving DecidableEq, Repr

namespace Table

variable {κ α : Type}

def empty : Table κ α := ⟨[]⟩

instance : Inhabited (Table κ α) := ⟨empty⟩
instance : EmptyCollection (Table κ α) := ⟨empty⟩

def keys (table : Table κ α) : List κ := table.entries.map (·.1)

def values (table : Table κ α) : List α := table.entries.map (·.2)

def size (table : Table κ α) : Nat := table.entries.length

variable [DecidableEq κ]

private def find (key : κ) : List (κ × α) → Option α
  | [] => none
  | (k, a) :: rest => if k = key then some a else find key rest

/-- The value bound to a key. -/
def get? (table : Table κ α) (key : κ) : Option α := find key table.entries

def contains (table : Table κ α) (key : κ) : Bool := (table.get? key).isSome

private def put (key : κ) (value : α) : List (κ × α) → List (κ × α)
  | [] => [(key, value)]
  | (k, a) :: rest =>
      if k = key then (k, value) :: rest else (k, a) :: put key value rest

/-- Binds a key: in its old place if it has one, else at the end. -/
def insert (table : Table κ α) (key : κ) (value : α) : Table κ α :=
  ⟨put key value table.entries⟩

/-- Binds every pair in turn. -/
def insertAll (table : Table κ α) (pairs : List (κ × α)) : Table κ α :=
  pairs.foldl (fun table pair => table.insert pair.1 pair.2) table

/-- The table of a list of pairs; the last of several pairs with one key
counts. -/
def ofList (pairs : List (κ × α)) : Table κ α := empty.insertAll pairs

@[simp] theorem get?_empty (key : κ) : (empty : Table κ α).get? key = none := rfl

private theorem find_put (key other : κ) (value : α) (entries : List (κ × α)) :
    find other (put key value entries) =
      if key = other then some value else find other entries := by
  induction entries with
  | nil => simp [put, find]
  | cons entry rest ih =>
      obtain ⟨k, a⟩ := entry
      by_cases same : k = key
      · subst same
        by_cases wanted : k = other <;> simp [put, find, wanted]
      · by_cases wanted : key = other
        · subst wanted
          simp [put, find, same, ih]
        · by_cases here : k = other
          · subst here
            simp [put, find, same, wanted]
          · simp [put, find, same, here, ih, wanted]

@[simp] theorem get?_insert (table : Table κ α) (key other : κ) (value : α) :
    (table.insert key value).get? other =
      if key = other then some value else table.get? other :=
  find_put key other value table.entries

theorem get?_insert_self (table : Table κ α) (key : κ) (value : α) :
    (table.insert key value).get? key = some value := by simp

theorem get?_insert_of_ne (table : Table κ α) {key other : κ} (value : α)
    (distinct : key ≠ other) :
    (table.insert key value).get? other = table.get? other := by simp [distinct]

/-- A binding that is found is one of the entries. -/
theorem mem_of_get? {table : Table κ α} {key : κ} {value : α}
    (found : table.get? key = some value) : (key, value) ∈ table.entries := by
  rw [get?] at found
  revert found
  generalize table.entries = entries
  intro found
  induction entries with
  | nil => cases found
  | cons entry rest ih =>
      obtain ⟨k, a⟩ := entry
      rw [find] at found
      split at found
      · rename_i same
        cases found
        rw [same]
        exact List.mem_cons_self
      · exact List.mem_cons_of_mem _ (ih found)

/-- Where keys are distinct, an entry is what its key is bound to. -/
theorem get?_of_mem {table : Table κ α} (distinct : table.keys.Nodup) {key : κ}
    {value : α} (member : (key, value) ∈ table.entries) :
    table.get? key = some value := by
  rw [keys] at distinct
  rw [get?]
  revert distinct member
  generalize table.entries = entries
  intro distinct member
  induction entries with
  | nil => cases member
  | cons entry rest ih =>
      obtain ⟨k, a⟩ := entry
      obtain ⟨new, distinctRest⟩ := List.nodup_cons.mp distinct
      rw [find]
      rcases List.mem_cons.mp member with same | later
      · cases same
        rw [if_pos rfl]
      · have other : k ≠ key := by
          rintro rfl
          exact new (List.mem_map.mpr ⟨(k, value), later, rfl⟩)
        rw [if_neg other]
        exact ih distinctRest later

/-- An entry of a table with one more binding is the binding or was there before. -/
theorem mem_insert {table : Table κ α} {key other : κ} {value found : α}
    (member : (other, found) ∈ (table.insert key value).entries) :
    (other = key ∧ found = value) ∨ (other, found) ∈ table.entries := by
  rw [insert] at member
  dsimp only at member
  revert member
  generalize table.entries = entries
  intro member
  induction entries with
  | nil =>
      rw [put, List.mem_singleton] at member
      cases member
      exact Or.inl ⟨rfl, rfl⟩
  | cons entry rest ih =>
      obtain ⟨k, a⟩ := entry
      rw [put] at member
      split at member
      · rename_i same
        rcases List.mem_cons.mp member with first | later
        · cases first
          exact Or.inl ⟨same, rfl⟩
        · exact Or.inr (List.mem_cons_of_mem _ later)
      · rcases List.mem_cons.mp member with first | later
        · rw [first]
          exact Or.inr List.mem_cons_self
        · rcases ih later with new | old
          · exact Or.inl new
          · exact Or.inr (List.mem_cons_of_mem _ old)

/-- A new key is bound at the end. -/
theorem entries_insert_of_not_mem {table : Table κ α} {key : κ} (new : key ∉ table.keys)
    (value : α) : (table.insert key value).entries = table.entries ++ [(key, value)] := by
  rw [keys] at new
  rw [insert]
  revert new
  generalize table.entries = entries
  intro new
  induction entries with
  | nil => rfl
  | cons entry rest ih =>
      obtain ⟨k, a⟩ := entry
      rw [List.map_cons, List.mem_cons, not_or] at new
      rw [put, if_neg (Ne.symm new.1)]
      exact congrArg ((k, a) :: ·) (ih new.2)

private theorem keys_put (key : κ) (value : α) (entries : List (κ × α)) :
    (put key value entries).map (·.1) =
      if key ∈ entries.map (·.1) then entries.map (·.1)
      else entries.map (·.1) ++ [key] := by
  induction entries with
  | nil => simp [put]
  | cons entry rest ih =>
      obtain ⟨k, a⟩ := entry
      by_cases same : k = key
      · simp [put, same]
      · have other : key ≠ k := fun equality => same equality.symm
        by_cases member : key ∈ rest.map (·.1)
        · simp only [List.map_cons, put, same, if_false, ih, if_pos member]
          simp [member]
        · simp only [List.map_cons, put, same, if_false, ih, if_neg member]
          simp only [List.mem_cons, other, member, or_self, if_false,
            List.cons_append]

/-- Binding keeps the order of the keys and puts a new key at the end. -/
theorem keys_insert (table : Table κ α) (key : κ) (value : α) :
    (table.insert key value).keys =
      if key ∈ table.keys then table.keys else table.keys ++ [key] :=
  keys_put key value table.entries

end Table

end TorchArchive
