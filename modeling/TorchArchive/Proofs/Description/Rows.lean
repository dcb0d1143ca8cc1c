import Mathlib.Algebra.GroupWithZero.Nat
import TorchArchive.Archive.Opening
import TorchArchive.Proofs.Steps

/-!
# What descriptions tell

A description lists tensors and tells a tree of modules.  Both are read off the document
here, without a heap: a row for each tensor of the table, and for each module the tensors
in its fields and the modules inside.  From these alone the nodes of the modules can be
told, in the order of the document.
-/

namespace TorchArchive.Description

/-! ## Tensors -/

/-- What an item of the table tells of a tensor. -/
structure TensorRow where
  type : StorageType
  extents : Option (List Int)
  /-- The entry of the archive that holds the bytes, inside of the folder. -/
  key : String
  offset : Int

/-- Reads an item of the table. -/
def readTensor (definition : Datum) : Except Fault TensorRow := do
  let type ← storageTypeOf (← entry definition "dataType" .none)
  let extents ← extents definition
  let key ← dataKey definition
  let offset ← integerOf (← entry definition "offset" (.int 0))
  return ⟨type, extents, key, offset⟩

/-- The view of the data of a tensor. -/
def TensorRow.view (folder : String) (entries : List Entry) (displayLimit : Datum)
    (row : TensorRow) : Initializer where
  name := row.key
  dataType := some row.type.dataType
  dims := row.extents.map fun extents => extents.map .int
  data := Entry.data? entries (folder ++ row.key)
  offset := .int row.offset
  displayLimit := displayLimit

/-! ## Modules -/

/-- What a definition tells of a module: its parameters and arguments, each with the place
of its tensor in the table, and the modules inside of it by their names. -/
inductive ModuleRow where
  | mk (parameters : List (String × Int)) (submodules : List (String × ModuleRow))

namespace ModuleRow

mutual

/-- The number of modules. -/
def count : ModuleRow → Nat
  | mk _ submodules => countAll submodules + 1

def countAll : List (String × ModuleRow) → Nat
  | [] => 0
  | (_, row) :: rest => row.count + countAll rest

end

mutual

/-- The places of all tensors. -/
def places : ModuleRow → List Int
  | mk parameters submodules => parameters.map (·.2) ++ allPlaces submodules

def allPlaces : List (String × ModuleRow) → List Int
  | [] => []
  | (_, row) :: rest => row.places ++ allPlaces rest

end

mutual

/-- The names of all that a module holds are distinct, and those of submodules are not
empty and do not begin with two underscores. -/
def Lawful : ModuleRow → Prop
  | mk parameters submodules =>
      (submodules.map (·.1) ++ parameters.map (·.1)).Nodup ∧ AllLawful submodules

def AllLawful : List (String × ModuleRow) → Prop
  | [] => True
  | (name, row) :: rest =>
      (name ≠ "" ∧ name.startsWith "__" = false) ∧ row.Lawful ∧ AllLawful rest

end

/-- Whether a place is one of a table with so many items. -/
def IsPlace (size : Nat) (place : Int) : Prop := 0 ≤ place ∧ place < size

/-- All tensors are in a table with so many items. -/
def InRange (size : Nat) (row : ModuleRow) : Prop := ∀ place ∈ row.places, IsPlace size place

theorem count_pos (row : ModuleRow) : 0 < row.count := by
  cases row with
  | mk parameters submodules => exact Nat.succ_pos _

theorem countAll_eq (submodules : List (String × ModuleRow)) :
    countAll submodules = (submodules.map fun entry => entry.2.count).sum := by
  induction submodules with
  | nil => rfl
  | cons first rest inductionHypothesis =>
      rw [countAll, inductionHypothesis, List.map_cons, List.sum_cons]

theorem allPlaces_eq (submodules : List (String × ModuleRow)) :
    allPlaces submodules = submodules.flatMap fun entry => entry.2.places := by
  induction submodules with
  | nil => rfl
  | cons first rest inductionHypothesis =>
      rw [allPlaces, inductionHypothesis, List.flatMap_cons]

theorem AllLawful.of_mem {submodules : List (String × ModuleRow)}
    (lawful : AllLawful submodules) {entry : String × ModuleRow} (member : entry ∈ submodules) :
    (entry.1 ≠ "" ∧ entry.1.startsWith "__" = false) ∧ entry.2.Lawful := by
  induction submodules with
  | nil => cases member
  | cons first rest inductionHypothesis =>
      obtain ⟨named, lawfulFirst, lawfulRest⟩ := lawful
      rcases List.mem_cons.mp member with rfl | later
      · exact ⟨named, lawfulFirst⟩
      · exact inductionHypothesis lawfulRest later

theorem inRange_mk_iff {size : Nat} {parameters : List (String × Int)}
    {submodules : List (String × ModuleRow)} :
    (mk parameters submodules).InRange size ↔
      (∀ parameter ∈ parameters, IsPlace size parameter.2) ∧
        ∀ entry ∈ submodules, entry.2.InRange size := by
  simp only [InRange, places, allPlaces_eq, List.forall_mem_append, List.forall_mem_map,
    List.mem_flatMap]
  constructor
  · rintro ⟨own, below⟩
    exact ⟨own, fun entry member place inside => below place ⟨entry, member, inside⟩⟩
  · rintro ⟨own, below⟩
    refine ⟨own, ?_⟩
    rintro place ⟨entry, member, inside⟩
    exact below entry member place inside

/-! ### Nodes -/

/-- The input of a module's node for a parameter. -/
def input (views : List Initializer) (parameter : String × Int) : GraphParameter :=
  ⟨.str parameter.1, true, [⟨"", views[parameter.2.toNat]?, none⟩]⟩

/-- The node of a module by itself, if it has a parameter besides the bookkeeping one. -/
def ownNodes (views : List Initializer) (path : List String)
    (parameters : List (String × Int)) : List Node :=
  if parameters.any fun parameter => parameter.1 != Heap.bookkeepingField then
    [{ operator := "Module"
       name := ".".intercalate path
       inputs := parameters.map (input views)
       outputs := []
       attributes := []
       category := .str ""
       documentation := .none }]
  else []

mutual

/-- The nodes of a module and of the modules inside of it, each below the module that it is
told in. -/
def nodes (views : List Initializer) (path : List String) : ModuleRow → List Node
  | mk parameters submodules =>
      ownNodes views path parameters ++ allNodes views path submodules

def allNodes (views : List Initializer) (path : List String) :
    List (String × ModuleRow) → List Node
  | [] => []
  | (name, row) :: rest => row.nodes views (path ++ [name]) ++ allNodes views path rest

end

end ModuleRow

/-! ## Definitions -/

/-- Parameters tell fields, which are tensors of the table.  Those that tell no tensor are
passed over. -/
inductive TellParameters : List Datum → List (String × Int) → Prop where
  | nil : TellParameters [] []
  | skip {parameter : Datum} {rest : List Datum} {fields : List (String × Int)} :
      tellsTensor parameter = .ok false → TellParameters rest fields →
      TellParameters (parameter :: rest) fields
  | field {parameter : Datum} {rest : List Datum} {fields : List (String × Int)}
      {name : String} {place : Int} :
      tellsTensor parameter = .ok true →
      neededEntry parameter tensorKey >>= integerOf = .ok place →
      neededEntry parameter "name" = .ok (.str name) → TellParameters rest fields →
      TellParameters (parameter :: rest) ((name, place) :: fields)

mutual

/-- A definition tells of a module. -/
inductive Tells : Datum → ModuleRow → Prop where
  | mk {definition : Datum} {items listed : List Datum} {parameters : List (String × Int)}
      {submodules : List (String × ModuleRow)} :
      entry definition "submodules" (.list []) >>= Catalogue.itemsOf = .ok items →
      listedParameters definition = .ok listed → TellParameters listed parameters →
      TellAll items submodules → Tells definition (.mk parameters submodules)

/-- Definitions tell of modules, each by its name. -/
inductive TellAll : List Datum → List (String × ModuleRow) → Prop where
  | nil : TellAll [] []
  | cons {definition : Datum} {rest : List Datum} {name : String} {row : ModuleRow}
      {rows : List (String × ModuleRow)} :
      entry definition "name" (.str "") = .ok (.str name) → Tells definition row →
      TellAll rest rows → TellAll (definition :: rest) ((name, row) :: rows)

end

/-! ### Sizes -/

/-- What has entries is a dictionary. -/
theorem entry?_eq_ok {object : Datum} {name : String} {found : Option Datum}
    (finds : entry? object name = .ok found) :
    ∃ ordered entries, object = .dict ordered entries ∧ found = Datum.lookup name entries := by
  cases object with
  | dict ordered entries => exact ⟨ordered, entries, rfl, (Except.ok.inj finds).symm⟩
  | _ => cases finds

theorem size_lookup_lt {name : String} {entries : List (Datum × Datum)} {found : Datum}
    (finds : Datum.lookup name entries = some found) (ordered : Bool) :
    found.size < (Datum.dict ordered entries).size := by
  rw [Datum.size_dict]
  induction entries with
  | nil => cases finds
  | cons first rest inductionHypothesis =>
      rw [List.map_cons, List.foldr_cons]
      rw [Datum.lookup] at finds
      split at finds
      · cases finds
        have positive := first.1.size_pos
        omega
      · have later := inductionHypothesis finds
        omega

/-- An entry is smaller than the object, unless it is the default. -/
theorem entry_eq_ok {object default found : Datum} {name : String}
    (finds : entry object name default = .ok found) :
    found = default ∨ found.size < object.size := by
  obtain ⟨result, looks, same⟩ := Except.bind_eq_ok_iff.mp finds
  cases same
  obtain ⟨ordered, entries, rfl, rfl⟩ := entry?_eq_ok looks
  cases held : Datum.lookup name entries with
  | none => exact Or.inl rfl
  | some datum => exact Or.inr (size_lookup_lt held ordered)

/-- Definitions that tell something are parts of what lists them. -/
theorem TellAll.size_le {datum : Datum} {items : List Datum}
    {rows : List (String × ModuleRow)} (tell : TellAll items rows)
    (lists : Catalogue.itemsOf datum = .ok items) :
    (items.map Datum.size).sum < datum.size ∨ items = [] := by
  rw [Catalogue.itemsOf.eq_def] at lists
  split at lists
  · cases lists
    exact Or.inl (by rw [Datum.size_list]; exact Nat.lt_succ_self _)
  · cases lists
    exact Or.inl (by rw [Datum.size_tuple]; exact Nat.lt_succ_self _)
  · rename_i ordered entries
    cases lists
    left
    rw [Datum.size_dict, Nat.lt_succ_iff]
    clear tell
    induction entries with
    | nil => exact Nat.le_refl 0
    | cons entry _ inductionHypothesis =>
        simp only [List.map_cons, List.sum_cons, List.foldr_cons]
        omega
  · rename_i text
    cases lists
    right
    -- A character tells nothing, so the text is empty.
    cases characters : text.toList with
    | nil => rfl
    | cons first rest =>
        rw [characters] at tell
        cases tell with
        | cons named => cases named
  · cases lists

mutual

/-- A definition tells of no more modules than it has parts. -/
theorem Tells.count_le : ∀ {definition : Datum} {row : ModuleRow},
    Tells definition row → row.count ≤ definition.size
  | definition, _, .mk lists _ _ tell => by
      obtain ⟨datum, finds, lists⟩ := Except.bind_eq_ok_iff.mp lists
      have below := tell.count_le
      have positive := definition.size_pos
      rw [ModuleRow.count]
      rcases tell.size_le lists with smaller | rfl
      · rcases entry_eq_ok finds with rfl | inside
        · cases lists
          rw [List.map_nil, List.sum_nil] at below
          omega
        · omega
      · rw [List.map_nil, List.sum_nil] at below
        omega

theorem TellAll.count_le : ∀ {items : List Datum} {rows : List (String × ModuleRow)},
    TellAll items rows → ModuleRow.countAll rows ≤ (items.map Datum.size).sum
  | _, _, .nil => Nat.le_refl 0
  | _, _, .cons _ tells tellRest => by
      rw [ModuleRow.countAll, List.map_cons, List.sum_cons]
      exact Nat.add_le_add tells.count_le tellRest.count_le

end

end TorchArchive.Description
