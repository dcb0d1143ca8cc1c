import Mathlib.Logic.Relation
import TorchArchive.Proofs.Builtins
import TorchArchive.Proofs.Growth

/-!
# What archive code can change

Archive code adds objects to the heap, fills lists and dictionaries, binds names and
sets fields of modules.  It has no way to a module's place in a tree, or to the owner of
a tensor, and it binds names only where it may: among the members of packages and classes,
and beyond them in the tables of its own scopes.  Whatever survives the single changes
survives a run of them.
-/

namespace TorchArchive

/-- A permission to bind names in tables. -/
abbrev Permission := Ref .table → String → Prop

/-- The permission to bind every name in every table. -/
abbrev Permission.everywhere : Permission := fun _ _ => True

namespace Heap

/-- Whether a table holds the members of a package or of a class. -/
def HoldsMembers (heap : Heap) (table : Ref .table) : Prop :=
  (∃ ref, (heap.package ref).members = table) ∨ ∃ ref, (heap.moduleClass ref).members = table

/-- One change of the heap by archive code that binds names among members and where it is
permitted. -/
inductive Edit (heap : Heap) (permitted : Permission) : Heap → Prop where
  | list (items : List Value) : Edit heap permitted (heap.addList items).2
  | dict (dict : Dict) : Edit heap permitted (heap.addDict dict).2
  | table (table : Table String Value) : Edit heap permitted (heap.addTable table).2
  | storage (storage : Storage) : Edit heap permitted (heap.addStorage storage).2
  | function (function : Function) : Edit heap permitted (heap.addFunction function).2
  | moduleClass (module name : String) :
      Edit heap permitted (heap.addModuleClass module name).2
  | package (name : String) : Edit heap permitted (heap.addPackage name).2
  | module (moduleClass : Ref .moduleClass) :
      Edit heap permitted (heap.addModule (.fresh moduleClass)).2
  | setList (ref : Ref .list) (items : List Value) :
      Edit heap permitted (heap.setList ref items)
  | setDict (ref : Ref .dict) (dict : Dict) : Edit heap permitted (heap.setDict ref dict)
  | bind (ref : Ref .table) (name : String) (value : Value)
      (allowed : permitted ref name ∨ heap.HoldsMembers ref) :
      Edit heap permitted (heap.bind ref name value)
  | setFile (ref : Ref .package) (file : Option String) :
      Edit heap permitted (heap.updatePackage ref ({ · with file := file }))
  | setFields (ref : Ref .module) (change : Entries → Entries) :
      Edit heap permitted
        (heap.updateModule ref fun module =>
          { module with fields := change module.fields })

/-- Any number of changes. -/
abbrev Edits (heap : Heap) (permitted : Permission) (after : Heap) : Prop :=
  Relation.ReflTransGen (fun before after => before.Edit permitted after) heap after

variable {heap after : Heap} {permitted : Permission}

@[simp] theorem package_bind (ref : Ref .table) (name : String) (value : Value)
    (other : Ref .package) : (heap.bind ref name value).package other = heap.package other := rfl

theorem Edit.once (edit : heap.Edit permitted after) : heap.Edits permitted after :=
  .single edit

/-- Archive code makes and changes tensors by way of the registry only. -/
theorem Edit.tensors_eq (edit : heap.Edit permitted after) : after.tensors = heap.tensors := by
  cases edit with
  | _ => rfl

theorem Edit.holds_list {ref : Ref .list} (edit : heap.Edit permitted after)
    (held : heap.lists.Holds ref) : after.lists.Holds ref := by
  cases edit with
  | list items => exact Store.holds_add held items
  | setList changed items => exact Store.holds_set held changed items
  | _ => exact held

/-- One change of the heap takes no table away. -/
theorem Edit.holds_table {ref : Ref .table} (edit : heap.Edit permitted after)
    (held : heap.tables.Holds ref) : after.tables.Holds ref := by
  cases edit with
  | table table => exact Store.holds_add held table
  | moduleClass module name => exact Store.holds_add held .empty
  | package name => exact Store.holds_add held .empty
  | bind changed name value allowed => exact Store.holds_set held changed _
  | _ => exact held

theorem setMember_edits {target : Value} {name : String} {value : Value}
    (sets : heap.setMember target name value = .ok after) : heap.Edits permitted after := by
  cases target with
  | package ref =>
      cases sets
      exact (Edit.bind _ name value (.inr (.inl ⟨ref, rfl⟩))).once
  | module ref =>
      cases sets
      exact (Edit.setFields ref (·.putName name value)).once
  | moduleClass ref =>
      cases sets
      exact (Edit.bind _ name value (.inr (.inr ⟨ref, rfl⟩))).once
  | dict ref =>
      cases sets
      exact (Edit.setDict ref _).once
  | _ => cases sets

theorem setPath_edits {value : Value} :
    ∀ (parts : List String) {heap after : Heap} {owner : Value} {done : String},
      heap.setPath owner done value parts = .ok after → heap.Edits permitted after
  | [], heap, after, owner, done, sets => by
      cases sets
      exact .refl
  | [last], heap, after, owner, done, sets => setMember_edits sets
  | part :: next :: rest, heap, after, owner, done, sets => by
      simp only [setPath] at sets
      split at sets
      · obtain ⟨between, member, path⟩ := Except.bind_eq_ok_iff.mp sets
        exact ((Edit.package _).once.trans (setMember_edits member)).trans
          (setPath_edits (next :: rest) path)
      · exact setPath_edits (next :: rest) sets

theorem bindQualified_edits {scope : Scope} {name : String} {value : Value}
    (allowed : ∀ name, permitted scope.inner.table name)
    (binds : heap.bindQualified scope name value = .ok after) :
    heap.Edits permitted after := by
  rw [bindQualified] at binds
  split at binds
  · cases binds
    exact .refl
  · cases binds
    exact (Edit.bind _ _ value (.inl (allowed _))).once
  · dsimp only at binds
    split at binds
    · exact ((Edit.package _).once.trans (Edit.bind _ _ _ (.inl (allowed _))).once).trans
        (setPath_edits _ binds)
    · exact setPath_edits _ binds

end Heap

/-- The builtins are bound by changes of the heap. -/
theorem Registry.initial_edits :
    (Heap.initial.addTable .empty).2.Edits .everywhere Registry.initial.1 := by
  have bound (bindings : List (String × Value)) (root : Scope) (heap : Heap) :
      heap.Edits .everywhere (bindings.foldl (bindEntry root) heap) := by
    induction bindings generalizing heap with
    | nil => exact .refl
    | cons binding rest inductionHypothesis =>
        refine .trans ?_ (inductionHypothesis _)
        unfold bindEntry
        split
        · exact Heap.bindQualified_edits (fun _ => trivial) ‹_›
        · exact .refl
  unfold Registry.initial
  generalize Registry.bindings = bindings
  exact bound bindings _ _

theorem Machine.heap_initial : Machine.initial.heap = Registry.initial.1 := by
  rw [Machine.initial]
  cases Registry.initial
  rfl

namespace Recording

/-- A property of recordings that archive code cannot end where it binds names as
permitted. -/
structure Persists (property : Recording → Prop)
    (permitted : Permission := .everywhere) : Prop where
  edit :
    ∀ {heap after : Heap} {trace : Trace}, heap.Edit permitted after →
      property ⟨heap, trace⟩ → property ⟨after, trace⟩
  unnamed :
    ∀ {recording : Recording} {tensor : Ref .list → Tensor},
      (∀ outputs, (tensor outputs).outputs = outputs ∧
        (tensor outputs).owner = none ∧ (tensor outputs).initializer = none) →
        property recording → property (recording.addWith [] tensor)
  fresh :
    ∀ {recording : Recording} (change : Tensor → Tensor),
      (∀ tensor, (change tensor).outputs = tensor.outputs ∧
        (change tensor).owner = tensor.owner ∧
        (change tensor).initializer = tensor.initializer) →
        property recording → property (recording.addFresh change)
  call :
    ∀ {recording : Recording} (name : String) (positional : List Value)
      (keywords : List (String × Value)), property recording →
        property (recording.call name positional keywords).2
  placeholder :
    ∀ {recording : Recording} (name : String) (size : Value), property recording →
      property (recording.placeholder (some name) size).2
  identify :
    ∀ {recording : Recording} (ref : Ref .tensor), property recording →
      property (recording.identify ref).2

/-- A property that neither archive code ends nor the start or the failure of a trace,
where the calls are forgotten. -/
structure Endures (property : Recording → Prop)
    (permitted : Permission := .everywhere) : Prop extends Persists property permitted where
  reset : ∀ {recording : Recording}, property recording → property recording.reset
  rollback :
    ∀ {recording : Recording}, property recording → property recording.rollback

variable {property : Recording → Prop} {permitted : Permission}

section Identifying

variable
  (identify :
    ∀ {recording : Recording} (ref : Ref .tensor), property recording →
      property (recording.identify ref).2)

include identify

/-- Whatever stays where one tensor is asked for its name stays where several are. -/
theorem identifyAll_keeps :
    ∀ (refs : List (Ref .tensor)) {recording : Recording}, property recording →
      property (recording.identifyAll refs).2
  | [], _, before => before
  | ref :: rest, _, before => identifyAll_keeps rest (identify ref before)

/-- The inputs of a call are asked for their names, and nothing else happens. -/
theorem inputs_keeps :
    ∀ (values : List Value) {recording : Recording}, property recording →
      property (recording.inputs values).2
  | [], _, before => before
  | value :: rest, recording, before => by
      rw [Recording.inputs]
      split
      · exact before
      · exact inputs_keeps rest (identifyAll_keeps identify _ before)

end Identifying

namespace Persists

theorem survives (persists : Persists property permitted) : Survives property where
  list := fun items before => persists.edit (.list items) before
  dict := fun dict before => persists.edit (.dict dict) before
  unnamed := persists.unnamed
  fresh := persists.fresh

theorem edits (persists : Persists property permitted) {heap after : Heap} {trace : Trace}
    (edits : heap.Edits permitted after) (before : property ⟨heap, trace⟩) :
    property ⟨after, trace⟩ := by
  induction edits with
  | refl => exact before
  | tail _ edit inductionHypothesis => exact persists.edit edit inductionHypothesis

theorem identifyAll (persists : Persists property permitted) (refs : List (Ref .tensor))
    {recording : Recording} (before : property recording) :
    property (recording.identifyAll refs).2 :=
  identifyAll_keeps persists.identify refs before

end Persists

/-- Beside its edits only the tensors of a heap change, so a property of the other objects
endures if no edit ends it. -/
theorem endures_of_edit {property : Heap → Prop}
    (edit : ∀ {heap after : Heap}, heap.Edit permitted after → property heap → property after)
    (flow : ∀ {heap : Heap} tensors, property heap → property { heap with tensors }) :
    Endures (fun recording => property recording.heap) permitted := by
  have listed {heap : Heap} (items : List Value) (tensors : Store .tensor Tensor)
      (before : property heap) : property { (heap.addList items).2 with tensors } :=
    flow tensors (edit (.list items) before)
  have identify {recording : Recording} (ref : Ref .tensor) (before : property recording.heap) :
      property (recording.identify ref).2.heap := by
    rw [Recording.identify]
    split
    · exact before
    · exact listed _ _ before
  constructor
  case toPersists =>
    constructor
    case edit => exact fun step before => edit step before
    case unnamed => exact fun _ before => listed _ _ before
    case fresh => exact fun _ _ before => listed _ _ before
    case call =>
      intro recording name positional keywords before
      have inputs := @inputs_keeps (fun recording => property recording.heap) identify
        positional (recording.placeholder none .none).2 (listed _ _ before)
      exact identify (recording.placeholder none .none).1 inputs
    case placeholder => exact fun _ _ before => listed _ _ before
    case identify => exact identify
  case reset => exact fun before => before
  case rollback =>
    intro recording before
    exact List.foldlRecOn (motive := property) recording.trace.identified _ before
      fun _ before _ _ => listed _ _ before

end Recording

end TorchArchive
