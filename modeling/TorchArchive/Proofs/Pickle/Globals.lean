import TorchArchive.Pickle.Load
import TorchArchive.Proofs.Growth
import TorchArchive.Proofs.Package.Loading

/-!
# Names in streams

A name in a stream leads to a builtin, or to a new class of an archive that has no source
for it.  The builtins that tensors are read with stay in their places while a heap grows.
-/

namespace TorchArchive

namespace Heap

/-- What a path leads to, from a table on through the packages that are bound on the way. -/
def walk? (heap : Heap) (table : Ref .table) : List String → Option Value
  | [] => none
  | [last] => (heap.table table).get? last
  | part :: rest =>
      match (heap.table table).get? part with
      | some (.package ref) =>
          if heap.packages.Holds ref then heap.walk? (heap.package ref).members rest else none
      | _ => none

variable {heap after : Heap} {root : Ref .table} {parts : List String} {value : Value}

theorem holds_of_get? {table : Ref .table} {name : String}
    (found : (heap.table table).get? name = some value) : heap.tables.Holds table := by
  by_contra dangling
  rw [Heap.table, Store.get_of_not_holds _ dangling] at found
  cases found

theorem Keeps.get? (keeps : heap.Keeps after) {table : Ref .table} {name : String}
    (found : (heap.table table).get? name = some value) :
    (after.table table).get? name = some value := by
  have same : after.table table = heap.table table :=
    (keeps.tables table (holds_of_get? found)).2
  rw [same, found]

theorem Keeps.walk? (keeps : heap.Keeps after) {table : Ref .table}
    (leads : heap.walk? table parts = some value) : after.walk? table parts = some value := by
  fun_induction heap.walk? table parts with
  | case1 => cases leads
  | case2 table last => exact keeps.get? leads
  | case3 table part rest more ref bound held inductionHypothesis =>
      obtain ⟨heldAfter, same⟩ := keeps.packages ref held
      have same : after.package ref = heap.package ref := same
      rw [Heap.walk?, keeps.get? bound]
      · dsimp only
        rw [if_pos heldAfter, same, inductionHypothesis leads]
      · exact more
  | case4 => cases leads
  | case5 => cases leads

theorem follow_of_walk? {ref : Ref .package}
    (leads : heap.walk? (heap.package ref).members parts = some value) :
    heap.follow (.package ref) parts = value := by
  induction parts generalizing ref with
  | nil => cases leads
  | cons part rest inductionHypothesis =>
      rw [follow, if_neg (by simp [Value.isMissing]), findMember, member?]
      cases rest with
      | nil =>
          rw [walk?] at leads
          rw [leads, Option.getD_some, follow]
      | cons next others =>
          rw [walk?] at leads
          · split at leads
            · rename_i child bound
              split at leads
              · rw [bound, Option.getD_some]
                exact inductionHypothesis leads
              · cases leads
            · cases leads
          · rintro ⟨⟩

/-- A name that leads somewhere along packages is looked up there. -/
theorem lookupQualified_of_walk? {name : String}
    (leads : heap.walk? root (nameParts name) = some value) :
    heap.lookupQualified (.outermost root) name = value := by
  rw [lookupQualified]
  split
  · rename_i none_
    rw [none_] at leads
    cases leads
  · rename_i first rest split_
    rw [split_] at leads
    have found (bound : (heap.table root).get? first ≠ none) :
        heap.lookup (.outermost root) first = ((heap.table root).get? first).getD .missing := by
      obtain ⟨found, isFound⟩ := Option.ne_none_iff_exists'.mp bound
      rw [lookup, Scope.outermost, Scope.frames, search, isFound]
      rfl
    cases rest with
    | nil =>
        rw [walk?] at leads
        rw [follow, found (by simp [leads]), leads, Option.getD_some]
    | cons next others =>
        rw [walk?] at leads
        · split at leads
          · rename_i child bound
            split at leads
            · rw [found (by simp [bound]), bound, Option.getD_some]
              exact follow_of_walk? leads
            · cases leads
          · cases leads
        · rintro ⟨⟩

/-- A name that begins with something unbound leads nowhere. -/
theorem lookupQualified_of_unbound {name first : String} {rest : List String}
    (split : nameParts name = first :: rest) (unbound : (heap.table root).get? first = none) :
    heap.lookupQualified (.outermost root) name = .missing := by
  have missing : heap.lookup (.outermost root) first = .missing := by
    rw [lookup, Scope.outermost, Scope.frames, search, unbound]
    rfl
  rw [lookupQualified, split]
  dsimp only
  rw [missing]
  cases rest with
  | nil => rfl
  | cons next others => rfl

end Heap

namespace Pickle

/-! ## Builtins -/

/-- The names that tensors are read with, and what they stand for. -/
def tensorGlobals : List ((String × String) × Value) :=
  (("torch._utils", "_rebuild_tensor_v2"), .builtin .rebuildTensor) ::
    (("collections", "OrderedDict"), .builtin .orderedDict) ::
      StorageType.all.map fun type => ((StorageType.package, type.name), .storageType type)

theorem mem_tensorGlobals (type : StorageType) :
    ((StorageType.package, type.name), .storageType type) ∈ tensorGlobals := by
  refine List.mem_cons_of_mem _ (List.mem_cons_of_mem _ (List.mem_map_of_mem ?_))
  cases type <;> decide

/-- The names of builtins lead to them, and no builtin has the name of archives. -/
structure Serves (root : Ref .table) (heap : Heap) : Prop where
  held : heap.tables.Holds root
  unbound : (heap.table root).get? "__torch__" = none
  leads :
    ∀ entry ∈ tensorGlobals,
      heap.walk? root (Heap.nameParts (entry.1.1 ++ "." ++ entry.1.2)) = some entry.2

theorem Serves.keeps {root : Ref .table} {heap after : Heap} (serves : Serves root heap)
    (keeps : heap.Keeps after) : Serves root after := by
  obtain ⟨held, same⟩ := keeps.tables root serves.held
  have same : after.table root = heap.table root := same
  exact ⟨held, by rw [same, serves.unbound], fun entry member =>
    keeps.walk? (serves.leads entry member)⟩

/-- Whether the names lead to the builtins outermost. -/
def isServing (machine : Machine) : Bool :=
  let root := machine.root.inner.table
  decide (machine.heap.tables.Holds root) &&
    (((machine.heap.table root).get? "__torch__").isNone &&
      tensorGlobals.all fun entry =>
        (machine.heap.walk? root (Heap.nameParts (entry.1.1 ++ "." ++ entry.1.2))).any
          entry.2.identical)

set_option maxRecDepth 100000 in
private theorem isServing_initial : isServing .initial = true := by
  rw [Machine.initial_eq]
  decide +kernel

theorem builtin_or_storageType {entry : (String × String) × Value}
    (member : entry ∈ tensorGlobals) :
    (∃ builtin, entry.2 = .builtin builtin) ∨ ∃ type, entry.2 = .storageType type := by
  rcases List.mem_cons.mp member with rfl | member
  · exact Or.inl ⟨_, rfl⟩
  · rcases List.mem_cons.mp member with rfl | member
    · exact Or.inl ⟨_, rfl⟩
    · obtain ⟨type, _, rfl⟩ := List.mem_map.mp member
      exact Or.inr ⟨_, rfl⟩

theorem serves_of_isServing {machine : Machine} (serving : isServing machine = true) :
    Serves machine.root.inner.table machine.heap := by
  rw [isServing, Bool.and_eq_true, Bool.and_eq_true, List.all_eq_true] at serving
  obtain ⟨held, unbound, leads⟩ := serving
  refine ⟨of_decide_eq_true held, Option.isNone_iff_eq_none.mp unbound, fun entry member => ?_⟩
  obtain ⟨value, isValue, same⟩ := (Option.any_eq_true _ _).mp (leads entry member)
  rw [isValue]
  rcases builtin_or_storageType member with ⟨builtin, isBuiltin⟩ | ⟨type, isType⟩
  · rw [isBuiltin] at same ⊢
    cases value with
    | builtin other => rw [beq_iff_eq.mp same]
    | _ => exact absurd same Bool.false_ne_true
  · rw [isType] at same ⊢
    cases value with
    | storageType other => rw [beq_iff_eq.mp same]
    | _ => exact absurd same Bool.false_ne_true

theorem serves_initial : Serves Machine.initial.root.inner.table Machine.initial.heap :=
  serves_of_isServing isServing_initial

section Globals

variable {sources : Sources} {calls : Calls} {machine : Machine} {root : Ref .table}

/-- The name of a builtin stands for it, and nothing happens. -/
theorem findGlobal_builtin (serves : Serves root machine.heap)
    (isRoot : machine.root = .outermost root) {module name : String} {value : Value}
    (member : ((module, name), value) ∈ tensorGlobals) :
    findGlobal calls module name machine = .ok value machine := by
  have leads := Heap.lookupQualified_of_walk? (serves.leads _ member)
  rw [← isRoot] at leads
  have present : value.isMissing = false := by
    rcases builtin_or_storageType member with ⟨builtin, rfl⟩ | ⟨type, rfl⟩ <;> rfl
  have found : resolve calls (module ++ "." ++ name) machine = .ok value machine := by
    rw [resolve_of_found (by rw [leads, present]), leads]
  refine EStateM.bind_eq_ok_iff.mpr
    ⟨value, machine, EStateM.tryCatch_eq_ok_iff.mpr (Or.inl found), ?_⟩
  rw [present]
  rfl

/-- The modules of archives, whose names all begin with the same part. -/
theorem exists_parts {module : String} (archive : isArchiveModule module = true) (name : String) :
    ∃ rest, Heap.nameParts (module ++ "." ++ name) = "__torch__" :: rest := by
  have first : Heap.nameParts "__torch__" = ["__torch__"] :=
    Heap.nameParts_of_dotless (by decide)
  rw [isArchiveModule, Bool.or_eq_true] at archive
  rcases archive with same | starts
  · rw [beq_iff_eq.mp same, Heap.nameParts_append, first]
    exact ⟨_, rfl⟩
  · obtain ⟨path, isPath⟩ := String.startsWith_string_iff.mp starts
    have text : module = "__torch__" ++ "." ++ String.ofList path := by
      apply String.toList_injective
      rw [String.toList_append, String.toList_append, String.toList_ofList (l := path), ← isPath]
      rfl
    rw [text, Heap.nameParts_append, Heap.nameParts_append, first]
    exact ⟨_, rfl⟩

/-- A name in a module of archives without source stands for a new class. -/
theorem findGlobal_class (serves : Serves root machine.heap)
    (isRoot : machine.root = .outermost root) {module name : String}
    (unknown : machine.packages.get? module = none)
    (noSource : sources.program (packageFile module) =
      .error (.missingSource (packageFile module)))
    (archive : isArchiveModule module = true) (dotless : '.' ∉ name.toList)
    (plain : '\x00' ∉ name.toList) :
    findGlobal (Calls.of sources) module name machine =
      .ok (.moduleClass machine.heap.moduleClasses.next)
        ((machine.asked (packageFile module)).withHeap
          (machine.heap.addModuleClass module name).2) := by
  obtain ⟨rest, parts⟩ := exists_parts archive name
  have missing := Heap.lookupQualified_of_unbound parts serves.unbound
  rw [← isRoot] at missing
  have owned : module ≠ "" := by
    rintro rfl
    exact absurd archive (by decide)
  have fails : resolve (Calls.of sources) (module ++ "." ++ name) machine =
      .error (.missingSource (packageFile module)) (machine.asked (packageFile module)) := by
    rw [resolve_of_missing _ (by rw [missing]; rfl), splitLast_append dotless, if_neg owned]
    exact EStateM.bind_eq_error_iff.mpr (Or.inl (Machine.package_of_noSource unknown noSource))
  refine EStateM.bind_eq_ok_iff.mpr ⟨.missing, machine.asked (packageFile module),
    EStateM.tryCatch_eq_ok_iff.mpr (Or.inr ⟨_, _, fails, rfl⟩), ?_⟩
  change (if isArchiveModule module then
      if name.toList.contains '\x00' then throw (.value "a class name holds no null character")
      else .moduleClass <$> Run.allocate fun heap => heap.addModuleClass module name
    else _ : Run Value) _ = _
  rw [if_pos archive, if_neg (by rwa [List.contains_iff_mem])]
  rfl

end Globals

end Pickle

end TorchArchive
