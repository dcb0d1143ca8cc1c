import TorchArchive.Proofs.Evaluation.Qualified
import TorchArchive.Proofs.Package.Definitions

/-!
# Annotations of classes

In the body of a class `__annotations__[k] = v` records what a field is annotated with: in
the dictionary that the class has, or in a new one, which the class has from then on.  No
other dictionary changes.  But a class that has none yet takes one that is in sight, of the
package or of a class around it, for its own: it is recorded there, and the class has none.
-/

namespace TorchArchive

/-- The statement that annotates a field. -/
def Stmt.annotate (field type : Expr) : Stmt :=
  .assign (.item (.identifier typesKey) field) type

namespace Heap

variable {heap before after : Heap} {scope : Scope} {members : Ref .table} {ref : Ref .dict}
  {field type : Value} {key : Key}

/-! ## Dictionaries of annotations -/

/-- The annotations that a table has. -/
def types? (heap : Heap) (table : Ref .table) : Option Value :=
  (heap.table table).get? typesKey

/-- A class has an annotation: in the dictionary that it had, or in one that is new.  Every
other dictionary is as it was. -/
structure Annotated (before after : Heap) (members : Ref .table) (field type : Value)
    (ref : Ref .dict) : Prop where
  own : after.types? members = some (.dict ref)
  entry : after.item? (.dict ref) field = some type
  oldOrNew : before.types? members = some (.dict ref) ∨ ¬ before.dicts.Holds ref
  others : ∀ other, other ≠ ref → after.dict other = before.dict other

/-- A class has no annotations, and a dictionary of them is in sight around it. -/
def SeesOthers (heap : Heap) (scope : Scope) (members : Ref .table) : Prop :=
  heap.types? members = none ∧ ∃ ref, heap.lookup scope typesKey = .dict ref

/-- What the other tables have are dictionaries that exist, and the class has none of
them. -/
def TypesApart (heap : Heap) (members : Ref .table) : Prop :=
  ∀ table, table ≠ members → ∀ ref, heap.types? table = some (.dict ref) →
    heap.dicts.Holds ref ∧ heap.types? members ≠ some (.dict ref)

/-- The heap with an entry in a dictionary. -/
def record (heap : Heap) (ref : Ref .dict) (key : Key) (field type : Value) : Heap :=
  heap.setDict ref
    { heap.dict ref with entries := (heap.dict ref).entries.put key field type }

theorem dict_record (heap : Heap) (ref other : Ref .dict) (key : Key) (field type : Value) :
    (heap.record ref key field type).dict other =
      if ref = other then
        { heap.dict ref with entries := (heap.dict ref).entries.put key field type }
      else heap.dict other :=
  Store.get_set heap.dicts ref other _

theorem item_record (heap : Heap) (ref : Ref .dict) (isKey : field.key? = some key) :
    (heap.record ref key field type).item? (.dict ref) field = some type := by
  have found : (heap.record ref key field type).dict ref =
      { heap.dict ref with entries := (heap.dict ref).entries.put key field type } := by
    rw [dict_record, if_pos rfl]
  simp [item?, isKey, found, Entries.put]

/-- The heap in which a table has a new dictionary of annotations. -/
def withTypes (heap : Heap) (members : Ref .table) : Heap :=
  (heap.addDict ⟨false, .empty⟩).2.bind members typesKey (.dict heap.dicts.next)

theorem types?_withTypes (heap : Heap) (members : Ref .table) :
    (heap.withTypes members).types? members = some (.dict heap.dicts.next) := by
  rw [types?, withTypes, table_bind, if_pos rfl, Table.get?_insert_self]

theorem table_withTypes (heap : Heap) {table : Ref .table} (other : table ≠ members) :
    (heap.withTypes members).table table = heap.table table := by
  rw [withTypes, table_bind, if_neg other.symm]
  rfl

theorem dict_withTypes (heap : Heap) (members : Ref .table) {other : Ref .dict}
    (old : other ≠ heap.dicts.next) : (heap.withTypes members).dict other = heap.dict other := by
  have added := Store.get_add heap.dicts other (⟨false, .empty⟩ : Dict)
  rw [if_neg old.symm] at added
  exact added

/-! ## Recording an annotation -/

/-- A class that has a dictionary records in it. -/
theorem annotated_record (isKey : field.key? = some key)
    (own : heap.types? members = some (.dict ref)) :
    heap.Annotated (heap.record ref key field type) members field type ref where
  own := own
  entry := item_record heap ref isKey
  oldOrNew := .inl own
  others := by
    intro other distinct
    rw [dict_record, if_neg distinct.symm]

/-- A class that has none records in a new one. -/
theorem annotated_withTypes (isKey : field.key? = some key) (members : Ref .table) :
    heap.Annotated ((heap.withTypes members).record heap.dicts.next key field type) members
      field type heap.dicts.next where
  own := heap.types?_withTypes members
  entry := item_record _ _ isKey
  oldOrNew := .inr (Store.next_not_holds heap.dicts)
  others := by
    intro other distinct
    rw [dict_record, if_neg distinct.symm, heap.dict_withTypes members distinct]

/-- A class shares none of the dictionaries if it has none, or one that it had or that is
new. -/
theorem TypesApart.keep (apart : before.TypesApart members)
    (tables : ∀ table, table ≠ members → after.table table = before.table table)
    (kept : ∀ ref, before.dicts.Holds ref → after.dicts.Holds ref)
    (own : ∀ ref, after.types? members = some (.dict ref) →
      before.types? members = some (.dict ref) ∨ ¬ before.dicts.Holds ref) :
    after.TypesApart members := by
  intro table other ref has
  rw [types?, tables table other] at has
  obtain ⟨held, notOwn⟩ := apart table other ref has
  refine ⟨kept ref held, fun shared => ?_⟩
  rcases own ref shared with old | new
  · exact notOwn old
  · exact new held

/-- The heap behind an annotation in a scope: the dictionary that is in sight has it, or a
new one. -/
def annotate (heap : Heap) (scope : Scope) (key : Key) (field type : Value) : Heap :=
  match heap.lookup scope typesKey with
  | .dict ref => heap.record ref key field type
  | _ => (heap.withTypes scope.inner.table).record heap.dicts.next key field type

theorem annotate_of_dict (seen : heap.lookup scope typesKey = .dict ref) :
    heap.annotate scope key field type = heap.record ref key field type := by
  rw [annotate, seen]

theorem annotate_of_other (other : ∀ ref, heap.lookup scope typesKey ≠ .dict ref) :
    heap.annotate scope key field type =
      (heap.withTypes scope.inner.table).record heap.dicts.next key field type := by
  rw [annotate]
  split
  · rename_i ref seen
    exact absurd seen (other ref)
  · rfl

/-- Nothing is bound but in the innermost frame. -/
theorem table_annotate {table : Ref .table} (other : table ≠ scope.inner.table) :
    (heap.annotate scope key field type).table table = heap.table table := by
  rw [annotate]
  split
  · rfl
  · exact heap.table_withTypes other

theorem holds_annotate (held : heap.dicts.Holds ref) :
    (heap.annotate scope key field type).dicts.Holds ref := by
  rw [annotate]
  split
  · exact Store.holds_set held _ _
  · exact Store.holds_set (Store.holds_add held _) _ _

/-- The class has the annotation, or it has none and what is in sight around it has. -/
theorem annotate_cases (scope : Scope) (members : Ref .table) (isKey : field.key? = some key) :
    (¬ heap.SeesOthers scope members ∧
        ∃ ref, heap.Annotated (heap.annotate (scope.push members) key field type) members
          field type ref) ∨
      heap.types? members = none ∧
        ∃ ref, heap.lookup scope typesKey = .dict ref ∧
          heap.annotate (scope.push members) key field type =
            heap.record ref key field type := by
  cases own : heap.types? members with
  | none =>
      have outward : heap.lookup (scope.push members) typesKey = heap.lookup scope typesKey :=
        lookup_push_of_fresh own
      by_cases inSight : ∃ ref, heap.lookup scope typesKey = .dict ref
      · obtain ⟨ref, seen⟩ := inSight
        exact .inr ⟨rfl, ref, seen, annotate_of_dict (outward.trans seen)⟩
      · refine .inl ⟨fun sees => inSight sees.2, heap.dicts.next, ?_⟩
        rw [annotate_of_other (outward ▸ not_exists.mp inSight)]
        exact annotated_withTypes isKey members
  | some found =>
      have inside : heap.lookup (scope.push members) typesKey = found :=
        lookup_push_of_bound own
      have unseen : ¬ heap.SeesOthers scope members := by
        intro sees
        have never := own.symm.trans sees.1
        cases never
      by_cases isDict : ∃ ref, found = .dict ref
      · obtain ⟨ref, rfl⟩ := isDict
        refine .inl ⟨unseen, ref, ?_⟩
        rw [annotate_of_dict inside]
        exact annotated_record isKey own
      · refine .inl ⟨unseen, heap.dicts.next, ?_⟩
        rw [annotate_of_other (inside ▸ not_exists.mp isDict)]
        exact annotated_withTypes isKey members

end Heap

/-! ## Executing an annotation -/

section Execution

variable {calls : Calls} {scope : Scope} {members : Ref .table} {ref : Ref .dict}
  {index value : Expr} {field type : Value} {key : Key} {before between ready : Machine}

theorem putItem_dict {name : String} {machine : Machine} (isKey : field.key? = some key) :
    putItem name (.dict ref) field type machine =
      .ok () (machine.withHeap (machine.heap.record ref key field type)) := by
  have puts : (machine.heap.dict ref).entries.put? field type =
      some ((machine.heap.dict ref).entries.put key field type) := by
    rw [Entries.put?, isKey, Option.map_some]
  rw [putItem]
  refine (EStateM.bind_of_ok rfl).trans ?_
  simp only [puts]
  rfl

/-- The dictionary that is in sight is found, or a new one is made. -/
theorem typesDict_eq (scope : Scope) (machine : Machine) :
    ∃ ref found, typesDict scope (machine.heap.lookup scope typesKey) machine =
        .ok (.dict ref) found ∧
      ∀ key field type, found.withHeap (found.heap.record ref key field type) =
        machine.withHeap (machine.heap.annotate scope key field type) := by
  by_cases inSight : ∃ ref, machine.heap.lookup scope typesKey = .dict ref
  · obtain ⟨ref, seen⟩ := inSight
    rw [seen]
    refine ⟨ref, machine, rfl, fun key field type => ?_⟩
    rw [Heap.annotate_of_dict seen]
  · have other := not_exists.mp inSight
    refine ⟨machine.heap.dicts.next, machine.withHeap (machine.heap.withTypes scope.inner.table),
      ?_, fun key field type => ?_⟩
    · generalize machine.heap.lookup scope typesKey = seen at other
      cases seen with
      | dict ref => exact absurd rfl (other ref)
      | _ => rfl
    · rw [Heap.annotate_of_other other]
      rfl

/-- An annotation ends if its parts do and the key can be one. -/
theorem execute_annotate
    (evaluates : evaluate calls scope value before = .ok type between)
    (indexes : evaluate calls scope index between = .ok field ready)
    (isKey : field.key? = some key) :
    execute calls scope (.annotate index value) before =
      .ok none (ready.withHeap (ready.heap.annotate scope key field type)) := by
  obtain ⟨ref, found, finds, records⟩ := typesDict_eq scope ready
  rw [← records key field type]
  have assigns : assign calls scope (.item (.identifier typesKey) index) type between =
      .ok () (found.withHeap (found.heap.record ref key field type)) := by
    rw [assign]
    refine (EStateM.bind_of_ok indexes).trans ?_
    refine (EStateM.bind_of_ok rfl).trans ?_
    rw [if_pos rfl]
    exact (EStateM.bind_of_ok finds).trans (putItem_dict isKey)
  rw [Stmt.annotate, execute]
  refine (EStateM.bind_of_ok evaluates).trans ?_
  exact EStateM.bind_of_ok assigns

/-- The body of a class runs in a new frame, which holds the members of the class. -/
theorem declareClass_eq (scope : Scope) (name : String) (start : Machine) :
    ∃ entered,
      declareClass scope name start = .ok (scope.push start.heap.tables.next) entered := by
  let module := ((start.heap.lookup scope moduleNameKey).str?).getD ""
  let heap := (start.heap.addModuleClass module name).2.bindIn scope name
    (.moduleClass start.heap.moduleClasses.next)
  have made : heap.moduleClass start.heap.moduleClasses.next =
      ⟨module, name, start.heap.tables.next⟩ := Store.get_add_next start.heap.moduleClasses _
  refine ⟨start.withHeap heap, ?_⟩
  change EStateM.Result.ok (scope.push (heap.moduleClass start.heap.moduleClasses.next).members)
    (start.withHeap heap) = _
  rw [made]

/-- Whatever ran in the body of a class, `__annotations__[k] = v` ends if its parts do and
the key can be one.  It is recorded in a dictionary that the class has, its own or a new one,
while no other dictionary changes, unless the class has none and sees one around it; then it
is recorded in that one.  Either way no other table changes, and the class comes to share
no dictionary. -/
theorem annotated_iff_not_seesOthers {start entered : Machine} {name : String} {inner : Scope}
    {front : List Stmt} (declares : declareClass scope name start = .ok inner entered)
    (runs : executeAll calls inner front entered = .ok none before)
    (evaluates : evaluate calls inner value before = .ok type between)
    (indexes : evaluate calls inner index between = .ok field ready)
    (hashable : field.key?.isSome = true) :
    ∃ members after, inner = scope.push members ∧ ¬ start.heap.tables.Holds members ∧
      execute calls inner (.annotate index value) before = .ok none after ∧
      (∀ table, table ≠ members → after.heap.table table = ready.heap.table table) ∧
      (ready.heap.TypesApart members → after.heap.TypesApart members) ∧
      ((∃ ref, ready.heap.Annotated after.heap members field type ref) ↔
        ¬ ready.heap.SeesOthers scope members) ∧
      ∀ ref, ready.heap.types? members = none → ready.heap.lookup scope typesKey = .dict ref →
        after.heap.types? members = none ∧ after.heap.item? (.dict ref) field = some type := by
  obtain ⟨key, isKey⟩ := Option.isSome_iff_exists.mp hashable
  obtain ⟨_, declared⟩ := declareClass_eq scope name start
  rw [declares] at declared
  cases declared
  let members := start.heap.tables.next
  have tables (table : Ref .table) (other : table ≠ members) :
      (ready.heap.annotate (scope.push members) key field type).table table =
        ready.heap.table table := Heap.table_annotate other
  have kept (ref : Ref .dict) (held : ready.heap.dicts.Holds ref) :
      (ready.heap.annotate (scope.push members) key field type).dicts.Holds ref :=
    Heap.holds_annotate held
  refine ⟨members, _, rfl, Store.next_not_holds start.heap.tables,
    execute_annotate evaluates indexes isKey, tables, fun apart => apart.keep tables kept ?_, ?_⟩
  all_goals
    rcases Heap.annotate_cases scope members isKey with
      ⟨unseen, ref, annotated⟩ | ⟨none_, ref, seen, records⟩
  · intro other own
    have same := annotated.own.symm.trans own
    cases same
    exact annotated.oldOrNew
  · intro other own
    rw [Machine.heap_withHeap, records] at own
    have never := none_.symm.trans own
    cases never
  · refine ⟨iff_of_true ⟨ref, annotated⟩ unseen, ?_⟩
    intro other none_ seen
    exact absurd ⟨none_, other, seen⟩ unseen
  · rw [Machine.heap_withHeap, records]
    refine ⟨iff_of_false ?_ (not_not_intro ⟨none_, ref, seen⟩), ?_⟩
    · intro annotated
      obtain ⟨other, annotated⟩ := annotated
      have never := none_.symm.trans annotated.own
      cases never
    · intro other _ isOther
      rw [seen] at isOther
      cases isOther
      exact ⟨none_, Heap.item_record ready.heap ref isKey⟩

end Execution

namespace SharedAnnotations

/-- `__annotations__["b"] = 2` -/
def typing (field : String) (type : Int) : Stmt :=
  .annotate (.literal (.str field)) (.literal (.int type))

/-- A package with annotations of its own and two classes with a field each. -/
def body : List Stmt :=
  [typing "a" 1, .classDef "A" [] [typing "b" 2], .classDef "B" [] [typing "c" 3]]

def sources : Sources where
  program := fun file => .ok ⟨body, file⟩
  constants := none
  constantStorages := .empty

/-- In the body of a class at the outermost level. -/
theorem annotated_iff_not_seesOthers_literal :
    ∃ entered inner members after,
      declareClass Machine.initial.root "A" .initial = .ok inner entered ∧
        inner = Machine.initial.root.push members ∧
        ¬ Machine.initial.heap.tables.Holds members ∧
        execute (Calls.of sources) inner (typing "b" 2) entered = .ok none after ∧
        ((∃ ref, entered.heap.Annotated after.heap members (.str "b") (.int 2) ref) ↔
          ¬ entered.heap.SeesOthers Machine.initial.root members) := by
  obtain ⟨entered, declares⟩ := declareClass_eq Machine.initial.root "A" .initial
  let inner := Machine.initial.root.push Machine.initial.heap.tables.next
  have runs : executeAll (Calls.of sources) inner [] entered = .ok none entered := by
    rw [executeAll]
    rfl
  have types : evaluate (Calls.of sources) inner (.literal (.int 2)) entered =
      .ok (.int 2) entered := by
    rw [evaluate]
    rfl
  have fields : evaluate (Calls.of sources) inner (.literal (.str "b")) entered =
      .ok (.str "b") entered := by
    rw [evaluate]
    rfl
  obtain ⟨members, after, same, fresh, executes, _, _, told, _⟩ :=
    annotated_iff_not_seesOthers declares runs types fields rfl
  exact ⟨entered, inner, members, after, declares, same, fresh, executes, told⟩

/-- Whether an entry of a dictionary is an integer. -/
def tells (heap : Heap) (ref : Ref .dict) (field : String) (type : Int) : Bool :=
  match heap.item? (.dict ref) (.str field) with
  | some (.atom (.int n)) => n == type
  | _ => false

/-- Whether two classes of a package have no annotations, and the package has theirs. -/
def areShared (heap : Heap) (package : Value) : Bool :=
  match heap.member? package "A", heap.member? package "B", heap.member? package typesKey with
  | some (.moduleClass first), some (.moduleClass second), some (.dict ref) =>
      (heap.types? (heap.moduleClass first).members).isNone &&
        (heap.types? (heap.moduleClass second).members).isNone &&
          tells heap ref "b" 2 && tells heap ref "c" 3
  | _, _, _ => false

def loadsShared (machine : Machine) : Bool :=
  match (Calls.of sources).package "p" none machine with
  | .ok ref after => areShared after.heap (.package ref)
  | .error _ _ => false

set_option maxRecDepth 100000 in
private theorem shares : loadsShared .initial = true := by
  rw [Machine.initial_eq]
  decide +kernel

theorem item_of_tells {heap : Heap} {ref : Ref .dict} {field : String} {type : Int}
    (told : tells heap ref field type = true) :
    heap.item? (.dict ref) (.str field) = some (.int type) := by
  rw [tells] at told
  split at told
  · rename_i n found
    rw [found, eq_of_beq told]
    rfl
  · cases told

/-- The annotations of both classes are in the dictionary of the package, and the classes
have none. -/
theorem exists_shared :
    ∃ package after first second ref,
      (Calls.of sources).package "p" none .initial = .ok package after ∧
        after.heap.member? (.package package) "A" = some (.moduleClass first) ∧
        after.heap.member? (.package package) "B" = some (.moduleClass second) ∧
        after.heap.member? (.package package) typesKey = some (.dict ref) ∧
        after.heap.types? (after.heap.moduleClass first).members = none ∧
        after.heap.types? (after.heap.moduleClass second).members = none ∧
        after.heap.item? (.dict ref) (.str "b") = some (.int 2) ∧
        after.heap.item? (.dict ref) (.str "c") = some (.int 3) := by
  have shared := shares
  rw [loadsShared] at shared
  split at shared
  · rename_i package after loads
    rw [areShared] at shared
    split at shared
    · rename_i first second ref isFirst isSecond isTypes
      simp only [Bool.and_eq_true, Option.isNone_iff_eq_none] at shared
      obtain ⟨⟨⟨noneFirst, noneSecond⟩, tellsFirst⟩, tellsSecond⟩ := shared
      exact ⟨package, after, first, second, ref, loads, isFirst, isSecond, isTypes, noneFirst,
        noneSecond, item_of_tells tellsFirst, item_of_tells tellsSecond⟩
    · cases shared
  · cases shared

end SharedAnnotations

end TorchArchive
