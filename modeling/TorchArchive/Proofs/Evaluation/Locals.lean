import TorchArchive.Proofs.Archive.Constants
import TorchArchive.Proofs.Evaluation.Changes

/-!
# Locals

A function runs in a frame of its own.  No package and no class has the frame for its
members and the outermost scope is another one, so nothing binds names in the frame but
the statements that are executed in it.
-/

namespace TorchArchive

/-! ## Tables that are frames -/

namespace Heap

/-- The members of packages and classes are among the tables. -/
def Founded (heap : Heap) : Prop :=
  ∀ table, heap.HoldsMembers table → heap.tables.Holds table

/-- A table that holds members of no package and of no class. -/
def IsFrame (heap : Heap) (table : Ref .table) : Prop :=
  heap.tables.Holds table ∧ ¬ heap.HoldsMembers table

variable {heap after : Heap} {permitted : Permission} {table : Ref .table}

/-- Members are held by the tables that held them, and those of a new package or class by a
new table. -/
theorem Edit.holdsMembers (edit : heap.Edit permitted after)
    (members : after.HoldsMembers table) :
    heap.HoldsMembers table ∨ table = heap.tables.next ∧ after.tables.Holds table := by
  cases edit with
  | package name =>
      rcases members with ⟨ref, isMembers⟩ | ⟨ref, isMembers⟩
      · have shown := Store.get_add heap.packages ref ⟨name, none, heap.tables.next⟩
        by_cases new : heap.packages.next = ref
        · rw [if_pos new] at shown
          have isNext := isMembers.symm.trans (congrArg Package.members shown)
          exact .inr ⟨isNext, isNext ▸ Store.holds_next heap.tables .empty⟩
        · rw [if_neg new] at shown
          exact .inl (.inl ⟨ref, (congrArg Package.members shown).symm.trans isMembers⟩)
      · exact .inl (.inr ⟨ref, isMembers⟩)
  | moduleClass module name =>
      rcases members with ⟨ref, isMembers⟩ | ⟨ref, isMembers⟩
      · exact .inl (.inl ⟨ref, isMembers⟩)
      · have shown := Store.get_add heap.moduleClasses ref ⟨module, name, heap.tables.next⟩
        by_cases new : heap.moduleClasses.next = ref
        · rw [if_pos new] at shown
          have isNext := isMembers.symm.trans (congrArg ModuleClass.members shown)
          exact .inr ⟨isNext, isNext ▸ Store.holds_next heap.tables .empty⟩
        · rw [if_neg new] at shown
          exact .inl (.inr ⟨ref, (congrArg ModuleClass.members shown).symm.trans isMembers⟩)
  | setFile changed file =>
      rcases members with ⟨ref, isMembers⟩ | ⟨ref, isMembers⟩
      · refine .inl (.inl ⟨ref, ?_⟩)
        rw [Heap.package, updatePackage, Store.get_update] at isMembers
        split at isMembers
        · rename_i same
          rw [← same]
          exact isMembers
        · exact isMembers
      · exact .inl (.inr ⟨ref, isMembers⟩)
  | _ => exact .inl members

theorem Edit.founded (edit : heap.Edit permitted after) (founded : heap.Founded) :
    after.Founded := by
  intro table members
  rcases edit.holdsMembers members with old | ⟨_, held⟩
  · exact edit.holds_table (founded table old)
  · exact held

theorem Edit.isFrame (edit : heap.Edit permitted after) (frame : heap.IsFrame table) :
    after.IsFrame table := by
  refine ⟨edit.holds_table frame.1, fun members => ?_⟩
  rcases edit.holdsMembers members with old | ⟨rfl, _⟩
  · exact frame.2 old
  · exact Store.next_not_holds heap.tables frame.1

/-- A frame stays as it is, or a name is bound in it that may be. -/
theorem Edit.table_frame (edit : heap.Edit permitted after) (frame : heap.IsFrame table) :
    after.table table = heap.table table ∨
      ∃ name value, permitted table name ∧
        after.table table = (heap.table table).insert name value := by
  have added (new : Table String Value) :
      (heap.tables.add new).get table = heap.tables.get table :=
    Store.get_add_of_holds heap.tables new frame.1
  cases edit with
  | table new => exact .inl (added new)
  | moduleClass module name => exact .inl (added .empty)
  | package name => exact .inl (added .empty)
  | bind ref name value allowed =>
      have shown := Store.get_update heap.tables ref table (·.insert name value)
      by_cases same : ref = table
      · subst same
        rw [if_pos rfl] at shown
        have allowed := allowed.resolve_right frame.2
        exact .inr ⟨name, value, allowed, shown⟩
      · rw [if_neg same] at shown
        exact .inl shown
  | _ => exact .inl rfl

/-- A new table is no members of anything. -/
theorem Founded.isFrame_addTable (founded : heap.Founded) (new : Table String Value) :
    (heap.addTable new).2.IsFrame heap.tables.next := by
  refine ⟨Store.holds_next heap.tables new, fun members => ?_⟩
  exact Store.next_not_holds heap.tables (founded _ members)

end Heap

namespace Machine

/-! ## Machines that own their tables -/

/-- The outermost scope and the members of packages and classes are among the tables. -/
structure Founded (machine : Machine) : Prop where
  rooted : machine.Rooted
  heap : machine.heap.Founded

/-- A table that neither is the outermost scope nor holds members. -/
def IsLocal (machine : Machine) (table : Ref .table) : Prop :=
  machine.root.inner.table ≠ table ∧ machine.heap.IsFrame table

variable {machine before after : Machine} {table : Ref .table}

theorem initial_founded : initial.Founded := by
  have edits {heap after : Heap} (edits : heap.Edits .everywhere after)
      (founded : heap.Founded) : after.Founded := by
    induction edits with
    | refl => exact founded
    | tail _ edit inductionHypothesis => exact edit.founded inductionHypothesis
  refine ⟨initial_rooted, ?_⟩
  rw [heap_initial]
  refine edits Registry.initial_edits fun table members => ?_
  -- Nothing but the base class has members, and they are in the first table.
  have first : table = ⟨0⟩ := by
    rcases members with ⟨ref, isMembers⟩ | ⟨⟨ref⟩, isMembers⟩
    · exact isMembers.symm
    · cases ref with
      | zero => exact isMembers.symm
      | succ ref => exact isMembers.symm
  rw [first]
  decide

theorem Changes.founded (change : before.Changes after) (founded : before.Founded) :
    after.Founded := by
  cases change with
  | edit edit => exact ⟨edit.holds_table founded.rooted, edit.founded founded.heap⟩
  | flow tensors trace => exact ⟨founded.rooted, founded.heap⟩
  | rest packages constants requests events => exact ⟨founded.rooted, founded.heap⟩

theorem ChangesOn.founded (changes : before.ChangesOn after) (founded : before.Founded) :
    after.Founded := by
  induction changes with
  | refl => exact founded
  | tail _ change inductionHypothesis => exact change.founded inductionHypothesis

theorem Changes.isLocal (change : before.Changes after) (isLocal : before.IsLocal table) :
    after.IsLocal table := by
  cases change with
  | edit edit => exact ⟨isLocal.1, edit.isFrame isLocal.2⟩
  | flow tensors trace => exact ⟨isLocal.1, isLocal.2⟩
  | rest packages constants requests events => exact ⟨isLocal.1, isLocal.2⟩

theorem ChangesOn.isLocal (changes : before.ChangesOn after)
    (isLocal : before.IsLocal table) : after.IsLocal table := by
  induction changes with
  | refl => exact isLocal
  | tail _ change inductionHypothesis => exact change.isLocal inductionHypothesis

/-! ## What happens to a frame -/

/-- Everybody may bind names outside of a frame. -/
theorem IsLocal.permits {permitted : Permission}
    (elsewhere : ∀ ref name, ref ≠ table → permitted ref name)
    (isLocal : machine.IsLocal table) : machine.Permits permitted where
  root := fun name => elsewhere _ name isLocal.1
  fresh := fun name => elsewhere _ name <| by
    rintro rfl
    exact Store.next_not_holds _ isLocal.2.1
  package := fun ref name => elsewhere _ name fun same =>
    isLocal.2.2 (.inl ⟨ref, same⟩)
  moduleClass := fun ref name => elsewhere _ name fun same =>
    isLocal.2.2 (.inr ⟨ref, same⟩)

/-- What the bindings that are permitted in a frame do not end stays true of the frame. -/
theorem frame_endures {sources : Sources} {permitted : Permission}
    {kept : Table String Value → Prop}
    (elsewhere : ∀ ref name, ref ≠ table → permitted ref name)
    (inside :
      ∀ name value bindings, permitted table name → kept bindings →
        kept (bindings.insert name value)) :
    Endures sources (fun machine => machine.IsLocal table ∧ kept (machine.heap.table table))
      permitted := by
  have recording (machine : Machine) :
      Recording.Endures
        (fun recording =>
          { machine with recording }.IsLocal table ∧ kept (recording.heap.table table))
        permitted := by
    refine @Recording.endures_of_edit permitted
      (fun heap =>
        { machine with recording := ⟨heap, machine.trace⟩ }.IsLocal table ∧
          kept (heap.table table)) ?_ ?_
    · rintro heap after edit ⟨isLocal, holds⟩
      refine ⟨⟨isLocal.1, edit.isFrame isLocal.2⟩, ?_⟩
      rcases edit.table_frame isLocal.2 with same | ⟨name, value, allowed, bound⟩
      · rw [same]
        exact holds
      · rw [bound]
        exact inside name value _ allowed holds
    · exact fun _ holds => holds
  have persists :
      Persists (fun machine => machine.IsLocal table ∧ kept (machine.heap.table table))
        permitted :=
    { recording := fun machine => (recording machine).toPersists
      beside := fun _ _ holds => holds
      permits := fun holds => holds.1.permits elsewhere }
  exact
    { toPersists := persists
      load := fun _ _ holds => holds
      constants := fun _ keep =>
        persists.loadConstants (fun _ holds => holds) sources keep
      reset := fun {machine} holds => (recording machine).reset holds
      rollback := fun {machine} holds => (recording machine).rollback holds }

end Machine

/-! ## Parameters -/

/-- What parameters receive in their order: first the receiver, if the first parameter is
named `self`, then the arguments. -/
def received (receiver : Option Value) (parameters arguments : List Value) : List Value :=
  if parameters.head?.bind Value.str? = some "self" then receiver.toList ++ arguments
  else arguments

theorem Value.str?_eq_some_iff {value : Value} {name : String} :
    value.str? = some name ↔ value = .str name := by
  constructor
  · intro named
    cases value with
    | atom atom =>
        cases atom with
        | str found =>
            cases named
            rfl
        | _ => cases named
    | _ => cases named
  · rintro rfl
    rfl

theorem bindParameters_eq (receiver : Option Value) (parameters arguments : List Value) :
    bindParameters receiver parameters arguments =
      bindParameters.positional parameters (received receiver parameters arguments) := by
  by_cases isSelf : parameters.head?.bind Value.str? = some "self"
  · obtain ⟨first, isFirst, named⟩ := Option.bind_eq_some_iff.mp isSelf
    obtain ⟨rest, rfl⟩ := List.head?_eq_some_iff.mp isFirst
    rw [received, if_pos isSelf, Value.str?_eq_some_iff.mp named]
    cases receiver with
    | none => rfl
    | some receiver => rfl
  · rw [received, if_neg isSelf, bindParameters]
    rintro _ rest _ rfl
    exact isSelf rfl

section Bindings

variable {name : String} {parameters : List Value}

theorem get?_insertAll_positional_of_not_mem (unnamed : .str name ∉ parameters)
    (arguments : List Value) (table : Table String Value) :
    (table.insertAll (bindParameters.positional parameters arguments)).get? name =
      table.get? name := by
  induction parameters generalizing table arguments with
  | nil => rfl
  | cons parameter rest inductionHypothesis =>
      have unnamedRest : .str name ∉ rest := fun member =>
        unnamed (List.mem_cons_of_mem _ member)
      rw [bindParameters.positional]
      cases named : parameter.str? with
      | none => exact inductionHypothesis unnamedRest _ _
      | some bound =>
          refine (inductionHypothesis unnamedRest _ _).trans (Table.get?_insert_of_ne _ _ ?_)
          rintro rfl
          rw [Value.str?_eq_some_iff.mp named] at unnamed
          exact unnamed List.mem_cons_self

/-- A name is bound to what its last place among the parameters receives. -/
theorem get?_insertAll_positional {place : Nat}
    (named : parameters[place]? = some (.str name))
    (last : ∀ other, place < other → parameters[other]? ≠ some (.str name))
    (arguments : List Value) (table : Table String Value) :
    (table.insertAll (bindParameters.positional parameters arguments)).get? name =
      some (arguments.getD place .none) := by
  induction parameters generalizing table place arguments with
  | nil => cases named
  | cons parameter rest inductionHypothesis =>
      have lastRest (position : Nat) (behind : place < position + 1) :
          rest[position]? ≠ some (.str name) := last (position + 1) behind
      rw [bindParameters.positional]
      cases place with
      | zero =>
          cases named
          have unnamed : .str name ∉ rest := fun member => by
            obtain ⟨position, isPlace⟩ := List.mem_iff_getElem?.mp member
            exact lastRest position (Nat.succ_pos position) isPlace
          refine (get?_insertAll_positional_of_not_mem unnamed _ _).trans ?_
          rw [Table.get?_insert_self, List.headD_eq_head?_getD, List.head?_eq_getElem?,
            List.getD_eq_getElem?_getD]
      | succ place =>
          have found := @inductionHypothesis place named
            (fun other behind => lastRest other (Nat.succ_lt_succ behind)) arguments.tail
          have shifted : arguments.tail.getD place .none = arguments.getD (place + 1) .none := by
            rw [List.getD_eq_getElem?_getD, List.getElem?_tail, List.getD_eq_getElem?_getD]
          rw [← shifted]
          cases parameter.str? with
          | none => exact found table
          | some bound => exact found (table.insert bound _)

end Bindings

/-! ## Calls -/

namespace Machine

/-- A step leads on from a machine, however it ends, and leaves a frame as it was. -/
def Leaves {α : Type} (machine : Machine) (frame : Ref .table) (step : Run α) : Prop :=
  machine.ChangesOn (stateAfter step machine) ∧
    (stateAfter step machine).heap.table frame = machine.heap.table frame

variable {sources : Sources} {machine : Machine} {frame : Ref .table} {α : Type}

/-- A step leaves a frame if it keeps all that is permitted outside of it. -/
theorem IsLocal.leaves (isLocal : machine.IsLocal frame) {step : Run α}
    (keeps :
      ∀ {permitted : Permission} {property : Machine → Prop},
        (∀ ref name, ref ≠ frame → permitted ref name) →
          Endures sources property permitted → Keeps property step) :
    machine.Leaves frame step := by
  have unchanged := @frame_endures frame sources (fun ref _ => ref ≠ frame)
    (· = machine.heap.table frame) (fun _ _ other => other) fun _ _ _ never _ =>
      absurd rfl never
  exact ⟨keeps (fun _ _ _ => trivial) (changesOn_endures machine) machine .refl,
    (keeps (fun _ _ other => other) unchanged machine ⟨isLocal, rfl⟩).2⟩

variable (sources)

theorem IsLocal.evaluate (isLocal : machine.IsLocal frame) (depth : Nat) (scope : Scope)
    (expression : Expr) :
    machine.Leaves frame
      (TorchArchive.evaluate (Calls.within sources depth) scope expression) :=
  isLocal.leaves fun _ endures =>
    endures.evaluate (endures.callsWithin sources depth) scope expression

theorem IsLocal.apply (isLocal : machine.IsLocal frame) (depth : Nat) (ref : Ref .function)
    (receiver : Option Value) (arguments : List Value) :
    machine.Leaves frame
      (applyFunction (Calls.within sources depth) ref receiver arguments) :=
  isLocal.leaves fun _ endures =>
    endures.applyFunction (endures.callsWithin sources depth) ref receiver arguments

theorem IsLocal.package (isLocal : machine.IsLocal frame) (depth : Nat) (name : String)
    (file : Option String) :
    machine.Leaves frame (loadPackage sources (Calls.within sources depth) name file) :=
  isLocal.leaves fun _ endures =>
    Lasts.loadPackage (endures.callsWithin sources depth) endures.toLasts name file

theorem changesOn_runBlock (machine : Machine) (depth : Nat) (scope : Scope)
    (body : List Stmt) :
    machine.ChangesOn
      (stateAfter (TorchArchive.runBlock (Calls.within sources depth) scope body) machine) :=
  have endures := changesOn_endures machine
  endures.runBlock (endures.callsWithin sources depth) (fun _ _ => trivial) machine .refl

/-- A block changes a frame only where it is executed in it. -/
theorem IsLocal.runBlock_elsewhere (isLocal : machine.IsLocal frame) (depth : Nat)
    {scope : Scope} (elsewhere : scope.inner.table ≠ frame) (body : List Stmt) :
    machine.Leaves frame (runBlock (Calls.within sources depth) scope body) :=
  isLocal.leaves fun permits endures =>
    endures.runBlock (endures.callsWithin sources depth) fun name _ =>
      permits _ name elsewhere

/-- A block binds no names in a frame but those that its statements bind. -/
theorem IsLocal.runBlock (isLocal : machine.IsLocal frame) (depth : Nat) (scope : Scope)
    {body : List Stmt} {name : String} (unbound : name ∉ Stmt.boundNamesAll body) :
    ((stateAfter (TorchArchive.runBlock (Calls.within sources depth) scope body)
        machine).heap.table frame).get? name =
      (machine.heap.table frame).get? name := by
  have endures := @frame_endures frame sources (fun ref bound => ref ≠ frame ∨ bound ≠ name)
    (·.get? name = (machine.heap.table frame).get? name) (fun _ _ other => .inl other)
    fun bound value bindings allowed same => by
      rw [Table.get?_insert_of_ne _ _ (allowed.resolve_left (absurd rfl)), same]
  have keeps : Keeps _ (TorchArchive.runBlock (Calls.within sources depth) scope body) :=
    endures.runBlock (endures.callsWithin sources depth) fun bound member =>
      .inr fun same => unbound (same ▸ member)
  exact (keeps machine ⟨isLocal, rfl⟩).2

end Machine

namespace Shadowing

def sources : Sources := ⟨fun file => .error (.missingSource file), none, .empty⟩

/-- `def g(): x = 5; return x` -/
def inner : Stmt :=
  .functionDef "g" []
    [.assign (.identifier "x") (.literal (.int 5)), .returns (.identifier "x")]

def call : Expr := .call (.identifier "g") [] []

def parameters : List Value := [.str "self", .str "x", .str "y"]

/-- A function `f(self, x, y)` with another one inside, which it calls. -/
def outer (machine : Machine) : Function :=
  ⟨"", "f", machine.heap.lists.next, [inner, .returns call], machine.root⟩

/-- The machine with the function. -/
def declare (machine : Machine) : Machine :=
  let heap := ((machine.heap.addList parameters).2.addFunction (outer machine)).2
  { machine with recording := ⟨heap, machine.trace⟩ }

theorem changesOn_declare (machine : Machine) : machine.ChangesOn (declare machine) :=
  .tail (.single (.edit (.list parameters))) (.edit (.function (outer machine)))

theorem function_declare (machine : Machine) :
    (declare machine).heap.function machine.heap.functions.next = outer machine :=
  Store.get_add_next _ _

theorem list_declare (machine : Machine) :
    (declare machine).heap.list (outer machine).parameters = parameters :=
  Store.get_add_next _ _

theorem parameters_last {place : Nat} {value : Value} (here : parameters[place]? = some value)
    (other : Nat) (behind : place < other) : parameters[other]? ≠ some value := by
  have distinct : parameters.Nodup := by simp [parameters, Value.str]
  intro again
  have inside : other < parameters.length := (List.getElem?_eq_some_iff.mp again).1
  exact List.nodup_iff_getElem?_ne_getElem?.mp distinct place other behind inside
    (here.trans again.symm)

end Shadowing

end TorchArchive
