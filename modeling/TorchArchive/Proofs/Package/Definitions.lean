import TorchArchive.Proofs.Evaluation.Edits
import TorchArchive.Proofs.Evaluation.Structured
import TorchArchive.Proofs.Growth

/-!
# Code that only defines

The code of a package may do nothing but declare functions and classes, whose bodies
declare functions and fields and bind constants.  Such code ends whatever the state is,
and leaves under every name what the last statement with that name says.
-/

namespace TorchArchive

/-! ## What a heap keeps -/

namespace Heap

/-- What is new in a heap is added to it, apart from bindings in tables that are open. -/
structure Grows (opened : Ref .table → Prop) (before after : Heap) : Prop where
  lists :
    ∀ ref, before.lists.Holds ref →
      after.lists.Holds ref ∧ after.list ref = before.list ref
  functions :
    ∀ ref, before.functions.Holds ref →
      after.functions.Holds ref ∧ after.function ref = before.function ref
  moduleClasses :
    ∀ ref, before.moduleClasses.Holds ref →
      after.moduleClasses.Holds ref ∧ after.moduleClass ref = before.moduleClass ref
  packages :
    ∀ ref, before.packages.Holds ref →
      after.packages.Holds ref ∧ (after.package ref).members = (before.package ref).members ∧
        (after.package ref).name = (before.package ref).name
  tables :
    ∀ ref, before.tables.Holds ref →
      after.tables.Holds ref ∧ (¬ opened ref → after.table ref = before.table ref)

namespace Grows

variable {opened other : Ref .table → Prop} {before between after : Heap}

theorem refl (opened : Ref .table → Prop) (heap : Heap) : heap.Grows opened heap where
  lists := fun _ held => ⟨held, rfl⟩
  functions := fun _ held => ⟨held, rfl⟩
  moduleClasses := fun _ held => ⟨held, rfl⟩
  packages := fun _ held => ⟨held, rfl, rfl⟩
  tables := fun _ held => ⟨held, fun _ => rfl⟩

/-- A table that was made in between may have been open. -/
theorem trans (first : before.Grows opened between) (second : between.Grows other after)
    (fewer : ∀ ref, before.tables.Holds ref → other ref → opened ref) :
    before.Grows opened after where
  lists := fun ref held =>
    have step := first.lists ref held
    ⟨(second.lists ref step.1).1, (second.lists ref step.1).2.trans step.2⟩
  functions := fun ref held =>
    have step := first.functions ref held
    ⟨(second.functions ref step.1).1, (second.functions ref step.1).2.trans step.2⟩
  moduleClasses := fun ref held =>
    have step := first.moduleClasses ref held
    ⟨(second.moduleClasses ref step.1).1, (second.moduleClasses ref step.1).2.trans step.2⟩
  packages := fun ref held =>
    have step := first.packages ref held
    have last := second.packages ref step.1
    ⟨last.1, last.2.1.trans step.2.1, last.2.2.trans step.2.2⟩
  tables := fun ref held =>
    have step := first.tables ref held
    ⟨(second.tables ref step.1).1, fun closed =>
      ((second.tables ref step.1).2 fun open_ => closed (fewer ref held open_)).trans
        (step.2 closed)⟩

theorem mono (grows : before.Grows opened after) (more : ∀ ref, opened ref → other ref) :
    before.Grows other after :=
  { grows with
    tables := fun ref held =>
      ⟨(grows.tables ref held).1, fun closed =>
        (grows.tables ref held).2 fun open_ => closed (more ref open_)⟩ }

end Grows

/-! ### Single changes -/

section Changes

variable (heap : Heap) (opened : Ref .table → Prop)

theorem grows_addList (items : List Value) : heap.Grows opened (heap.addList items).2 :=
  { Grows.refl opened heap with
    lists := fun _ held =>
      ⟨Store.holds_add held items, Store.get_add_of_holds heap.lists items held⟩ }

theorem grows_addFunction (function : Function) :
    heap.Grows opened (heap.addFunction function).2 :=
  { Grows.refl opened heap with
    functions := fun _ held =>
      ⟨Store.holds_add held function, Store.get_add_of_holds heap.functions function held⟩ }

theorem grows_addModuleClass (module name : String) :
    heap.Grows opened (heap.addModuleClass module name).2 :=
  { Grows.refl opened heap with
    moduleClasses := fun _ held =>
      ⟨Store.holds_add held _, Store.get_add_of_holds heap.moduleClasses _ held⟩
    tables := fun _ held =>
      ⟨Store.holds_add held _, fun _ => Store.get_add_of_holds heap.tables _ held⟩ }

theorem grows_addPackage (name : String) : heap.Grows opened (heap.addPackage name).2 :=
  { Grows.refl opened heap with
    packages := fun _ held =>
      have same := Store.get_add_of_holds heap.packages _ held
      ⟨Store.holds_add held _, congrArg Package.members same, congrArg Package.name same⟩
    tables := fun _ held =>
      ⟨Store.holds_add held _, fun _ => Store.get_add_of_holds heap.tables _ held⟩ }

theorem table_bind (ref other : Ref .table) (name : String) (value : Value) :
    (heap.bind ref name value).table other =
      if ref = other then (heap.table ref).insert name value else heap.table other :=
  Store.get_update heap.tables ref other _

theorem holds_bind {ref other : Ref .table} (held : heap.tables.Holds other) (name : String)
    (value : Value) : (heap.bind ref name value).tables.Holds other := by
  rw [Store.Holds, bind, Store.update, Store.size_set]
  exact Nat.lt_of_lt_of_le held (Nat.le_max_left _ _)

theorem grows_bind {ref : Ref .table} (open_ : opened ref) (name : String) (value : Value) :
    heap.Grows opened (heap.bind ref name value) :=
  { Grows.refl opened heap with
    tables := fun other held =>
      ⟨heap.holds_bind held name value, fun closed => by
        have distinct : ref ≠ other := by
          rintro rfl
          exact closed open_
        rw [table_bind, if_neg distinct]⟩ }

end Changes

end Heap

/-- A machine with another heap. -/
def Machine.withHeap (machine : Machine) (heap : Heap) : Machine :=
  { machine with recording := { machine.recording with heap } }

@[simp] theorem Machine.withHeap_withHeap (machine : Machine) (first second : Heap) :
    (machine.withHeap first).withHeap second = machine.withHeap second := rfl

@[simp] theorem Machine.heap_withHeap (machine : Machine) (heap : Heap) :
    (machine.withHeap heap).heap = heap := rfl

/-! ## Literals -/

namespace Expr

mutual

/-- Whether an expression is a constant, or a list or tuple of literals. -/
def isLiteral : Expr → Bool
  | .literal (.atom _) => true
  | .list items => areLiterals items
  | .tuple items => areLiterals items
  | _ => false

def areLiterals : List Expr → Bool
  | [] => true
  | first :: rest => first.isLiteral && areLiterals rest

end

end Expr

namespace Heap

mutual

/-- What a literal denotes; the items of a list are in the heap. -/
def Denotes (heap : Heap) : Expr → Value → Prop
  | .literal value => fun found => found = value
  | .list items => fun found =>
      ∃ ref, found = .list ref ∧ heap.lists.Holds ref ∧ heap.DenoteAll items (heap.list ref)
  | .tuple items => fun found =>
      ∃ values, found = .tuple values ∧ heap.DenoteAll items values
  | _ => fun _ => False

def DenoteAll (heap : Heap) : List Expr → List Value → Prop
  | [] => fun values => values = []
  | first :: rest => fun values =>
      ∃ value others, values = value :: others ∧ heap.Denotes first value ∧
        heap.DenoteAll rest others

end

variable {opened : Ref .table → Prop} {before after : Heap}

mutual

theorem Grows.denotes (grows : before.Grows opened after) :
    ∀ (expr : Expr) {value : Value}, before.Denotes expr value → after.Denotes expr value
  | .literal _, _, denotes => by
      rw [Denotes] at denotes ⊢
      exact denotes
  | .list items, _, denotes => by
      rw [Denotes] at denotes ⊢
      obtain ⟨ref, same, held, all⟩ := denotes
      obtain ⟨heldAfter, sameItems⟩ := grows.lists ref held
      exact ⟨ref, same, heldAfter, sameItems ▸ grows.denoteAll items all⟩
  | .tuple items, _, denotes => by
      rw [Denotes] at denotes ⊢
      obtain ⟨values, same, all⟩ := denotes
      exact ⟨values, same, grows.denoteAll items all⟩
  | .identifier _, _, never => by simp [Denotes] at never
  | .member _ _, _, never => by simp [Denotes] at never
  | .item _ _, _, never => by simp [Denotes] at never
  | .call _ _ _, _, never => by simp [Denotes] at never
  | .blank, _, never => by simp [Denotes] at never

theorem Grows.denoteAll (grows : before.Grows opened after) :
    ∀ (exprs : List Expr) {values : List Value},
      before.DenoteAll exprs values → after.DenoteAll exprs values
  | [], _, all => by
      rw [DenoteAll] at all ⊢
      exact all
  | first :: rest, _, all => by
      rw [DenoteAll] at all ⊢
      obtain ⟨value, others, same, denotes, all⟩ := all
      exact ⟨value, others, same, grows.denotes first denotes, grows.denoteAll rest all⟩

end

end Heap

section Literals

variable (calls : Calls) (scope : Scope)

mutual

/-- A literal is evaluated to what it denotes. -/
theorem evaluate_literal :
    ∀ (expr : Expr), expr.isLiteral = true → ∀ machine : Machine,
      ∃ value heap,
        evaluate calls scope expr machine = .ok value (machine.withHeap heap) ∧
          machine.heap.Grows (fun _ => False) heap ∧
            heap.moduleClasses = machine.heap.moduleClasses ∧ heap.Denotes expr value
  | .literal value, _, machine => by
      refine ⟨value, machine.heap, ?_, .refl _ _, rfl, ?_⟩
      · rw [evaluate]
        rfl
      · rw [Heap.Denotes]
  | .list items, literal, machine => by
      rw [Expr.isLiteral] at literal
      obtain ⟨values, heap, evaluates, grows, classes, denote⟩ :=
        evaluateAll_literals items literal machine
      have added := heap.grows_addList (fun _ => False) values
      refine ⟨.list (heap.addList values).1, (heap.addList values).2, ?_,
        grows.trans added fun _ _ never => never, classes, ?_⟩
      · rw [evaluate]
        exact EStateM.bind_eq_ok_iff.mpr ⟨values, _, evaluates, rfl⟩
      · rw [Heap.Denotes]
        refine ⟨_, rfl, Store.holds_next heap.lists values, ?_⟩
        rw [Heap.list_addList, if_pos rfl]
        exact added.denoteAll items denote
  | .tuple items, literal, machine => by
      rw [Expr.isLiteral] at literal
      obtain ⟨values, heap, evaluates, grows, classes, denote⟩ :=
        evaluateAll_literals items literal machine
      refine ⟨.tuple values, heap, ?_, grows, classes, ?_⟩
      · rw [evaluate, map_eq_pure_bind]
        exact EStateM.bind_eq_ok_iff.mpr ⟨values, _, evaluates, rfl⟩
      · rw [Heap.Denotes]
        exact ⟨values, rfl, denote⟩
  | .identifier _, never, _ => by simp [Expr.isLiteral] at never
  | .member _ _, never, _ => by simp [Expr.isLiteral] at never
  | .item _ _, never, _ => by simp [Expr.isLiteral] at never
  | .call _ _ _, never, _ => by simp [Expr.isLiteral] at never
  | .blank, never, _ => by simp [Expr.isLiteral] at never

theorem evaluateAll_literals :
    ∀ (exprs : List Expr), Expr.areLiterals exprs = true → ∀ machine : Machine,
      ∃ values heap,
        evaluateAll calls scope exprs machine = .ok values (machine.withHeap heap) ∧
          machine.heap.Grows (fun _ => False) heap ∧
            heap.moduleClasses = machine.heap.moduleClasses ∧ heap.DenoteAll exprs values
  | [], _, machine => by
      refine ⟨[], machine.heap, ?_, .refl _ _, rfl, ?_⟩
      · rw [evaluateAll]
        rfl
      · rw [Heap.DenoteAll]
  | first :: rest, literals, machine => by
      rw [Expr.areLiterals, Bool.and_eq_true] at literals
      obtain ⟨value, between, evaluates, grows, classes, denotes⟩ :=
        evaluate_literal first literals.1 machine
      obtain ⟨others, heap, evaluatesRest, growsRest, classesRest, denoteRest⟩ :=
        evaluateAll_literals rest literals.2 (machine.withHeap between)
      refine ⟨value :: others, heap, ?_, grows.trans growsRest fun _ _ never => never,
        classesRest.trans classes, ?_⟩
      · rw [evaluateAll]
        refine EStateM.bind_eq_ok_iff.mpr ⟨value, _, evaluates, ?_⟩
        exact EStateM.bind_eq_ok_iff.mpr ⟨others, _, evaluatesRest, rfl⟩
      · rw [Heap.DenoteAll]
        exact ⟨value, others, rfl, growsRest.denotes first denotes, denoteRest⟩

end

end Literals

/-! ## Blocks of bindings -/

namespace Stmt

/-- The name that a statement binds. -/
def boundName? : Stmt → Option String
  | .functionDef name _ _ => some name
  | .classDef name _ _ => some name
  | .declare name => some name
  | .assign (.identifier name) _ => some name
  | _ => none

/-- The last statement of a block that binds a name. -/
def lastBinding (name : String) : List Stmt → Option Stmt
  | [] => none
  | first :: rest =>
      (lastBinding name rest).or (if first.boundName? = some name then some first else none)

/-- Whether a statement may stand in the body of a class. -/
def isField : Stmt → Bool
  | .pass => true
  | .declare _ => true
  | .functionDef _ _ _ => true
  | .assign (.identifier _) value => value.isLiteral
  | _ => false

/-- Whether a statement declares a function or a class. -/
def isDefinition : Stmt → Bool
  | .functionDef _ _ _ => true
  | .classDef _ _ body => body.all isField
  | _ => false

end Stmt

/-- Statements that end, whatever the heap is like, and each bind one name at most in a
table; what they bind stays as described. -/
structure BindsIn (calls : Calls) (scope : Scope) (table : Ref .table)
    (allowed : Stmt → Prop) (condition : Heap → Prop)
    (described : Heap → Stmt → Value → Prop) : Prop where
  step :
    ∀ statement, allowed statement → ∀ machine : Machine, condition machine.heap →
      ∃ heap,
        execute calls scope statement machine = .ok none (machine.withHeap heap) ∧
          machine.heap.Grows (· = table) heap ∧ condition heap ∧
            match statement.boundName? with
            | none => heap.table table = machine.heap.table table
            | some name =>
                ∃ value, described heap statement value ∧
                  heap.table table = (machine.heap.table table).insert name value
  stays :
    ∀ {before after : Heap} {statement : Stmt} {value : Value},
      before.Grows (· = table) after → condition before →
        described before statement value → described after statement value

/-- What a block leaves under a name. -/
def LeftUnder (described : Stmt → Value → Prop) (body : List Stmt) (before : Option Value)
    (name : String) (after : Option Value) : Prop :=
  match Stmt.lastBinding name body with
  | none => after = before
  | some statement => ∃ value, after = some value ∧ described statement value

/-- The last statement that binds a name counts. -/
theorem BindsIn.executeAll {calls : Calls} {scope : Scope} {table : Ref .table}
    {allowed : Stmt → Prop} {condition : Heap → Prop}
    {described : Heap → Stmt → Value → Prop}
    (binds : BindsIn calls scope table allowed condition described) (body : List Stmt)
    (all : ∀ statement ∈ body, allowed statement) (machine : Machine)
    (holds : condition machine.heap) :
    ∃ heap,
      executeAll calls scope body machine = .ok none (machine.withHeap heap) ∧
        machine.heap.Grows (· = table) heap ∧ condition heap ∧
          ∀ name,
            LeftUnder (described heap) body ((machine.heap.table table).get? name) name
              ((heap.table table).get? name) := by
  induction body generalizing machine with
  | nil =>
      refine ⟨machine.heap, ?_, .refl _ _, holds, fun name => rfl⟩
      rw [TorchArchive.executeAll]
      rfl
  | cons first rest inductionHypothesis =>
      obtain ⟨allowedFirst, allowedRest⟩ := List.forall_mem_cons.mp all
      obtain ⟨between, executesFirst, growsFirst, holdsBetween, bound⟩ :=
        binds.step first allowedFirst machine holds
      obtain ⟨heap, executesRest, growsRest, holdsAfter, left⟩ :=
        inductionHypothesis allowedRest (machine.withHeap between) holdsBetween
      refine ⟨heap, ?_, growsFirst.trans growsRest fun _ _ same => same, holdsAfter, ?_⟩
      · rw [TorchArchive.executeAll]
        exact EStateM.bind_eq_ok_iff.mpr ⟨none, _, executesFirst, executesRest⟩
      · intro name
        have leftName := left name
        rw [LeftUnder] at leftName ⊢
        rw [Stmt.lastBinding]
        cases last : Stmt.lastBinding name rest with
        | some statement =>
            rw [last] at leftName
            exact leftName
        | none =>
            rw [last] at leftName
            rw [Option.none_or]
            rw [Machine.heap_withHeap] at leftName
            cases names : first.boundName? with
            | none =>
                rw [names] at bound
                rw [if_neg (by simp), leftName, bound]
            | some other =>
                rw [names] at bound
                obtain ⟨value, describes, inserted⟩ := bound
                rw [inserted, Table.get?_insert] at leftName
                by_cases same : other = name
                · rw [if_pos same] at leftName
                  rw [if_pos (congrArg some same)]
                  exact ⟨value, leftName, binds.stays growsRest holdsBetween describes⟩
                · rw [if_neg same] at leftName
                  rw [if_neg (by simpa using same)]
                  exact leftName

/-! ## Bodies of classes -/

namespace Heap

/-- What is declared as a function. -/
structure IsFunction (heap : Heap) (name : String) (parameters : List String)
    (body : List Stmt) (ref : Ref .function) : Prop where
  held : heap.functions.Holds ref
  name : (heap.function ref).name = name
  body : (heap.function ref).body = body
  parametersHeld : heap.lists.Holds (heap.function ref).parameters
  parameters : heap.list (heap.function ref).parameters = parameters.map .str

/-- What a statement in the body of a class binds. -/
def IsField (heap : Heap) : Stmt → Value → Prop
  | .functionDef name parameters body, value =>
      ∃ ref, value = .function ref ∧ heap.IsFunction name parameters body ref
  | .declare _, value => value = .none
  | .assign _ literal, value => heap.Denotes literal value
  | _, _ => False

variable {opened : Ref .table → Prop} {before after : Heap}

theorem Grows.isFunction (grows : before.Grows opened after) {name : String}
    {parameters : List String} {body : List Stmt} {ref : Ref .function}
    (is : before.IsFunction name parameters body ref) :
    after.IsFunction name parameters body ref := by
  obtain ⟨held, same⟩ := grows.functions ref is.held
  obtain ⟨heldList, sameList⟩ := grows.lists _ is.parametersHeld
  constructor
  case held => exact held
  case name => rw [same, is.name]
  case body => rw [same, is.body]
  case parametersHeld =>
    rw [same]
    exact heldList
  case parameters => rw [same, sameList, is.parameters]

theorem Grows.isField (grows : before.Grows opened after) {statement : Stmt} {value : Value}
    (is : before.IsField statement value) : after.IsField statement value := by
  cases statement with
  | functionDef name parameters body =>
      obtain ⟨ref, same, function⟩ := is
      exact ⟨ref, same, grows.isFunction function⟩
  | declare name => exact is
  | assign target literal => exact grows.denotes literal is
  | _ => exact is

end Heap

section Statements

variable {calls : Calls} {scope : Scope}

/-- A function is declared with the name of the package that is in sight. -/
theorem execute_functionDef (calls : Calls) (scope : Scope) (name : String)
    (parameters : List String) (body : List Stmt) (machine : Machine) :
    ∃ ref heap,
      execute calls scope (.functionDef name parameters body) machine =
          .ok none (machine.withHeap heap) ∧
        machine.heap.Grows (· = scope.inner.table) heap ∧
          heap.moduleClasses = machine.heap.moduleClasses ∧
            heap.IsFunction name parameters body ref ∧
              (heap.function ref).module =
                ((machine.heap.lookup scope moduleNameKey).str?).getD "" ∧
                heap.table scope.inner.table =
                  (machine.heap.table scope.inner.table).insert name (.function ref) := by
  let module := ((machine.heap.lookup scope moduleNameKey).str?).getD ""
  let listed := machine.heap.addList (parameters.map .str)
  let made := listed.2.addFunction ⟨module, name, listed.1, body, scope⟩
  have growsList := machine.heap.grows_addList (· = scope.inner.table)
    (parameters.map .str)
  have growsFunction := listed.2.grows_addFunction (· = scope.inner.table)
    ⟨module, name, listed.1, body, scope⟩
  have growsBind := made.2.grows_bind (· = scope.inner.table) rfl name
    (.function made.1)
  refine ⟨made.1, made.2.bind scope.inner.table name (.function made.1), ?_, ?_, rfl, ?_, ?_,
    ?_⟩
  · rw [execute]
    rfl
  · exact (growsList.trans growsFunction fun _ _ same => same).trans growsBind
      fun _ _ same => same
  · refine growsBind.isFunction ?_
    have new : made.2.function made.1 = ⟨module, name, listed.1, body, scope⟩ :=
      Store.get_add_next listed.2.functions _
    constructor
    case held => exact Store.holds_next listed.2.functions _
    case name => rw [new]
    case body => rw [new]
    case parametersHeld =>
      rw [new]
      exact Store.holds_next machine.heap.lists _
    case parameters =>
      rw [new]
      exact Store.get_add_next machine.heap.lists _
  · have new : made.2.function made.1 = ⟨module, name, listed.1, body, scope⟩ :=
      Store.get_add_next listed.2.functions _
    exact congrArg Function.module new
  · rw [Heap.table_bind, if_pos rfl]
    rfl

/-- The statements of the body of a class end, and each binds one name at most. -/
theorem bindsIn_class (calls : Calls) (scope : Scope)
    (classes : Store .moduleClass ModuleClass) :
    BindsIn calls scope scope.inner.table (fun statement => statement.isField = true)
      (fun heap => heap.tables.Holds scope.inner.table ∧ heap.moduleClasses = classes)
      Heap.IsField where
  stays := fun grows _ is => grows.isField is
  step := by
    rintro statement field machine ⟨held, rfl⟩
    have bind (heap : Heap) (name : String) (value : Value) :=
      heap.grows_bind (· = scope.inner.table) rfl name value
    have stillHeld {heap : Heap} (grows : machine.heap.Grows (· = scope.inner.table) heap) :
        heap.tables.Holds scope.inner.table := (grows.tables _ held).1
    cases statement with
    | pass =>
        refine ⟨machine.heap, ?_, .refl _ _, ⟨held, rfl⟩, rfl⟩
        rw [execute]
        rfl
    | declare name =>
        refine ⟨machine.heap.bind scope.inner.table name .none, ?_, bind _ _ _,
          ⟨stillHeld (bind _ _ _), rfl⟩, .none, rfl, ?_⟩
        · rw [execute]
          rfl
        · rw [Heap.table_bind, if_pos rfl]
    | functionDef name parameters body =>
        obtain ⟨ref, heap, executes, grows, same, is, _, bound⟩ :=
          execute_functionDef calls scope name parameters body machine
        exact ⟨heap, executes, grows, ⟨stillHeld grows, same⟩, .function ref, ⟨ref, rfl, is⟩,
          bound⟩
    | assign target literal =>
        cases target with
        | identifier name =>
            rw [Stmt.isField] at field
            obtain ⟨value, heap, evaluates, grows, same, denotes⟩ :=
              evaluate_literal calls scope literal field machine
            have wider : machine.heap.Grows (· = scope.inner.table) heap :=
              grows.mono fun _ never => never.elim
            have grown := wider.trans (bind heap name value) fun _ _ same => same
            refine ⟨heap.bind scope.inner.table name value, ?_, grown, ⟨stillHeld grown, same⟩,
              value, ?_, ?_⟩
            · rw [execute]
              exact EStateM.bind_eq_ok_iff.mpr ⟨value, _, evaluates, rfl⟩
            · exact (bind heap name value).denotes literal denotes
            · rw [Heap.table_bind, if_pos rfl, (grows.tables _ held).2 id]
        | _ => simp [Stmt.isField] at field
    | _ => simp [Stmt.isField] at field

end Statements

/-! ## Packages of definitions -/

namespace Heap

/-- What is declared as a class: a new table holds what its body left. -/
structure IsClass (heap : Heap) (module name : String) (body : List Stmt)
    (ref : Ref .moduleClass) : Prop where
  held : heap.moduleClasses.Holds ref
  module : (heap.moduleClass ref).module = module
  name : (heap.moduleClass ref).name = name
  members :
    ∀ member,
      LeftUnder heap.IsField body none member
        ((heap.table (heap.moduleClass ref).members).get? member)

/-- What a definition in the code of a package declares. -/
def IsDefinition (heap : Heap) (module : String) : Stmt → Value → Prop
  | .functionDef name parameters body, value =>
      ∃ ref, value = .function ref ∧ heap.IsFunction name parameters body ref ∧
        (heap.function ref).module = module
  | .classDef name _ body, value =>
      ∃ ref, value = .moduleClass ref ∧ heap.IsClass module name body ref
  | _, _ => False

/-- The tables of classes are closed: what is bound in the tables that are open is no
member of a class. -/
def ClassesClosed (opened : Ref .table → Prop) (heap : Heap) : Prop :=
  ∀ ref, heap.moduleClasses.Holds ref →
    heap.tables.Holds (heap.moduleClass ref).members ∧
      ¬ opened (heap.moduleClass ref).members

theorem ClassesClosed.bind {opened : Ref .table → Prop} {heap : Heap}
    (closed : heap.ClassesClosed opened) (table : Ref .table) (name : String) (value : Value) :
    (heap.bind table name value).ClassesClosed opened := fun ref held =>
  ⟨heap.holds_bind (closed ref held).1 name value, (closed ref held).2⟩

variable {opened : Ref .table → Prop} {before after : Heap} {module : String}

theorem Grows.isClass (grows : before.Grows opened after)
    (closed : before.ClassesClosed opened) {name : String} {body : List Stmt}
    {ref : Ref .moduleClass} (is : before.IsClass module name body ref) :
    after.IsClass module name body ref := by
  obtain ⟨held, same⟩ := grows.moduleClasses ref is.held
  obtain ⟨heldMembers, closedMembers⟩ := closed ref is.held
  constructor
  case held => exact held
  case module => rw [same, is.module]
  case name => rw [same, is.name]
  case members =>
    intro member
    have left := is.members member
    rw [same, (grows.tables _ heldMembers).2 closedMembers]
    rw [LeftUnder] at left ⊢
    split at left
    · exact left
    · obtain ⟨value, found, field⟩ := left
      exact ⟨value, found, grows.isField field⟩

theorem Grows.isDefinition (grows : before.Grows opened after)
    (closed : before.ClassesClosed opened) {statement : Stmt} {value : Value}
    (is : before.IsDefinition module statement value) :
    after.IsDefinition module statement value := by
  cases statement with
  | functionDef name parameters body =>
      obtain ⟨ref, same, function, inModule⟩ := is
      refine ⟨ref, same, grows.isFunction function, ?_⟩
      rw [(grows.functions ref function.held).2, inModule]
  | classDef name bases body =>
      obtain ⟨ref, same, declared⟩ := is
      exact ⟨ref, same, grows.isClass closed declared⟩
  | _ => exact is

end Heap

/-- A scope in which the name of its package is in sight, and whose table is one of those
that are open. -/
structure Heap.Opens (opened : Ref .table → Prop) (module : String) (scope : Scope)
    (heap : Heap) : Prop where
  held : ∀ ref, opened ref → heap.tables.Holds ref
  isOpen : opened scope.inner.table
  closed : heap.ClassesClosed opened
  named : (heap.table scope.inner.table).get? moduleNameKey = some (.str module)

section Definitions

variable {calls : Calls} {scope : Scope} {module : String} {opened : Ref .table → Prop}

theorem Heap.Opens.lookup {heap : Heap} (opens : heap.Opens opened module scope) :
    ((heap.lookup scope moduleNameKey).str?).getD "" = module := by
  rw [Heap.lookup, Scope.frames, Heap.search, opens.named]
  have plain : heap.isSubpackage scope.inner (.str module) = false := by
    unfold Heap.isSubpackage
    cases scope.inner.package <;> rfl
  dsimp only
  rw [if_neg (by rw [plain]; exact Bool.false_ne_true)]
  rfl

/-- A class is declared with the name of the package that is in sight, and its body run. -/
theorem execute_classDef (calls : Calls) (name : String) (bases : List String) {body : List Stmt}
    (fields : ∀ statement ∈ body, statement.isField = true) (machine : Machine)
    (opens : machine.heap.Opens opened module scope) :
    ∃ ref heap,
      execute calls scope (.classDef name bases body) machine =
          .ok none (machine.withHeap heap) ∧
        machine.heap.Grows (· = scope.inner.table) heap ∧ heap.ClassesClosed opened ∧
            heap.IsClass module name body ref ∧
              heap.table scope.inner.table =
                (machine.heap.table scope.inner.table).insert name (.moduleClass ref) := by
  let made := machine.heap.addModuleClass module name
  let declared := made.2.bind scope.inner.table name (.moduleClass made.1)
  let inner := scope.push machine.heap.tables.next
  have grownMade : machine.heap.Grows (· = scope.inner.table) made.2 :=
    machine.heap.grows_addModuleClass _ module name
  have grownDeclared : made.2.Grows (· = scope.inner.table) declared :=
    made.2.grows_bind (· = scope.inner.table) rfl name (.moduleClass made.1)
  have new : declared.moduleClass made.1 = ⟨module, name, machine.heap.tables.next⟩ :=
    Store.get_add_next machine.heap.moduleClasses _
  have newHeld : declared.moduleClasses.Holds made.1 :=
    Store.holds_next machine.heap.moduleClasses _
  have distinct : machine.heap.tables.next ≠ scope.inner.table := fun same =>
    Store.next_not_holds _ (same ▸ opens.held _ opens.isOpen)
  have heldMembers : declared.tables.Holds inner.inner.table :=
    made.2.holds_bind (Store.holds_next machine.heap.tables _) name _
  have empty : declared.table inner.inner.table = .empty := by
    rw [Heap.table_bind, if_neg (show scope.inner.table ≠ inner.inner.table from distinct.symm)]
    exact Store.get_add_next machine.heap.tables _
  obtain ⟨heap, runs, grownBody, ⟨_, classes⟩, left⟩ :=
    (bindsIn_class calls inner declared.moduleClasses).executeAll body fields
      (machine.withHeap declared) ⟨heldMembers, rfl⟩
  rw [Machine.heap_withHeap] at grownBody left
  have grown : machine.heap.Grows (· = scope.inner.table) heap :=
    (grownMade.trans grownDeclared fun _ _ same => same).trans grownBody fun ref held same =>
      absurd held (same ▸ Store.next_not_holds _)
  have sameClass : heap.moduleClass made.1 = declared.moduleClass made.1 :=
    (grownBody.moduleClasses _ newHeld).2
  refine ⟨made.1, heap, ?_, grown, ?_, ?_, ?_⟩
  · have declares : declareClass scope name machine = .ok inner (machine.withHeap declared) := by
      have found : moduleNameOf scope machine = .ok module machine :=
        congrArg (EStateM.Result.ok · machine) opens.lookup
      refine EStateM.bind_eq_ok_iff.mpr ⟨module, machine, found, ?_⟩
      change EStateM.Result.ok (scope.push (declared.moduleClass made.1).members)
        (machine.withHeap declared) = _
      rw [new]
    rw [execute]
    refine EStateM.bind_eq_ok_iff.mpr ⟨inner, _, declares, ?_⟩
    exact EStateM.bind_eq_ok_iff.mpr ⟨none, _, runs, rfl⟩
  · intro ref held
    rw [classes] at held
    rw [(grownBody.moduleClasses ref held).2]
    rcases Store.holds_add_cases held with same | old
    · rw [same, show declared.moduleClass machine.heap.moduleClasses.next = _ from new]
      exact ⟨(grownBody.tables _ heldMembers).1, fun isOpen =>
        Store.next_not_holds _ (opens.held _ isOpen)⟩
    · have sameOld : declared.moduleClass ref = machine.heap.moduleClass ref :=
        ((grownMade.trans grownDeclared fun _ _ same => same).moduleClasses ref old).2
      obtain ⟨heldOld, closedOld⟩ := opens.closed ref old
      rw [sameOld]
      exact ⟨(grown.tables _ heldOld).1, closedOld⟩
  · constructor
    case held =>
      rw [classes]
      exact newHeld
    case module => rw [sameClass, new]
    case name => rw [sameClass, new]
    case members =>
      intro member
      have leftMember := left member
      rw [empty, Table.get?_empty] at leftMember
      rw [sameClass, new]
      exact leftMember
  · have heldMade := (grownMade.tables _ (opens.held _ opens.isOpen)).1
    rw [(grownBody.tables _ (grownDeclared.tables _ heldMade).1).2 distinct.symm,
      Heap.table_bind, if_pos rfl,
      ((machine.heap.grows_addModuleClass (fun _ => False) module name).tables _
        (opens.held _ opens.isOpen)).2 id]

/-- The definitions of a package end, and each binds one name. -/
theorem bindsIn_package (calls : Calls) (scope : Scope) (opened : Ref .table → Prop)
    (module : String) :
    BindsIn calls scope scope.inner.table
      (fun statement =>
        statement.isDefinition = true ∧ statement.boundName? ≠ some moduleNameKey)
      (Heap.Opens opened module scope) (fun heap => heap.IsDefinition module) where
  stays := fun grows opens is =>
    (grows.mono fun _ same => same ▸ opens.isOpen).isDefinition opens.closed is
  step := by
    intro statement allowed machine opens
    obtain ⟨definition, otherName⟩ := allowed
    have named {heap : Heap} {name : String} {value : Value}
        (distinct : name ≠ moduleNameKey)
        (bound : heap.table scope.inner.table =
          (machine.heap.table scope.inner.table).insert name value) :
        (heap.table scope.inner.table).get? moduleNameKey = some (.str module) := by
      rw [bound, Table.get?_insert_of_ne _ _ distinct, opens.named]
    have held {heap : Heap} (grows : machine.heap.Grows (· = scope.inner.table) heap)
        (ref : Ref .table) (isOpen : opened ref) : heap.tables.Holds ref :=
      (grows.tables ref (opens.held ref isOpen)).1
    cases statement with
    | functionDef name parameters body =>
        obtain ⟨ref, heap, executes, grows, classes, is, inModule, bound⟩ :=
          execute_functionDef calls scope name parameters body machine
        rw [opens.lookup] at inModule
        have distinct : name ≠ moduleNameKey := fun same => otherName (congrArg some same)
        refine ⟨heap, executes, grows, ⟨held grows, opens.isOpen, ?_, named distinct bound⟩,
          .function ref, ⟨ref, rfl, is, inModule⟩, bound⟩
        intro ref held
        rw [classes] at held
        obtain ⟨heldMembers, closed⟩ := opens.closed ref held
        rw [(grows.moduleClasses ref held).2]
        exact ⟨(grows.tables _ heldMembers).1, closed⟩
    | classDef name bases body =>
        have fields : ∀ statement ∈ body, statement.isField = true :=
          List.all_eq_true.mp definition
        obtain ⟨ref, heap, executes, grows, closed, is, bound⟩ :=
          execute_classDef calls name bases fields machine opens
        have distinct : name ≠ moduleNameKey := fun same => otherName (congrArg some same)
        exact ⟨heap, executes, grows,
          ⟨held grows, opens.isOpen, closed, named distinct bound⟩,
          .moduleClass ref, ⟨ref, rfl, is⟩, bound⟩
    | _ => simp [Stmt.isDefinition] at definition

end Definitions

end TorchArchive
