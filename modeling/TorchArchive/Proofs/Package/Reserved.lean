import TorchArchive.Proofs.Package.Order
import TorchArchive.Proofs.Package.Places

/-!
# Names of builtins in packages

Packages whose code only declares leave the names of builtins alone: a package binds such
a name to nothing but a package below it, and a lookup passes over these.  So the name
keeps the meaning that it has in the outermost scope, in whatever order packages are loaded.
-/

namespace TorchArchive

open Run

namespace Stmt

mutual

/-- Whether a statement does nothing but declare: a field or a constant, a function, or a
class whose body does the same. -/
def isDeclarative : Stmt → Bool
  | .pass => true
  | .declare _ => true
  | .functionDef _ _ _ => true
  | .classDef _ _ body => areDeclarative body
  | .assign (.identifier _) value => value.isLiteral
  | _ => false

def areDeclarative : List Stmt → Bool
  | [] => true
  | first :: rest => first.isDeclarative && areDeclarative rest

end

end Stmt

/-- What a literal denotes has no members that can be set. -/
theorem Heap.Denotes.isPlain {heap : Heap} {expr : Expr} {value : Value}
    (literal : expr.isLiteral = true) (denotes : heap.Denotes expr value) :
    Heap.isPlain value = true := by
  cases expr with
  | literal found =>
      rw [Denotes] at denotes
      rw [denotes]
      cases found with
      | atom a => rfl
      | _ => simp [Expr.isLiteral] at literal
  | list items =>
      rw [Denotes] at denotes
      obtain ⟨ref, rfl, _⟩ := denotes
      rfl
  | tuple items =>
      rw [Denotes] at denotes
      obtain ⟨values, rfl, _⟩ := denotes
      rfl
  | _ => simp [Expr.isLiteral] at literal

/-- Whether a dotted name begins with no name of a builtin. -/
def IsForeign (name : String) : Prop :=
  ∀ first ∈ (Heap.nameParts name).head?, outermostValue first = none

/-- Whether code only declares, and declares no name of a builtin. -/
def LeavesBuiltins (body : List Stmt) : Prop :=
  Stmt.areDeclarative body = true ∧
    ∀ statement ∈ body, ∀ name ∈ statement.boundName?, outermostValue name = none

/-- Whether a name may be declared in a package or class: in packages the names of builtins
may not. -/
def IsFree (owner : Value) (name : String) : Prop :=
  ∀ ref, owner = .package ref → outermostValue name = none

namespace Machine

/-- A machine whose packages and classes stand at their places, those that were loaded under
their names. -/
structure Arranged (machine : Machine) (places : Places) : Prop where
  placed : machine.heap.Placed outermostValue machine.root.inner.table places
  outermost : machine.root = .outermost machine.root.inner.table
  known :
    ∀ {name ref}, machine.packages.get? name = some ref →
      ∃ table, places (.package ref) name table

/-- What stood somewhere before still does, and the rest is arranged as well. -/
def ArrangedOn (before : Places) (machine : Machine) : Prop :=
  ∃ places, before.Within places ∧ machine.Arranged places

variable {machine : Machine} {before places more : Places} {heap : Heap} {scope : Scope}
  {owner : Value} {path : String}

theorem initial_arranged : initial.Arranged fun _ _ _ => False where
  placed :=
    { owns := fun never => never.elim
      held := fun never => never.elim
      inner := fun never => never.elim
      distinct := fun never => never.elim
      members := fun never => never.elim
      reserved := fun never => never.elim
      rootHeld := (Library.consistent_initial fun _ => none).tree.tablesHeld [] _ rfl
      bound := fun isBuiltin => isBuiltin
      unbound := fun {name value} noBuiltin isBound => by
        rw [outermostValue, isBound] at noBuiltin
        cases noBuiltin }
  outermost := (Library.consistent_initial fun _ => none).isRoot
  known := by
    intro name ref isKnown
    rw [show initial.packages.get? name = none from rfl] at isKnown
    cases isKnown

theorem Arranged.withHeap (arranged : machine.Arranged places)
    (placed : heap.Placed outermostValue machine.root.inner.table more)
    (within : places.Within more) : (machine.withHeap heap).Arranged more where
  placed := placed
  outermost := arranged.outermost
  known := fun isKnown =>
    let ⟨table, stands⟩ := arranged.known isKnown
    ⟨table, within stands⟩

/-! ## Steps -/

theorem arrangedOn_allocate {α : Type} {step : Heap → α × Heap}
    (grows : ∀ heap, Heap.Grows (fun _ => False) heap (step heap).2) :
    Keeps (ArrangedOn before) (Run.allocate step) := by
  refine Keeps.modifyGet fun machine arranged => ?_
  obtain ⟨places, within, arranged⟩ := arranged
  exact ⟨places, within, arranged.withHeap (arranged.placed.grows (grows _)) (.refl places)⟩

/-- What is bound in a package or class of a name that is free there. -/
theorem arrangedOn_bind (stands : before owner path scope.inner.table) {name : String}
    (free : IsFree owner name) {member : Value}
    (fit : before.Fit (path ++ "." ++ name) member) :
    Keeps (ArrangedOn before) (Run.bind scope name member) := by
  refine Keeps.modifyGet fun machine arranged => ?_
  obtain ⟨places, within, arranged⟩ := arranged
  have placed := arranged.placed.bind (within stands) (fit.mono within) fun ref isPackage taken =>
    absurd (free ref isPackage) taken
  exact ⟨places, within, arranged.withHeap placed (.refl places)⟩

theorem arrangedOn_declareFunction (stands : before owner path scope.inner.table)
    {name : String} (free : IsFree owner name)
    (parameters : List String) (body : List Stmt) :
    Keeps (ArrangedOn before) (declareFunction scope name parameters body) := by
  refine ((lookup_keeps scope _).bind fun _ => Keeps.pure _).bind fun module => ?_
  refine (arrangedOn_allocate fun heap => heap.grows_addList _ _).bind fun parameters => ?_
  refine (arrangedOn_allocate fun heap => heap.grows_addFunction _ _).bind fun ref => ?_
  exact arrangedOn_bind stands free (.inl rfl)

/-- The members of a new class are open in the scope of its body. -/
theorem arrangedOn_declareClass (stands : before owner path scope.inner.table)
    {name : String} (free : IsFree owner name)
    {α : Type} {next : Scope → Run α}
    (keeps :
      ∀ {places : Places} {inner : Scope} {ref : Ref .moduleClass},
        before.Within places → places (.moduleClass ref) (path ++ "." ++ name) inner.inner.table →
          Keeps (ArrangedOn places) (next inner)) :
    Keeps (ArrangedOn before) (declareClass scope name >>= next) := by
  rintro machine ⟨places, within, arranged⟩
  let module := ((machine.heap.lookup scope moduleNameKey).str?).getD ""
  let made := machine.heap.addModuleClass module name
  let bound := made.2.bind scope.inner.table name (.moduleClass made.1)
  let all := places.add (.moduleClass made.1) (path ++ "." ++ name) machine.heap.tables.next
  have declares : declareClass scope name machine =
      .ok (scope.push (bound.moduleClass made.1).members) (machine.withHeap bound) := rfl
  have withinAll : places.Within all := places.within_add _ _ _
  have standsMade : all (.moduleClass made.1) (path ++ "." ++ name) machine.heap.tables.next :=
    places.add_self _ _ _
  have placed : bound.Placed outermostValue machine.root.inner.table all :=
    (arranged.placed.addModuleClass module name _).bind (withinAll (within stands))
      (.inr ⟨_, standsMade⟩) fun ref isPackage taken => absurd (free ref isPackage) taken
  have members : (bound.moduleClass made.1).members = machine.heap.tables.next :=
    congrArg ModuleClass.members (Store.get_add_next machine.heap.moduleClasses _)
  rw [stateAfter, EStateM.bind_of_ok declares, members]
  have after : ArrangedOn all (machine.withHeap bound) :=
    ⟨all, .refl all, arranged.withHeap placed withinAll⟩
  obtain ⟨last, withinLast, arrangedLast⟩ :=
    @keeps all (scope.push machine.heap.tables.next) made.1 (within.trans withinAll) standsMade
      _ after
  exact ⟨last, (within.trans withinAll).trans withinLast, arrangedLast⟩

theorem arrangedOn_constant (calls : Calls) (stands : before owner path scope.inner.table)
    {name : String} (free : IsFree owner name)
    {constant : Expr} (literal : constant.isLiteral = true) :
    Keeps (ArrangedOn before)
      (evaluate calls scope constant >>= assign calls scope (.identifier name)) := by
  intro machine arranged
  obtain ⟨places, within, arranged⟩ := arranged
  obtain ⟨found, heap, evaluates, grows, _, denotes⟩ :=
    evaluate_literal calls scope constant literal machine
  have between : ArrangedOn before (machine.withHeap heap) :=
    ⟨places, within, arranged.withHeap (arranged.placed.grows grows) (.refl places)⟩
  rw [stateAfter, EStateM.bind_of_ok evaluates]
  exact arrangedOn_bind stands free (.inl (denotes.isPlain literal)) _ between

/-! ## Declarations -/

mutual

theorem arrangedOn_execute (calls : Calls) :
    ∀ (statement : Stmt) {before : Places} {scope : Scope} {owner : Value} {path : String},
      statement.isDeclarative = true → before owner path scope.inner.table →
        (∀ name ∈ statement.boundName?, IsFree owner name) →
          Keeps (ArrangedOn before) (execute calls scope statement)
  | .pass, _, _, _, _, _, _, _ => by
      rw [execute]
      exact Keeps.pure none
  | .declare name, _, _, _, _, _, stands, free => by
      rw [execute]
      exact (arrangedOn_bind stands (free name rfl) (.inl rfl)).bind fun _ => Keeps.pure none
  | .functionDef name parameters body, _, _, _, _, _, stands, free => by
      rw [execute]
      exact (arrangedOn_declareFunction stands (free name rfl) parameters body).bind fun _ =>
        Keeps.pure none
  | .classDef name bases body, _, _, _, _, declarative, stands, free => by
      rw [Stmt.isDeclarative] at declarative
      rw [execute]
      refine arrangedOn_declareClass stands (free name rfl) fun _ standsMade => ?_
      refine (arrangedOn_executeAll calls body declarative standsMade ?_).bind fun _ =>
        Keeps.pure none
      exact fun _ _ _ _ _ isPackage => by cases isPackage
  | .assign (.identifier name) constant, _, _, _, _, declarative, stands, free => by
      rw [Stmt.isDeclarative] at declarative
      rw [execute]
      have assigns := (arrangedOn_constant calls stands (free name rfl) declarative).bind
        fun _ => Keeps.pure (none : Option Value)
      rw [bind_assoc] at assigns
      exact assigns
  | .assign (.literal _) _, _, _, _, _, never, _, _ => by simp [Stmt.isDeclarative] at never
  | .assign (.list _) _, _, _, _, _, never, _, _ => by simp [Stmt.isDeclarative] at never
  | .assign (.tuple _) _, _, _, _, _, never, _, _ => by simp [Stmt.isDeclarative] at never
  | .assign (.member _ _) _, _, _, _, _, never, _, _ => by simp [Stmt.isDeclarative] at never
  | .assign (.item _ _) _, _, _, _, _, never, _, _ => by simp [Stmt.isDeclarative] at never
  | .assign (.call _ _ _) _, _, _, _, _, never, _, _ => by simp [Stmt.isDeclarative] at never
  | .assign .blank _, _, _, _, _, never, _, _ => by simp [Stmt.isDeclarative] at never
  | .returns _, _, _, _, _, never, _, _ => by simp [Stmt.isDeclarative] at never
  | .branch _ _ _, _, _, _, _, never, _, _ => by simp [Stmt.isDeclarative] at never
  | .call _, _, _, _, _, never, _, _ => by simp [Stmt.isDeclarative] at never
  | .imports _, _, _, _, _, never, _, _ => by simp [Stmt.isDeclarative] at never
  | .blank, _, _, _, _, never, _, _ => by simp [Stmt.isDeclarative] at never

theorem arrangedOn_executeAll (calls : Calls) :
    ∀ (body : List Stmt) {before : Places} {scope : Scope} {owner : Value} {path : String},
      Stmt.areDeclarative body = true → before owner path scope.inner.table →
        (∀ statement ∈ body, ∀ name ∈ statement.boundName?, IsFree owner name) →
          Keeps (ArrangedOn before) (executeAll calls scope body)
  | [], _, _, _, _, _, _, _ => by
      rw [executeAll]
      exact Keeps.pure none
  | first :: rest, _, _, _, _, declarative, stands, free => by
      rw [Stmt.areDeclarative, Bool.and_eq_true] at declarative
      obtain ⟨freeFirst, freeRest⟩ := List.forall_mem_cons.mp free
      rw [executeAll]
      refine (arrangedOn_execute calls first declarative.1 stands freeFirst).bind fun ended => ?_
      cases ended with
      | none => exact arrangedOn_executeAll calls rest declarative.2 stands freeRest
      | some value => exact Keeps.pure (some value)

end

/-! ## Loads -/

theorem ArrangedOn.mono (within : before.Within places) (arranged : machine.ArrangedOn places) :
    machine.ArrangedOn before :=
  let ⟨more, withinMore, arrangedMore⟩ := arranged
  ⟨more, within.trans withinMore, arrangedMore⟩

variable {name : String}

/-- The package of a name is found at its place, or bound there; also where that fails,
everything stands at its place. -/
theorem claimPackage_arranged (arranged : machine.Arranged places)
    (foreign : IsForeign name) :
    ∃ heap more,
      places.Within more ∧ heap.Placed outermostValue machine.root.inner.table more ∧
        ((∃ ref table, claimPackage name machine = .ok ref (machine.withHeap heap) ∧
            more (.package ref) name table) ∨
          ∃ fault, claimPackage name machine = .error fault (machine.withHeap heap)) := by
  by_cases isPackage : ∃ ref, machine.heap.lookupQualified machine.root name = .package ref
  · obtain ⟨ref, found⟩ := isPackage
    refine ⟨machine.heap, places, .refl places, arranged.placed, .inl ?_⟩
    have fit := arranged.placed.fit_lookupQualified foreign
    rw [← arranged.outermost, found] at fit
    rcases fit with never | ⟨table, stands⟩
    · cases never
    · exact ⟨ref, table, claimPackage_of_package found, stands⟩
  · have other (ref : Ref .package) :
        machine.heap.lookupQualified machine.root name ≠ .package ref :=
      fun found => isPackage ⟨ref, found⟩
    have made := arranged.placed.addPackage name
    have within := places.within_add (.package (machine.heap.addPackage name).1) name
      machine.heap.tables.next
    have stands := places.add_self (.package (machine.heap.addPackage name).1) name
      machine.heap.tables.next
    cases binds : (machine.heap.addPackage name).2.bindQualified machine.root name
        (.package (machine.heap.addPackage name).1) with
    | error fault =>
        exact ⟨_, _, within, made, .inr ⟨fault, claimPackage_of_unbound other binds⟩⟩
    | ok heap =>
        have bound := binds
        rw [arranged.outermost] at bound
        obtain ⟨more, withinMore, placed⟩ := made.bindQualified foreign (.inr ⟨_, stands⟩) bound
        exact ⟨heap, more, within.trans withinMore, placed,
          .inl ⟨_, _, claimPackage_of_ne_package other binds, withinMore stands⟩⟩

/-- Every package binds its name and its file, which no builtin is named like. -/
theorem outermostValue_preset :
    outermostValue moduleNameKey = none ∧ outermostValue fileKey = none := by
  have areNone :
      ((outermostValue moduleNameKey).isNone && (outermostValue fileKey).isNone) = true := by
    rw [outermostValue, outermostValue, Machine.initial_eq]
    decide +kernel
  rw [Bool.and_eq_true, Option.isNone_iff_eq_none, Option.isNone_iff_eq_none] at areNone
  exact areNone

/-- A package is entered in the frame of its members. -/
theorem enterPackage_arranged (arranged : machine.Arranged places) (file : String)
    (foreign : IsForeign name) :
    ∃ after more,
      places.Within more ∧ after.Arranged more ∧
        ((∃ ref scope, enterPackage name file machine = .ok (ref, scope) after ∧
            more (.package ref) name scope.inner.table) ∨
          ∃ fault, enterPackage name file machine = .error fault after) := by
  obtain ⟨claimed, more, within, placed, ⟨ref, table, claims, stands⟩ | ⟨fault, fails⟩⟩ :=
    claimPackage_arranged arranged foreign
  · let filed := claimed.updatePackage ref ({ · with file := some file })
    have placedFiled : filed.Placed outermostValue machine.root.inner.table more :=
      placed.grows (claimed.grows_updatePackage ref fun _ => ⟨rfl, rfl⟩)
    let bound := (filed.bind table moduleNameKey (.str name)).bind table fileKey (.str file)
    have placedBound : bound.Placed outermostValue machine.root.inner.table more := by
      have fitName : more.Fit (name ++ "." ++ moduleNameKey) (.str name) := .inl rfl
      have fitFile : more.Fit (name ++ "." ++ fileKey) (.str file) := .inl rfl
      have placedName := placedFiled.bind stands fitName fun _ _ taken =>
        absurd outermostValue_preset.1 taken
      exact placedName.bind stands fitFile fun _ _ taken => absurd outermostValue_preset.2 taken
    have members : (filed.package ref).members = table :=
      (placedFiled.owns stands).package_eq.2
    let scope := machine.root.pushPackage table (filed.package ref).name
    let after := { machine.withHeap bound with packages := machine.packages.insert name ref }
    have enters : enterPackage name file machine = .ok (ref, scope) after := by
      rw [enterPackage_of_claims claims rfl, members]
    refine ⟨after, more, within, ?_, .inl ⟨ref, scope, enters, stands⟩⟩
    refine ⟨placedBound, arranged.outermost, ?_⟩
    intro other found isKnown
    rw [Table.get?_insert] at isKnown
    split at isKnown
    · rename_i same
      cases isKnown
      exact ⟨table, same ▸ stands⟩
    · obtain ⟨otherTable, stands⟩ := arranged.known isKnown
      exact ⟨otherTable, within stands⟩
  · exact ⟨_, more, within, arranged.withHeap placed within,
      .inr ⟨fault, EStateM.bind_eq_error_iff.mpr (.inl fails)⟩⟩

/-- The load of a package that only declares leaves everything at its place, however it
ends. -/
theorem arrangedOn_loadPackage (sources : Sources) (calls : Calls) (file : Option String)
    (foreign : IsForeign name)
    (declares :
      ∀ program, sources.program (sourceFile name file) = .ok program →
        LeavesBuiltins program.body) :
    Keeps (ArrangedOn before) (loadPackage sources calls name file) := by
  rintro machine ⟨places, within, arranged⟩
  cases isKnown : machine.packages.get? name with
  | some ref =>
      rw [stateAfter_ok (loadPackage_of_known isKnown)]
      exact ⟨places, within, arranged⟩
  | none =>
      have arrangedAsked : (machine.asked (sourceFile name file)).Arranged places :=
        ⟨arranged.placed, arranged.outermost, arranged.known⟩
      rw [stateAfter, loadPackage_of_unknown isKnown]
      refine stateAfter_bind ?_ ?_
      · intro fault after fails
        rw [requestProgram_eq] at fails
        split at fails <;> cases fails
        exact ⟨places, within, arrangedAsked⟩
      · intro program asked asks
        rw [requestProgram_eq] at asks
        split at asks
        · rename_i reads
          cases asks
          obtain ⟨declarative, free⟩ := declares program reads
          obtain ⟨after, more, withinMore, arrangedMore, outcome⟩ :=
            enterPackage_arranged arrangedAsked (sourceFile name file) foreign
          rcases outcome with ⟨ref, scope, enters, stands⟩ | ⟨fault, fails⟩
          · have body : Keeps (ArrangedOn more) (runBlock calls scope program.body) := by
              rw [runBlock_eq]
              refine (arrangedOn_executeAll calls program.body declarative stands ?_).bind
                fun _ => Keeps.pure _
              exact fun statement inside bound binds _ _ => free statement inside bound binds
            rw [stateAfter, EStateM.bind_of_ok enters]
            exact ((body.bind fun _ => Keeps.pure ref) after
              ⟨more, .refl more, arrangedMore⟩).mono (within.trans withinMore)
          · rw [stateAfter_error (EStateM.bind_eq_error_iff.mpr (.inl fails))]
            exact ⟨more, within.trans withinMore, arrangedMore⟩
        · cases asks

/-- The machine after packages were loaded in turn, each from the file that is told or from
its own, whether the loads succeed or fail. -/
def loadAll (sources : Sources) (loads : List (String × Option String)) (machine : Machine) :
    Machine :=
  loads.foldl
    (fun machine load => stateAfter ((Calls.of sources).package load.1 load.2) machine) machine

theorem arrangedOn_loadAll {sources : Sources} :
    ∀ {loads : List (String × Option String)} {machine : Machine},
      (∀ load ∈ loads, IsForeign load.1) →
        (∀ load ∈ loads, ∀ program,
          sources.program (sourceFile load.1 load.2) = .ok program →
            LeavesBuiltins program.body) →
          machine.ArrangedOn before → (machine.loadAll sources loads).ArrangedOn before
  | [], _, _, _, arranged => arranged
  | load :: rest, machine, foreign, declares, arranged => by
      obtain ⟨foreignFirst, foreignRest⟩ := List.forall_mem_cons.mp foreign
      obtain ⟨declaresFirst, declaresRest⟩ := List.forall_mem_cons.mp declares
      let between := stateAfter ((Calls.of sources).package load.1 load.2) machine
      have loads : Keeps (ArrangedOn before) ((Calls.of sources).package load.1 load.2) :=
        arrangedOn_loadPackage sources _ load.2 foreignFirst declaresFirst
      have after : (between.loadAll sources rest).ArrangedOn before :=
        arrangedOn_loadAll foreignRest declaresRest (loads machine arranged)
      exact after

end Machine

/-- The frames of a scope that tables were pushed on. -/
theorem Scope.frames_foldl_push (scope : Scope) (tables : List (Ref .table)) :
    (tables.foldl Scope.push scope).frames =
      tables.reverse.map (⟨·, none⟩) ++ scope.frames := by
  induction tables generalizing scope with
  | nil => rfl
  | cons table rest inductionHypothesis =>
      rw [List.foldl_cons, inductionHypothesis, List.reverse_cons, List.map_append,
        List.append_assoc]
      rfl

namespace Reserved

/-- The scope of a package that was loaded. -/
def scopeOf (machine : Machine) (ref : Ref .package) : Scope :=
  machine.root.pushPackage (machine.heap.package ref).members (machine.heap.package ref).name

def function (name : String) : Stmt := .functionDef name [] [.pass]

/-- A package, and one below it that is named like a builtin. -/
def nested : Sources := .holding [("a", [function "f"]), ("a.int", [function "g"])]

def loads : List (String × Option String) := [("a.int", none), ("a", none)]

/-- `p.int = 3` in a class of the package `p` -/
def intruding : Stmt :=
  .classDef "C" [] [.assign (.member (.identifier "p") "int") (.literal (.int 3))]

def intruded : Sources := .holding [("p", [function "f", intruding])]

/-- Whether no builtin has the name of a package or of a definition. -/
def areFree : Bool :=
  ["a", "f", "g", "p", "C"].all fun name => (outermostValue name).isNone

/-- Whether the outer package binds the inner one, under a name of a builtin. -/
def nests (machine : Machine) : Bool :=
  (machine.packages.get? "a").any fun ref =>
    ((machine.heap.table (machine.heap.package ref).members).get? "int").any
      (machine.heap.isSubpackage (scopeOf machine ref).inner)

/-- Whether a builtin has another meaning in the package. -/
def intrudes (machine : Machine) : Bool :=
  (machine.packages.get? "p").any fun ref =>
    (machine.heap.lookup (scopeOf machine ref) "int").identical (.int 3) &&
      !(machine.heap.lookup machine.root "int").identical (.int 3)

private theorem areFree_eq_true : areFree = true := by
  simp only [areFree, outermostValue, Machine.initial_eq]
  decide +kernel

set_option maxRecDepth 100000 in
private theorem checks :
    (areFree && (outermostValue "int").isSome &&
      (nests (Machine.initial.loadAll nested loads) &&
        intrudes (Machine.initial.loadAll intruded [("p", none)]))) = true := by
  rw [areFree_eq_true, Bool.true_and, outermostValue, Machine.initial_eq]
  decide +kernel

theorem outermostValue_free {name : String} (listed : name ∈ ["a", "f", "g", "p", "C"]) :
    outermostValue name = none := by
  have free := checks
  rw [Bool.and_eq_true, Bool.and_eq_true, areFree, List.all_eq_true] at free
  exact Option.isNone_iff_eq_none.mp (free.1.1 name listed)

theorem isForeign {name first : String} {rest : List String}
    (split : Heap.nameParts name = first :: rest)
    (listed : first ∈ ["a", "f", "g", "p", "C"]) : IsForeign name := by
  intro other isFirst
  rw [split] at isFirst
  cases isFirst
  exact outermostValue_free listed

theorem nameParts_int : Heap.nameParts "a.int" = ["a", "int"] := by
  rw [show "a.int" = "a" ++ "." ++ "int" from rfl, Heap.nameParts_append,
    Heap.nameParts_of_dotless (by decide), Heap.nameParts_of_dotless (by decide)]
  rfl

end Reserved

end TorchArchive
