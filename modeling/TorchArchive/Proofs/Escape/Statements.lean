import TorchArchive.Proofs.Escape.Expressions
import TorchArchive.Proofs.Evaluation.Structured

/-!
# Statements that archive code is not blamed for

A statement fails with a fault that its code is not blamed for if and only if an
expression, an import or a function in it does, or it assigns an item under a key or at
an index that the container cannot have.
-/

namespace TorchArchive

/-- An assignment of an item that fails: under a key that cannot be one, or at an index
that a list does not have. -/
def ItemMisused (heap : Heap) (container index : Value) : Prop :=
  match container with
  | .dict _ => index.key? = none
  | .list ref =>
      ∀ n, Method.integer? index = some n →
        Heap.position? (heap.list ref).length n = none
  | _ => False

/-! ## Hazards of statements -/

namespace Hazards

/-- An assignment that fails. -/
def assign (hazards : Hazards) (calls : Calls) (scope : Scope) (target : Expr) :
    Machine → Prop :=
  match target with
  | .item (.identifier name) index => fun machine =>
      hazards.evaluate calls scope index machine ∨
        Yields (TorchArchive.evaluate calls scope index)
          (fun index after =>
            -- The types of fields are kept in a dictionary in any case.
            if name = typesKey then index.key? = none
            else ItemMisused after.heap (after.heap.lookup scope name) index)
          machine
  | .member owner _ => hazards.evaluate calls scope owner
  | _ => fun _ => False

/-- Imports in order, one of which fails. -/
def importAll (hazards : Hazards) (calls : Calls) (scope : Scope) :
    List (String × Option String) → Machine → Prop
  | [] => fun _ => False
  | (name, otherName) :: rest => fun machine =>
      hazards.package name none machine ∨
        Yields (importPackage calls scope name otherName)
          (fun _ => importAll hazards calls scope rest) machine

mutual

/-- A statement that fails. -/
def execute (hazards : Hazards) (calls : Calls) (scope : Scope) : Stmt → Machine → Prop
  | .pass | .functionDef _ _ _ | .declare _ | .blank => fun _ => False
  | .returns result => hazards.evaluate calls scope result
  | .classDef name _ body =>
      Yields (declareClass scope name) fun inner => executeAll hazards calls inner body
  | .assign target value => fun machine =>
      hazards.evaluate calls scope value machine ∨
        Yields (TorchArchive.evaluate calls scope value)
          (fun _ => hazards.assign calls scope target) machine
  | .branch condition taken otherwise => fun machine =>
      hazards.evaluate calls scope condition machine ∨
        Yields (TorchArchive.evaluate calls scope condition)
          (fun value after =>
            value = .atom (.bool true) ∧ executeAll hazards calls scope taken after ∨
              value = .atom (.bool false) ∧
                executeAll hazards calls scope otherwise after)
          machine
  | .call call => hazards.evaluate calls scope call
  | .imports packages => hazards.importAll calls scope packages

/-- Statements in order, one of which fails. -/
def executeAll (hazards : Hazards) (calls : Calls) (scope : Scope) :
    List Stmt → Machine → Prop
  | [] => fun _ => False
  | first :: rest => fun machine =>
      execute hazards calls scope first machine ∨
        Yields (TorchArchive.execute calls scope first)
          (fun ended after =>
            ended = none ∧ executeAll hazards calls scope rest after)
          machine

end

/-- A call of a function that fails in the function's body. -/
def applyFunction (hazards : Hazards) (calls : Calls) (ref : Ref .function)
    (receiver : Option Value) (arguments : List Value) (machine : Machine) : Prop :=
  let function := machine.heap.function ref
  let parameters := machine.heap.list function.parameters
  let frame := Table.ofList (bindParameters receiver parameters arguments)
  Yields (Run.allocate fun heap => heap.addTable frame)
    (fun table => hazards.executeAll calls (function.closure.push table) function.body)
    machine

end Hazards

/-! ## Assignments -/

variable {machine : Machine}

theorem putItem_iff {name : String} {container index value : Value} :
    Fails Fault.Foreign (putItem name container index value) machine ↔
      ItemMisused machine.heap container index := by
  rw [putItem, Run.heap_bind_iff, ItemMisused.eq_def]
  cases container with
  | dict ref =>
      dsimp only
      rw [Entries.put?]
      cases index.key? with
      | none => exact iff_of_true ((Fails.throw_iff _).mpr rfl) rfl
      | some key => exact iff_of_false (Run.not_modifyHeap _) fun same => by cases same
  | list ref =>
      dsimp only
      cases index with
      | atom a =>
          dsimp only [Method.integer?]
          cases a.integer? with
          | none =>
              refine iff_of_true ((Fails.throw_iff _).mpr rfl) ?_
              intro n same
              cases same
          | some n =>
              dsimp only
              cases found : Heap.position? (machine.heap.list ref).length n with
              | none =>
                  refine iff_of_true ((Fails.throw_iff _).mpr rfl) ?_
                  intro other same
                  cases same
                  exact found
              | some position =>
                  refine iff_of_false (Run.not_modifyHeap _) ?_
                  intro outside
                  have none := outside n rfl
                  rw [found] at none
                  cases none
      | _ =>
          refine iff_of_true ((Fails.throw_iff _).mpr rfl) ?_
          intro n same
          cases same
  | _ => exact iff_of_false (not_throw rfl) id

/-- The dictionary of types is found or made. -/
theorem typesDict_ok (scope : Scope) (found : Value) (machine : Machine) :
    ∃ ref after, typesDict scope found machine = .ok (.dict ref) after := by
  unfold typesDict
  split
  · exact ⟨_, machine, rfl⟩
  · exact ⟨_, _, rfl⟩

theorem not_bindTuple {scope : Scope} {targets : List Expr} {value : Value} :
    ¬ Fails Fault.Foreign (bindTuple scope targets value) machine := by
  rw [bindTuple, Run.heap_bind_iff]
  split
  · split
    · exact Run.not_modifyHeap _
    · exact not_throw rfl
  · exact not_throw rfl

theorem Heap.setMember_blames (heap : Heap) (target : Value) (name : String)
    (value : Value) : Blames (heap.setMember target name value) := by
  unfold setMember
  split
  case h_5 => exact .error rfl
  all_goals exact .ok _

theorem Run.not_tryHeap {step : Heap → Except Fault Heap}
    (blames : ∀ heap, Blames (step heap)) :
    ¬ Fails Fault.Foreign (Run.tryHeap step) machine := by
  rw [Run.tryHeap, Run.heap_bind_iff]
  exact Fails.not_bind (not_ofExcept (blames _)) fun _ _ => Run.not_modifyHeap _

namespace Hazards.Of

variable {hazards : Hazards} {calls : Calls} (exact_ : hazards.Of calls)

include exact_

theorem assign_iff (scope : Scope) (target : Expr) (value : Value) (machine : Machine) :
    Fails Fault.Foreign (TorchArchive.assign calls scope target value) machine ↔
      hazards.assign calls scope target machine := by
  rw [TorchArchive.assign.eq_def]
  split
  · exact iff_of_false (Run.not_binding _ _ _) id
  · rename_i name index
    refine Fails.bind_congr (exact_.evaluate_iff scope index machine) fun index after => ?_
    rw [Run.lookup_bind_iff]
    split
    · obtain ⟨ref, last, ends⟩ := typesDict_ok scope (after.heap.lookup scope name) after
      exact (Fails.bind_of_ok ends).trans putItem_iff
    · exact (Fails.bind_of_ok rfl).trans putItem_iff
  · rename_i owner name
    refine (Fails.bind_iff_first fun target after => ?_).trans
      (exact_.evaluate_iff scope owner machine)
    exact Run.not_tryHeap fun heap => heap.setMember_blames _ _ _
  · exact iff_of_false not_bindTuple id
  · rename_i notName notItem notMember notTuple
    refine iff_of_false (not_throw rfl) ?_
    rw [Hazards.assign]
    · exact id
    all_goals assumption

theorem importPackage_iff (scope : Scope) (name : String) (otherName : Option String)
    (machine : Machine) :
    Fails Fault.Foreign (importPackage calls scope name otherName) machine ↔
      hazards.package name none machine := by
  refine (Fails.bind_iff_first fun ref after => ?_).trans
    (exact_.package name none machine)
  split
  · exact Fails.not_pure _
  · split
    · exact Fails.not_pure _
    · exact Run.not_binding _ _ _

theorem importAll_iff (scope : Scope) :
    ∀ (packages : List (String × Option String)) (machine : Machine),
      Fails Fault.Foreign (TorchArchive.importAll calls scope packages) machine ↔
        hazards.importAll calls scope packages machine
  | [], _ => Fails.pure_iff ()
  | (name, otherName) :: rest, machine =>
      Fails.bind_congr (exact_.importPackage_iff scope name otherName machine)
        fun _ after => importAll_iff scope rest after

end Hazards.Of

/-! ## Statements -/

theorem not_moduleNameOf {scope : Scope} :
    ¬ Fails Fault.Foreign (moduleNameOf scope) machine := by
  rw [moduleNameOf, Run.lookup_bind_iff]
  exact Fails.not_pure _

theorem not_declareFunction {scope : Scope} {name : String} {parameters : List String}
    {body : List Stmt} :
    ¬ Fails Fault.Foreign (declareFunction scope name parameters body) machine :=
  Fails.not_bind not_moduleNameOf fun _ _ =>
    Fails.not_bind (Run.not_allocate _) fun _ _ =>
      Fails.not_bind (Run.not_allocate _) fun _ _ => Run.not_binding _ _ _

theorem not_declareClass {scope : Scope} {name : String} :
    ¬ Fails Fault.Foreign (declareClass scope name) machine := by
  refine Fails.not_bind not_moduleNameOf fun _ _ => ?_
  refine Fails.not_bind (Run.not_allocate _) fun _ _ => ?_
  refine Fails.not_bind (Run.not_binding _ _ _) fun _ after => ?_
  rw [Run.heap_bind_iff]
  exact Fails.not_pure _

namespace Hazards.Of

variable {hazards : Hazards} {calls : Calls}

mutual

/-- Which statements fail with a fault that the code is not blamed for. -/
theorem execute_iff (exact_ : hazards.Of calls) (scope : Scope) :
    ∀ (statement : Stmt) (machine : Machine),
      Fails Fault.Foreign (TorchArchive.execute calls scope statement) machine ↔
        hazards.execute calls scope statement machine
  | .pass, machine => by
      rw [TorchArchive.execute, Hazards.execute]
      exact Fails.pure_iff none
  | .returns result, machine => by
      rw [TorchArchive.execute, Hazards.execute, Fails.map_iff]
      exact exact_.evaluate_iff scope result machine
  | .functionDef name parameters body, machine => by
      rw [TorchArchive.execute, Hazards.execute]
      exact iff_false_intro
        (Fails.not_bind not_declareFunction fun _ _ => Fails.not_pure _)
  | .classDef name bases body, machine => by
      rw [TorchArchive.execute, Hazards.execute]
      refine (Fails.bind_congr (iff_false_intro not_declareClass)
        fun inner after => ?_).trans (iff_of_eq (false_or _))
      refine (Fails.bind_iff_first fun _ _ => Fails.not_pure _).trans ?_
      exact executeAll_iff exact_ inner body after
  | .declare name, machine => by
      rw [TorchArchive.execute, Hazards.execute]
      exact iff_false_intro
        (Fails.not_bind (Run.not_binding _ _ _) fun _ _ => Fails.not_pure _)
  | .assign target value, machine => by
      rw [TorchArchive.execute, Hazards.execute]
      refine Fails.bind_congr (exact_.evaluate_iff scope value machine) fun value after => ?_
      refine (Fails.bind_iff_first fun _ _ => Fails.not_pure _).trans ?_
      exact exact_.assign_iff scope target value after
  | .branch condition taken otherwise, machine => by
      rw [TorchArchive.execute, Hazards.execute]
      refine Fails.bind_congr (exact_.evaluate_iff scope condition machine)
        fun value after => ?_
      split
      · refine (executeAll_iff exact_ scope taken after).trans ?_
        simp
      · refine (executeAll_iff exact_ scope otherwise after).trans ?_
        simp
      · rename_i notTrue notFalse
        refine iff_of_false (not_throw rfl) ?_
        rintro (⟨isTrue, _⟩ | ⟨isFalse, _⟩)
        · exact notTrue isTrue
        · exact notFalse isFalse
  | .call call, machine => by
      rw [TorchArchive.execute, Hazards.execute]
      refine (Fails.bind_iff_first fun _ _ => Fails.not_pure _).trans ?_
      exact exact_.evaluate_iff scope call machine
  | .imports packages, machine => by
      rw [TorchArchive.execute, Hazards.execute]
      refine (Fails.bind_iff_first fun _ _ => Fails.not_pure _).trans ?_
      exact exact_.importAll_iff scope packages machine
  | .blank, machine => by
      rw [TorchArchive.execute, Hazards.execute]
      exact iff_false_intro (not_throw rfl)

theorem executeAll_iff (exact_ : hazards.Of calls) (scope : Scope) :
    ∀ (body : List Stmt) (machine : Machine),
      Fails Fault.Foreign (TorchArchive.executeAll calls scope body) machine ↔
        hazards.executeAll calls scope body machine
  | [], machine => by
      rw [TorchArchive.executeAll, Hazards.executeAll]
      exact Fails.pure_iff none
  | first :: rest, machine => by
      rw [TorchArchive.executeAll, Hazards.executeAll]
      refine Fails.bind_congr (execute_iff exact_ scope first machine) fun ended after => ?_
      cases ended with
      | none =>
          refine (executeAll_iff exact_ scope rest after).trans ?_
          simp
      | some value =>
          refine iff_of_false (Fails.not_pure _) ?_
          rintro ⟨same, _⟩
          cases same

end

theorem runBlock_iff (exact_ : hazards.Of calls) (scope : Scope) (body : List Stmt)
    (machine : Machine) :
    Fails Fault.Foreign (runBlock calls scope body) machine ↔
      hazards.executeAll calls scope body machine := by
  rw [runBlock_eq]
  exact (Fails.bind_iff_first fun _ _ => Fails.not_pure _).trans
    (exact_.executeAll_iff scope body machine)

theorem applyFunction_iff (exact_ : hazards.Of calls) (ref : Ref .function)
    (receiver : Option Value) (arguments : List Value) (machine : Machine) :
    Fails Fault.Foreign (TorchArchive.applyFunction calls ref receiver arguments)
        machine ↔
      hazards.applyFunction calls ref receiver arguments machine := by
  rw [TorchArchive.applyFunction, Run.heap_bind_iff]
  refine (Fails.bind_congr (iff_false_intro (Run.not_allocate _))
    fun table after => ?_).trans (iff_of_eq (false_or _))
  exact exact_.runBlock_iff _ _ after

end Hazards.Of

end TorchArchive
