import TorchArchive.Evaluation.Basic
import TorchArchive.Proofs.Escape.Operations

/-!
# Expressions that archive code is not blamed for

An expression fails with a fault that its code is not blamed for if and only if its
evaluation comes to a call of a builtin or a method with operands that it cannot deal
with, or leaves the code at hand and fails there.
-/

namespace TorchArchive

/-- When what is asked for beyond the code at hand fails with a foreign fault. -/
structure Hazards where
  apply : Ref .function → Option Value → List Value → Machine → Prop
  package : String → Option String → Machine → Prop
  constants : Machine → Prop

/-- The hazards are exactly those of the calls. -/
structure Hazards.Of (hazards : Hazards) (calls : Calls) : Prop where
  apply :
    ∀ ref receiver arguments machine,
      Fails Fault.Foreign (calls.apply ref receiver arguments) machine ↔
        hazards.apply ref receiver arguments machine
  package :
    ∀ name file machine,
      Fails Fault.Foreign (calls.package name file) machine ↔
        hazards.package name file machine
  constants :
    ∀ machine, Fails Fault.Foreign calls.constants machine ↔ hazards.constants machine

/-! ## Hazards of expressions -/

namespace Hazards

section Values

variable (hazards : Hazards)

/-- A call of a value that fails: of a function or an initializer, or of a builtin or a
method with arguments that it cannot deal with. -/
def callValue (target : Value) (receiver : Option Value) (positional : List Value)
    (keywords : List (String × Value)) (machine : Machine) : Prop :=
  match target with
  | .function ref => hazards.apply ref receiver positional machine
  | .moduleClass ref =>
      Yields (newInstance ref)
        (fun made after =>
          ∃ init, (after.heap.table (after.heap.moduleClass ref).members).get? "__init__" =
              some (.function init) ∧
            hazards.apply init (some (.module made)) positional after)
        machine
  | .builtin builtin => builtin.CallMisused machine.heap positional keywords
  | .method method => method.CallMisused machine.heap positional keywords
  | _ => False

/-- A name that fails: the table of constants, if it cannot be read. -/
def nameValue (scope : Scope) (name : String) (machine : Machine) : Prop :=
  name = constantsName ∧ (machine.heap.lookup scope name).isMissing = true ∧
    hazards.constants machine

/-- An owner of a member that fails: a package that cannot be loaded, or a value. -/
def ownerValue (scope : Scope) (name : Option String) (evaluated : Machine → Prop)
    (machine : Machine) : Prop :=
  match name with
  | none => evaluated machine
  | some name =>
      if beginsWithPackage machine.heap scope name then
        (machine.heap.lookupQualified scope name).isMissing = true ∧
          hazards.package name none machine
      else evaluated machine

/-- The receiver of a call of a member: the owner, if it is a module. -/
def receiver? : Value → Option Value
  | .module ref => some (.module ref)
  | _ => none

/-- A call of a member that fails, in its owner or in the call. -/
def callMember (owner : Run Value) (ownerFails : Machine → Prop) (member : String)
    (positional : List Value) (keywords : List (String × Value)) (machine : Machine) :
    Prop :=
  ownerFails machine ∨
    Yields owner
      (fun target after =>
        ∃ function, after.heap.getMember target member = .ok function ∧
          hazards.callValue function (receiver? target) positional keywords after)
      machine

end Values

mutual

/-- An expression that fails. -/
def evaluate (hazards : Hazards) (calls : Calls) (scope : Scope) : Expr → Machine → Prop
  | .literal _ => fun _ => False
  | .list items | .tuple items => evaluateAll hazards calls scope items
  | .identifier name => hazards.nameValue scope name
  | .member target _ =>
      hazards.ownerValue scope target.dottedName? (evaluate hazards calls scope target)
  | .item target index => fun machine =>
      typeOfItem? machine.heap scope target index = none ∧
        (evaluate hazards calls scope target machine ∨
          Yields (TorchArchive.evaluate calls scope target)
            (fun _ => evaluate hazards calls scope index) machine)
  | .call (.member target name) arguments keywords => fun machine =>
      evaluateAll hazards calls scope arguments machine ∨
        Yields (TorchArchive.evaluateAll calls scope arguments)
          (fun positional after =>
            evaluateKeywords hazards calls scope [] keywords after ∨
              Yields (TorchArchive.evaluateKeywords calls scope [] keywords)
                (fun keywords =>
                  hazards.callMember
                    (TorchArchive.ownerValue calls scope target.dottedName?
                      (TorchArchive.evaluate calls scope target))
                    (hazards.ownerValue scope target.dottedName?
                      (evaluate hazards calls scope target))
                    name positional keywords)
                after)
          machine
  | .call callee arguments keywords => fun machine =>
      evaluateAll hazards calls scope arguments machine ∨
        Yields (TorchArchive.evaluateAll calls scope arguments)
          (fun positional after =>
            evaluateKeywords hazards calls scope [] keywords after ∨
              Yields (TorchArchive.evaluateKeywords calls scope [] keywords)
                (fun keywords between =>
                  evaluate hazards calls scope callee between ∨
                    Yields (TorchArchive.evaluate calls scope callee)
                      (fun target => hazards.callValue target none positional keywords)
                      between)
                after)
          machine
  | .blank => fun _ => False

/-- Expressions in order, one of which fails. -/
def evaluateAll (hazards : Hazards) (calls : Calls) (scope : Scope) :
    List Expr → Machine → Prop
  | [] => fun _ => False
  | first :: rest => fun machine =>
      evaluate hazards calls scope first machine ∨
        Yields (TorchArchive.evaluate calls scope first)
          (fun _ => evaluateAll hazards calls scope rest) machine

/-- Keyword arguments in order, one of which fails. -/
def evaluateKeywords (hazards : Hazards) (calls : Calls) (scope : Scope)
    (done : List (String × Value)) : List (String × Expr) → Machine → Prop
  | [] => fun _ => False
  | (name, first) :: rest => fun machine =>
      evaluate hazards calls scope first machine ∨
        Yields (TorchArchive.evaluate calls scope first)
          (fun value =>
            evaluateKeywords hazards calls scope (addKeyword done name value) rest)
          machine

end

end Hazards

/-! ## Single steps -/

namespace Run

variable {α : Type} {kind : Fault → Prop} {machine : Machine}

theorem heap_bind_iff {next : Heap → Run α} :
    Fails kind (Run.heap >>= next) machine ↔ Fails kind (next machine.heap) machine :=
  Fails.bind_of_ok (rfl : Run.heap machine = .ok machine.heap machine)

theorem root_bind_iff {next : Scope → Run α} :
    Fails kind (Run.root >>= next) machine ↔ Fails kind (next machine.root) machine :=
  Fails.bind_of_ok (rfl : Run.root machine = .ok machine.root machine)

theorem lookup_bind_iff {scope : Scope} {name : String} {next : Value → Run α} :
    Fails kind (Run.lookup scope name >>= next) machine ↔
      Fails kind (next (machine.heap.lookup scope name)) machine :=
  Fails.bind_of_ok
    (rfl : Run.lookup scope name machine = .ok (machine.heap.lookup scope name) machine)

theorem not_allocate (step : Heap → α × Heap) : ¬ Fails kind (Run.allocate step) machine :=
  Fails.not_modifyGet _

theorem not_modifyHeap (step : Heap → Heap) :
    ¬ Fails kind (Run.modifyHeap step) machine := not_allocate _

theorem not_binding (scope : Scope) (name : String) (value : Value) :
    ¬ Fails kind (Run.bind scope name value) machine := not_modifyHeap _

theorem not_newList (items : List Value) : ¬ Fails kind (Run.newList items) machine := by
  rw [Run.newList, Fails.map_iff]
  exact not_allocate _

theorem recorded_iff {step : Recorded α} :
    Fails kind (Run.recorded step) machine ↔ Fails kind step machine.recording := by
  rw [Fails, Fails, Run.recorded]
  cases step machine.recording with
  | ok value recording => simp
  | error fault recording => simp

end Run

theorem not_throw {α : Type} {fault : Fault} {machine : Machine}
    (script : fault.isScriptFault = true) :
    ¬ Fails Fault.Foreign (throw fault : Run α) machine :=
  (Fails.throw_iff fault).not.mpr (Fault.not_foreign script)

/-- A call of a builtin fails with what is left when wrong types are not counted. -/
theorem guardCall_iff {callee : String} {step : Recorded Value} {machine : Machine} :
    Fails Fault.Foreign (guardCall callee step) machine ↔
      Fails Fault.Unguarded step machine.recording := by
  refine (Fails.tryCatch_iff ?_ ?_).trans Run.recorded_iff
  · intro fault after unguarded
    split
    · exact (unguarded.2 _ rfl).elim
    · exact (Fails.throw_iff fault).mpr unguarded.1
  · intro fault after guarded
    split
    · exact not_throw rfl
    · rename_i notType
      refine (Fails.throw_iff fault).not.mpr fun foreign => guarded ⟨foreign, ?_⟩
      exact fun detail same => notType detail same

theorem not_callStub {name : String} {machine : Machine} :
    ¬ Fails Fault.Foreign (callStub name) machine := by
  rw [callStub, Run.recorded_iff]
  exact Builtin.not_callStub (Fault.not_foreign rfl)

theorem Heap.getMember_blames (heap : Heap) (target : Value) (name : String) :
    Blames (heap.getMember target name) := by
  rw [getMember]
  split
  · exact .ok _
  · exact .error rfl

theorem not_ofExcept {α : Type} {result : Except Fault α} {machine : Machine}
    (blames : Blames result) : ¬ Fails Fault.Foreign (ofExcept result : Run α) machine := by
  rw [Fails.ofExcept_iff]
  rintro ⟨fault, same, foreign⟩
  exact Fault.not_foreign (blames fault same) foreign

theorem not_itemValue {target index : Value} {machine : Machine} :
    ¬ Fails Fault.Foreign (itemValue target index) machine := by
  rw [itemValue, Run.heap_bind_iff]
  split
  · exact Fails.not_pure _
  · exact not_throw rfl

theorem not_bindConstants {constants : List Value} {machine : Machine} :
    ¬ Fails Fault.Foreign (bindConstants constants) machine := by
  refine Fails.not_bind (Run.not_allocate _) fun ref after => ?_
  refine Fails.not_bind (Run.not_modifyHeap _) fun _ after => ?_
  rw [Run.root_bind_iff]
  exact Fails.not_bind (Run.not_binding _ _ _) fun _ _ => Fails.not_pure _

/-! ## Values and names -/

namespace Hazards.Of

variable {hazards : Hazards} {calls : Calls} (exact_ : hazards.Of calls)
  {machine : Machine}

include exact_

theorem callValue_iff {target : Value} {receiver : Option Value}
    {positional : List Value} {keywords : List (String × Value)} :
    Fails Fault.Foreign (TorchArchive.callValue calls target receiver positional keywords) machine ↔
      hazards.callValue target receiver positional keywords machine := by
  cases target with
  | function ref => exact exact_.apply ref receiver positional machine
  | moduleClass ref =>
      have started : ¬ Fails Fault.Foreign (newInstance ref) machine := Run.not_allocate _
      refine (Fails.bind_congr (iff_false_intro started) ?_).trans (iff_of_eq (false_or _))
      intro made after
      rw [Run.heap_bind_iff]
      split
      · rename_i init found
        refine (Fails.bind_iff_first fun _ _ => Fails.not_pure _).trans ?_
        rw [exact_.apply, found]
        simp
      · rename_i never
        refine iff_of_false (Fails.not_pure _) ?_
        rintro ⟨init, found, _⟩
        exact never init found
  | builtin builtin => exact guardCall_iff.trans Builtin.call_fails_iff
  | method method => exact guardCall_iff.trans Method.call_fails_iff
  | storageType type =>
      exact guardCall_iff.trans (iff_false_intro StorageType.call_guarded)
  | _ =>
      refine iff_of_false (fun fails => ?_) id
      exact not_throw rfl (Run.heap_bind_iff.mp fails)

theorem nameValue_iff {scope : Scope} {name : String} :
    Fails Fault.Foreign (TorchArchive.nameValue calls scope name) machine ↔
      hazards.nameValue scope name machine := by
  unfold TorchArchive.nameValue
  split
  case h_1 | h_2 | h_3 =>
    exact iff_of_false (Fails.not_pure _) fun hazard => absurd hazard.1 (by decide)
  case h_4 =>
    rw [Run.lookup_bind_iff, Hazards.nameValue]
    cases missing : (machine.heap.lookup scope name).isMissing with
    | false => exact iff_of_false (Fails.not_pure _) fun hazard => by cases hazard.2.1
    | true =>
        simp only [Bool.not_true, Bool.false_eq_true, if_false, true_and]
        split
        · rename_i isType
          refine iff_of_false (Fails.not_pure _) ?_
          rintro ⟨rfl, _⟩
          exact absurd isType (by decide)
        · split
          · rename_i constants
            rw [and_iff_right constants]
            refine (Fails.bind_iff_first fun _ _ => not_bindConstants).trans ?_
            exact exact_.constants machine
          · rename_i other
            exact iff_of_false (not_throw rfl) fun hazard => other hazard.1

theorem ownerValue_iff {scope : Scope} {name : Option String} {evaluated : Run Value}
    {fails : Machine → Prop}
    (evaluates : ∀ machine, Fails Fault.Foreign evaluated machine ↔ fails machine) :
    Fails Fault.Foreign (TorchArchive.ownerValue calls scope name evaluated) machine ↔
      hazards.ownerValue scope name fails machine := by
  cases name with
  | none => exact evaluates machine
  | some name =>
      rw [TorchArchive.ownerValue, Run.heap_bind_iff, Hazards.ownerValue]
      cases beginsWithPackage machine.heap scope name with
      | false => simpa using evaluates machine
      | true =>
          simp only [Bool.not_true, Bool.false_eq_true, if_false, if_true]
          split
          · rename_i missing
            rw [Fails.map_iff, exact_.package, and_iff_right missing]
          · rename_i found
            exact iff_of_false (Fails.not_pure _) fun both => found both.1

theorem callMember_iff {name : Option String} {owner : Run Value}
    {fails : Machine → Prop} {member : String} {positional : List Value}
    {keywords : List (String × Value)}
    (owns : ∀ machine, Fails Fault.Foreign owner machine ↔ fails machine) :
    Fails Fault.Foreign
        (TorchArchive.callMember calls name owner member positional keywords) machine ↔
      hazards.callMember owner fails member positional keywords machine := by
  rw [TorchArchive.callMember, Fails.bind_iff, Hazards.callMember]
  refine or_congr ?_ ?_
  · refine (Fails.tryCatch_iff ?_ ?_).trans (Fails.map_iff.trans (owns machine))
    · intro fault after foreign
      have found : (fault.kind == .sourceNotFound) = false := by
        rw [beq_eq_false_iff_ne]
        intro same
        rw [Fault.Foreign, Fault.isScriptFault, same] at foreign
        cases foreign
      rw [found]
      exact (Fails.throw_iff fault).mpr foreign
    · intro fault after script
      split
      · exact Fails.not_pure _
      · exact (Fails.throw_iff fault).not.mpr script
  · refine (Yields.tryCatch_iff ?_).trans (Yields.map_iff.trans (Yields.congr ?_))
    · -- Where the owner's source is missing, a stand-in is called.
      rintro fault after ⟨value, between, handles, fails⟩
      split at handles
      · cases handles
        exact not_callStub fails
      · cases handles
    · intro target after
      dsimp only
      rw [Run.heap_bind_iff]
      cases found : after.heap.getMember target member with
      | ok function =>
          have single : (∃ other, (Except.ok function : Except Fault Value) = .ok other ∧
              hazards.callValue other (receiver? target) positional keywords after) ↔
              hazards.callValue function (receiver? target) positional keywords after := by
            simp
          rw [single]
          cases target with
          | _ => exact exact_.callValue_iff
      | error fault =>
          have script := Heap.getMember_blames after.heap target member fault found
          refine iff_of_false ?_ ?_
          · cases target with
            | module ref => exact not_throw script
            | _ =>
                cases name with
                | none => exact not_throw script
                | some name => exact not_callStub
          · rintro ⟨function, same, _⟩
            cases same

end Hazards.Of

/-! ## Expressions -/

namespace Hazards.Of

variable {hazards : Hazards} {calls : Calls}

mutual

/-- Which expressions fail with a fault that the code is not blamed for. -/
theorem evaluate_iff (exact_ : hazards.Of calls) (scope : Scope) :
    ∀ (expr : Expr) (machine : Machine),
      Fails Fault.Foreign (TorchArchive.evaluate calls scope expr) machine ↔
        hazards.evaluate calls scope expr machine
  | .literal value, machine => by
      rw [TorchArchive.evaluate, Hazards.evaluate]
      exact Fails.pure_iff value
  | .list items, machine => by
      rw [TorchArchive.evaluate, Hazards.evaluate]
      refine (Fails.bind_iff_first fun _ _ => Run.not_newList _).trans ?_
      exact evaluateAll_iff exact_ scope items machine
  | .tuple items, machine => by
      rw [TorchArchive.evaluate, Hazards.evaluate, Fails.map_iff]
      exact evaluateAll_iff exact_ scope items machine
  | .identifier name, machine => by
      rw [TorchArchive.evaluate, Hazards.evaluate]
      exact exact_.nameValue_iff
  | .member target name, machine => by
      rw [TorchArchive.evaluate, Hazards.evaluate]
      refine (Fails.bind_iff_first fun owner after => ?_).trans
        (exact_.ownerValue_iff (evaluate_iff exact_ scope target))
      rw [Run.heap_bind_iff]
      exact not_ofExcept (Heap.getMember_blames _ _ _)
  | .item target index, machine => by
      rw [TorchArchive.evaluate, Hazards.evaluate, Run.heap_bind_iff]
      split
      · rename_i type found
        refine iff_of_false (Fails.not_pure _) fun hazard => ?_
        have noType := hazard.1
        rw [found] at noType
        cases noType
      · rename_i noType
        refine Iff.trans ?_ (and_iff_right noType).symm
        refine Fails.bind_congr (evaluate_iff exact_ scope target machine) fun _ after => ?_
        refine (Fails.bind_iff_first fun _ _ => not_itemValue).trans ?_
        exact evaluate_iff exact_ scope index after
  | .call callee arguments keywords, machine => by
      have positional := evaluateAll_iff exact_ scope arguments machine
      have named := evaluateKeywords_iff exact_ scope [] keywords
      have target := evaluate_iff exact_ scope callee
      -- A member is called through its owner.
      cases callee with
      | member owner name =>
          have owns (machine : Machine) :
              Fails Fault.Foreign
                  (TorchArchive.ownerValue calls scope owner.dottedName?
                    (TorchArchive.evaluate calls scope owner))
                  machine ↔
                hazards.ownerValue scope owner.dottedName?
                  (hazards.evaluate calls scope owner) machine :=
            exact_.ownerValue_iff (evaluate_iff exact_ scope owner)
          rw [TorchArchive.evaluate, Hazards.evaluate]
          refine Fails.bind_congr positional fun positional after => ?_
          refine Fails.bind_congr (named after) fun keywords between => ?_
          exact exact_.callMember_iff owns
      | _ =>
          rw [TorchArchive.evaluate, Hazards.evaluate]
          · refine Fails.bind_congr positional fun positional after => ?_
            refine Fails.bind_congr (named after) fun keywords between => ?_
            refine Fails.bind_congr (target between) fun callee last => ?_
            exact exact_.callValue_iff
          · intro _ _ same
            cases same
          · intro _ _ same
            cases same
  | .blank, machine => by
      rw [TorchArchive.evaluate, Hazards.evaluate]
      exact iff_false_intro (not_throw rfl)

theorem evaluateAll_iff (exact_ : hazards.Of calls) (scope : Scope) :
    ∀ (exprs : List Expr) (machine : Machine),
      Fails Fault.Foreign (TorchArchive.evaluateAll calls scope exprs) machine ↔
        hazards.evaluateAll calls scope exprs machine
  | [], machine => by
      rw [TorchArchive.evaluateAll, Hazards.evaluateAll]
      exact Fails.pure_iff []
  | first :: rest, machine => by
      rw [TorchArchive.evaluateAll, Hazards.evaluateAll]
      refine Fails.bind_congr (evaluate_iff exact_ scope first machine) fun value after => ?_
      refine (Fails.bind_iff_first fun _ _ => Fails.not_pure _).trans ?_
      exact evaluateAll_iff exact_ scope rest after

theorem evaluateKeywords_iff (exact_ : hazards.Of calls) (scope : Scope) :
    ∀ (done : List (String × Value)) (keywords : List (String × Expr))
      (machine : Machine),
      Fails Fault.Foreign (TorchArchive.evaluateKeywords calls scope done keywords)
          machine ↔
        hazards.evaluateKeywords calls scope done keywords machine
  | done, [], machine => by
      rw [TorchArchive.evaluateKeywords, Hazards.evaluateKeywords]
      exact Fails.pure_iff done
  | done, (name, first) :: rest, machine => by
      rw [TorchArchive.evaluateKeywords, Hazards.evaluateKeywords]
      refine Fails.bind_congr (evaluate_iff exact_ scope first machine) fun value after => ?_
      exact evaluateKeywords_iff exact_ scope _ rest after

end

end Hazards.Of

end TorchArchive
