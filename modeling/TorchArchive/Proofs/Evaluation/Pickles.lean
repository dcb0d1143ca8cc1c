import TorchArchive.Pickle.Load
import TorchArchive.Proofs.Evaluation.Packages

/-!
# What pickled objects keep

The objects of a pickled stream are made by the same changes of the heap as those of
archive code, so a load keeps a property of machines that archive code cannot end.
-/

namespace TorchArchive

open Run

namespace Pickle

/-! ## Steps of a load -/

section Steps

variable {property : Table String Value → Machine → Prop} {α β : Type}

/-- A step of a load that keeps a property of the storages and the machine, whatever is on
the stack.  Of a step that fails no storages are left. -/
def LoadKeeps (property : Table String Value → Machine → Prop) (step : Load α) : Prop :=
  ∀ loading machine, property loading.storages machine →
    match step loading machine with
    | .ok (_, after) later => property after.storages later
    | .error _ later => ∃ storages, property storages later

namespace LoadKeeps

theorem pure (value : α) : LoadKeeps property (Pure.pure value : Load α) :=
  fun _ _ before => before

theorem throw (fault : Fault) : LoadKeeps property (MonadExcept.throw fault : Load α) :=
  fun _ _ before => ⟨_, before⟩

theorem get : LoadKeeps property (MonadState.get : Load Loading) :=
  fun _ _ before => before

theorem modify {change : Loading → Loading}
    (kept : ∀ loading, (change loading).storages = loading.storages) :
    LoadKeeps property (modify change : Load PUnit) := by
  intro loading machine before
  change property (change loading).storages machine
  rw [kept]
  exact before

theorem bind {first : Load α} {second : α → Load β} (keepsFirst : LoadKeeps property first)
    (keepsSecond : ∀ value, LoadKeeps property (second value)) :
    LoadKeeps property (first >>= second) := by
  intro loading machine before
  have between := keepsFirst loading machine before
  change match EStateM.bind (first loading) (fun result => second result.1 result.2) machine with
    | .ok (_, after) later => property after.storages later
    | .error _ later => ∃ storages, property storages later
  rw [EStateM.bind]
  cases ends : first loading machine with
  | error fault later =>
      rw [ends] at between
      exact between
  | ok result later =>
      rw [ends] at between
      exact keepsSecond result.1 result.2 later between

theorem lift {step : Run α} (keeps : ∀ storages, Keeps (property storages) step) :
    LoadKeeps property (liftM step : Load α) := by
  intro loading machine before
  have after := keeps loading.storages machine before
  rw [stateAfter] at after
  change match EStateM.bind step (fun value => Pure.pure (value, loading)) machine with
    | .ok (_, after) later => property after.storages later
    | .error _ later => ∃ storages, property storages later
  rw [EStateM.bind]
  cases ends : step machine with
  | error fault later =>
      rw [ends] at after
      exact ⟨_, after⟩
  | ok value later =>
      rw [ends] at after
      exact after

theorem ofExcept (result : Except Fault α) :
    LoadKeeps property (ofExcept result : Load α) := by
  cases result with
  | ok value => exact pure value
  | error fault => exact throw fault

theorem listForM {step : α → Load PUnit} (keeps : ∀ item, LoadKeeps property (step item))
    (items : List α) : LoadKeeps property (items.forM step) := by
  induction items with
  | nil => exact pure PUnit.unit
  | cons first rest inductionHypothesis =>
      exact (keeps first).bind fun _ => inductionHypothesis

end LoadKeeps

theorem push_keeps (value : Value) : LoadKeeps property (push value) :=
  LoadKeeps.modify fun _ => rfl

theorem onStack_keeps (fault : Fault) (step : Stack → Option (α × Stack)) :
    LoadKeeps property (onStack fault step) := by
  intro loading machine before
  have started (rest : Loading → Load α) :
      (MonadState.get >>= rest) loading machine = rest loading loading machine := rfl
  rw [onStack, started]
  cases step loading.stack with
  | none => exact ⟨_, before⟩
  | some result => exact before

theorem pop_keeps : LoadKeeps property pop := onStack_keeps _ _

theorem group_keeps : LoadKeeps property group := onStack_keeps _ _

end Steps

section Machines

variable {property : Machine → Prop} {α : Type}

/-- The storages are no part of the machine. -/
theorem modify_keeps (change : Loading → Loading) :
    LoadKeeps (fun _ => property) (modify change : Load PUnit) :=
  fun _ _ before => before

theorem keeps_of_loadKeeps {step : Load α} (keeps : LoadKeeps (fun _ => property) step)
    (loading : Loading) : Keeps property (step loading) := by
  intro machine before
  have after := keeps loading machine before
  rw [stateAfter]
  cases ends : step loading machine with
  | error fault later =>
      rw [ends] at after
      obtain ⟨_, kept⟩ := after
      exact kept
  | ok result later =>
      rw [ends] at after
      exact after

end Machines

end Pickle

variable {property : Machine → Prop} {permitted : Permission}

namespace Machine.Persists

open Pickle

variable (persists : Persists property permitted)

include persists

/-! ## Names and calls -/

section Globals

variable {calls : Calls} (keep : calls.Keep property)

include keep

theorem findGlobal (module name : String) :
    Keeps property (Pickle.findGlobal calls module name) := by
  have found :
      Keeps property
        (tryCatch (TorchArchive.resolve calls (module ++ "." ++ name)) fun fault =>
          if fault.kind = .sourceNotFound then pure Value.missing else throw fault) := by
    refine (resolve_keeps keep _).tryCatch fun fault => ?_
    split
    · exact Keeps.pure _
    · exact Keeps.throw _
  refine found.bind fun value => ?_
  have classed :
      Keeps property
        (Value.moduleClass <$>
          Run.allocate fun heap => heap.addModuleClass module name) :=
    (persists.allocate fun _ => (Heap.Edit.moduleClass module name).once).map _
  split
  · exact Keeps.pure _
  · split
    · dsimp only
      split
      · exact (Keeps.throw _).bind fun _ => classed
      · exact classed
    · split
      · exact Keeps.pure _
      · exact Keeps.throw _

theorem callObject (target : Value) (arguments : List Value) :
    Keeps property (Pickle.callObject calls target arguments) := by
  cases target with
  | function ref => exact keep.apply ref none arguments
  | moduleClass ref => exact (persists.newInstance ref).map _
  | builtin builtin => exact recorded_keeps fun machine =>
      (persists.recording machine).builtin builtin arguments []
  | method method => exact recorded_keeps fun machine =>
      (persists.recording machine).method method arguments []
  | storageType type => exact recorded_keeps fun machine =>
      (persists.recording machine).storageType type arguments []
  | _ => exact heap_keeps.bind fun heap => Keeps.throw _

omit keep in
theorem makeInstance (target arguments : Value) :
    Keeps property (Pickle.makeInstance target arguments) := by
  unfold Pickle.makeInstance
  split
  · exact (persists.newInstance _).map _
  · exact Keeps.throw _
  · exact Keeps.throw _

/-! ## Storages -/

omit persists in
theorem namedStorageType (value : Value) :
    Keeps property (Pickle.storageType calls value) := by
  have typed (found : Value) :
      Keeps property (Pickle.expectStorageType found) := by
    unfold Pickle.expectStorageType
    split
    · exact Keeps.pure _
    · exact heap_keeps.bind fun heap => Keeps.throw _
  unfold Pickle.storageType
  split
  · exact (resolve_keeps keep _).bind typed
  · exact typed value

theorem storageOf (contents : Table String ByteArray) (type : Value) (key : String)
    (size : Value) :
    LoadKeeps (fun _ => property) (Pickle.storageOf calls contents type key size) := by
  refine LoadKeeps.get.bind fun loading => ?_
  split
  · exact LoadKeeps.pure _
  · refine (LoadKeeps.lift fun _ => namedStorageType keep type).bind fun type => ?_
    refine (LoadKeeps.lift fun _ =>
      persists.allocate fun _ => (Heap.Edit.storage _).once).bind fun ref => ?_
    exact (modify_keeps _).bind fun _ => LoadKeeps.pure _

omit persists keep in
theorem viewOf (view : Value) : LoadKeeps (fun _ => property) (Pickle.viewOf view) := by
  refine (LoadKeeps.lift fun _ => heap_keeps).bind fun heap => ?_
  refine (LoadKeeps.ofExcept _).bind fun key => LoadKeeps.get.bind fun loading => ?_
  split
  · exact LoadKeeps.pure _
  · exact (modify_keeps _).bind fun _ => LoadKeeps.pure _

theorem referredStorage (contents : Table String ByteArray) (parts : List Value) :
    LoadKeeps (fun _ => property) (Pickle.referredStorage calls contents parts) := by
  refine (LoadKeeps.ofExcept _).bind fun type => ?_
  refine (LoadKeeps.ofExcept _).bind fun key => ?_
  refine (LoadKeeps.lift fun _ => heap_keeps).bind fun heap => ?_
  refine (LoadKeeps.ofExcept _).bind fun location => ?_
  refine (persists.storageOf keep _ _ _ _).bind fun storage => ?_
  split
  · refine (LoadKeeps.lift fun _ => heap_keeps).bind fun heap => ?_
    split
    · exact viewOf _
    · exact LoadKeeps.pure _
  · exact LoadKeeps.pure _

theorem loadPersistent (contents : Table String ByteArray) (id : Value) :
    LoadKeeps (fun _ => property) (Pickle.loadPersistent calls contents id) := by
  refine (LoadKeeps.lift fun _ => heap_keeps).bind fun heap => ?_
  refine (LoadKeeps.ofExcept _).bind fun parts => ?_
  dsimp only
  split
  · exact persists.referredStorage keep contents _
  · exact (LoadKeeps.lift fun _ => heap_keeps).bind fun heap => LoadKeeps.throw _

end Globals

/-! ## Containers and states -/

theorem appendItems (target : Value) (items : List Value) :
    Keeps property (Pickle.appendItems target items) := by
  unfold Pickle.appendItems
  split
  · exact (persists.modifyHeap fun _ => (Heap.Edit.setList _ _).once).bind fun _ =>
      Keeps.pure _
  · exact (Keeps.ofExcept _).bind fun _ => Keeps.pure _
  · exact heap_keeps.bind fun heap => Keeps.throw _

theorem setItems (target : Value) (items : List Value) :
    Keeps property (Pickle.setItems target items) := by
  have put : Keeps property (Pickle.putItems target items) := by
    unfold Pickle.putItems
    split
    · refine persists.tryHeap fun heap after sets => ?_
      obtain ⟨entries, _, same⟩ := Except.bind_eq_ok_iff.mp sets
      cases same
      exact (Heap.Edit.setDict _ _).once
    · refine persists.tryHeap fun heap after sets => ?_
      obtain ⟨items, _, same⟩ := Except.bind_eq_ok_iff.mp sets
      cases same
      exact (Heap.Edit.setList _ _).once
    · exact heap_keeps.bind fun heap => Keeps.throw _
  unfold Pickle.setItems
  split
  · exact Keeps.throw _
  · exact put

theorem setState (target state : Value) :
    Keeps property (Pickle.setState target state) := by
  unfold Pickle.setState
  split
  · exact persists.modifyHeap fun heap =>
      (Heap.Edit.setFields _ (takeState heap state)).once
  · exact Keeps.throw _
  · exact Keeps.ofExcept _

end Machine.Persists

/-! ## Instructions -/

namespace Pickle

/-- An instruction that refers to a storage. -/
inductive Instruction.Refers : Instruction → Prop where
  | persistent (id : String) : Refers (.persistent id)
  | persistentOnStack : Refers .persistentOnStack

/-- An instruction keeps what code keeps, and a reference to a storage if it is one. -/
theorem instruction_keeps {property : Table String Value → Machine → Prop}
    {permitted : Permission} {calls : Calls}
    (persists : ∀ storages, Machine.Persists (property storages) permitted)
    (keep : ∀ storages, calls.Keep (property storages)) (contents : Table String ByteArray)
    (instruction : Instruction)
    (refers :
      instruction.Refers → ∀ id, LoadKeeps property (loadPersistent calls contents id)) :
    LoadKeeps property (execute calls contents instruction) := by
  cases instruction with
  | stop => exact LoadKeeps.pure _
  | skip => exact LoadKeeps.pure _
  | broken fault => exact LoadKeeps.throw fault
  | mark => exact LoadKeeps.modify fun _ => rfl
  | pop =>
      rw [Pickle.execute]
      exact onStack_keeps _ _
  | popGroup => exact group_keeps.bind fun _ => LoadKeeps.pure _
  | duplicate =>
      rw [Pickle.execute]
      exact onStack_keeps _ _
  | push value => exact push_keeps _
  | emptyList =>
      exact (LoadKeeps.lift fun _ => (persists _).newList []).bind fun value => push_keeps value
  | emptyDict =>
      exact (LoadKeeps.lift fun _ =>
        (persists _).allocate fun _ => (Heap.Edit.dict _).once).bind fun _ => push_keeps _
  | emptyTuple => exact push_keeps _
  | emptySet => exact push_keeps _
  | listOfGroup =>
      exact group_keeps.bind fun items =>
        (LoadKeeps.lift fun _ => (persists _).newList items).bind fun value => push_keeps value
  | dictOfGroup =>
      refine group_keeps.bind fun items => ?_
      have made :
          LoadKeeps property (do
            let entries ← ofExcept (putPairs (← Run.heap) .empty items)
            Pickle.push
              (.dict (← Run.allocate fun heap => heap.addDict ⟨false, entries⟩))) :=
        (LoadKeeps.lift fun _ => heap_keeps).bind fun heap =>
          (LoadKeeps.ofExcept _).bind fun entries =>
            (LoadKeeps.lift fun _ =>
              (persists _).allocate fun _ => (Heap.Edit.dict _).once).bind fun _ =>
                push_keeps _
      dsimp only
      split
      · exact (LoadKeeps.throw _).bind fun _ => made
      · exact made
  | tupleOfGroup => exact group_keeps.bind fun items => push_keeps _
  | frozenSetOfGroup =>
      exact (LoadKeeps.lift fun _ => heap_keeps).bind fun heap =>
        group_keeps.bind fun items =>
          (LoadKeeps.ofExcept _).bind fun members => push_keeps _
  | tupleOf size => exact (onStack_keeps _ _).bind fun items => push_keeps _
  | append =>
      exact pop_keeps.bind fun value => pop_keeps.bind fun target =>
        (LoadKeeps.lift fun _ => (persists _).appendItems target [value]).bind fun target =>
          push_keeps target
  | appendGroup =>
      refine group_keeps.bind fun items => pop_keeps.bind fun target => ?_
      dsimp only
      split
      · exact push_keeps target
      · exact (LoadKeeps.lift fun _ => (persists _).appendItems target items).bind fun target =>
          push_keeps target
  | setItem =>
      exact (onStack_keeps _ _).bind fun items => pop_keeps.bind fun target =>
        (LoadKeeps.lift fun _ => (persists _).setItems target items).bind fun _ =>
          push_keeps target
  | setItemsOfGroup =>
      refine group_keeps.bind fun items => pop_keeps.bind fun target => ?_
      dsimp only
      split
      · exact (LoadKeeps.lift fun _ => (persists _).setItems target items).bind fun _ =>
          push_keeps target
      · exact push_keeps target
  | addItemsOfGroup =>
      refine group_keeps.bind fun items => pop_keeps.bind fun target => ?_
      split
      · exact (LoadKeeps.lift fun _ => heap_keeps).bind fun heap =>
          (LoadKeeps.ofExcept _).bind fun members => push_keeps _
      · split
        · exact push_keeps _
        · exact LoadKeeps.throw _
  | global module name =>
      exact (LoadKeeps.lift fun _ => (persists _).findGlobal (keep _) module name).bind
        fun found => push_keeps found
  | globalOnStack =>
      refine pop_keeps.bind fun name => pop_keeps.bind fun module => ?_
      split
      · exact (LoadKeeps.lift fun _ => (persists _).findGlobal (keep _) _ _).bind fun found =>
          push_keeps found
      · exact LoadKeeps.throw _
  | instantiate names =>
      exact group_keeps.bind fun arguments =>
        (LoadKeeps.ofExcept names).bind fun (module, name) =>
          (LoadKeeps.lift fun _ => (persists _).findGlobal (keep _) module name).bind
            fun target =>
              (LoadKeeps.lift fun _ => (persists _).callObject (keep _) target arguments).bind
                fun made => push_keeps made
  | instantiateGroup =>
      refine group_keeps.bind fun items => ?_
      split
      · exact (LoadKeeps.lift fun _ => (persists _).callObject (keep _) _ _).bind fun made =>
          push_keeps made
      · exact LoadKeeps.throw _
  | newObject =>
      exact pop_keeps.bind fun arguments => pop_keeps.bind fun target =>
        (LoadKeeps.lift fun _ => (persists _).makeInstance target arguments).bind fun made =>
          push_keeps made
  | newObjectWithKeywords =>
      refine pop_keeps.bind fun keywords => pop_keeps.bind fun arguments =>
        pop_keeps.bind fun target =>
          (LoadKeeps.lift fun _ => (persists _).makeInstance target arguments).bind fun made => ?_
      split
      · exact push_keeps made
      · exact LoadKeeps.throw _
  | call =>
      refine pop_keeps.bind fun arguments => pop_keeps.bind fun target => ?_
      split
      · exact (LoadKeeps.lift fun _ => (persists _).callObject (keep _) target _).bind
          fun made => push_keeps made
      · exact LoadKeeps.throw _
  | build =>
      exact pop_keeps.bind fun state => pop_keeps.bind fun target =>
        (LoadKeeps.lift fun _ => (persists _).setState target state).bind fun _ =>
          push_keeps target
  | persistent id =>
      exact (refers (.persistent id) _).bind fun value => push_keeps value
  | persistentOnStack =>
      exact pop_keeps.bind fun id =>
        (refers .persistentOnStack id).bind fun value => push_keeps value
  | «recall» index =>
      refine LoadKeeps.get.bind fun loading => ?_
      split
      · exact push_keeps _
      · exact LoadKeeps.throw _
  | keep index =>
      refine LoadKeeps.get.bind fun loading => ?_
      have kept :
          LoadKeeps property (do
            let index ← ofExcept index
            onStack underflow fun stack =>
              (stack.keep? index).map fun stack => ((), stack)) :=
        (LoadKeeps.ofExcept index).bind fun _ => onStack_keeps _ _
      dsimp only
      split
      · exact (LoadKeeps.throw _).bind fun _ => kept
      · exact kept
  | keepNext =>
      rw [Pickle.execute]
      exact onStack_keeps _ _
  | makeReadOnly =>
      refine pop_keeps.bind fun value => ?_
      split
      · exact push_keeps _
      · exact push_keeps _
      · exact LoadKeeps.throw _

end Pickle

/-! ## Streams -/

namespace Machine.Persists

variable (persists : Persists property permitted) {calls : Calls} (keep : calls.Keep property)

include persists keep

theorem instruction (contents : Table String ByteArray) (instruction : Pickle.Instruction) :
    Pickle.LoadKeeps (fun _ => property) (Pickle.execute calls contents instruction) :=
  Pickle.instruction_keeps (fun _ => persists) (fun _ => keep) contents instruction
    fun _ id => persists.loadPersistent keep contents id

/-- The load of a stream keeps what each of its instructions keeps. -/
theorem pickle (contents : Table String ByteArray) (data : ByteArray) :
    Keeps property (Pickle.load calls contents data) := by
  have steps :
      Pickle.LoadKeeps (fun _ => property)
        ((Pickle.read data).forM (Pickle.execute calls contents) *> Pickle.pop) :=
    (Pickle.LoadKeeps.listForM (persists.instruction keep contents) (Pickle.read data)).bind
      fun _ => Pickle.pop_keeps
  exact (Pickle.keeps_of_loadKeeps steps ⟨.empty, .empty⟩).map Prod.fst

end Machine.Persists

end TorchArchive
