import TorchArchive.Pickle.Load
import TorchArchive.Proofs.Growth
import TorchArchive.Proofs.Package.Definitions
import TorchArchive.Proofs.Pickle.Stream

/-!
# Runs of codes

What the codes of a stream do to the stack, to the storages and to the machine.
-/

namespace TorchArchive.Pickle

/-- What a load changes besides its stack. -/
structure State where
  storages : Table String Value
  machine : Machine

namespace State

def heap (state : State) : Heap := state.machine.heap

def withHeap (state : State) (heap : Heap) : State :=
  { state with machine := state.machine.withHeap heap }

end State

/-- A sequence goes on from where its first step ends. -/
theorem Load.bind_eq {α β : Type} {first : Load α} {second : α → Load β}
    {before between : Loading} {machine after : Machine} {value : α}
    (ends : first before machine = .ok (value, between) after) :
    (first >>= second) before machine = second value between after := by
  change EStateM.bind (first before) (fun result => second result.1 result.2) machine = _
  rw [EStateM.bind, ends]

theorem Load.bind_eq_ok_iff {α β : Type} {first : Load α} {second : α → Load β}
    {before after : Loading} {machine later : Machine} {result : β} :
    (first >>= second) before machine = .ok (result, after) later ↔
      ∃ value between middle, first before machine = .ok (value, between) middle ∧
        second value between middle = .ok (result, after) later := by
  constructor
  · intro ends
    obtain ⟨⟨value, between⟩, middle, endsFirst, endsRest⟩ := EStateM.bind_eq_ok_iff.mp ends
    exact ⟨value, between, middle, endsFirst, endsRest⟩
  · rintro ⟨value, between, middle, endsFirst, endsRest⟩
    exact EStateM.bind_eq_ok_iff.mpr ⟨(value, between), middle, endsFirst, endsRest⟩

theorem Load.lift_eq_ok_iff {α : Type} {step : Run α} {value : α} {loading after : Loading}
    {machine later : Machine} :
    (step : Load α) loading machine = .ok (value, after) later ↔
      step machine = .ok value later ∧ loading = after := by
  constructor
  · intro ends
    obtain ⟨_, _, endsStep, same⟩ := EStateM.bind_eq_ok_iff.mp ends
    cases same
    exact ⟨endsStep, rfl⟩
  · rintro ⟨ends, rfl⟩
    exact EStateM.bind_eq_ok_iff.mpr ⟨value, later, ends, rfl⟩

theorem Load.ofExcept_eq_ok_iff {α : Type} {outcome : Except Fault α} {value : α}
    {loading after : Loading} {machine later : Machine} :
    (ofExcept outcome : Load α) loading machine = .ok (value, after) later ↔
      outcome = .ok value ∧ loading = after ∧ machine = later := by
  cases outcome with
  | error fault =>
      constructor
      · intro never
        cases never
      · rintro ⟨never, _⟩
        cases never
  | ok found =>
      constructor
      · intro same
        cases same
        exact ⟨rfl, rfl, rfl⟩
      · rintro ⟨same, rfl, rfl⟩
        cases same
        rfl

theorem Load.get_bind {β : Type} (second : Loading → Load β) (loading : Loading)
    (machine : Machine) :
    ((get : Load Loading) >>= second) loading machine = second loading loading machine :=
  Load.bind_eq rfl

theorem Load.lift_eq {α : Type} {step : Run α} {value : α} {loading : Loading}
    {machine after : Machine} (ends : step machine = .ok value after) :
    (step : Load α) loading machine = .ok (value, loading) after :=
  EStateM.bind_eq_ok_iff.mpr ⟨value, after, ends, rfl⟩

/-- Steps over a list go on from where those over its front end. -/
theorem Load.forM_append_eq {ι : Type} {step : ι → Load PUnit} {front : List ι}
    {before between : Loading} {machine after : Machine}
    (ends : front.forM step before machine = .ok ((), between) after) (back : List ι) :
    (front ++ back).forM step before machine = back.forM step between after := by
  induction front generalizing before machine with
  | nil =>
      cases ends
      rfl
  | cons first rest inductionHypothesis =>
      obtain ⟨⟨_, loading⟩, later, endsFirst, endsRest⟩ := EStateM.bind_eq_ok_iff.mp ends
      exact (Load.bind_eq endsFirst).trans (inductionHypothesis endsRest)

/-- Codes lead from a stack and a state to others. -/
def Runs (calls : Calls) (contents : Table String ByteArray) (codes : List Code)
    (before after : Stack × State) : Prop :=
  (codes.map Code.instruction).forM (execute calls contents) ⟨before.1, before.2.storages⟩
      before.2.machine =
    .ok ((), ⟨after.1, after.2.storages⟩) after.2.machine

section Runs

variable {calls : Calls} {contents : Table String ByteArray} {stack : Stack} {state after : State}

namespace Runs

theorem nil (place : Stack × State) : Runs calls contents [] place place := rfl

theorem append {front back : List Code} {before between after : Stack × State}
    (first : Runs calls contents front before between)
    (rest : Runs calls contents back between after) :
    Runs calls contents (front ++ back) before after := by
  rw [Runs, List.map_append, Load.forM_append_eq first]
  exact rest

theorem cons {code : Code} {codes : List Code} {before between after : Stack × State}
    (first : Runs calls contents [code] before between)
    (rest : Runs calls contents codes between after) :
    Runs calls contents (code :: codes) before after := first.append rest

end Runs

/-- A single code. -/
theorem runs_code {code : Code} {before after : Stack × State}
    (executes : execute calls contents code.instruction ⟨before.1, before.2.storages⟩
        before.2.machine =
      .ok ((), ⟨after.1, after.2.storages⟩) after.2.machine) :
    Runs calls contents [code] before after :=
  EStateM.bind_eq_ok_iff.mpr ⟨((), _), _, executes, rfl⟩

theorem runs_mark : Runs calls contents [.mark] (stack, state) (stack.mark, state) := rfl

theorem runs_emptyTuple :
    Runs calls contents [.emptyTuple] (stack, state) (stack.push (.tuple []), state) := rfl

theorem runs_emptyList :
    Runs calls contents [.emptyList] (stack, state)
      (stack.push (.list state.heap.lists.next), state.withHeap (state.heap.addList []).2) := rfl

theorem runs_emptyDict :
    Runs calls contents [.emptyDict] (stack, state)
      (stack.push (.dict state.heap.dicts.next),
        state.withHeap (state.heap.addDict ⟨false, .empty⟩).2) := rfl

/-- A code that pushes an atom. -/
theorem runs_push {code : Code} {atom : Atom} (pushes : code.instruction = .push atom) :
    Runs calls contents [code] (stack, state) (stack.push (.atom atom), state) := by
  rw [Runs, List.map_singleton, pushes]
  rfl

theorem runs_global {module name : String} {value : Value} {machine : Machine}
    (finds : findGlobal calls module name state.machine = .ok value machine) :
    Runs calls contents [.global module name] (stack, state)
      (stack.push value, { state with machine }) :=
  runs_code (Load.bind_eq (Load.lift_eq finds))

theorem pop_push (value : Value) :
    pop ⟨stack.push value, state.storages⟩ state.machine =
      .ok (value, ⟨stack, state.storages⟩) state.machine := rfl

/-! ## Groups -/

/-- Puts values on top, one after the other. -/
def Stack.pushAll (stack : Stack) (values : List Value) : Stack :=
  { stack with top := values.reverse ++ stack.top }

theorem Stack.pushAll_cons (stack : Stack) (value : Value) (values : List Value) :
    stack.pushAll (value :: values) = (stack.push value).pushAll values := by
  rw [pushAll, pushAll, push, List.reverse_cons, List.append_assoc, List.singleton_append]

theorem Stack.group?_pushAll (stack : Stack) (values : List Value) :
    (stack.mark.pushAll values).group? = some (values, stack) := by
  rw [pushAll, mark, group?, List.append_nil, List.reverse_reverse]

theorem group_pushAll (values : List Value) :
    group ⟨stack.mark.pushAll values, state.storages⟩ state.machine =
      .ok (values, ⟨stack, state.storages⟩) state.machine := by
  refine (Load.get_bind _ _ _).trans ?_
  dsimp only
  rw [Stack.group?_pushAll]
  rfl

theorem runs_tuple (values : List Value) :
    Runs calls contents [.tuple] (stack.mark.pushAll values, state)
      (stack.push (.tuple values), state) :=
  runs_code (Load.bind_eq (group_pushAll values))

theorem runs_ints (values : List Int) :
    Runs calls contents (values.map .int) (stack, state)
      (stack.pushAll (values.map .int), state) := by
  induction values generalizing stack with
  | nil => exact .nil _
  | cons first rest inductionHypothesis =>
      rw [List.map_cons, List.map_cons, Stack.pushAll_cons]
      exact (runs_push rfl).cons inductionHypothesis

/-- A list gets the values that follow it. -/
theorem runs_appends {ref : Ref .list} (held : state.heap.lists.Holds ref)
    (values : List Value) :
    Runs calls contents [.appends]
      ((stack.push (.list ref)).mark.pushAll values, state)
      (stack.push (.list ref),
        state.withHeap (state.heap.setList ref (state.heap.list ref ++ values))) := by
  refine runs_code ((Load.bind_eq (group_pushAll values)).trans ?_)
  cases values with
  | nil =>
      have same : state.heap.setList ref (state.heap.list ref ++ []) = state.heap := by
        rw [List.append_nil, Heap.setList, Heap.list, Store.set_get held]
      rw [same]
      rfl
  | cons first rest => rfl

/-- A dictionary gets the keys and values that follow it. -/
theorem runs_setItems {ref : Ref .dict} {items : List Value} {entries : Entries}
    (some_ : items ≠ []) (even : items.length % 2 = 0)
    (puts : putPairs state.heap (state.heap.dict ref).entries items = .ok entries) :
    Runs calls contents [.setItems]
      ((stack.push (.dict ref)).mark.pushAll items, state)
      (stack.push (.dict ref),
        state.withHeap (state.heap.setDict ref { state.heap.dict ref with entries })) := by
  have sets : setItems (.dict ref) items state.machine =
      .ok () (state.withHeap
        (state.heap.setDict ref { state.heap.dict ref with entries })).machine := by
    rw [setItems, if_neg (not_not.mpr even)]
    refine EStateM.bind_eq_ok_iff.mpr ⟨state.heap, state.machine, rfl, ?_⟩
    refine EStateM.bind_eq_ok_iff.mpr
      ⟨_, state.machine, EStateM.ofExcept_eq_ok_iff.mpr ⟨?_, rfl⟩, rfl⟩
    exact Except.bind_eq_ok_iff.mpr ⟨entries, puts, rfl⟩
  refine runs_code ((Load.bind_eq (group_pushAll items)).trans ?_)
  refine (Load.bind_eq (pop_push (.dict ref))).trans ?_
  cases items with
  | nil => exact absurd rfl some_
  | cons first rest => exact (Load.bind_eq (Load.lift_eq sets)).trans rfl

/-! ## Objects -/

theorem runs_newObject {ref : Ref .moduleClass} {arguments : List Value} :
    Runs calls contents [.newObject]
      ((stack.push (.moduleClass ref)).push (.tuple arguments), state)
      (stack.push (.module state.heap.modules.next),
        state.withHeap (state.heap.addModule (.fresh ref)).2) := rfl

theorem runs_build {ref : Ref .module} {given : Value} :
    Runs calls contents [.build]
      ((stack.push (.module ref)).push given, state)
      (stack.push (.module ref), state.withHeap (setModuleState state.heap ref given)) := rfl

theorem runs_reduce {target value : Value} {arguments : List Value} {machine : Machine}
    (yields : callObject calls target arguments state.machine = .ok value machine) :
    Runs calls contents [.reduce]
      ((stack.push target).push (.tuple arguments), state)
      (stack.push value, { state with machine }) := by
  refine runs_code ((Load.bind_eq (pop_push (.tuple arguments))).trans ?_)
  refine (Load.bind_eq (pop_push target)).trans ?_
  exact Load.bind_eq (Load.lift_eq yields)

/-! ## Storages -/

/-- The storage that is made for a key. -/
def madeStorage (contents : Table String ByteArray) (type : StorageType) (key : String)
    (size : Int) : Storage :=
  { type.make (.int size) with key := some key, data := contents.get? key }

theorem storageOf_known {type size storage : Value} {key : String}
    (known : state.storages.get? key = some storage) :
    storageOf calls contents type key size ⟨stack, state.storages⟩ state.machine =
      .ok (storage, ⟨stack, state.storages⟩) state.machine := by
  refine (Load.get_bind _ _ _).trans ?_
  dsimp only
  rw [known]
  rfl

/-- The state after a storage was made. -/
def State.withStorage (state : State) (key : String) (storage : Storage) : State :=
  ⟨state.storages.insert key (.storage state.heap.storages.next),
    state.machine.withHeap (state.heap.addStorage storage).2⟩

theorem storageOf_new {type : StorageType} {key : String} {size : Int}
    (new : state.storages.get? key = none) :
    storageOf calls contents (.storageType type) key (.int size) ⟨stack, state.storages⟩
        state.machine =
      .ok (.storage state.heap.storages.next,
          ⟨stack, (state.withStorage key (madeStorage contents type key size)).storages⟩)
        (state.withStorage key (madeStorage contents type key size)).machine := by
  refine (Load.get_bind _ _ _).trans ?_
  dsimp only
  rw [new]
  rfl

/-- A persistent id stands for the storage of its key. -/
theorem runs_persistent {type : StorageType} {key place : String} {size : Int}
    {storage : Value}
    (stands : storageOf calls contents (.storageType type) key (.int size)
        ⟨stack, state.storages⟩ state.machine =
      .ok (storage, ⟨stack, after.storages⟩) after.machine) :
    Runs calls contents [.persistent]
      (stack.push (.tuple [.str "storage", .storageType type, .str key, .str place, .int size]),
        state)
      (stack.push storage, after) := by
  have loads : loadPersistent calls contents
      (.tuple [.str "storage", .storageType type, .str key, .str place, .int size])
      ⟨stack, state.storages⟩ state.machine =
        .ok (storage, ⟨stack, after.storages⟩) after.machine :=
    Load.bind_eq stands
  refine runs_code ((Load.bind_eq (pop_push _)).trans ?_)
  exact Load.bind_eq loads

/-! ## Streams -/

/-- A stream of codes that lead to a single value is loaded as this value. -/
theorem load_of_runs {codes : List Code} {bytes : List UInt8} {machine : Machine}
    {value : Value} (writes : write? codes = some bytes)
    (lines : ∀ code ∈ codes, code.NamesLines)
    (runs : Runs calls contents codes (.empty, ⟨.empty, machine⟩)
      (Stack.empty.push value, after)) :
    load calls contents ⟨bytes.toArray⟩ machine = .ok value after.machine := by
  have executes : (read ⟨bytes.toArray⟩).forM (execute calls contents) ⟨.empty, .empty⟩
      machine = .ok ((), ⟨Stack.empty.push value, after.storages⟩) after.machine := by
    have skips : [Instruction.skip].forM (execute calls contents) ⟨.empty, .empty⟩ machine =
        .ok ((), ⟨.empty, .empty⟩) machine := rfl
    rw [read_write? writes lines, ← List.singleton_append, Load.forM_append_eq skips,
      Load.forM_append_eq runs]
    rfl
  have loads : ((read ⟨bytes.toArray⟩).forM (execute calls contents) *> pop)
      ⟨.empty, .empty⟩ machine =
        .ok (value, ⟨.empty, after.storages⟩) after.machine :=
    Load.bind_eq executes
  change EStateM.map Prod.fst _ machine = _
  rw [EStateM.map, loads]

end Runs

end TorchArchive.Pickle
