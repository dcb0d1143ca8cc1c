import TorchArchive.Proofs.Escape.Internal

/-!
# Which archives hold a model

Whether an archive looks like one of a model is told by the names of its entries; a
container selects a payload by their contents.  Both agree unless the pickled tree is an
entry without data and no description stands beside it.

That a container fails for want of a payload is told by the fault, so no pickled stream
and no description may fail with the same one.
-/

namespace TorchArchive

open Run

/-! ## Pickled streams -/

namespace Pickle

section Steps

variable {α β : Type}

/-- A step of a load whose faults are about what entries hold. -/
def LoadConfined (step : Load α) : Prop := ∀ loading, Confined (step loading)

namespace LoadConfined

theorem pure (value : α) : LoadConfined (Pure.pure value : Load α) := fun _ => .pure _

theorem throw {fault : Fault} (internal : fault.isInternal = true) :
    LoadConfined (MonadExcept.throw fault : Load α) := fun _ => .throw internal

theorem get : LoadConfined (MonadState.get : Load Loading) := fun _ => .pure _

theorem modify (change : Loading → Loading) : LoadConfined (modify change : Load PUnit) :=
  fun _ => .pure _

theorem bind {first : Load α} {second : α → Load β} (confinedFirst : LoadConfined first)
    (confinedSecond : ∀ value, LoadConfined (second value)) :
    LoadConfined (first >>= second) :=
  fun loading => (confinedFirst loading).bind fun result => confinedSecond result.1 result.2

theorem lift {step : Run α} (confined : Confined step) :
    LoadConfined (liftM step : Load α) :=
  fun _ => confined.bind fun _ => .pure _

theorem ofExcept {result : Except Fault α} (internal : Internal result) :
    LoadConfined (ofExcept result : Load α) := by
  cases result with
  | ok value => exact pure value
  | error fault => exact throw (internal fault rfl)

theorem listForM {step : α → Load PUnit} {items : List α}
    (confined : ∀ item ∈ items, LoadConfined (step item)) : LoadConfined (items.forM step) := by
  induction items with
  | nil => exact pure PUnit.unit
  | cons first rest inductionHypothesis =>
      obtain ⟨confinedFirst, confinedRest⟩ := List.forall_mem_cons.mp confined
      exact confinedFirst.bind fun _ => inductionHypothesis confinedRest

end LoadConfined

theorem push_confined (value : Value) : LoadConfined (push value) := .modify _

theorem onStack_confined {fault : Fault} (internal : fault.isInternal = true)
    (step : Stack → Option (α × Stack)) : LoadConfined (onStack fault step) := by
  refine LoadConfined.get.bind fun loading => ?_
  split
  · exact LoadConfined.bind (fun _ => .pure _) fun _ => .pure _
  · exact .throw internal

theorem pop_confined : LoadConfined pop := onStack_confined rfl _

theorem group_confined : LoadConfined group := onStack_confined rfl _

end Steps

/-! ### Results -/

theorem takePart_internal (parts : List Value) : Internal (takePart parts) := by
  cases parts with
  | nil => exact .error rfl
  | cons first rest => exact .ok _

theorem viewKey_internal (heap : Heap) (view : Value) : Internal (viewKey heap view) := by
  unfold viewKey
  split
  · exact .ok _
  · exact .error rfl
  · exact .error rfl

theorem putPairs_internal (heap : Heap) (entries : Entries) (items : List Value) :
    Internal (putPairs heap entries items) := by
  induction entries, items using putPairs.induct with
  | case1 entries => exact .ok _
  | case2 entries value => exact .error rfl
  | case3 entries key value rest more put inductionHypothesis =>
      rw [putPairs, put]
      exact inductionHypothesis
  | case4 entries key value rest unhashable =>
      rw [putPairs, unhashable]
      exact .error rfl

theorem addMembers_internal (heap : Heap) (members items : List Value) :
    Internal (addMembers heap members items) := by
  induction items generalizing members with
  | nil => exact .ok _
  | cons first rest inductionHypothesis =>
      rw [addMembers]
      split
      · exact .error rfl
      · split
        · exact inductionHypothesis _
        · exact inductionHypothesis _

theorem byteOf_internal (value : Value) : Internal (byteOf value) := by
  unfold byteOf
  split
  · split
    · split
      · exact .ok _
      · exact .error rfl
    · exact .error rfl
    · exact .error rfl
  · exact .error rfl

theorem replaceItems_internal (heap : Heap) (items pairs : List Value) :
    Internal (replaceItems heap items pairs) := by
  fun_induction replaceItems heap items pairs with
  | case1 => exact .ok _
  | case4 _ _ _ _ _ _ _ _ inductionHypothesis => exact inductionHypothesis
  | case2 | case3 | case5 | case6 => exact .error rfl

theorem setPlainState_internal (target state : Value) :
    Internal (setPlainState target state) := by
  unfold setPlainState
  dsimp only
  repeat' split
  all_goals first | exact .ok _ | exact .error rfl

end Pickle

namespace Calls.Confined

open Pickle

variable {calls : Calls} (confined : calls.Confined)

include confined

/-! ### Names, calls and storages -/

theorem findGlobal (module name : String) :
    TorchArchive.Confined (Pickle.findGlobal calls module name) := by
  have found :
      TorchArchive.Confined
        (tryCatch (TorchArchive.resolve calls (module ++ "." ++ name)) fun fault =>
          if fault.kind = .sourceNotFound then pure Value.missing else throw fault) := by
    refine (confined.resolve _).tryCatch fun fault internal => ?_
    split
    · exact .pure _
    · exact .throw internal
  refine found.bind fun value => ?_
  have classed :
      TorchArchive.Confined
        (Value.moduleClass <$> Run.allocate fun heap => heap.addModuleClass module name) :=
    (allocate_confined _).map _
  split
  · exact .pure _
  · split
    · dsimp only
      split
      · exact (TorchArchive.Confined.throw rfl).bind fun _ => classed
      · exact classed
    · split
      · exact .pure _
      · exact .throw rfl

theorem callObject (target : Value) (arguments : List Value) :
    TorchArchive.Confined (Pickle.callObject calls target arguments) := by
  cases target with
  | function ref => exact confined.apply ref none arguments
  | moduleClass ref => exact (newInstance_confined ref).map _
  | builtin builtin => exact recorded_confined (builtin.call_confined arguments [])
  | method method => exact recorded_confined (method.call_confined arguments [])
  | storageType type => exact recorded_confined (type.call_confined arguments [])
  | _ => exact heap_confined.bind fun heap => .throw rfl

theorem storageOf (contents : Table String ByteArray) (type : Value) (key : String)
    (size : Value) : LoadConfined (Pickle.storageOf calls contents type key size) := by
  have expected (found : Value) : TorchArchive.Confined (expectStorageType found) := by
    unfold expectStorageType
    split
    · exact .pure _
    · exact heap_confined.bind fun heap => .throw rfl
  have typed : TorchArchive.Confined (Pickle.storageType calls type) := by
    unfold Pickle.storageType
    split
    · exact (confined.resolve _).bind expected
    · exact expected type
  refine LoadConfined.get.bind fun loading => ?_
  split
  · exact .pure _
  · exact (LoadConfined.lift typed).bind fun type =>
      (LoadConfined.lift (allocate_confined _)).bind fun ref =>
        (LoadConfined.modify _).bind fun _ => .pure _

theorem loadPersistent (contents : Table String ByteArray) (id : Value) :
    LoadConfined (Pickle.loadPersistent calls contents id) := by
  have viewed (view : Value) : LoadConfined (viewOf view) := by
    refine (LoadConfined.lift heap_confined).bind fun heap => ?_
    refine (LoadConfined.ofExcept (viewKey_internal heap view)).bind fun key => ?_
    refine LoadConfined.get.bind fun loading => ?_
    split
    · exact .pure _
    · exact (LoadConfined.modify _).bind fun _ => .pure _
  have referred (parts : List Value) :
      LoadConfined (referredStorage calls contents parts) := by
    refine (LoadConfined.ofExcept (takePart_internal parts)).bind fun type => ?_
    refine (LoadConfined.ofExcept (takePart_internal _)).bind fun key => ?_
    refine (LoadConfined.lift heap_confined).bind fun heap => ?_
    refine (LoadConfined.ofExcept (takePart_internal _)).bind fun location => ?_
    refine (confined.storageOf _ _ _ _).bind fun storage => ?_
    split
    · refine (LoadConfined.lift heap_confined).bind fun heap => ?_
      split
      · exact viewed _
      · exact .pure _
    · exact .pure _
  refine (LoadConfined.lift heap_confined).bind fun heap => ?_
  refine (LoadConfined.ofExcept (heap.iterate_internal id)).bind fun parts => ?_
  dsimp only
  split
  · exact referred _
  · exact (LoadConfined.lift heap_confined).bind fun heap => .throw rfl

end Calls.Confined

namespace Pickle

/-! ### Containers and states -/

theorem makeInstance_confined (target arguments : Value) :
    Confined (makeInstance target arguments) := by
  unfold makeInstance
  split
  · exact (newInstance_confined _).map _
  · exact .throw rfl
  · exact .throw rfl

theorem appendItems_confined (target : Value) (items : List Value) :
    Confined (appendItems target items) := by
  unfold appendItems
  split
  · exact (modifyHeap_confined _).bind fun _ => .pure _
  · exact (Confined.ofExcept (.mapM byteOf_internal items)).bind fun _ => .pure _
  · exact heap_confined.bind fun heap => .throw rfl

theorem setItems_confined (target : Value) (items : List Value) :
    Confined (setItems target items) := by
  have put : Confined (putItems target items) := by
    unfold putItems
    split
    · exact tryHeap_confined fun heap =>
        (putPairs_internal heap _ items).bind fun _ => .ok _
    · exact tryHeap_confined fun heap =>
        (replaceItems_internal heap _ items).bind fun _ => .ok _
    · exact heap_confined.bind fun heap => .throw rfl
  unfold setItems
  split
  · exact .throw rfl
  · exact put

theorem setState_confined (target state : Value) : Confined (setState target state) := by
  unfold setState
  split
  · exact modifyHeap_confined _
  · exact .throw rfl
  · exact .ofExcept (setPlainState_internal _ state)

/-! ### Instructions -/

theorem isInternal_of_stream {fault : Fault} (isStream : isStreamFault fault = true) :
    fault.isInternal = true := by
  refine Fault.isInternal_of_kind fun format => ?_
  rw [isStreamFault, format] at isStream
  cases isStream

end Pickle

namespace Calls.Confined

open Pickle

variable {calls : Calls} (confined : calls.Confined)

include confined

theorem instruction (contents : Table String ByteArray) {instruction : Instruction}
    (sound : instruction.Sound) : LoadConfined (Pickle.execute calls contents instruction) := by
  cases instruction with
  | stop => exact .pure _
  | skip => exact .pure _
  | broken fault => exact .throw (isInternal_of_stream (sound fault rfl))
  | mark => exact .modify _
  | pop =>
      rw [Pickle.execute]
      exact onStack_confined rfl _
  | popGroup => exact group_confined.bind fun _ => .pure _
  | duplicate =>
      rw [Pickle.execute]
      exact onStack_confined rfl _
  | push value => exact push_confined _
  | emptyList => exact (LoadConfined.lift (newList_confined [])).bind push_confined
  | emptyDict =>
      exact (LoadConfined.lift (allocate_confined _)).bind fun _ => push_confined _
  | emptyTuple => exact push_confined _
  | emptySet => exact push_confined _
  | listOfGroup =>
      exact group_confined.bind fun items =>
        (LoadConfined.lift (newList_confined items)).bind push_confined
  | dictOfGroup =>
      refine group_confined.bind fun items => ?_
      have made :
          LoadConfined (do
            let entries ← ofExcept (putPairs (← Run.heap) .empty items)
            Pickle.push
              (.dict (← Run.allocate fun heap => heap.addDict ⟨false, entries⟩))) :=
        (LoadConfined.lift heap_confined).bind fun heap =>
          (LoadConfined.ofExcept (putPairs_internal heap _ items)).bind fun _ =>
            (LoadConfined.lift (allocate_confined _)).bind fun _ => push_confined _
      dsimp only
      split
      · exact (LoadConfined.throw rfl).bind fun _ => made
      · exact made
  | tupleOfGroup => exact group_confined.bind fun items => push_confined _
  | frozenSetOfGroup =>
      exact (LoadConfined.lift heap_confined).bind fun heap =>
        group_confined.bind fun items =>
          (LoadConfined.ofExcept (addMembers_internal heap [] items)).bind fun _ =>
            push_confined _
  | tupleOf size => exact (onStack_confined rfl _).bind fun items => push_confined _
  | append =>
      exact pop_confined.bind fun value => pop_confined.bind fun target =>
        (LoadConfined.lift (appendItems_confined target [value])).bind push_confined
  | appendGroup =>
      refine group_confined.bind fun items => pop_confined.bind fun target => ?_
      dsimp only
      split
      · exact push_confined target
      · exact (LoadConfined.lift (appendItems_confined target items)).bind push_confined
  | setItem =>
      exact (onStack_confined rfl _).bind fun items => pop_confined.bind fun target =>
        (LoadConfined.lift (setItems_confined target items)).bind fun _ => push_confined target
  | setItemsOfGroup =>
      refine group_confined.bind fun items => pop_confined.bind fun target => ?_
      dsimp only
      split
      · exact (LoadConfined.lift (setItems_confined target items)).bind fun _ =>
          push_confined target
      · exact push_confined target
  | addItemsOfGroup =>
      refine group_confined.bind fun items => pop_confined.bind fun target => ?_
      split
      · exact (LoadConfined.lift heap_confined).bind fun heap =>
          (LoadConfined.ofExcept (addMembers_internal heap _ items)).bind fun _ =>
            push_confined _
      · split
        · exact push_confined _
        · exact .throw rfl
  | global module name =>
      exact (LoadConfined.lift (confined.findGlobal module name)).bind push_confined
  | globalOnStack =>
      refine pop_confined.bind fun name => pop_confined.bind fun module => ?_
      split
      · exact (LoadConfined.lift (confined.findGlobal _ _)).bind push_confined
      · exact .throw rfl
  | instantiate names =>
      refine group_confined.bind fun arguments => LoadConfined.bind ?_ fun names =>
        (LoadConfined.lift (confined.findGlobal names.1 names.2)).bind fun target =>
          (LoadConfined.lift (confined.callObject target arguments)).bind push_confined
      cases names with
      | ok names => exact .pure _
      | error fault => exact .throw (isInternal_of_stream (sound fault rfl))
  | instantiateGroup =>
      refine group_confined.bind fun items => ?_
      split
      · exact (LoadConfined.lift (confined.callObject _ _)).bind push_confined
      · exact .throw rfl
  | newObject =>
      exact pop_confined.bind fun arguments => pop_confined.bind fun target =>
        (LoadConfined.lift (makeInstance_confined target arguments)).bind push_confined
  | newObjectWithKeywords =>
      refine pop_confined.bind fun keywords => pop_confined.bind fun arguments =>
        pop_confined.bind fun target =>
          (LoadConfined.lift (makeInstance_confined target arguments)).bind fun made => ?_
      split
      · exact push_confined made
      · exact .throw rfl
  | call =>
      refine pop_confined.bind fun arguments => pop_confined.bind fun target => ?_
      split
      · exact (LoadConfined.lift (confined.callObject target _)).bind push_confined
      · exact .throw rfl
  | build =>
      exact pop_confined.bind fun state => pop_confined.bind fun target =>
        (LoadConfined.lift (setState_confined target state)).bind fun _ => push_confined target
  | persistent id =>
      exact (confined.loadPersistent contents _).bind push_confined
  | persistentOnStack =>
      exact pop_confined.bind fun id =>
        (confined.loadPersistent contents id).bind push_confined
  | «recall» index =>
      refine LoadConfined.get.bind fun loading => ?_
      split
      · exact push_confined _
      · exact .throw rfl
  | keep index =>
      refine LoadConfined.get.bind fun loading => ?_
      have kept :
          LoadConfined (do
            let index ← ofExcept index
            onStack underflow fun stack =>
              (stack.keep? index).map fun stack => ((), stack)) := by
        refine LoadConfined.bind ?_ fun _ => onStack_confined rfl _
        cases index with
        | ok index => exact .pure _
        | error fault => exact .throw (isInternal_of_stream (sound fault rfl))
      dsimp only
      split
      · exact (LoadConfined.throw rfl).bind fun _ => kept
      · exact kept
  | keepNext =>
      rw [Pickle.execute]
      exact onStack_confined rfl _
  | makeReadOnly =>
      refine pop_confined.bind fun value => ?_
      split
      · exact push_confined _
      · exact push_confined _
      · exact .throw rfl

/-- The faults of a pickled stream are about what entries hold. -/
theorem pickle (contents : Table String ByteArray) (data : ByteArray) :
    TorchArchive.Confined (Pickle.load calls contents data) := by
  have steps :
      LoadConfined ((Pickle.read data).forM (Pickle.execute calls contents) *> Pickle.pop) :=
    (LoadConfined.listForM fun _ inside =>
      confined.instruction contents (Pickle.read_sound inside)).bind fun _ => pop_confined
  exact (steps ⟨.empty, .empty⟩).map Prod.fst

end Calls.Confined

/-! ## Sources -/

theorem Container.decodeText_internal (data : ByteArray) : Internal (decodeText data) := by
  rw [decodeText]
  split
  · exact .ok _
  · exact .error rfl

theorem Container.program_internal (folder : String) (entries : List Entry) (file : String) :
    Internal (Container.program folder entries file) := by
  rw [Container.program]
  split
  · exact .error rfl
  · refine (decodeText_internal _).bind fun text => ?_
    rw [Program.read]
    split
    · exact .error rfl
    · split
      · exact .error rfl
      · exact (Internal.of_blames (Script.statementsOf_blames _)).bind fun _ => .ok _

namespace Calls

theorem Confined.loadConstants {calls : Calls} (confined : calls.Confined) (sources : Sources) :
    TorchArchive.Confined (TorchArchive.loadConstants sources calls) := by
  refine TorchArchive.Confined.get.bind fun machine => ?_
  split
  · exact .pure _
  · dsimp only
    refine (TorchArchive.Confined.modifyGet _).bind fun _ => ?_
    split
    · exact .pure _
    · exact (confined.pickle _ _).bind fun table => heap_confined.bind fun heap =>
        (TorchArchive.Confined.ofExcept (heap.iterate_internal table)).bind fun _ =>
          (TorchArchive.Confined.modifyGet _).bind fun _ => .pure _

/-- Calls fail with faults about what entries hold, however deep they nest. -/
theorem within_confined (folder : String) (entries : List Entry) :
    ∀ depth, (within (Container.sources folder entries) depth).Confined
  | 0 =>
      { apply := fun _ _ _ => .throw rfl
        package := fun _ _ => .throw rfl
        constants := .throw rfl }
  | depth + 1 =>
      { apply := (within_confined folder entries depth).applyFunction
        package := (within_confined folder entries depth).loadPackage
          (Container.program_internal folder entries)
        constants := (within_confined folder entries depth).loadConstants _ }

end Calls

/-! ## Descriptions -/

theorem isInternal_of_unreadable {fault : Fault} (unreadable : Json.Unreadable fault) :
    fault.isInternal = true := by
  refine Fault.isInternal_of_kind fun format => ?_
  rw [Json.Unreadable, format] at unreadable
  exact absurd unreadable (by decide)

theorem Catalogue.itemsOf_internal (datum : Datum) : Internal (itemsOf datum) := by
  unfold itemsOf
  split
  all_goals first | exact .ok _ | exact .error rfl

namespace Description

theorem findEntry_internal (object : Datum) (name : String) :
    Internal ( entry? object name) := by
  unfold entry?
  split
  · exact .ok _
  · exact .error rfl

theorem entry_internal (object : Datum) (name : String) (default : Datum) :
    Internal (entry object name default) :=
  (findEntry_internal object name).bind fun _ => .ok _

theorem entryOr_internal (object : Datum) (name : String) (default : Datum) :
    Internal (entryOr object name default) :=
  (entry_internal object name _).bind fun _ => .ok _

theorem integerOf_internal (datum : Datum) : Internal (integerOf datum) := by
  unfold integerOf
  split
  · split
    · exact .ok _
    · split
      · exact .error rfl
      · exact .error rfl
  · split
    · exact .ok _
    · exact .error rfl
  · rw [Datum.toInteger]
    split
    · exact .ok _
    · exact .error rfl

theorem storageTypeOf_internal (dataType : Datum) : Internal (storageTypeOf dataType) := by
  rw [storageTypeOf]
  split
  · exact .ok _
  · exact .error rfl

theorem dataKey_internal (definition : Datum) : Internal (dataKey definition) := by
  refine (entryOr_internal definition _ _).bind fun data => ?_
  refine (entry_internal data _ _).bind fun key => ?_
  split
  · exact .ok _
  · exact .error rfl

theorem extents_internal (definition : Datum) : Internal (extents definition) := by
  refine (entry_internal definition _ _).bind fun dims => ?_
  split
  · exact .ok _
  · exact (Catalogue.itemsOf_internal dims).bind fun items =>
      (Internal.mapM integerOf_internal items).bind fun _ => .ok _

theorem makeTensor_confined (folder : String) (entries : List Entry) (definition : Datum) :
    Confined (makeTensor folder entries definition) := by
  have typed : Internal (do storageTypeOf (← entry definition "dataType" .none)) :=
    (entry_internal definition _ _).bind storageTypeOf_internal
  have placed : Internal (do integerOf (← entry definition "offset" (.int 0))) :=
    (entry_internal definition _ _).bind integerOf_internal
  refine (Confined.ofExcept typed).bind fun type => ?_
  refine (Confined.ofExcept (extents_internal definition)).bind fun extents => ?_
  refine (Confined.ofExcept (dataKey_internal definition)).bind fun key => ?_
  refine (Confined.ofExcept placed).bind fun offset => ?_
  have rest (storage : Storage) (tensor : Ref .storage → Ref .list → Tensor) :
      Confined (do
        let storage ← Run.allocate fun heap => heap.addStorage storage
        let outputs ← Run.allocate fun heap => heap.addList []
        Run.allocate fun heap => heap.addTensor (tensor storage outputs)) :=
    (allocate_confined _).bind fun _ => (allocate_confined _).bind fun _ => allocate_confined _
  dsimp only
  split
  · exact (newList_confined _).bind fun size => rest _ _
  · exact (Confined.pure _).bind fun size => rest _ _

theorem setField_confined (owner : Ref .module) (name : Datum) (value : Value) :
    Confined (setField owner name value) := by
  refine (Confined.ofExcept ?_).bind fun _ => modifyHeap_confined _
  unfold fieldKey
  split
  · exact .ok _
  · exact .error rfl

theorem makeSubmodules_confined (owner : Ref .module) :
    ∀ definitions : List Datum, Confined (makeSubmodules owner definitions)
  | [] => .pure _
  | definition :: rest =>
      (allocate_confined _).bind fun _ =>
        (Confined.ofExcept (entry_internal definition _ _)).bind fun _ =>
          (setField_confined _ _ _).bind fun _ =>
            (makeSubmodules_confined owner rest).bind fun _ => .pure _

theorem neededEntry_internal (parameter : Datum) (name : String) :
    Internal (neededEntry parameter name) := by
  unfold neededEntry
  split
  · split
    · exact .ok _
    · exact .error rfl
  · exact .error rfl

theorem setParameter_confined (tensors : List (Ref .tensor)) (owner : Ref .module)
    (parameter : Datum) : Confined (setParameter tensors owner parameter) := by
  have tells : Internal (tellsTensor parameter) := by
    unfold tellsTensor
    split
    all_goals first | exact .ok _ | exact .error rfl
  have placed : Internal (do integerOf (← neededEntry parameter tensorKey)) :=
    (neededEntry_internal parameter _).bind integerOf_internal
  refine (Confined.ofExcept tells).bind fun told => ?_
  split
  · refine (Confined.ofExcept placed).bind fun place => ?_
    split
    · exact (Confined.ofExcept (neededEntry_internal parameter _)).bind fun _ =>
        setField_confined _ _ _
    · exact (Confined.ofExcept (entry_internal parameter _ _)).bind fun _ => .throw rfl
  · exact .pure _

theorem fillModules_confined (tensors : List (Ref .tensor)) (fuel : Nat)
    (queue : List (Ref .module × Datum)) : Confined (fillModules tensors fuel queue) := by
  induction fuel generalizing queue with
  | zero => exact .pure _
  | succ fuel inductionHypothesis =>
      cases queue with
      | nil => exact .pure _
      | cons first queue =>
          have listed : Internal (do Catalogue.itemsOf (← entry first.2 "submodules" (.list []))) :=
            (entry_internal first.2 _ _).bind Catalogue.itemsOf_internal
          have parameters : Internal (listedParameters first.2) := by
            refine (entry_internal first.2 _ _).bind fun parameters => ?_
            refine (entry_internal first.2 _ _).bind fun arguments => ?_
            split
            all_goals first | exact .ok _ | exact .error rfl
          exact (Confined.ofExcept listed).bind fun _ =>
            (makeSubmodules_confined first.1 _).bind fun _ =>
              (Confined.ofExcept parameters).bind fun _ =>
                (Confined.listForM fun _ _ => setParameter_confined _ _ _).bind fun _ =>
                  inductionHypothesis _

theorem producerOf_internal (document : Datum) : Internal (producerOf document) := by
  refine (entryOr_internal document _ _).bind fun producer => ?_
  refine (entryOr_internal document _ _).bind fun version => ?_
  split
  · exact .ok _
  · dsimp only
    split
    all_goals first | exact .ok _ | exact .error rfl

theorem headerOf_internal (producer main : Datum) : Internal (headerOf producer main) := by
  refine (entry_internal main _ _).bind fun name => ?_
  refine (entry_internal main _ _).bind fun code => ?_
  dsimp only
  split
  · exact (entry_internal code _ _).bind fun _ => .ok _
  · exact .ok _

/-- The faults of a description are about what entries hold. -/
theorem load_confined (folder : String) (entries : List Entry) (document : Datum) :
    Confined (load folder entries document) := by
  have listed : Internal (do Catalogue.itemsOf (← entry document "tensors" (.list []))) :=
    (entry_internal document _ _).bind Catalogue.itemsOf_internal
  exact (Confined.ofExcept (producerOf_internal document)).bind fun producer =>
    (Confined.ofExcept (entryOr_internal document _ _)).bind fun main =>
      (Confined.ofExcept (headerOf_internal producer main)).bind fun _ =>
        (Confined.ofExcept listed).bind fun definitions =>
          (Confined.listMapM (makeTensor_confined folder entries) definitions).bind fun _ =>
            (Confined.modifyGet _).bind fun _ => (allocate_confined _).bind fun _ =>
              (fillModules_confined _ _ _).bind fun _ => .pure _

end Description

/-! ## Containers -/

namespace Entry

theorem isSome_data?_iff {entries : List Entry} {name : String} :
    (data? entries name).isSome = true ↔ ∃ entry ∈ entries, entry.name = name := by
  rw [data?, Option.isSome_map, List.find?_isSome]
  simp

/-- What makes an archive look like one of a model: a version, and beside it an entry of
the name of a payload. -/
theorem isModel_iff {identifier : String} {entries : List Entry}
    (extension : hasModelExtension identifier = true) :
    isModel identifier entries = true ↔
      ∃ version, findVersion? entries = some version ∧
        ((data? entries (version.folder ++ "data.pkl")).isSome = true ∨
          (data? entries (version.folder ++ "model.json")).isSome = true) := by
  rw [isModel, extension, Bool.true_and]
  cases findVersion? entries with
  | none => simp
  | some version =>
      simp only [Option.some.injEq, exists_eq_left', isSome_data?_iff, List.any_eq_true,
        Bool.or_eq_true, beq_iff_eq]
      constructor
      · rintro ⟨entry, inside, described | pickled⟩
        · exact Or.inr ⟨entry, inside, described⟩
        · exact Or.inl ⟨entry, inside, pickled⟩
      · rintro (⟨entry, inside, pickled⟩ | ⟨entry, inside, described⟩)
        · exact ⟨entry, inside, Or.inr pickled⟩
        · exact ⟨entry, inside, Or.inl described⟩

/-- The pickled tree is an entry without data, and no description stands beside it. -/
def Hollow (entries : List Entry) : Prop :=
  ∃ version data, findVersion? entries = some version ∧
    data? entries (version.folder ++ "data.pkl") = some data ∧ data.isEmpty = true ∧
      data? entries (version.folder ++ "model.json") = none

end Entry

namespace Container

/-- A container finds a version and selects a payload, however it fares with it. -/
def Selects (identifier : String) (entries : List Entry) (start : Machine) : Prop :=
  ∀ fault after, load identifier entries start = .error fault after →
    fault ≠ .missingVersion ∧ ∀ folder, fault ≠ .missingPayload folder

/-- A version, if there is one, is a document. -/
def Versioned (entries : List Entry) : Prop :=
  ∀ version, Entry.findVersion? entries = some version →
    ∃ datum, (do Json.read (← decodeText version.data)) = .ok datum

variable {identifier : String} {entries : List Entry} {start : Machine}

/-- Behind the selection of a payload no fault tells that there is none. -/
theorem load_confined {version : Entry} (found : Entry.findVersion? entries = some version)
    (payload : (contents? version.folder entries "data.pkl").isSome = true ∨
      (Entry.data? entries (version.folder ++ "model.json")).isSome = true) :
    Confined (load identifier entries) := by
  have read (data : ByteArray) : Internal (do Json.read (← decodeText data)) :=
    (decodeText_internal data).bind fun text fault unreadable =>
      isInternal_of_unreadable (Json.read_unreadable text fault unreadable)
  rw [load, found]
  refine (Confined.ofExcept (read _)).bind fun datum => ?_
  cases pickled : contents? version.folder entries "data.pkl" with
  | some data =>
      exact (Confined.modifyGet _).bind fun _ =>
        ((Calls.within_confined _ _ _).pickle _ data).bind fun _ => .pure _
  | none =>
      cases described : Entry.data? entries (version.folder ++ "model.json") with
      | some document =>
          exact (Confined.modifyGet _).bind fun _ =>
            (Confined.ofExcept (read document)).bind fun _ =>
              (Description.load_confined _ _ _).bind fun _ => .pure _
      | none =>
          rw [pickled, described] at payload
          simp at payload

/-- A container selects a payload if there is a version, and beside it a pickled tree of
some bytes or a description. -/
theorem selects_iff (versioned : Versioned entries) :
    Selects identifier entries start ↔
      ∃ version, Entry.findVersion? entries = some version ∧
        ((contents? version.folder entries "data.pkl").isSome = true ∨
          (Entry.data? entries (version.folder ++ "model.json")).isSome = true) := by
  constructor
  · intro selects
    cases found : Entry.findVersion? entries with
    | none =>
        have fails : load identifier entries start = .error .missingVersion start := by
          rw [load, found]
          rfl
        exact absurd rfl (selects _ _ fails).1
    | some version =>
        refine ⟨version, rfl, ?_⟩
        by_contra missing
        rw [not_or, Option.not_isSome_iff_eq_none, Option.not_isSome_iff_eq_none] at missing
        obtain ⟨datum, reads⟩ := versioned version found
        have fails :
            load identifier entries start = .error (.missingPayload version.folder) start := by
          rw [load, found]
          dsimp only
          rw [reads, missing.1, missing.2]
          rfl
        exact absurd rfl ((selects _ _ fails).2 _)
  · rintro ⟨version, found, payload⟩ fault after fails
    have internal := load_confined found payload _ _ _ fails
    refine ⟨?_, ?_⟩
    · rintro rfl
      cases internal
    · rintro folder rfl
      cases internal

/-- The names of the entries and the start of a container agree on what holds a model,
unless the pickled tree is an entry without data and no description stands beside it. -/
theorem isModel_iff_selects_iff (extension : Entry.hasModelExtension identifier = true)
    (versioned : Versioned entries) :
    (Entry.isModel identifier entries = true ↔ Selects identifier entries start) ↔
      ¬ Entry.Hollow entries := by
  rw [Entry.isModel_iff extension, selects_iff versioned]
  constructor
  · rintro agree ⟨version, data, found, pickled, empty, undescribed⟩
    have looks : (Entry.data? entries (version.folder ++ "data.pkl")).isSome = true := by
      rw [pickled]
      rfl
    obtain ⟨other, same, payload⟩ := agree.mp ⟨version, found, Or.inl looks⟩
    rw [found, Option.some.injEq] at same
    subst same
    rw [contents?, pickled, undescribed] at payload
    simp [empty] at payload
  · intro filled
    refine exists_congr fun version => and_congr_right fun found => ?_
    rw [contents?]
    cases pickled : Entry.data? entries (version.folder ++ "data.pkl") with
    | none => simp
    | some data =>
        cases empty : data.isEmpty with
        | false => simp [empty]
        | true =>
            cases described : Entry.data? entries (version.folder ++ "model.json") with
            | some document => simp
            | none => exact absurd ⟨version, data, found, pickled, empty, described⟩ filled

end Container

/-! ## A tree without data -/

namespace PickledTree

/-- An archive with a version and a pickled tree of some text. -/
def entries (tree : String) : List Entry :=
  [⟨"version", "1".toUTF8⟩, ⟨"data.pkl", tree.toUTF8⟩]

private theorem findVersion_entries (tree : String) :
    Entry.findVersion? (entries tree) = some ⟨"version", "1".toUTF8⟩ := rfl

private theorem folder_version : Entry.folder ⟨"version", "1".toUTF8⟩ = "" := by
  decide +kernel

private theorem extension : Entry.hasModelExtension "m.pt" = true := by
  decide +kernel

private theorem reads_version :
    (do Json.read (← Container.decodeText "1".toUTF8)).isOk = true := by
  decide +kernel

private theorem versioned (tree : String) : Container.Versioned (entries tree) := by
  intro version found
  rw [findVersion_entries] at found
  cases found
  have reads := reads_version
  cases read : (do Json.read (← Container.decodeText "1".toUTF8)) with
  | ok datum => exact ⟨datum, rfl⟩
  | error fault =>
      rw [read] at reads
      cases reads

/-- A tree of some bytes is selected where it is seen. -/
theorem isModel_iff_selects_iff_none :
    Entry.hasModelExtension "m.pt" = true ∧ Container.Versioned (entries "N.") ∧
      ¬ Entry.Hollow (entries "N.") ∧ Entry.isModel "m.pt" (entries "N.") = true ∧
        Container.Selects "m.pt" (entries "N.") Machine.initial := by
  have filled : ¬ Entry.Hollow (entries "N.") := by
    rintro ⟨version, data, found, pickled, empty, _⟩
    rw [findVersion_entries] at found
    cases found
    rw [folder_version] at pickled
    cases pickled
    exact absurd empty (by decide)
  have seen : Entry.isModel "m.pt" (entries "N.") = true := by
    decide +kernel
  have agree :
      Entry.isModel "m.pt" (entries "N.") = true ↔
        Container.Selects "m.pt" (entries "N.") Machine.initial :=
    (Container.isModel_iff_selects_iff extension (versioned "N.")).mpr filled
  exact ⟨extension, versioned "N.", filled, seen, agree.mp seen⟩

/-- An empty tree is seen, and a container says that it is not there. -/
theorem exists_seen_unselected :
    Entry.hasModelExtension "m.pt" = true ∧ Container.Versioned (entries "") ∧
      Entry.data? (entries "") "data.pkl" = some "".toUTF8 ∧
        Entry.isModel "m.pt" (entries "") = true ∧
          ¬ Container.Selects "m.pt" (entries "") Machine.initial := by
  refine ⟨extension, versioned "", rfl, by decide +kernel, fun selects => ?_⟩
  obtain ⟨version, found, payload⟩ := (Container.selects_iff (versioned "")).mp selects
  rw [findVersion_entries] at found
  cases found
  rw [folder_version] at payload
  exact absurd payload (by decide)

end PickledTree

end TorchArchive
