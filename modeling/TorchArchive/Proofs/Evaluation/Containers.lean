import TorchArchive.Archive.Container
import TorchArchive.Proofs.Evaluation.Pickles

/-!
# What containers keep

The calls of archive code keep a property of machines that archive code cannot end, at
every depth; so do the load of a container, by either kind of payload, and the trace of
its code.
-/

namespace TorchArchive

open Run

variable {property : Machine → Prop} {permitted : Permission}

namespace Machine.Persists

variable (persists : Persists property permitted)

include persists

/-- A read of the constants keeps a property that no table of constants ends. -/
theorem loadConstants
    (kept :
      ∀ {machine : Machine} (constants : List Value),
        property machine → property { machine with constants := some constants })
    (sources : Sources) {calls : Calls} (keep : calls.Keep property) :
    Keeps property (TorchArchive.loadConstants sources calls) := by
  have kept (constants : List Value) :
      Keeps property
        (modify fun machine => { machine with constants := some constants } :
          Run Unit) :=
    Keeps.modify fun _ before => kept constants before
  refine Keeps.get.bind fun machine => ?_
  split
  · exact Keeps.pure _
  · refine (kept []).bind fun _ => ?_
    split
    · exact Keeps.pure _
    · refine (persists.pickle keep _ _).bind fun table => heap_keeps.bind fun heap => ?_
      exact (Keeps.ofExcept _).bind fun constants =>
        (kept constants).bind fun _ => Keeps.pure _

/-! ## Descriptions -/

theorem newTensor {tensor : Ref .list → Tensor}
    (plain :
      ∀ outputs, (tensor outputs).outputs = outputs ∧
        (tensor outputs).owner = none ∧ (tensor outputs).initializer = none) :
    Keeps property (do
      let outputs ← Run.allocate fun heap => heap.addList []
      Run.allocate fun heap => heap.addTensor (tensor outputs)) :=
  fun machine before => (persists.recording machine).unnamed plain before

theorem makeTensor (folder : String) (entries : List Entry) (definition : Datum) :
    Keeps property
      (Description.makeTensor folder entries definition) := by
  have made (storage : Storage) (size : Value) (key : String) (offset : Int) :
      Keeps property (do
        let storage ← Run.allocate fun heap => heap.addStorage storage
        let outputs ← Run.allocate fun heap => heap.addList []
        Run.allocate fun heap => heap.addTensor
          { Tensor.blank outputs with
            storage := .storage storage
            size
            name := key
            offset := .int offset }) := by
    refine (persists.allocate fun _ => (Heap.Edit.storage _).once).bind fun storage => ?_
    exact persists.newTensor fun _ => ⟨rfl, rfl, rfl⟩
  refine (Keeps.ofExcept _).bind fun type => ?_
  refine (Keeps.ofExcept _).bind fun extents => ?_
  refine (Keeps.ofExcept _).bind fun key => ?_
  refine (Keeps.ofExcept _).bind fun offset => ?_
  dsimp only
  split
  · exact (persists.newList _).bind fun size => made _ size key offset
  · exact made _ _ key offset

theorem setField (owner : Ref .module) (name : Datum) (value : Value) :
    Keeps property (Description.setField owner name value) :=
  (Keeps.ofExcept _).bind fun (form, key) =>
    persists.modifyHeap fun _ =>
      (Heap.Edit.setFields owner fun fields => fields.put key form value).once

theorem makeSubmodules (owner : Ref .module) :
    ∀ definitions : List Datum,
      Keeps property (Description.makeSubmodules owner definitions)
  | [] => Keeps.pure _
  | _ :: rest =>
      (persists.allocate fun _ => (Heap.Edit.module _).once).bind fun child =>
        (Keeps.ofExcept _).bind fun name =>
          (persists.setField owner name (.module child)).bind fun _ =>
            (makeSubmodules owner rest).bind fun _ => Keeps.pure _

theorem setParameter (tensors : List (Ref .tensor)) (owner : Ref .module)
    (parameter : Datum) :
    Keeps property
      (Description.setParameter tensors owner parameter) := by
  refine (Keeps.ofExcept _).bind fun tells => ?_
  split
  · refine (Keeps.ofExcept _).bind fun place => ?_
    split
    · exact (Keeps.ofExcept _).bind fun name => persists.setField owner name _
    · exact (Keeps.ofExcept _).bind fun name => Keeps.throw _
  · exact Keeps.pure _

theorem fillModules (tensors : List (Ref .tensor)) :
    ∀ (fuel : Nat) (queue : List (Ref .module × Datum)),
      Keeps property (Description.fillModules tensors fuel queue)
  | 0, _ => Keeps.pure _
  | _ + 1, [] => Keeps.pure _
  | fuel + 1, (owner, definition) :: queue => by
      rw [Description.fillModules]
      refine (Keeps.ofExcept _).bind fun submodules => ?_
      refine (persists.makeSubmodules owner submodules).bind fun children => ?_
      refine (Keeps.ofExcept _).bind fun parameters => ?_
      refine (Keeps.listForM (persists.setParameter tensors owner) parameters).bind ?_
      exact fun _ => fillModules tensors fuel (queue ++ children)

theorem description
    (kept :
      ∀ {machine : Machine} (constants : List Value),
        property machine → property { machine with constants := some constants })
    (folder : String) (entries : List Entry) (document : Datum) :
    Keeps property (Description.load folder entries document) := by
  refine (Keeps.ofExcept _).bind fun producer => ?_
  refine (Keeps.ofExcept _).bind fun main => ?_
  refine (Keeps.ofExcept _).bind fun header => ?_
  refine (Keeps.ofExcept _).bind fun definitions => ?_
  refine (Keeps.listMapM (persists.makeTensor folder entries) definitions).bind ?_
  refine fun tensors => (Keeps.modify fun _ before => kept _ before).bind fun _ => ?_
  refine (persists.allocate fun _ => (Heap.Edit.module _).once).bind fun root => ?_
  exact (persists.fillModules tensors _ _).bind fun _ => Keeps.pure _

end Machine.Persists

/-! ## Properties of one part -/

/-- Apart from loads of packages and reads of the constants, code changes the recording. -/
theorem Machine.rest_persists
    (property : Scope → Table String (Ref .package) → Option (List Value) → Prop) :
    Machine.Persists fun machine =>
      property machine.root machine.packages machine.constants where
  recording := fun _ =>
    { edit := fun _ before => before
      unnamed := fun _ before => before
      fresh := fun _ _ before => before
      call := fun _ _ _ before => before
      placeholder := fun _ _ before => before
      identify := fun _ before => before }
  beside := fun _ _ before => before

/-- What does not depend on the machine lasts. -/
theorem Machine.fact_lasts {sources : Sources} (fact : Prop) :
    Machine.Lasts sources fun _ => fact where
  toPersists := Machine.rest_persists fun _ _ _ => fact
  load := fun _ _ holds => holds
  constants := fun _ keep =>
    (Machine.rest_persists fun _ _ _ => fact).loadConstants (fun _ holds => holds) sources keep

section Recordings

variable {property : Recording → Prop} {sources : Sources}

theorem Recording.Persists.ofMachine (persists : Recording.Persists property) :
    Machine.Persists (OfRecording property) where
  recording := fun _ => persists
  beside := fun _ _ before => before

theorem Recording.Persists.lasts (persists : Recording.Persists property) :
    Machine.Lasts sources (OfRecording property) where
  toPersists := persists.ofMachine
  load := fun _ _ before => before
  constants := fun _ keep =>
    persists.ofMachine.loadConstants (fun _ before => before) sources keep

theorem Recording.Endures.ofMachine (endures : Recording.Endures property) :
    Machine.Endures sources (OfRecording property) where
  toLasts := endures.toPersists.lasts
  reset := fun before => endures.reset before
  rollback := fun before => endures.rollback before

end Recordings

namespace Machine.Lasts

/-! ## Calls that nest -/

section Calls

variable (sources : Sources) (lasts : Lasts sources property permitted)

include lasts

/-- Calls of any depth keep what a single call keeps. -/
theorem callsWithin : ∀ depth, (Calls.within sources depth).Keep property
  | 0 =>
      { apply := fun _ _ _ => Keeps.throw _
        package := fun _ _ => Keeps.throw _
        constants := Keeps.throw _ }
  | depth + 1 =>
      have inner := callsWithin depth
      { apply := lasts.toPersists.applyFunction inner
        package := loadPackage inner lasts
        constants := lasts.constants depth inner }

theorem callsOf : (Calls.of sources).Keep property :=
  lasts.callsWithin sources Calls.depthLimit

end Calls

/-! ## Containers -/

theorem container (lasts : ∀ sources, Lasts sources property permitted)
    (kept :
      ∀ {machine : Machine} (constants : List Value),
        property machine → property { machine with constants := some constants })
    (identifier : String) (entries : List Entry) :
    Keeps property (Container.load identifier entries) := by
  unfold Container.load
  cases Entry.findVersion? entries with
  | none => exact Keeps.throw _
  | some versionEntry =>
      have lasts := lasts (Container.sources versionEntry.folder entries)
      refine (Keeps.ofExcept _).bind fun version => ?_
      dsimp only
      split
      · refine (lasts.report _).bind fun _ => ?_
        exact (lasts.pickle (lasts.callsOf _) _ _).bind fun _ => Keeps.pure _
      · refine (lasts.report _).bind fun _ => (Keeps.ofExcept _).bind fun document => ?_
        exact (lasts.description kept _ entries document).bind fun _ => Keeps.pure _
      · exact Keeps.throw _

section Entry

variable (container : Container)
  (lasts : Lasts (Container.sources container.folder container.entries) property permitted)

include lasts

theorem findEntry :
    Keeps property container.findEntry := by
  unfold Container.findEntry
  dsimp only
  split
  · split
    · refine ((lasts.callsOf _).package _ _).bind fun ref => ?_
      exact heap_keeps.bind fun heap => Keeps.pure _
    · exact Keeps.throw _
  · exact heap_keeps.bind fun heap => Keeps.pure _

theorem entryPoint :
    Keeps property container.entryPoint := by
  refine (lasts.findEntry container).bind fun found => ?_
  split
  · exact Keeps.pure _
  · exact Keeps.throw _

end Entry

end Machine.Lasts

theorem Machine.Endures.trace (container : Container)
    (endures :
      Machine.Endures (Container.sources container.folder container.entries) property
        permitted) :
    Keeps property container.trace := by
  refine Keeps.tryCatch ?_ fun fault => ?_
  · refine (endures.entryPoint container).bind fun function => ?_
    exact (endures.traceFunction (endures.callsOf _) _ function).bind fun _ =>
      Keeps.pure _
  · split
    · exact (endures.report _).bind fun _ => Keeps.pure _
    · exact Keeps.throw _

end TorchArchive
