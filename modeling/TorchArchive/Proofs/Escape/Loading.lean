import TorchArchive.Evaluation.Nesting
import TorchArchive.Proofs.Escape.Sources
import TorchArchive.Proofs.Escape.Statements

/-!
# Loads that archive code is not blamed for

A package that is needed for the first time is read from its file and run.  So a load
fails with a fault that the code is not blamed for if and only if the file is no source
or the code in it fails so.  The table of constants is read from a pickled stream.
Calls, loads and constants refer to each other, down to a depth at which all of them
fail.
-/

namespace TorchArchive

/-! ## Packages -/

namespace Heap

theorem setPath_blames (value : Value) :
    ∀ (path : List String) (heap : Heap) (owner : Value) (done : String),
      Blames (heap.setPath owner done value path)
  | [], _, _, _ => .ok _
  | [last], heap, owner, _ => by
      rw [setPath]
      exact heap.setMember_blames owner last value
  | part :: next :: rest, heap, owner, done => by
      rw [setPath]
      · split
        · exact (setMember_blames _ owner part _).bind fun _ =>
            setPath_blames value (next :: rest) _ _ _
        · exact setPath_blames value (next :: rest) heap _ _
      · exact fun same => by cases same

theorem bindQualified_blames (heap : Heap) (scope : Scope) (name : String)
    (value : Value) : Blames (heap.bindQualified scope name value) := by
  rw [bindQualified]
  split
  · exact .ok _
  · exact .ok _
  · dsimp only
    split
    · exact setPath_blames value _ _ _ _
    · exact setPath_blames value _ _ _ _

end Heap

variable {machine : Machine}

theorem not_claimPackage {name : String} :
    ¬ Fails Fault.Foreign (claimPackage name) machine := by
  rw [claimPackage, Run.root_bind_iff, Run.heap_bind_iff]
  split
  · exact Fails.not_pure _
  · refine Fails.not_bind (Run.not_allocate _) fun ref after => ?_
    exact Fails.not_bind (Run.not_tryHeap fun heap => heap.bindQualified_blames _ _ _)
      fun _ _ => Fails.not_pure _

theorem not_enterPackage {name file : String} :
    ¬ Fails Fault.Foreign (enterPackage name file) machine := by
  refine Fails.not_bind not_claimPackage fun ref after => ?_
  refine Fails.not_bind (Run.not_modifyHeap _) fun _ after => ?_
  refine Fails.not_bind (Fails.not_modifyGet _) fun _ after => ?_
  rw [Run.heap_bind_iff]
  refine Fails.not_bind (Run.not_modifyHeap _) fun _ after => ?_
  rw [Run.root_bind_iff]
  exact Fails.not_pure _

theorem requestProgram_iff {sources : Sources} {file : String} :
    Fails Fault.Foreign (requestProgram sources file) machine ↔
      ¬ Blames (sources.program file) := by
  rw [requestProgram, Fails.modify_bind_iff, Fails.ofExcept_iff]
  simp [Blames, Fault.Foreign]

/-! ## Hazards of loads -/

namespace Hazards

section Loads

variable (hazards : Hazards) (calls : Calls) (folder : String) (entries : List Entry)

/-- A load of a package that fails: of one that is not loaded yet, whose file is no
source or whose code fails. -/
def loadPackage (name : String) (file : Option String) (machine : Machine) : Prop :=
  machine.packages.get? name = none ∧
    (Entry.Unreadable entries (folder ++ sourceFile name file) ∨
      Yields (requestProgram (Container.sources folder entries) (sourceFile name file))
        (fun program =>
          Yields (enterPackage name (sourceFile name file))
            (fun entered => hazards.executeAll calls entered.2 program.body))
        machine)

/-- The constants, asked for the first time, cannot be loaded or are no sequence. -/
def loadConstants (machine : Machine) : Prop :=
  machine.constants = none ∧
    ∃ data, Container.contents? folder entries "constants.pkl" = some data ∧
      (Fails Fault.Foreign
          (Pickle.load calls (Container.storages folder entries "constants") data)
          { machine with constants := some [] } ∨
        Yields (Pickle.load calls (Container.storages folder entries "constants") data)
          (fun table after => after.heap.iterate? table = none)
          { machine with constants := some [] })

end Loads

/-- What fails beyond the code at hand when calls nest no deeper than a depth. -/
def within (folder : String) (entries : List Entry) : Nat → Hazards
  | 0 => ⟨fun _ _ _ _ => True, fun _ _ _ => True, fun _ => True⟩
  | depth + 1 =>
      let inner := within folder entries depth
      let calls := Calls.within (Container.sources folder entries) depth
      { apply := inner.applyFunction calls
        package := inner.loadPackage calls folder entries
        constants := loadConstants calls folder entries }

end Hazards

namespace Hazards.Of

variable {hazards : Hazards} {calls : Calls} {folder : String} {entries : List Entry}

theorem loadPackage_iff (exact_ : hazards.Of calls) (name : String)
    (file : Option String) :
    Fails Fault.Foreign
        (TorchArchive.loadPackage (Container.sources folder entries) calls name file)
        machine ↔
      hazards.loadPackage calls folder entries name file machine := by
  rw [TorchArchive.loadPackage, Fails.get_bind_iff, Hazards.loadPackage]
  cases machine.packages.get? name with
  | some ref =>
      refine iff_of_false (Fails.not_pure _) ?_
      rintro ⟨same, _⟩
      cases same
  | none =>
      rw [and_iff_right rfl]
      have unreadable :
          Fails Fault.Foreign
              (requestProgram (Container.sources folder entries) (sourceFile name file))
              machine ↔
            Entry.Unreadable entries (folder ++ sourceFile name file) :=
        requestProgram_iff.trans (not_iff_comm.mp Container.program_blames_iff.symm)
      refine Fails.bind_congr unreadable fun program after => ?_
      refine (Fails.bind_congr (iff_false_intro not_enterPackage)
        fun entered last => ?_).trans (iff_of_eq (false_or _))
      refine (Fails.bind_iff_first fun _ _ => Fails.not_pure _).trans ?_
      exact exact_.runBlock_iff entered.2 program.body last

end Hazards.Of

theorem loadConstants_iff {calls : Calls} {folder : String} {entries : List Entry} :
    Fails Fault.Foreign
        (loadConstants (Container.sources folder entries) calls) machine ↔
      Hazards.loadConstants calls folder entries machine := by
  rw [loadConstants, Fails.get_bind_iff, Hazards.loadConstants]
  cases machine.constants with
  | some constants =>
      refine iff_of_false (Fails.not_pure _) ?_
      rintro ⟨same, _⟩
      cases same
  | none =>
      rw [and_iff_right rfl]
      dsimp only
      rw [Fails.modify_bind_iff, Container.sources]
      cases Container.contents? folder entries "constants.pkl" with
      | none =>
          refine iff_of_false (Fails.not_pure _) ?_
          rintro ⟨data, same, _⟩
          cases same
      | some data =>
          simp only [Option.some.injEq, exists_eq_left']
          refine Fails.bind_congr Iff.rfl fun table after => ?_
          rw [Run.heap_bind_iff]
          refine (Fails.bind_iff_first fun constants last => ?_).trans ?_
          · exact Fails.not_bind (Fails.not_modifyGet _) fun _ _ => Fails.not_pure _
          · rw [Fails.ofExcept_iff, Heap.iterate]
            cases after.heap.iterate? table with
            | some items => simp
            | none => simp [Fault.Foreign, Fault.isScriptFault, Fault.kind]

/-- The hazards at a depth are those of the calls at that depth. -/
theorem Hazards.within_of (folder : String) (entries : List Entry) :
    ∀ depth,
      (within folder entries depth).Of
        (Calls.within (Container.sources folder entries) depth)
  | 0 =>
      { apply := fun _ _ _ _ => iff_true_intro ((Fails.throw_iff _).mpr rfl)
        package := fun _ _ _ => iff_true_intro ((Fails.throw_iff _).mpr rfl)
        constants := fun _ => iff_true_intro ((Fails.throw_iff _).mpr rfl) }
  | depth + 1 =>
      { apply := (within_of folder entries depth).applyFunction_iff
        package := fun name file _ =>
          (within_of folder entries depth).loadPackage_iff name file
        constants := fun _ => loadConstants_iff }

end TorchArchive
