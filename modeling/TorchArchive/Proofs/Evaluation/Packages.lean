import TorchArchive.Evaluation.Package
import TorchArchive.Proofs.Evaluation.Statements

/-!
# What loads and traces keep

Loads of packages, the search for qualified names and the trace of a function keep a
property of machines that archive code cannot end.
-/

namespace TorchArchive

open Run

variable {property : Machine → Prop} {permitted : Permission}

namespace Machine

namespace Persists

variable (persists : Persists property permitted)

include persists

theorem claimPackage (name : String) :
    Keeps property (TorchArchive.claimPackage name) := by
  refine root_bind_keeps fun before => heap_keeps.bind fun heap => ?_
  have allowed := (persists.permits before).root
  split
  · exact Keeps.pure _
  · refine (persists.allocate fun _ => (Heap.Edit.package _).once).bind fun ref => ?_
    exact (persists.tryHeap fun _ _ binds =>
      Heap.bindQualified_edits allowed binds).bind fun _ => Keeps.pure _

theorem requestProgram (sources : Sources) (file : String) :
    Keeps property (TorchArchive.requestProgram sources file) :=
  Keeps.bind
    (Keeps.modify fun machine before =>
      persists.beside (machine.requests ++ [file]) machine.events before)
    fun _ => Keeps.ofExcept _

/-- A property of machines that also asks that a package is not loaded yet. -/
theorem unloaded (name : String) :
    Persists (fun machine => property machine ∧ machine.packages.get? name = none)
      permitted where
  recording := fun machine =>
    { edit := fun edit before => before.imp_left ((persists.recording machine).edit edit)
      unnamed := fun plain before =>
        before.imp_left ((persists.recording machine).unnamed plain)
      fresh := fun change kept before =>
        before.imp_left ((persists.recording machine).fresh change kept)
      call := fun name positional keywords before =>
        before.imp_left ((persists.recording machine).call name positional keywords)
      placeholder := fun name size before =>
        before.imp_left ((persists.recording machine).placeholder name size)
      identify := fun ref before =>
        before.imp_left ((persists.recording machine).identify ref) }
  beside := fun requests events before => before.imp_left (persists.beside requests events)
  permits := fun before => persists.permits before.1

end Persists

/-- The code of a package runs in the frame of its members. -/
theorem scope_of_enterPackage {name file : String} {machine after : Machine}
    {ref : Ref .package} {scope : Scope}
    (enters : TorchArchive.enterPackage name file machine = .ok (ref, scope) after) :
    scope.inner.table = (after.heap.package ref).members := by
  obtain ⟨_, _, _, enters⟩ := EStateM.bind_eq_ok_iff.mp enters
  obtain ⟨_, _, _, enters⟩ := EStateM.bind_eq_ok_iff.mp enters
  obtain ⟨_, known, _, enters⟩ := EStateM.bind_eq_ok_iff.mp enters
  obtain ⟨_, _, reads, enters⟩ := EStateM.bind_eq_ok_iff.mp enters
  obtain ⟨_, _, names, enters⟩ := EStateM.bind_eq_ok_iff.mp enters
  obtain ⟨_, _, looks, enters⟩ := EStateM.bind_eq_ok_iff.mp enters
  cases reads
  cases names
  cases looks
  cases enters
  change _ = (((known.heap.bind _ _ _).bind _ _ _).package ref).members
  rw [Heap.package_bind, Heap.package_bind]
  rfl

namespace Lasts

variable {sources : Sources} (lasts : Lasts sources property permitted)

include lasts

/-- A package that is not loaded yet is made known. -/
theorem enterPackage (name file : String) {machine : Machine} (before : property machine)
    (unloaded : machine.packages.get? name = none) :
    property (stateAfter (TorchArchive.enterPackage name file) machine) := by
  have persists := lasts.toPersists
  have named (heap : Heap) {members : Ref .table}
      (allowed : ∀ name, permitted members name) (first second : String)
      (left right : Value) :
      heap.Edits permitted ((heap.bind members first left).bind members second right) :=
    (Heap.Edit.bind _ first left (.inl (allowed first))).once.trans
      (Heap.Edit.bind _ second right (.inl (allowed second))).once
  refine stateAfter_bind ?_ ?_
  · intro fault after fails
    exact (((persists.unloaded name).claimPackage name).error fails ⟨before, unloaded⟩).1
  · intro ref claimed claims
    have between := ((persists.unloaded name).claimPackage name).ok claims ⟨before, unloaded⟩
    refine stateAfter_bind (fun _ _ never => by cases never) ?_
    intro _ filed files
    obtain ⟨kept, unknown⟩ := ((persists.unloaded name).modifyHeap fun _ =>
      (Heap.Edit.setFile ref _).once).ok files between
    refine stateAfter_bind (fun _ _ never => by cases never) ?_
    intro _ known knows
    cases knows
    have rest : Keeps property (do
        let package := (← Run.heap).package ref
        Run.modifyHeap fun heap =>
          (heap.bind package.members moduleNameKey (.str name)).bind package.members
            fileKey (.str file)
        return (ref, (← Run.root).pushPackage package.members package.name)) := by
      refine heap_keeps.bind_ok fun holds ends => ?_
      cases ends
      have allowed := (persists.permits holds).package ref
      exact (persists.modifyHeap fun heap => named heap allowed _ _ _ _).bind fun _ =>
        root_keeps.bind fun root => Keeps.pure _
    exact rest _ (lasts.load ref unknown kept)

end Lasts

section Loads

variable {calls : Calls} (keep : calls.Keep property)

include keep

theorem Lasts.loadPackage {sources : Sources} (lasts : Lasts sources property permitted)
    (name : String) (file : Option String) :
    Keeps property (TorchArchive.loadPackage sources calls name file) := by
  intro machine before
  have persists := lasts.toPersists
  rw [TorchArchive.loadPackage]
  refine stateAfter_bind (fun _ _ never => by cases never) ?_
  intro _ _ same
  cases same
  cases unloaded : machine.packages.get? name with
  | some ref => exact before
  | none =>
      have requests := (persists.unloaded name).requestProgram sources (sourceFile name file)
      refine stateAfter_bind ?_ ?_
      · intro fault after fails
        exact (requests.error fails ⟨before, unloaded⟩).1
      · intro program asked asks
        obtain ⟨kept, unknown⟩ := requests.ok asks ⟨before, unloaded⟩
        have enters := lasts.enterPackage name (sourceFile name file) kept unknown
        refine stateAfter_bind ?_ ?_
        · intro fault after fails
          rw [stateAfter_error fails] at enters
          exact enters
        · intro entered started ends
          rw [stateAfter_ok ends] at enters
          have allowed (name : String) : permitted entered.2.inner.table name := by
            rw [scope_of_enterPackage ends]
            exact (persists.permits enters).package _ name
          have body : Keeps property (TorchArchive.runBlock calls entered.2 program.body) :=
            persists.runBlock keep fun name _ => allowed name
          exact (body.bind fun _ => Keeps.pure entered.1) started enters

/-! ## Qualified names -/

theorem resolve_keeps (name : String) :
    Keeps property (TorchArchive.resolve calls name) := by
  refine heap_keeps.bind fun heap => root_keeps.bind fun root => ?_
  dsimp only
  split
  · exact Keeps.pure _
  · split
    · exact Keeps.pure _
    · exact (keep.package _ none).bind fun ref =>
        heap_keeps.bind fun heap => Keeps.pure _

namespace Persists

variable (persists : Persists property permitted)

include persists

theorem invoke (name : String) (arguments : List Value) :
    Keeps property (TorchArchive.invoke calls name arguments) := by
  refine (resolve_keeps keep name).bind fun target => ?_
  split
  · exact persists.callStub name
  · exact persists.callValue keep target none arguments []

omit keep in
theorem placeholders :
    ∀ names : List String,
      Keeps property (TorchArchive.placeholders names)
  | [] => Keeps.pure []
  | name :: rest =>
      (record_keeps fun machine before =>
        (persists.recording machine).placeholder name .none before).bind fun _ =>
          (placeholders rest).bind fun _ => Keeps.pure _

end Persists

end Loads

/-! ## Traces -/

namespace Endures

variable {sources : Sources} (endures : Endures sources property permitted)

include endures

theorem startTrace (ref : Ref .function) :
    Keeps property (TorchArchive.startTrace ref) := by
  refine (record_keeps fun _ before => endures.reset before).bind fun _ => ?_
  exact heap_keeps.bind fun heap =>
    (endures.placeholders _).bind fun arguments => Keeps.pure _

theorem traceFunction {calls : Calls} (keep : calls.Keep property)
    (receiver : Option Value) (function : Value) :
    Keeps property (TorchArchive.traceFunction calls receiver function) := by
  unfold TorchArchive.traceFunction
  split
  · refine (endures.startTrace _).bind fun started => ?_
    have applied := keep.apply ‹Ref .function› receiver started.2
    refine (applied.tryCatch fun fault => ?_).bind fun value => ?_
    · dsimp only
      split
      · exact (record_keeps fun _ before => endures.rollback before).bind fun _ =>
          Keeps.throw _
      · exact Keeps.throw _
    · refine heap_keeps.bind fun heap => (Keeps.ofExcept _).bind fun tensors => ?_
      exact (record_keeps fun machine before =>
        (endures.recording machine).identifyAll tensors before).bind
          fun _ => Keeps.get.bind fun _ => Keeps.pure _
  · exact Keeps.throw _

end Endures

end Machine

end TorchArchive
