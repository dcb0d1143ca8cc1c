import TorchArchive.Proofs.Evaluation.Containers

/-!
# Runs as sequences of single changes

Whatever is done with an interpreter changes its heap one object or one binding at a
time.  What such changes keep holds at every point of a run, in the middle of a call as
well as behind it, and of runs that fail.
-/

namespace TorchArchive.Machine

/-- A single change: of the heap by archive code, of tensors and their trace, or of what is
known of packages, constants, requests and events. -/
inductive Changes (before : Machine) : Machine → Prop where
  | edit {heap : Heap} (edit : before.heap.Edit .everywhere heap) :
      Changes before { before with recording := ⟨heap, before.trace⟩ }
  | flow (tensors : Store .tensor Tensor) (trace : Trace) :
      Changes before { before with recording := ⟨{ before.heap with tensors }, trace⟩ }
  | rest (packages : Table String (Ref .package)) (constants : Option (List Value))
      (requests : List String) (events : List Event) :
      Changes before { before with packages, constants, requests, events }

/-- Any number of changes. -/
abbrev ChangesOn : Machine → Machine → Prop := Relation.ReflTransGen Changes

variable {sources : Sources} {start : Machine}

/-- A recording is reached if its heap is, whatever is noted in the trace. -/
theorem changesOn_recording_endures (start machine : Machine) :
    Recording.Endures fun recording => start.ChangesOn { machine with recording } := by
  have same :
      (fun recording => start.ChangesOn { machine with recording }) =
        fun recording =>
          ∀ trace, start.ChangesOn { machine with recording := ⟨recording.heap, trace⟩ } := by
    funext recording
    refine propext ⟨fun reached trace => ?_, fun reached => reached recording.trace⟩
    exact reached.tail (.flow recording.heap.tensors trace)
  rw [same]
  refine @Recording.endures_of_edit .everywhere
    (fun heap => ∀ trace, start.ChangesOn { machine with recording := ⟨heap, trace⟩ }) ?_ ?_
  · exact fun edit reached trace => (reached trace).tail (.edit edit)
  · exact fun tensors reached trace => (reached trace).tail (.flow tensors trace)

/-- Whatever archive code does is a sequence of single changes. -/
theorem changesOn_endures (start : Machine) : Endures sources start.ChangesOn := by
  have persists : Persists start.ChangesOn :=
    { recording := fun machine => (changesOn_recording_endures start machine).toPersists
      beside := fun requests events before => before.tail (.rest _ _ requests events) }
  exact
    { toPersists := persists
      load := fun _ _ before => before.tail (.rest _ _ _ _)
      constants := fun _ keep =>
        persists.loadConstants (fun constants before =>
          before.tail (.rest _ (some constants) _ _)) sources keep
      reset := fun {machine} before =>
        (changesOn_recording_endures start machine).reset before
      rollback := fun {machine} before =>
        (changesOn_recording_endures start machine).rollback before }

/-- So is the load of a container. -/
theorem changesOn_container (identifier : String) (entries : List Entry) :
    Keeps start.ChangesOn (Container.load identifier entries) :=
  Lasts.container (fun _ => (changesOn_endures start).toLasts)
    (fun constants before => before.tail (.rest _ (some constants) _ _)) identifier entries

theorem ChangesOn.root {after : Machine} (reached : start.ChangesOn after) :
    after.root = start.root := by
  induction reached with
  | refl => rfl
  | tail _ change inductionHypothesis =>
      cases change with
      | _ => exact inductionHypothesis

end TorchArchive.Machine
