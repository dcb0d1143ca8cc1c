import TorchArchive.Proofs.Escape.Tracing
import TorchArchive.Proofs.Evaluation.Containers
import TorchArchive.Proofs.Trace.Names

/-!
# What a failed trace leaves of tensors

Archive code changes nothing of a tensor but the list that its names are kept in: an
operator gives a new list, with a fresh name, to a tensor that has no name.  The tensors
that are named so are noted, and when the code fails their names are taken back.
-/

namespace TorchArchive

namespace Heap

/-! ## What stays of tensors -/

/-- Tensors stay but for the lists of their names, and storages stay. -/
structure KeepsTensors (before after : Heap) : Prop where
  held : ∀ ref, before.tensors.Holds ref → after.tensors.Holds ref
  tensor :
    ∀ ref, before.tensors.Holds ref →
      ∃ outputs, after.tensor ref = { before.tensor ref with outputs }
  stored : ∀ ref, before.storages.Holds ref → after.storages.Holds ref
  storage : ∀ ref, before.storages.Holds ref → after.storage ref = before.storage ref

variable {before between after : Heap}

theorem KeepsTensors.refl (heap : Heap) : heap.KeepsTensors heap :=
  ⟨fun _ held => held, fun _ _ => ⟨_, rfl⟩, fun _ held => held, fun _ _ => rfl⟩

theorem KeepsTensors.trans (first : before.KeepsTensors between)
    (second : between.KeepsTensors after) : before.KeepsTensors after where
  held := fun ref held => second.held ref (first.held ref held)
  tensor := by
    intro ref held
    obtain ⟨_, early⟩ := first.tensor ref held
    obtain ⟨outputs, late⟩ := second.tensor ref (first.held ref held)
    refine ⟨outputs, ?_⟩
    rw [late, early]
  stored := fun ref held => second.stored ref (first.stored ref held)
  storage := fun ref held =>
    (second.storage ref (first.stored ref held)).trans (first.storage ref held)

theorem Edit.keepsTensors (edit : before.Edit .everywhere after) : before.KeepsTensors after := by
  cases edit with
  | storage storage =>
      refine ⟨fun _ held => held, fun _ _ => ⟨_, rfl⟩, ?_, ?_⟩
      · intro ref held
        have grown := Store.size_add before.storages storage
        exact Nat.lt_of_lt_of_eq (Nat.lt_succ_of_lt held) grown.symm
      · exact fun ref held => Store.get_add_of_holds before.storages storage held
  | _ =>
      exact ⟨fun _ held => held, fun _ _ => ⟨_, rfl⟩, fun _ held => held, fun _ _ => rfl⟩

end Heap

namespace Recording

variable {recording : Recording} {start : Heap}

/-- A new tensor is none of the old ones. -/
theorem tensor_addWith_of_holds (items : List Value) (tensor : Ref .list → Tensor)
    {ref : Ref .tensor} (held : recording.heap.tensors.Holds ref) :
    (recording.addWith items tensor).heap.tensor ref = recording.heap.tensor ref := by
  have old : recording.heap.tensors.next ≠ ref := by
    rintro rfl
    exact Nat.lt_irrefl _ held
  rw [tensor_addWith, if_neg old]

theorem addWith_keepsTensors (items : List Value) (tensor : Ref .list → Tensor) :
    recording.heap.KeepsTensors (recording.addWith items tensor).heap where
  held := by
    intro ref held
    rw [Store.Holds, size_addWith]
    exact Nat.lt_succ_of_lt held
  tensor := fun _ held => ⟨_, tensor_addWith_of_holds items tensor held⟩
  stored := fun _ held => held
  storage := fun _ _ => rfl

theorem putOutputs_keepsTensors (items : List Value) (ref : Ref .tensor) :
    recording.heap.KeepsTensors (recording.putOutputs items ref).heap where
  held := by
    intro other held
    have size := Store.size_set recording.heap.tensors ref
      { recording.heap.tensor ref with outputs := recording.heap.lists.next }
    exact Nat.lt_of_lt_of_le held (size ▸ Nat.le_max_left _ _)
  tensor := by
    intro other _
    rw [tensor_putOutputs]
    split
    · rename_i same
      exact ⟨_, by rw [same]⟩
    · exact ⟨_, rfl⟩
  stored := fun _ held => held
  storage := fun _ _ => rfl

/-! ## Names that are noted -/

/-- Since the heap was as it was, names were given only to tensors that were noted. -/
structure Notes (start : Heap) (recording : Recording) : Prop where
  keeps : start.KeepsTensors recording.heap
  noted :
    ∀ ref, start.tensors.Holds ref →
      (recording.heap.tensor ref).outputs = (start.tensor ref).outputs ∨
        ref ∈ recording.trace.identified

theorem Notes.begin (recording : Recording) : Notes recording.heap recording :=
  ⟨.refl _, fun _ _ => Or.inl rfl⟩

theorem Notes.reset (recording : Recording) : Notes recording.heap recording.reset :=
  ⟨.refl _, fun _ _ => Or.inl rfl⟩

theorem Notes.edit {heap after : Heap} {trace : Trace}
    (edit : heap.Edit .everywhere after)
    (notes : Notes start ⟨heap, trace⟩) : Notes start ⟨after, trace⟩ where
  keeps := notes.keeps.trans edit.keepsTensors
  noted := by
    intro ref held
    have same : after.tensor ref = heap.tensor ref :=
      congrArg (fun tensors => tensors.get ref) edit.tensors_eq
    rw [same]
    exact notes.noted ref held

theorem Notes.addWith (notes : Notes start recording) (items : List Value)
    (tensor : Ref .list → Tensor) : Notes start (recording.addWith items tensor) where
  keeps := notes.keeps.trans (addWith_keepsTensors items tensor)
  noted := by
    intro ref held
    rw [tensor_addWith_of_holds items tensor (notes.keeps.held ref held)]
    exact notes.noted ref held

theorem Notes.addTensor (notes : Notes start recording) (name : String)
    (change : Tensor → Tensor) : Notes start (recording.addTensor name change).2 := by
  rw [addTensor_eq]
  exact Notes.addWith notes [.str name] fun outputs => change (.blank outputs)

theorem Notes.freshName (notes : Notes start recording) :
    Notes start recording.freshName.2 := ⟨notes.keeps, notes.noted⟩

theorem Notes.identify (notes : Notes start recording) (ref : Ref .tensor) :
    Notes start (recording.identify ref).2 := by
  by_cases unnamed : recording.outputs ref = []
  · rw [identify_eq unnamed]
    refine ⟨notes.keeps.trans (putOutputs_keepsTensors _ ref), ?_⟩
    intro other held
    by_cases same : other = ref
    · right
      rw [same]
      exact List.mem_append_right _ List.mem_cons_self
    · have kept :
          (recording.putOutputs [.str recording.freshName.1] ref).heap.tensor other =
            recording.heap.tensor other := by
        rw [tensor_putOutputs, if_neg (Ne.symm same)]
      rw [kept]
      exact (notes.noted other held).imp_right (List.mem_append_left _)
  · obtain ⟨first, rest, named⟩ := List.exists_cons_of_ne_nil unnamed
    have outputs : recording.heap.list (recording.heap.tensor ref).outputs =
        first :: rest := named
    rw [Recording.identify, outputs]
    exact notes

theorem Notes.call (notes : Notes start recording) (name : String)
    (positional : List Value) (keywords : List (String × Value)) :
    Notes start (recording.call name positional keywords).2 := by
  have placeholder : Notes start (recording.placeholder none .none).2 :=
    notes.freshName.addTensor _ _
  have identify {recording : Recording} (ref : Ref .tensor)
      (before : Notes start recording) : Notes start (recording.identify ref).2 :=
    before.identify ref
  have inputs := inputs_keeps identify positional placeholder
  have outputs := inputs.identify (recording.placeholder none .none).1
  exact ⟨outputs.keeps, outputs.noted⟩

/-- Archive code names no tensor without a note. -/
theorem notes_persist (start : Heap) : Persists (Notes start) where
  edit := Notes.edit
  unnamed := fun _ notes => notes.addWith [] _
  fresh := fun change _ notes => notes.freshName.addTensor _ change
  call := fun name positional keywords notes => notes.call name positional keywords
  placeholder := fun name _ notes => notes.addTensor name _
  identify := fun ref notes => notes.identify ref

/-! ## Names that are taken back -/

theorem rollback_keepsTensors (recording : Recording) :
    recording.heap.KeepsTensors recording.rollback.heap := by
  rw [rollback_eq]
  exact List.foldlRecOn (motive := fun after => recording.heap.KeepsTensors after.heap)
    recording.trace.identified (putOutputs · []) (.refl _) fun _ keeps ref _ =>
      keeps.trans (putOutputs_keepsTensors [] ref)

/-- A tensor without names does not get any where others lose theirs. -/
theorem outputs_putOutputs_empty {ref other : Ref .tensor}
    (unnamed : other = ref ∨ recording.outputs other = []) :
    (recording.putOutputs [] ref).outputs other = [] := by
  by_cases same : other = ref
  · rw [same]
    exact outputs_putOutputs_self [] ref
  · have empty := unnamed.resolve_left same
    rw [outputs, tensor_putOutputs, if_neg (Ne.symm same)]
    have list := Heap.list_addList recording.heap [] (recording.heap.tensor other).outputs
    refine Eq.trans list ?_
    split
    · rfl
    · exact empty

/-- What was named on the way has no name after a rollback. -/
theorem outputs_rollback_of_noted {ref : Ref .tensor}
    (noted : ref ∈ recording.trace.identified) : recording.rollback.outputs ref = [] := by
  have cleared (refs : List (Ref .tensor)) (recording : Recording)
      (unnamed : ref ∈ refs ∨ recording.outputs ref = []) :
      (refs.foldl (putOutputs · []) recording).outputs ref = [] := by
    induction refs generalizing recording with
    | nil => exact unnamed.resolve_left List.not_mem_nil
    | cons first rest inductionHypothesis =>
        refine inductionHypothesis _ ?_
        rcases unnamed with member | empty
        · rcases List.mem_cons.mp member with same | later
          · exact Or.inr (outputs_putOutputs_empty (Or.inl same))
          · exact Or.inl later
        · exact Or.inr (outputs_putOutputs_empty (Or.inr empty))
  rw [rollback_eq]
  exact cleared _ recording (Or.inl noted)

/-- What was not named on the way keeps the list of its names. -/
theorem tensor_rollback_of_not_noted {ref : Ref .tensor}
    (unnoted : ref ∉ recording.trace.identified) :
    recording.rollback.heap.tensor ref = recording.heap.tensor ref := by
  rw [rollback_eq]
  refine List.foldlRecOn
    (motive := fun after => after.heap.tensor ref = recording.heap.tensor ref)
    recording.trace.identified (putOutputs · []) rfl ?_
  intro between same other member
  have different : other ≠ ref := fun equal => unnoted (equal ▸ member)
  rw [tensor_putOutputs, if_neg different]
  exact same

/-- Tensors lose their names or keep them where they were kept. -/
def KeepsNames (before after : Recording) : Prop :=
  ∀ ref, before.heap.tensors.Holds ref →
    after.outputs ref = [] ∨
      (after.heap.tensor ref).outputs = (before.heap.tensor ref).outputs

theorem KeepsNames.refl (recording : Recording) : recording.KeepsNames recording :=
  fun _ _ => Or.inr rfl

/-- A rollback leaves no name that was given since a heap. -/
theorem Notes.rollback {before : Recording} (notes : Notes before.heap recording) :
    before.KeepsNames recording.rollback := by
  intro ref held
  by_cases noted : ref ∈ recording.trace.identified
  · exact Or.inl (outputs_rollback_of_noted noted)
  · right
    rw [tensor_rollback_of_not_noted noted]
    exact (notes.noted ref held).resolve_right noted

end Recording

/-! ## Traces that fail -/

open Recording

theorem placeholders_ne_error {fault : Fault} {after : Machine} :
    ∀ (names : List String) (before : Machine),
      placeholders names before ≠ .error fault after
  | [], _, fails => by cases fails
  | name :: rest, before, fails => by
      rcases EStateM.bind_eq_error_iff.mp fails with never | ⟨_, between, _, fails⟩
      · cases never
      · rcases EStateM.bind_eq_error_iff.mp fails with failsRest | ⟨_, _, _, never⟩
        · exact placeholders_ne_error rest between failsRest
        · cases never

theorem startTrace_ne_error {ref : Ref .function} {before after : Machine}
    {fault : Fault} : startTrace ref before ≠ .error fault after := by
  intro fails
  rcases EStateM.bind_eq_error_iff.mp fails with never | ⟨_, _, _, fails⟩
  · cases never
  · rcases EStateM.bind_eq_error_iff.mp fails with never | ⟨_, between, _, fails⟩
    · cases never
    · rcases EStateM.bind_eq_error_iff.mp fails with failsNames | ⟨_, _, _, never⟩
      · exact placeholders_ne_error _ between failsNames
      · cases never

/-- What a trace begins with is named without a note. -/
theorem startTrace_notes {ref : Ref .function} {before after : Machine}
    {started : List String × List Value}
    (starts : startTrace ref before = .ok started after) :
    Notes before.recording.heap after.recording := by
  obtain ⟨_, cleared, resets, starts⟩ := EStateM.bind_eq_ok_iff.mp starts
  cases resets
  obtain ⟨heap, _, reads, starts⟩ := EStateM.bind_eq_ok_iff.mp starts
  cases reads
  obtain ⟨arguments, between, makes, same⟩ := EStateM.bind_eq_ok_iff.mp starts
  cases same
  exact ((notes_persist before.recording.heap).ofMachine.placeholders _).ok makes
    (Notes.reset before.recording)

/-- A run that fails by a fault of the code takes the names back that it gave. -/
theorem traceFunction_failed {calls : Calls}
    (keep : ∀ start, calls.Keep (OfRecording (Notes start)))
    {receiver : Option Value} {function : Value} {before after : Machine} {fault : Fault}
    (fails : traceFunction calls receiver function before = .error fault after)
    (script : fault.isScriptFault = true) :
    after.recording = before.recording ∨
      ∃ failed, Notes before.recording.heap failed ∧ after.recording = failed.rollback := by
  rw [traceFunction.eq_def] at fails
  split at fails
  · rename_i ref
    right
    rcases EStateM.bind_eq_error_iff.mp fails with never | ⟨started, begun, starts, fails⟩
    · exact absurd never startTrace_ne_error
    · have notes := startTrace_notes starts
      rcases EStateM.bind_eq_error_iff.mp fails with applies | ⟨value, ended, _, fails⟩
      · obtain ⟨other, failed, fails, handles⟩ := EStateM.tryCatch_eq_error_iff.mp applies
        have notesFailed := ((keep before.recording.heap).apply ref receiver _).error fails notes
        by_cases blamed : other.isScriptFault = true
        · rw [if_pos blamed] at handles
          cases handles
          exact ⟨failed.recording, notesFailed, rfl⟩
        · rw [if_neg blamed] at handles
          cases handles
          exact absurd script blamed
      · -- What the code returned is nested too deeply, which is no fault of the code.
        rcases EStateM.bind_eq_error_iff.mp fails with never | ⟨heap, _, reads, fails⟩
        · cases never
        · cases reads
          rcases EStateM.bind_eq_error_iff.mp fails with nests | ⟨_, _, _, never⟩
          · cases found : tensorsIn ended.heap Heap.nestingLimit value with
            | error other =>
                rw [found] at nests
                cases nests
                rw [((tensorsIn_eq_error_iff _ _ _).mp found).1] at script
                cases script
            | ok tensors =>
                rw [found] at nests
                cases nests
          · cases never
  · left
    cases fails
    rfl

/-- Where no trace comes about, tensors are as they were, and those that have names keep
them where they were kept when the run began. -/
theorem Container.trace_failed {container : Container} {loaded traced : Machine}
    (fails : container.trace loaded = .ok none traced) :
    loaded.recording.heap.KeepsTensors traced.recording.heap ∧
      (stateAfter container.entryPoint loaded).recording.KeepsNames traced.recording := by
  have keep (start : Heap) : container.calls.Keep (OfRecording (Notes start)) :=
    (notes_persist start).lasts.callsOf _
  have entry := (notes_persist loaded.recording.heap).lasts.entryPoint container loaded
    (.begin loaded.recording)
  generalize isEntered : stateAfter container.entryPoint loaded = entered at entry
  rcases EStateM.tryCatch_eq_ok_iff.mp fails with ends | ⟨fault, failed, ends, handles⟩
  · obtain ⟨_, _, _, ends⟩ := EStateM.bind_eq_ok_iff.mp ends
    obtain ⟨_, _, _, never⟩ := EStateM.bind_eq_ok_iff.mp ends
    cases never
  · by_cases script : fault.isScriptFault = true
    · rw [if_pos script] at handles
      cases handles
      change loaded.recording.heap.KeepsTensors failed.recording.heap ∧
        entered.recording.KeepsNames failed.recording
      rcases EStateM.bind_eq_error_iff.mp ends with enters | ⟨function, _, enters, runs⟩
      · rw [stateAfter_error enters] at isEntered
        rw [isEntered]
        exact ⟨entry.keeps, .refl _⟩
      · rw [stateAfter_ok enters] at isEntered
        subst isEntered
        rcases EStateM.bind_eq_error_iff.mp runs with runs | ⟨_, _, _, never⟩
        · rcases traceFunction_failed keep runs script with same | ⟨last, notes, same⟩
          · rw [same]
            exact ⟨entry.keeps, .refl _⟩
          · rw [same]
            exact ⟨entry.keeps.trans (notes.keeps.trans (rollback_keepsTensors last)),
              notes.rollback⟩
        · cases never
    · rw [if_neg script] at handles
      cases handles

end TorchArchive
