import Mathlib.Data.List.Nodup
import TorchArchive.Proofs.Evaluation.Edits
import TorchArchive.Proofs.Trace.Names

/-!
# What a rollback restores

A trace begins with a reset.  From then on names are given to tensors that have none, and
every tensor that gets one is noted.  So whatever flowed out of a tensor at the reset flows
out of it again after a rollback: nothing out of those that were noted, and what always
did out of the others.

Names themselves are not taken back.  They are the numerals of a count that only grows, and
a name that is given after the rollback was given to nobody before.
-/

namespace TorchArchive

namespace Recording

variable {start before after : Recording}

/-! ## Names that were generated -/

/-- The names that a registry generated so far, in their order. -/
def generated (recording : Recording) : List String :=
  (List.range recording.trace.names).map fun count => integerText (count + 1 : Nat)

/-- The names that a registry generated since it was in an earlier state. -/
def generatedSince (recording earlier : Recording) : List String :=
  recording.generated.drop earlier.trace.names

@[simp] theorem length_generated (recording : Recording) :
    recording.generated.length = recording.trace.names := by
  simp [generated]

theorem generated_nodup (recording : Recording) : recording.generated.Nodup := by
  apply List.Nodup.map _ List.nodup_range
  intro left right same
  have numbers := integerText_injective same
  omega

/-- The names of an earlier state come first. -/
theorem generated_eq (grown : before.trace.names ≤ after.trace.names) :
    after.generated = before.generated ++ after.generatedSince before := by
  have earlier : before.generated = after.generated.take before.trace.names := by
    rw [generated, generated, ← List.map_take, List.take_range, Nat.min_eq_left grown]
  rw [earlier, generatedSince, List.take_append_drop]

theorem generatedSince_disjoint (grown : before.trace.names ≤ after.trace.names) :
    before.generated.Disjoint (after.generatedSince before) := by
  have distinct := after.generated_nodup
  rw [generated_eq grown] at distinct
  exact List.disjoint_of_nodup_append distinct

/-! ## What is done with a registry -/

/-- What others may do between two calls: anything that leaves the trace and what flows out
of the tensors that are there. -/
structure LeavesOutputs (before after : Recording) : Prop where
  trace : after.trace = before.trace
  outputsHeld : after.OutputsHeld
  old :
    ∀ ref, before.heap.tensors.Holds ref →
      after.heap.tensors.Holds ref ∧ after.outputs ref = before.outputs ref

/-- A call into a registry while a trace is recorded, or what happens between two calls. -/
inductive Step : Recording → Recording → Prop where
  | operator {recording : Recording} (name : String) (positional : List Value)
      (keywords : List (String × Value)) :
      Step recording
        (stateAfter ((Builtin.operator name).call positional keywords) recording)
  | identify {recording : Recording} (ref : Ref .tensor) :
      Step recording (recording.identify ref).2
  | placeholder {recording : Recording} (name : Option String) (size : Value) :
      Step recording (recording.placeholder name size).2
  | stub {recording : Recording} (name : String) (positional : List Value) :
      Step recording (stateAfter ((Builtin.stub name).call positional []) recording)
  | between {recording after : Recording} (leaves : recording.LeavesOutputs after) :
      Step recording after

/-- Anything that is done with a registry. -/
inductive Use : Recording → Recording → Prop where
  | step {before after : Recording} (step : before.Step after) : Use before after
  | builtin {recording : Recording} (builtin : Builtin) (positional : List Value)
      (keywords : List (String × Value)) :
      Use recording (stateAfter (builtin.call positional keywords) recording)
  | reset {recording : Recording} : Use recording recording.reset
  | rollback {recording : Recording} : Use recording recording.rollback

/-! ## The count grows -/

/-- At least so many names were generated. -/
abbrev Counts (least : Nat) (recording : Recording) : Prop := least ≤ recording.trace.names

theorem counts_identify {least : Nat} (ref : Ref .tensor) (counts : before.Counts least) :
    (before.identify ref).2.Counts least := by
  unfold identify
  split
  · exact counts
  · exact Nat.le_succ_of_le counts

theorem counts_call {least : Nat} (name : String) (positional : List Value)
    (keywords : List (String × Value)) (counts : before.Counts least) :
    (before.call name positional keywords).2.Counts least := by
  have placeholder : (before.placeholder none .none).2.Counts least :=
    Nat.le_succ_of_le counts
  have identify {recording : Recording} (ref : Ref .tensor)
      (counts : recording.Counts least) : (recording.identify ref).2.Counts least :=
    counts_identify ref counts
  have inputs := inputs_keeps identify positional placeholder
  exact counts_identify (before.placeholder none .none).1 inputs

theorem counts_survives (least : Nat) : Survives (Counts least) where
  list := fun _ counts => counts
  dict := fun _ counts => counts
  unnamed := fun _ counts => counts
  fresh := fun _ _ counts => Nat.le_succ_of_le counts

theorem counts_builtin {least : Nat} (builtin : Builtin) (positional : List Value)
    (keywords : List (String × Value)) (counts : before.Counts least) :
    (stateAfter (builtin.call positional keywords) before).Counts least := by
  by_cases recorded : ∃ name, builtin = .operator name
  · obtain ⟨name, rfl⟩ := recorded
    exact counts_call name positional keywords counts
  · apply (counts_survives least).call _ positional keywords before counts
    intro name same
    exact recorded ⟨name, same⟩

theorem Step.counts {least : Nat} (step : before.Step after) (counts : before.Counts least) :
    after.Counts least := by
  cases step with
  | operator name positional keywords => exact counts_call name positional keywords counts
  | identify ref => exact counts_identify ref counts
  | placeholder name size =>
      cases name with
      | none => exact Nat.le_succ_of_le counts
      | some name => exact counts
  | stub name positional => exact counts_builtin (.stub name) positional [] counts
  | between leaves =>
      rw [Counts, leaves.trace]
      exact counts

theorem Use.counts {least : Nat} (use : before.Use after) (counts : before.Counts least) :
    after.Counts least := by
  cases use with
  | step step => exact step.counts counts
  | builtin builtin positional keywords =>
      exact counts_builtin builtin positional keywords counts
  | reset => exact counts
  | rollback => exact counts

theorem counts_of_uses (uses : Relation.ReflTransGen Use before after) :
    before.trace.names ≤ after.trace.names := by
  induction uses with
  | refl => exact Nat.le_refl _
  | tail _ use inductionHypothesis => exact use.counts inductionHypothesis

/-! ## Every tensor is as it was, or noted -/

/-- Since a start, what flows out of the tensors of the start changed for those only that
are noted, and out of these nothing did flow. -/
structure Notebook (start recording : Recording) : Prop where
  outputsHeld : recording.OutputsHeld
  held : ∀ ref, start.heap.tensors.Holds ref → recording.heap.tensors.Holds ref
  noted :
    ∀ ref, start.heap.tensors.Holds ref → ref ∈ recording.trace.identified →
      start.outputs ref = []
  unnoted :
    ∀ ref, start.heap.tensors.Holds ref → ref ∉ recording.trace.identified →
      recording.outputs ref = start.outputs ref

theorem Notebook.begin (outputsHeld : start.OutputsHeld) : Notebook start start.reset where
  outputsHeld := outputsHeld
  held := fun _ held => held
  noted := fun _ _ member => absurd member List.not_mem_nil
  unnoted := fun _ _ _ => rfl

/-- What leaves the notes, and what flows out of old tensors, keeps the notebook. -/
theorem Notebook.leave (notebook : Notebook start before) (after : Recording)
    (identified : after.trace.identified = before.trace.identified)
    (outputsHeld : after.OutputsHeld)
    (old :
      ∀ ref, before.heap.tensors.Holds ref →
        after.heap.tensors.Holds ref ∧ after.outputs ref = before.outputs ref) :
    Notebook start after where
  outputsHeld := outputsHeld
  held := fun ref held => (old ref (notebook.held ref held)).1
  noted := by
    intro ref held member
    rw [identified] at member
    exact notebook.noted ref held member
  unnoted := by
    intro ref held absent
    rw [identified] at absent
    rw [(old ref (notebook.held ref held)).2]
    exact notebook.unnoted ref held absent

theorem Notebook.addWith (notebook : Notebook start before) (items : List Value)
    {tensor : Ref .list → Tensor} (kept : ∀ outputs, (tensor outputs).outputs = outputs) :
    Notebook start (before.addWith items tensor) := by
  refine notebook.leave (before.addWith items tensor) rfl
    (outputsHeld_addWith notebook.outputsHeld items kept) ?_
  intro ref held
  refine ⟨?_, outputs_addWith_old notebook.outputsHeld items tensor held⟩
  rw [Store.Holds, size_addWith]
  exact Nat.lt_succ_of_lt held

theorem Notebook.freshName (notebook : Notebook start before) :
    Notebook start before.freshName.2 :=
  notebook.leave _ rfl notebook.outputsHeld fun _ held => ⟨held, rfl⟩

theorem Notebook.addTensor (notebook : Notebook start before) (name : String)
    {change : Tensor → Tensor} (kept : ∀ tensor, (change tensor).outputs = tensor.outputs) :
    Notebook start (before.addTensor name change).2 := by
  rw [addTensor_eq]
  exact notebook.addWith [.str name] fun outputs => kept (.blank outputs)

/-- Every list of outputs is there when one was put, even where no tensor was before. -/
theorem outputsHeld_put (outputsHeld : before.OutputsHeld) (items : List Value)
    (ref : Ref .tensor) : (before.putOutputs items ref).OutputsHeld := by
  intro other _
  have grown : (before.putOutputs items ref).heap.lists.size = before.heap.lists.size + 1 :=
    Store.size_add before.heap.lists items
  rw [tensor_putOutputs, Store.Holds, grown]
  split
  · exact Nat.lt_succ_self _
  · by_cases held : before.heap.tensors.Holds other
    · exact Nat.lt_succ_of_lt (outputsHeld other held)
    · rw [Heap.tensor, Store.get_of_not_holds _ held]
      exact Nat.succ_pos _

theorem holds_putOutputs (items : List Value) (ref : Ref .tensor) {other : Ref .tensor}
    (held : before.heap.tensors.Holds other) :
    (before.putOutputs items ref).heap.tensors.Holds other :=
  Store.holds_set held ref _

/-- A tensor that gets a name is noted. -/
theorem Notebook.identify (ref : Ref .tensor) (notebook : Notebook start before) :
    Notebook start (before.identify ref).2 := by
  by_cases unnamed : before.outputs ref = []
  · rw [identify_eq unnamed]
    refine ⟨outputsHeld_put notebook.outputsHeld _ ref,
      fun other held => holds_putOutputs _ ref (notebook.held other held), ?_, ?_⟩
    · intro other held member
      by_cases earlier : other ∈ before.trace.identified
      · exact notebook.noted other held earlier
      · have same : other = ref := by
          simpa [earlier] using member
        rw [← notebook.unnoted other held earlier, same, unnamed]
    · intro other held absent
      obtain ⟨unnoted, different⟩ : other ∉ before.trace.identified ∧ other ≠ ref := by
        simpa using absent
      have kept := outputs_putOutputs_of_ne notebook.outputsHeld [.str before.freshName.1]
        different (notebook.held other held)
      exact kept.trans (notebook.unnoted other held unnoted)
  · obtain ⟨first, rest, named⟩ := List.exists_cons_of_ne_nil unnamed
    have outputs : before.heap.list (before.heap.tensor ref).outputs = first :: rest := named
    rw [Recording.identify, outputs]
    exact notebook

theorem Notebook.call (notebook : Notebook start before) (name : String)
    (positional : List Value) (keywords : List (String × Value)) :
    Notebook start (before.call name positional keywords).2 := by
  have placeholder : Notebook start (before.placeholder none .none).2 :=
    notebook.freshName.addTensor _ fun _ => rfl
  have identify {recording : Recording} (ref : Ref .tensor)
      (notebook : Notebook start recording) : Notebook start (recording.identify ref).2 :=
    notebook.identify ref
  have inputs := inputs_keeps identify positional placeholder
  have output := inputs.identify (before.placeholder none .none).1
  exact ⟨output.outputsHeld, output.held, output.noted, output.unnoted⟩

theorem notebook_survives (start : Recording) : Survives (Notebook start) where
  list := by
    intro recording items notebook
    refine notebook.leave _ rfl ?_ ?_
    · exact fun ref held => Store.holds_add (notebook.outputsHeld ref held) items
    · exact fun ref held =>
        ⟨held, Store.get_add_of_holds recording.heap.lists items (notebook.outputsHeld ref held)⟩
  dict := fun _ notebook => notebook.leave _ rfl notebook.outputsHeld fun _ held => ⟨held, rfl⟩
  unnamed := fun plain notebook => notebook.addWith [] fun outputs => (plain outputs).1
  fresh := fun _ kept notebook => notebook.freshName.addTensor _ fun tensor => (kept tensor).1

/-- Every call while a trace is recorded keeps the notebook. -/
theorem Step.notebook (step : before.Step after) (notebook : Notebook start before) :
    Notebook start after := by
  cases step with
  | operator name positional keywords => exact notebook.call name positional keywords
  | identify ref => exact notebook.identify ref
  | placeholder name size =>
      cases name with
      | none => exact notebook.freshName.addTensor _ fun _ => rfl
      | some name => exact notebook.addTensor name fun _ => rfl
  | stub name positional =>
      have plain : ∀ operator, Builtin.stub name ≠ .operator operator := fun _ => nofun
      exact (notebook_survives start).call plain positional [] before notebook
  | between leaves =>
      exact notebook.leave _ (by rw [leaves.trace]) leaves.outputsHeld leaves.old

theorem notebook_of_steps (outputsHeld : start.OutputsHeld)
    (steps : Relation.ReflTransGen Step start.reset after) : Notebook start after := by
  induction steps with
  | refl => exact .begin outputsHeld
  | tail _ step inductionHypothesis => exact step.notebook inductionHypothesis

/-! ## Taking back -/

/-- The names of some tensors are taken back; what flows out of the others stays. -/
theorem takeBack_spec :
    ∀ (refs : List (Ref .tensor)) {before : Recording}, before.OutputsHeld →
      ∀ ref, before.heap.tensors.Holds ref →
        (refs.foldl (putOutputs · []) before).heap.tensors.Holds ref ∧
          (refs.foldl (putOutputs · []) before).outputs ref =
            if ref ∈ refs then [] else before.outputs ref
  | [], before, _, ref, held => ⟨held, rfl⟩
  | first :: rest, before, outputsHeld, ref, held => by
      obtain ⟨heldAfter, outputs⟩ :=
        takeBack_spec rest (outputsHeld_put outputsHeld [] first) ref
          (holds_putOutputs [] first held)
      refine ⟨heldAfter, outputs.trans ?_⟩
      by_cases same : ref = first
      · subst same
        simp [outputs_putOutputs_self]
      · simp [same, outputs_putOutputs_of_ne outputsHeld [] same held]

theorem rollback_generated (recording : Recording) :
    recording.rollback.generated = recording.generated := rfl

/-- What a rollback leaves of a recording that began with a reset. -/
structure Restored (start ended : Recording) : Prop where
  /-- No call is recorded any more. -/
  nodes : ended.rollback.trace.nodes = []
  identified : ended.rollback.trace.identified = []
  /-- Out of every tensor that was there flows what did at the reset. -/
  outputs :
    ∀ ref, start.heap.tensors.Holds ref →
      ended.rollback.heap.tensors.Holds ref ∧
        ended.rollback.outputs ref = start.outputs ref
  /-- No name that was ever generated is generated again, whatever is done afterwards. -/
  fresh :
    ∀ later, Relation.ReflTransGen Use ended.rollback later →
      ended.generated.Disjoint (later.generatedSince ended.rollback)

/-- Two tensors: out of the first one a value flows that was named before, out of the second
one nothing. -/
def half : Recording :=
  (Recording.addTensor ⟨default, .empty⟩ "w" id).2.addWith [] .blank

/-- Both tensors are added up, an input is named, and a stand-in is asked for. -/
def halfTraced : Recording :=
  let added := stateAfter
    ((Builtin.operator "torch.add").call [.tensor ⟨0⟩, .tensor ⟨1⟩] []) half.reset
  let named := (added.placeholder (some "x") .none).2
  stateAfter ((Builtin.stub "torch.conv2d").call [] []) named

theorem halfTraced_steps : Relation.ReflTransGen Step half.reset halfTraced :=
  .tail (.tail (.single (.operator "torch.add" _ []))
    (.placeholder (some "x") .none)) (.stub "torch.conv2d" [])

theorem half_outputsHeld : half.OutputsHeld := by
  have start : Recording.OutputsHeld ⟨default, .empty⟩ :=
    fun _ held => absurd held (Nat.not_lt_zero _)
  exact outputsHeld_addWith (outputsHeld_addWith start _ fun _ => rfl) [] fun _ => rfl

example :
    (halfTraced.trace.identified, halfTraced.generated) = ([⟨1⟩], ["1", "2", "3"]) := by
  decide +kernel

end Recording

end TorchArchive
