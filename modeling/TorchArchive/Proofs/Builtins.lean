import TorchArchive.Proofs.Steps

/-!
# What builtins leave

Builtins add objects to the heap and give fresh names, and change nothing else.  A
property of recordings that survives these additions survives every builtin but the
operators, whose calls are recorded.
-/

namespace TorchArchive

namespace Recording

/-- The recording with a new tensor out of which the items flow. -/
def addWith (recording : Recording) (items : List Value) (tensor : Ref .list → Tensor) :
    Recording :=
  { recording with
    heap := ((recording.heap.addList items).2.addTensor
      (tensor (recording.heap.addList items).1)).2 }

/-- The recording with a new tensor that has a fresh name. -/
def addFresh (recording : Recording) (change : Tensor → Tensor) : Recording :=
  (recording.freshName.2.addTensor recording.freshName.1 change).2

/-- A property that survives new lists, new dictionaries and new tensors. -/
structure Survives (property : Recording → Prop) : Prop where
  list :
    ∀ {recording : Recording} (items : List Value), property recording →
      property { recording with heap := (recording.heap.addList items).2 }
  dict :
    ∀ {recording : Recording} (dict : Dict), property recording →
      property { recording with heap := (recording.heap.addDict dict).2 }
  unnamed :
    ∀ {recording : Recording} {tensor : Ref .list → Tensor},
      (∀ outputs, (tensor outputs).outputs = outputs ∧
        (tensor outputs).owner = none ∧ (tensor outputs).initializer = none) →
        property recording → property (recording.addWith [] tensor)
  fresh :
    ∀ {recording : Recording} (change : Tensor → Tensor),
      (∀ tensor, (change tensor).outputs = tensor.outputs ∧
        (change tensor).owner = tensor.owner ∧
        (change tensor).initializer = tensor.initializer) →
        property recording → property (recording.addFresh change)

end Recording

variable {property : Recording → Prop}

theorem Recorded.heap_keeps : Keeps property Recorded.heap :=
  Keeps.get.bind fun _ => Keeps.pure _

namespace Recording.Survives

variable (survives : Recording.Survives property)

include survives

theorem addList (items : List Value) :
    Keeps property (Recorded.allocate fun heap => heap.addList items) :=
  Keeps.modifyGet fun _ before => survives.list items before

theorem addDict (dict : Dict) :
    Keeps property (Recorded.allocate fun heap => heap.addDict dict) :=
  Keeps.modifyGet fun _ before => survives.dict dict before

theorem placeholder (size : Value) :
    Keeps property
      (Recorded.change fun recording => recording.placeholder none size) :=
  Keeps.modifyGet fun _ before => survives.fresh _ (fun _ => ⟨rfl, rfl, rfl⟩) before

theorem newDict (value : Value) : Keeps property (Builtin.newDict value) := by
  refine Recorded.heap_keeps.bind fun heap => ?_
  have made (entries : Entries) :
      Keeps property (do
        let ref ← Recorded.allocate fun heap => heap.addDict ⟨true, entries⟩
        return Value.dict ref) :=
    (survives.addDict ⟨true, entries⟩).bind fun _ => Keeps.pure _
  dsimp only
  split
  · exact (Keeps.ofExcept _).bind made
  · exact made .empty

theorem sequence (value : Value) : Keeps property (Builtin.sequence? value) := by
  rw [Builtin.sequence?]
  split
  · exact Keeps.pure _
  · exact Recorded.heap_keeps.bind fun heap =>
      (Keeps.ofExcept (heap.iterate value)).bind fun items =>
        (survives.addList items).bind fun _ => Keeps.pure _

theorem newTensor {tensor : Ref .list → Tensor}
    (plain :
      ∀ outputs, (tensor outputs).outputs = outputs ∧
        (tensor outputs).owner = none ∧ (tensor outputs).initializer = none) :
    Keeps property (do
      let outputs ← Recorded.allocate fun heap => heap.addList []
      let ref ← Recorded.allocate fun heap => heap.addTensor (tensor outputs)
      return Value.tensor ref) :=
  fun _ before => survives.unnamed plain before

theorem rebuild (storage offset size stride requiresGrad quantizer : Value) :
    Keeps property
      (Builtin.rebuild storage offset size stride requiresGrad quantizer) := by
  refine Recorded.heap_keeps.bind fun heap => ?_
  refine (survives.sequence size).bind fun size => ?_
  refine (survives.sequence stride).bind fun stride => ?_
  refine survives.newTensor fun outputs => ?_
  cases storage with
  | _ => exact ⟨rfl, rfl, rfl⟩

theorem product (left right : Value) : Keeps property (Builtin.product left right) := by
  rw [Builtin.product]
  split
  · split
    · exact Keeps.pure _
    · exact Keeps.throw _
  · split
    · exact (survives.placeholder .none).map _
    · exact Keeps.throw _

theorem callStub (name : String) : Keeps property (Builtin.callStub name) := by
  unfold Builtin.callStub
  split
  · exact (survives.addList _).bind fun size => (survives.placeholder _).map _
  · exact ((survives.placeholder .none).map _).bind fun values =>
      ((survives.placeholder .none).map _).bind fun _ => Keeps.pure _
  · exact (survives.addList _).bind fun _ => Keeps.pure _
  · exact Keeps.pure _
  · exact Keeps.throw _

theorem run (builtin : Builtin) (values : List Value) :
    Keeps property (builtin.run values) := by
  refine Recorded.heap_keeps.bind fun heap => ?_
  split
  -- These make something; the others only look at their values.
  case h_3 => exact survives.newDict _
  case h_7 => exact (survives.placeholder .none).map _
  case h_11 =>
    have named (value : Value) :
        Keeps property (Recorded.change fun recording =>
          recording.freshName.2.addTensor recording.freshName.1
            ({ · with value := value })) :=
      Keeps.modifyGet fun _ before => survives.fresh _ (fun _ => ⟨rfl, rfl, rfl⟩) before
    exact (named _).map _
  case h_16 => exact survives.rebuild _ _ _ _ _ _
  case h_17 => exact survives.rebuild _ _ _ _ _ _
  case h_24 => exact survives.product _ _
  all_goals
    first
    | exact Keeps.pure _
    | exact Keeps.throw _
    | exact Keeps.ofExcept _
    | exact (Keeps.ofExcept _).map _

/-- Every builtin but the operators keeps what survives additions. -/
theorem call {builtin : Builtin} (plain : ∀ name, builtin ≠ .operator name)
    (positional : List Value) (keywords : List (String × Value)) :
    Keeps property (builtin.call positional keywords) := by
  rw [Builtin.call.eq_def]
  split
  case h_1 name => exact absurd rfl (plain name)
  case h_2 =>
    split
    · exact Keeps.pure _
    · exact Keeps.throw _
  case h_3 =>
    split
    · exact survives.callStub _
    · exact Keeps.throw _
  case h_4 =>
    split
    · exact survives.run _ _
    · exact Keeps.throw _

end Recording.Survives

end TorchArchive
