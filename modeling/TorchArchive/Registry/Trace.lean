import TorchArchive.Heap.Snapshot
import TorchArchive.Text.Split

/-!
Traces: the calls of operators in the order in which they were made. Each tensor
that flows through a call has a name; names are numbers that are never used
twice.
-/

namespace TorchArchive

/-- A tensor that flows into a call. -/
structure TraceArgument where
  id : String
  tensor : Ref .tensor
  initializer : Option Initializer

/-- A recorded call. -/
structure TraceNode where
  operator : String
  qualifiedName : String
  inputs : List (List TraceArgument)
  outputs : List String
  attributes : List (String × Value)
  /-- The place of the module that was folded into the call. -/
  module : Option Nat

instance : Inhabited TraceNode := ⟨⟨"", "", [], [], [], none⟩⟩

/-- The calls so far, the tensors that were given names on the way, and the number
of names given. -/
structure Trace where
  nodes : List TraceNode
  identified : List (Ref .tensor)
  names : Nat
  deriving Inhabited

namespace Trace

def empty : Trace := ⟨[], [], 0⟩

/-- Forgets the calls; names stay used. -/
def reset (trace : Trace) : Trace := ⟨[], [], trace.names⟩

end Trace

/-- A heap with a trace of what flows through its tensors. -/
structure Recording where
  heap : Heap
  trace : Trace
  deriving Inhabited

namespace Recording

/-- A name that was not used before. -/
def freshName (recording : Recording) : String × Recording :=
  let names := recording.trace.names + 1
  (integerText names, { recording with trace := { recording.trace with names } })

/-- A new tensor out of which one value flows. -/
def addTensor (recording : Recording) (name : String) (change : Tensor → Tensor) :
    Ref .tensor × Recording :=
  let (outputs, heap) := recording.heap.addList [.str name]
  let (ref, heap) := heap.addTensor (change (.blank outputs))
  (ref, { recording with heap })

/-- A tensor that stands for a value which is not computed. -/
def placeholder (recording : Recording) (name : Option String) (size : Value) :
    Ref .tensor × Recording :=
  match name with
  | some name => recording.addTensor name ({ · with size })
  | none =>
      let (name, recording) := recording.freshName
      recording.addTensor name ({ · with size })

/-- The name of what flows out of a tensor; one without gets a fresh name. -/
def identify (recording : Recording) (ref : Ref .tensor) : String × Recording :=
  match recording.heap.list (recording.heap.tensor ref).outputs with
  | first :: _ => (recording.heap.text first, recording)
  | [] =>
      let (name, recording) := recording.freshName
      let (outputs, heap) := recording.heap.addList [.str name]
      let heap := heap.updateTensor ref ({ · with outputs })
      let trace := recording.trace
      (name, ⟨heap, { trace with identified := trace.identified ++ [ref] }⟩)

/-- Names of several tensors, from the first to the last. -/
def identifyAll (recording : Recording) :
    List (Ref .tensor) → List String × Recording
  | [] => ([], recording)
  | ref :: rest =>
      let (name, recording) := recording.identify ref
      let (names, recording) := recording.identifyAll rest
      (name :: names, recording)

def arguments (recording : Recording) (refs : List (Ref .tensor)) :
    List TraceArgument × Recording :=
  let (names, recording) := recording.identifyAll refs
  ((names.zip refs).map fun (id, tensor) => ⟨id, tensor, none⟩, recording)

/-- The tensors that an argument of a call stands for: one, or a list of them. -/
def tensorsOf (heap : Heap) (value : Value) : Option (List (Ref .tensor)) :=
  match value with
  | .tensor ref => some [ref]
  | value =>
      match heap.tensors? value with
      | some (ref :: rest) => some (ref :: rest)
      | _ => none

/-- The inputs of a call: the leading arguments that are tensors or lists of
tensors. -/
def inputs (recording : Recording) :
    List Value → List (List TraceArgument) × Recording
  | [] => ([], recording)
  | value :: rest =>
      match tensorsOf recording.heap value with
      | none => ([], recording)
      | some refs =>
          let (first, recording) := recording.arguments refs
          let (others, recording) := recording.inputs rest
          (first :: others, recording)

/-- What stands behind the last point of a dotted name. -/
def lastPart (name : String) : String := (partsBetween '.' name).getLast?.getD name

/-- Records the call of an operator and gives the tensor that it returns. -/
def call (recording : Recording) (qualifiedName : String) (positional : List Value)
    (keywords : List (String × Value)) : Ref .tensor × Recording :=
  let (output, recording) := recording.placeholder none .none
  let (inputs, recording) := recording.inputs positional
  let (outputs, recording) := recording.identifyAll [output]
  let node : TraceNode :=
    ⟨lastPart qualifiedName, qualifiedName, inputs, outputs, keywords, none⟩
  let trace := recording.trace
  (output, { recording with trace := { trace with nodes := trace.nodes ++ [node] } })

/-- Takes the names back that were given to tensors, and forgets the calls. -/
def rollback (recording : Recording) : Recording :=
  let heap := recording.trace.identified.foldl
    (fun heap ref =>
      let (outputs, heap) := Heap.addList heap []
      heap.updateTensor ref ({ · with outputs }))
    recording.heap
  ⟨heap, recording.trace.reset⟩

/-- Forgets the calls. -/
def reset (recording : Recording) : Recording :=
  { recording with trace := recording.trace.reset }

end Recording

end TorchArchive
