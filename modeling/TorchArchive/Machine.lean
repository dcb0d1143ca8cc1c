import TorchArchive.Event
import TorchArchive.Registry.Bindings
import TorchArchive.Registry.Builtins
import TorchArchive.Script.Program

/-!
The state in which archive code runs, and the steps that change it.
-/

namespace TorchArchive

/-- What archive code can change: the heap with its trace, the packages that were
loaded, the table of constants once it was asked for, the files that were asked
for and the events that were reported. -/
structure Machine where
  recording : Recording
  /-- The outermost scope, which holds the builtins. -/
  root : Scope
  packages : Table String (Ref .package)
  constants : Option (List Value)
  requests : List String
  events : List Event
  deriving Inhabited

namespace Machine

/-- The state before any code ran. -/
def initial : Machine :=
  let (heap, root) := Registry.initial
  ⟨⟨heap, .empty⟩, root, .empty, none, [], []⟩

/-- The same state, which can be computed without taking names apart. -/
theorem initial_eq :
    initial = ⟨⟨Registry.assembled.1, .empty⟩, Registry.assembled.2, .empty, none, [], []⟩ := by
  rw [initial, Registry.initial_eq]

def heap (machine : Machine) : Heap := machine.recording.heap

def trace (machine : Machine) : Trace := machine.recording.trace

end Machine

/-- What code is run from: the programs of source files, and the stored constants
with their storages. -/
structure Sources where
  program : String → Except Fault Program
  constants : Option ByteArray
  constantStorages : Table String ByteArray

/-- A step of archive code, which may fail. -/
abbrev Run := EStateM Fault Machine

namespace Run

/-- The heap. -/
def heap : Run Heap := do return (← get).heap

/-- The outermost scope. -/
def root : Run Scope := do return (← get).root

/-- A change of the heap that yields something. -/
def allocate (step : Heap → α × Heap) : Run α :=
  modifyGet fun machine =>
    let (a, heap) := step machine.recording.heap
    (a, { machine with recording := { machine.recording with heap } })

/-- A change of the heap. -/
def modifyHeap (step : Heap → Heap) : Run Unit := allocate fun heap => ((), step heap)

/-- A change of the heap that may fail, in which case nothing changes. -/
def tryHeap (step : Heap → Except Fault Heap) : Run Unit := do
  let heap ← ofExcept (step (← heap))
  modifyHeap fun _ => heap

/-- A change of the heap and the trace. -/
def record (step : Recording → α × Recording) : Run α :=
  modifyGet fun machine =>
    let (a, recording) := step machine.recording
    (a, { machine with recording })

/-- A step of a builtin. -/
def recorded (step : Recorded α) : Run α := fun machine =>
  match step machine.recording with
  | .ok a recording => .ok a { machine with recording }
  | .error fault recording => .error fault { machine with recording }

/-- Reports an event. -/
def report (event : Event) : Run Unit :=
  modify fun machine => { machine with events := machine.events ++ [event] }

/-- The value of a name. -/
def lookup (scope : Scope) (name : String) : Run Value := do
  return (← heap).lookup scope name

/-- Binds a name in the innermost frame. -/
def bind (scope : Scope) (name : String) (value : Value) : Run Unit :=
  modifyHeap fun heap => heap.bindIn scope name value

/-- A new list. -/
def newList (items : List Value) : Run Value :=
  .list <$> allocate fun heap => heap.addList items

end Run

end TorchArchive
