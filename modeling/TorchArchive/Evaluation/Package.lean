import TorchArchive.Evaluation.Block

/-!
Packages of archive code. A package is loaded once, when it is first needed; it is
known from the beginning of its load on, so that packages can refer to each other.
-/

namespace TorchArchive

/-- The name under which a package knows its file. -/
def fileKey : String := "__file__"

/-- The file that the code of a package is kept in. -/
def packageFile (name : String) : String :=
  "code/" ++ "/".intercalate (Heap.nameParts name) ++ ".py"

/-- The program of a file, which counts as asked for. -/
def requestProgram (sources : Sources) (file : String) : Run Program := do
  modify fun machine => { machine with requests := machine.requests ++ [file] }
  ofExcept (sources.program file)

/-- The package that is bound to a name, or a new one that gets bound to it. -/
def claimPackage (name : String) : Run (Ref .package) := do
  let root ← Run.root
  match (← Run.heap).lookupQualified root name with
  | .package ref => return ref
  | _ =>
      let ref ← Run.allocate fun heap => heap.addPackage name
      Run.tryHeap fun heap => heap.bindQualified root name (.package ref)
      return ref

/-- The file of a package: one that is named, or the one that its code is kept in. -/
def sourceFile (name : String) (file : Option String) : String :=
  match file with
  | some file => if file.isEmpty then packageFile name else file
  | none => packageFile name

/-- Makes a package known and gives it with the scope of its code. -/
def enterPackage (name file : String) : Run (Ref .package × Scope) := do
  let ref ← claimPackage name
  Run.modifyHeap fun heap => heap.updatePackage ref ({ · with file := some file })
  modify fun machine => { machine with packages := machine.packages.insert name ref }
  let package := (← Run.heap).package ref
  Run.modifyHeap fun heap =>
    (heap.bind package.members moduleNameKey (.str name)).bind package.members
      fileKey (.str file)
  return (ref, (← Run.root).pushPackage package.members package.name)

/-- Loads a package unless it is loaded already. -/
def loadPackage (sources : Sources) (calls : Calls) (name : String)
    (file : Option String) : Run (Ref .package) := do
  match (← get).packages.get? name with
  | some ref => return ref
  | none =>
      let file := sourceFile name file
      let program ← requestProgram sources file
      let entered ← enterPackage name file
      let _ ← runBlock calls entered.2 program.body
      return entered.1

/-! ## Qualified names -/

/-- The part of a dotted name in front of its last point, and the part behind. -/
def splitLast (name : String) : String × String :=
  let parts := Heap.nameParts name
  (".".intercalate parts.dropLast, parts.getLast?.getD "")

/-- The value of a qualified name: a builtin, or a class or function of a package,
which is loaded if need be. -/
def resolve (calls : Calls) (name : String) : Run Value := do
  let value := (← Run.heap).lookupQualified (← Run.root) name
  if !value.isMissing then return value
  else
    let (owner, member) := splitLast name
    if owner.isEmpty then return .missing
    else
      let ref ← calls.package owner none
      let heap ← Run.heap
      return ((heap.table (heap.package ref).members).get? member).getD .missing

/-- Calls what a qualified name stands for, or a stand-in. -/
def invoke (calls : Calls) (name : String) (arguments : List Value) : Run Value := do
  let target ← resolve calls name
  if target.isMissing then callStub name
  else callValue calls target none arguments []

/-! ## Tracing -/

/-- What tracing a function yields: the names of what flows in and out, and the
calls in between. -/
structure TraceResult where
  inputs : List String
  outputs : List String
  nodes : List TraceNode

/-- The tensors in a value, through lists and tuples. -/
def tensorsIn (heap : Heap) : Nat → Value → Except Fault (List (Ref .tensor))
  | 0, _ => .error .depth
  | fuel + 1, value =>
      match value with
      | .tensor ref => .ok [ref]
      | value =>
          match heap.items? value with
          | some items => do
              return (← items.mapM (tensorsIn heap fuel)).flatten
          | none => .ok []

/-- New placeholders for the parameters of a function, but for the receiver. -/
def placeholders : List String → Run (List Value)
  | [] => pure []
  | name :: rest => do
      let ref ← Run.record fun recording => recording.placeholder (some name) .none
      return .tensor ref :: (← placeholders rest)

/-- Forgets what was recorded, and makes placeholders for the parameters of a
function. -/
def startTrace (ref : Ref .function) : Run (List String × List Value) := do
  Run.record fun recording => ((), recording.reset)
  let heap ← Run.heap
  let parameters := (heap.list (heap.function ref).parameters).filterMap Value.str?
  let inputs := parameters.filter (· != "self")
  return (inputs, ← placeholders inputs)

/-- Runs a function on placeholders for its parameters and records its calls. A
fault of the code takes the record back. -/
def traceFunction (calls : Calls) (receiver : Option Value) (function : Value) :
    Run TraceResult := do
  match function with
  | .function ref =>
      let started ← startTrace ref
      let value ← tryCatch (calls.apply ref receiver started.2) fun fault => do
        if fault.isScriptFault then
          Run.record fun recording => ((), recording.rollback)
        throw fault
      let tensors ← ofExcept (tensorsIn (← Run.heap) Heap.nestingLimit value)
      let outputs ← Run.record fun recording => recording.identifyAll tensors
      return ⟨started.1, outputs, (← get).trace.nodes⟩
  | _ => throw .entryPointNotFunction

end TorchArchive
