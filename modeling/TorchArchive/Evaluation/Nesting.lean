import TorchArchive.Evaluation.Package
import TorchArchive.Pickle.Load

/-!
Calls that nest. Evaluation leaves the code at hand through `Calls`; here the calls
are given by evaluation itself, down to a depth at which they fail.
-/

namespace TorchArchive

/-- The constants of an archive, read when they are first asked for. While they are
read, and after they could not be read, there are none. -/
def loadConstants (sources : Sources) (calls : Calls) : Run (List Value) := do
  match (← get).constants with
  | some constants => return constants
  | none =>
      let keep (constants : List Value) : Run Unit :=
        modify fun machine => { machine with constants := some constants }
      keep []
      match sources.constants with
      | none => return []
      | some data =>
          let table ← Pickle.load calls sources.constantStorages data
          let constants ← ofExcept ((← Run.heap).iterate table)
          keep constants
          return constants

/-- The calls that nest no deeper than a depth. -/
def Calls.within (sources : Sources) : Nat → Calls
  | 0 => .exhausted
  | depth + 1 =>
      let inner := within sources depth
      { apply := applyFunction inner
        package := loadPackage sources inner
        constants := loadConstants sources inner }

/-- The depth to which calls nest. -/
def Calls.depthLimit : Nat := 195

/-- The calls of archive code. -/
def Calls.of (sources : Sources) : Calls := within sources depthLimit

end TorchArchive
