import TorchArchive.Proofs.Package.Failure

/-!
# The course of a load

A stream is loaded instruction by instruction, and the code that its instructions run is
evaluated piece by piece, at some depth.  What no such step ends holds at every point of a
load, and not only behind it.
-/

namespace TorchArchive.Machine

/-- What may happen between two points of a load: a step of it, or of the code that it runs,
or anything else that is done with an interpreter, whether it succeeds or fails. -/
inductive Advances (sources : Sources) (before : Machine) : Machine → Prop where
  | leads {after : Machine} (leads : before.Leads sources after) : Advances sources before after
  | instruction (depth : Nat) (contents : Table String ByteArray)
      (instruction : Pickle.Instruction) (loading : Pickle.Loading) :
      Advances sources before
        (stateAfter (Pickle.execute (Calls.within sources depth) contents instruction loading)
          before)
  | expression (depth : Nat) (scope : Scope) (expression : Expr) :
      Advances sources before
        (stateAfter (evaluate (Calls.within sources depth) scope expression) before)
  | block (depth : Nat) (scope : Scope) (body : List Stmt) :
      Advances sources before
        (stateAfter (runBlock (Calls.within sources depth) scope body) before)
  | package (depth : Nat) (name : String) (file : Option String) :
      Advances sources before
        (stateAfter ((Calls.within sources depth).package name file) before)
  | constants (depth : Nat) :
      Advances sources before (stateAfter (Calls.within sources depth).constants before)

/-- Any number of such steps. -/
abbrev AdvancesOn (sources : Sources) : Machine → Machine → Prop :=
  Relation.ReflTransGen (Advances sources)

variable {sources : Sources} {before after : Machine} {property : Machine → Prop}

theorem Endures.advances (endures : Endures sources property)
    (advances : before.Advances sources after) (holds : property before) : property after := by
  have keep := endures.callsWithin sources
  cases advances with
  | leads leads => exact endures.leads leads holds
  | instruction depth contents instruction loading =>
      exact Pickle.keeps_of_loadKeeps (endures.instruction (keep depth) contents instruction)
        loading before holds
  | expression depth scope expression =>
      exact endures.evaluate (keep depth) scope expression before holds
  | block depth scope body =>
      exact endures.runBlock (keep depth) (fun _ _ => trivial) before holds
  | package depth name file => exact (keep depth).package name file before holds
  | constants depth => exact (keep depth).constants before holds

/-- What no step ends holds at every later point. -/
theorem Endures.advancesOn (endures : Endures sources property)
    (advances : AdvancesOn sources before after) (holds : property before) : property after := by
  induction advances with
  | refl => exact holds
  | tail _ step inductionHypothesis => exact endures.advances step inductionHypothesis

end TorchArchive.Machine
