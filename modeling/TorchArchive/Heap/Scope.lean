import TorchArchive.Heap.Member
import TorchArchive.Text.Split

/-!
Names and scopes. A name is looked up from the innermost frame outwards; the
sub-packages among the bindings of a package give way to outer bindings of the
same name. Dotted names continue with members.
-/

namespace TorchArchive

namespace Heap

/-- Whether a value is a package below the package that a frame belongs to. -/
def isSubpackage (heap : Heap) (frame : Frame) (value : Value) : Bool :=
  match frame.package, value with
  | some owner, .package ref =>
      (owner ++ ".").toList.isPrefixOf (heap.package ref).name.toList
  | _, _ => false

/-- Looks a name up in frames, given the first sub-package met so far. -/
def search (heap : Heap) (name : String) (fallback : Value) :
    List Frame → Value
  | [] => fallback
  | frame :: rest =>
      match (heap.table frame.table).get? name with
      | none => heap.search name fallback rest
      | some value =>
          if heap.isSubpackage frame value then
            heap.search name (if fallback.isMissing then value else fallback) rest
          else value

/-- The value of a name. -/
def lookup (heap : Heap) (scope : Scope) (name : String) : Value :=
  heap.search name .missing scope.frames

/-- Binds a name in the innermost frame. -/
def bindIn (heap : Heap) (scope : Scope) (name : String) (value : Value) : Heap :=
  heap.bind scope.inner.table name value

/-! ## Dotted names -/

/-- The parts of a dotted name. -/
def nameParts (name : String) : List String := partsBetween '.' name

/-- Follows members from a value, as far as they exist. -/
def follow (heap : Heap) (value : Value) : List String → Value
  | [] => value
  | part :: rest =>
      if value.isMissing then .missing
      else heap.follow (heap.findMember value part) rest

theorem follow_missing (heap : Heap) (rest : List String) :
    heap.follow .missing rest = .missing := by
  cases rest with
  | nil => rfl
  | cons part rest => rfl

/-- The value of a dotted name. -/
def lookupQualified (heap : Heap) (scope : Scope) (name : String) : Value :=
  match nameParts name with
  | [] => .missing
  | first :: rest => heap.follow (heap.lookup scope first) rest

/-- Whether a package is made in place of a value. -/
def isVacant (value : Value) : Bool := value.isMissing || value.isNone

/-- Sets a member at the end of a path from a value, with packages made for what
the path lacks. `done` is the path so far. -/
def setPath (heap : Heap) (owner : Value) (done : String)
    (value : Value) : List String → Except Fault Heap
  | [] => .ok heap
  | [last] => heap.setMember owner last value
  | part :: rest => do
      let path := done ++ "." ++ part
      let child := heap.findMember owner part
      if isVacant child then
        let (ref, heap) := heap.addPackage path
        let heap ← heap.setMember owner part (.package ref)
        heap.setPath (.package ref) path value rest
      else heap.setPath child path value rest

/-- Binds a dotted name, with packages made for what its path lacks. -/
def bindQualified (heap : Heap) (scope : Scope) (name : String) (value : Value) :
    Except Fault Heap :=
  match nameParts name with
  | [] => .ok heap
  | [single] => .ok (heap.bindIn scope single value)
  | first :: rest =>
      let owner := heap.lookup scope first
      if isVacant owner then
        let (ref, heap) := heap.addPackage first
        (heap.bindIn scope first (.package ref)).setPath (.package ref) first value
          rest
      else heap.setPath owner first value rest

/-- Binds a name that is given in its parts, with packages made for what its path lacks. -/
def bindPath (heap : Heap) (scope : Scope) (value : Value) : List String → Except Fault Heap
  | [] => .ok heap
  | [single] => .ok (heap.bindIn scope single value)
  | first :: rest =>
      let owner := heap.lookup scope first
      if isVacant owner then
        let (ref, heap) := heap.addPackage first
        (heap.bindIn scope first (.package ref)).setPath (.package ref) first value
          rest
      else heap.setPath owner first value rest

theorem bindQualified_eq_bindPath (heap : Heap) (scope : Scope) (name : String)
    (value : Value) :
    heap.bindQualified scope name value = heap.bindPath scope value (nameParts name) := by
  rw [bindQualified]
  cases nameParts name with
  | nil => rfl
  | cons first rest =>
      cases rest with
      | nil => rfl
      | cons next rest => rfl

end Heap

end TorchArchive
