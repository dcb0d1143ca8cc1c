import Std.Data.HashMap
import TorchArchive.Value

/-!
The stack on which pickled objects are built. Marks divide it into segments; objects
are only taken from the segment above the last mark. A memory keeps the objects
that are needed again, under numbers.
-/

namespace TorchArchive.Pickle

open TorchArchive

/-- The objects above the last mark and those of the segments below, each with its
top first, and the memory. -/
structure Stack where
  top : List Value
  below : List (List Value)
  memory : Std.HashMap Nat Value

namespace Stack

def empty : Stack := ⟨[], [], ∅⟩

/-- Puts an object on top. -/
def push (stack : Stack) (value : Value) : Stack :=
  { stack with top := value :: stack.top }

/-- Takes the object on top. -/
def pop? (stack : Stack) : Option (Value × Stack) :=
  match stack.top with
  | value :: rest => some (value, { stack with top := rest })
  | [] => none

/-- Takes so many objects, the deepest of them first. -/
def take? (stack : Stack) (count : Nat) : Option (List Value × Stack) :=
  if stack.top.length < count then none
  else
    some ((stack.top.take count).reverse,
      { stack with top := stack.top.drop count })

/-- Begins a segment. -/
def mark (stack : Stack) : Stack :=
  { stack with top := [], below := stack.top :: stack.below }

/-- Takes the objects above the last mark, the deepest first, and the mark. -/
def group? (stack : Stack) : Option (List Value × Stack) :=
  match stack.below with
  | segment :: rest =>
      some (stack.top.reverse, { stack with top := segment, below := rest })
  | [] => none

/-- Drops the object on top, or the mark if there is nothing above it. -/
def drop? (stack : Stack) : Option Stack :=
  match stack.top, stack.below with
  | _ :: rest, _ => some { stack with top := rest }
  | [], segment :: rest => some { stack with top := segment, below := rest }
  | [], [] => none

/-- Keeps the object on top under a number. -/
def keep? (stack : Stack) (index : Nat) : Option Stack :=
  stack.top.head?.map fun value =>
    { stack with memory := stack.memory.insert index value }

/-- The object kept under a number. -/
def fetch? (stack : Stack) (index : Int) : Option Value :=
  match index with
  | .ofNat n => stack.memory[n]?
  | .negSucc _ => none

end Stack

end TorchArchive.Pickle
