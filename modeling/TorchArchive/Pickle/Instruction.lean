import TorchArchive.Atom
import TorchArchive.Fault

/-!
Instructions of pickled object trees. They build objects on a stack; a memory keeps
those that are needed again.
-/

namespace TorchArchive.Pickle

open TorchArchive

/-- An instruction. -/
inductive Instruction where
  /-- Ends the stream with the object on top. -/
  | stop
  /-- Begins a group of objects. -/
  | mark
  | pop
  | popGroup
  | duplicate
  | push (value : Atom)
  | emptyList
  | emptyDict
  | emptyTuple
  | emptySet
  /-- Lists, dictionaries, tuples and frozen sets of a group. -/
  | listOfGroup
  | dictOfGroup
  | tupleOfGroup
  | frozenSetOfGroup
  | tupleOf (size : Nat)
  | append
  | appendGroup
  | setItem
  | setItemsOfGroup
  | addItemsOfGroup
  /-- What a name in a module stands for. -/
  | global (module name : String)
  | globalOnStack
  /-- Makes an object of a class in a module with arguments, if the names could be
  read. -/
  | instantiate (names : Except Fault (String × String))
  | instantiateGroup
  | newObject
  | newObjectWithKeywords
  | call
  /-- Gives an object its state. -/
  | build
  | persistent (id : String)
  | persistentOnStack
  | recall (index : Int)
  /-- Keeps the object on top, if the index could be read. -/
  | keep (index : Except Fault Nat)
  | keepNext
  | makeReadOnly
  /-- Passes over what does not concern the objects. -/
  | skip
  /-- Fails: the stream cannot be read from here on. -/
  | broken (fault : Fault)

end TorchArchive.Pickle
