import TorchArchive.Heap.Snapshot

/-!
Values as sequences: what going through them yields and what stands at an index.
-/

namespace TorchArchive

namespace Heap

/-- The values that going through a value yields. -/
def iterate? (heap : Heap) : Value → Option (List Value)
  | .list ref => some (heap.list ref)
  | .tuple items | .set _ items => some items
  | .dict ref => some ((heap.dict ref).entries.pairs.map (·.1))
  | .atom (.str s) => some (s.toList.map fun c => .str (String.ofList [c]))
  | .atom (.bytes data) | .atom (.byteArray data) =>
      some (data.toList.map fun byte => .int byte.toNat)
  | _ => none

/-- The values that going through a value yields, which has to be possible. -/
def iterate (heap : Heap) (value : Value) : Except Fault (List Value) :=
  match heap.iterate? value with
  | some items => .ok items
  | none => .error (.type s!"'{heap.typeName value}' object is not iterable")

/-- The position that an index denotes: negative ones count from the end. -/
def position? (size : Nat) (index : Int) : Option Nat :=
  if 0 ≤ index then
    if index < size then some index.toNat else none
  else if 0 ≤ index + size then some (index + size).toNat
  else none

/-- The value at an index of a sequence. -/
def at? (items : List Value) (index : Value) : Option Value := do
  let n ← match index with
    | .atom a => a.integer?
    | _ => none
  let position ← position? items.length n
  items[position]?

/-- The value under a key or at an index. -/
def item? (heap : Heap) (target index : Value) : Option Value :=
  match target with
  | .dict ref => do
      let key ← index.key?
      let entry ← (heap.dict ref).entries.get? key
      return entry.2
  | .set _ _ => none
  | target => do at? (← heap.iterate? target) index

/-! ## Initializers -/

/-- The element type and the data of the storage that a value is. -/
def storageParts (heap : Heap) :
    Value → Except Fault (Option String × Option ByteArray)
  | .atom .none => .ok (none, none)
  | .storage ref =>
      let storage := heap.storage ref
      .ok (some storage.dataType, storage.data)
  | value => .error (.member s!"'{heap.typeName value}' is not a storage")

/-- The view of a tensor's data. -/
def initializer (heap : Heap) (ref : Ref .tensor) (displayLimit : Datum) :
    Except Fault Initializer := do
  let tensor := heap.tensor ref
  let (dataType, data) ← heap.storageParts tensor.storage
  let dims ←
    if tensor.size.isNone then pure none
    else (heap.iterate tensor.size).map fun items => some (items.map heap.snapshot)
  return {
    name := tensor.name
    dataType, dims, data
    offset :=
      if heap.truthy tensor.offset then heap.snapshot tensor.offset else .int 0
    displayLimit }

end Heap

end TorchArchive
