/-!
The input of a reader of pickled streams. A frame holds the instructions that belong
together: what a reader asks for lies in the frame as a whole, or else behind it,
and then the rest of the frame is given up. Only long contents go on behind it.
Without a frame, what stands in front is what is taken (`take?_ofBytes_append`,
`takeLine?_ofBytes_append`).
-/

namespace TorchArchive.Pickle

/-- The bytes that were not read yet: those of the open frame and those behind it. -/
structure Input where
  frame : List UInt8
  behind : List UInt8

namespace Input

/-- The input before a stream is read: no frame is open. -/
def ofBytes (bytes : List UInt8) : Input := ⟨[], bytes⟩

private def splitAt? (count : Nat) (bytes : List UInt8) :
    Option (List UInt8 × List UInt8) :=
  let taken := bytes.take count
  if taken.length < count then none else some (taken, bytes.drop count)

private def splitLine? (bytes : List UInt8) : Option (List UInt8 × List UInt8) :=
  match bytes.dropWhile (· != 10) with
  | _ :: rest => some (bytes.takeWhile (· != 10), rest)
  | [] => none

/-- Takes from the frame if it holds what is asked for, else from behind it. -/
private def takeBy (split : List UInt8 → Option (List UInt8 × List UInt8))
    (input : Input) : Option (List UInt8 × Input) :=
  match split input.frame with
  | some (taken, frame) => some (taken, { input with frame })
  | none => (split input.behind).map fun (taken, behind) => (taken, ⟨[], behind⟩)

/-- Takes so many bytes. -/
def take? (count : Nat) : Input → Option (List UInt8 × Input) := takeBy (splitAt? count)

/-- Takes the bytes up to the end of the line, which is dropped. -/
def takeLine? : Input → Option (List UInt8 × Input) := takeBy splitLine?

/-- Takes so many bytes, first those of the frame and then those behind it. -/
def takeThrough? (count : Nat) (input : Input) : Option (List UInt8 × Input) :=
  let first := input.frame.take count
  (splitAt? (count - first.length) input.behind).map fun (rest, behind) =>
    (first ++ rest, ⟨input.frame.drop count, behind⟩)

/-- Opens a frame of so many bytes. If the open frame has as many left, it stays. -/
def openFrame? (count : Nat) (input : Input) : Option Input :=
  if count ≤ input.frame.length then some input
  else (splitAt? count input.behind).map fun (frame, behind) => ⟨frame, behind⟩

/-! ## Streams without frames -/

private theorem splitAt?_append {front rest : List UInt8} {count : Nat}
    (width : front.length = count) : splitAt? count (front ++ rest) = some (front, rest) := by
  subst width
  simp [splitAt?]

private theorem splitLine?_append {line : List UInt8} (rest : List UInt8)
    (unbroken : 10 ∉ line) : splitLine? (line ++ 10 :: rest) = some (line, rest) := by
  have passes : ∀ byte ∈ line, (byte != 10) = true := by
    intro byte member
    have different : byte ≠ 10 := fun equality => unbroken (equality ▸ member)
    simpa using different
  simp [splitLine?, List.takeWhile_append_of_pos passes, List.dropWhile_append_of_pos passes]

theorem take?_ofBytes_append {front : List UInt8} (rest : List UInt8) {count : Nat}
    (width : front.length = count) :
    (ofBytes (front ++ rest)).take? count = some (front, ofBytes rest) := by
  cases front with
  | nil =>
      subst width
      rfl
  | cons first others =>
      have absent : splitAt? count [] = none := by
        subst width
        simp [splitAt?]
      simp only [take?, takeBy, ofBytes, absent, splitAt?_append width, Option.map_some]

theorem takeLine?_ofBytes_append {line : List UInt8} (rest : List UInt8)
    (unbroken : 10 ∉ line) :
    (ofBytes (line ++ 10 :: rest)).takeLine? = some (line, ofBytes rest) := by
  have absent : splitLine? [] = none := rfl
  simp only [takeLine?, takeBy, ofBytes, absent, splitLine?_append rest unbroken,
    Option.map_some]

end Input

end TorchArchive.Pickle
