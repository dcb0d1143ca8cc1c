import TorchArchive.Initializer.ElementType
import TorchArchive.Number.Reading
import TorchArchive.Pickle.Input
import TorchArchive.Pickle.Instruction
import TorchArchive.Script.Token

/-!
Reading pickled streams: bytes to instructions. A stream that breaks off or holds
what cannot be read ends in the instruction that says so.
-/

namespace TorchArchive.Pickle

open TorchArchive

private def truncated : Fault := .pickle "pickle data was truncated"

/-! ## Operands -/

private def orTruncated : Option α → Except Fault α
  | some a => .ok a
  | none => .error truncated

/-- Takes so many bytes. -/
private def takeBytes (count : Nat) (input : Input) :
    Except Fault (List UInt8 × Input) :=
  orTruncated (input.take? count)

/-- Takes a line, which has to end. -/
private def takeLine (input : Input) : Except Fault (List UInt8 × Input) :=
  orTruncated input.takeLine?

/-- Takes a line that is not empty. -/
private def takeFullLine (input : Input) : Except Fault (List UInt8 × Input) :=
  match takeLine input with
  | .ok ([], _) => .error truncated
  | result => result

/-- Takes an unsigned number of so many bytes. -/
private def takeNat (width : Nat) (input : Input) : Except Fault (Nat × Input) :=
  (takeBytes width input).map fun (bytes, rest) => (littleEndian bytes, rest)

/-- Takes a signed number of so many bytes. -/
private def takeInt (width : Nat) (input : Input) : Except Fault (Int × Input) :=
  (takeNat width input).map fun (word, rest) =>
    (twosComplement (8 * width) word, rest)

/-- The largest size of an operand. -/
private def sizeLimit : Nat := 0x8000000000000000

/-- Takes the number of the bytes that follow. -/
private def takeSize (width : Nat) (input : Input) : Except Fault (Nat × Input) := do
  let (size, rest) ← takeNat width input
  if sizeLimit ≤ size then throw .overflow else return (size, rest)

/-- Takes bytes behind their number. -/
private def takeCounted (width : Nat) (input : Input) :
    Except Fault (List UInt8 × Input) := do
  let (size, rest) ← takeSize width input
  takeBytes size rest

/-- Takes bytes behind their number, also those that no frame holds as a whole. -/
private def takeContent (width : Nat) (input : Input) :
    Except Fault (List UInt8 × Input) := do
  let (size, rest) ← takeSize width input
  orTruncated (rest.takeThrough? size)

/-- Takes bytes behind their number, which must not be negative. -/
private def takeSignedCounted (input : Input) :
    Except Fault (List UInt8 × Input) := do
  let (size, rest) ← takeInt 4 input
  if size < 0 then throw (.pickle "negative byte count")
  else takeBytes size.toNat rest

/-! ## Texts -/

private def toChars (bytes : List UInt8) : List Char :=
  bytes.map fun byte => Char.ofNat byte.toNat

private def isAscii (bytes : List UInt8) : Bool := bytes.all (· < 0x80)

private def asciiText (bytes : List UInt8) : Except Fault String :=
  if isAscii bytes then .ok (String.ofList (toChars bytes)) else .error .encoding

private def utf8Text (bytes : List UInt8) : Except Fault String :=
  match String.fromUTF8? ⟨bytes.toArray⟩ with
  | some text => .ok text
  | none => .error .encoding

/-- Whether a text ends in a backslash that is not itself escaped. -/
private def endsInBackslash : List Char → Bool
  | '\\' :: _ :: rest => endsInBackslash rest
  | ['\\'] => true
  | _ :: rest => endsInBackslash rest
  | [] => false

/-- The text between quotes in a line. -/
private def unquote (line : List UInt8) : Except Fault (List UInt8) :=
  match line with
  | quote :: rest =>
      if (quote == 0x27 || quote == 0x22) && rest.getLast? == some quote then
        .ok rest.dropLast
      else .error (.pickle "the STRING opcode argument must be quoted")
  | [] => .error (.pickle "the STRING opcode argument must be quoted")

/-- The text of a quoted line with escapes. -/
private def quotedLine (line : List UInt8) : Except Fault String := do
  let body ← unquote line
  if endsInBackslash (toChars body) then throw (.value "Trailing \\ in string")
  else if !isAscii body then throw .encoding
  else
    match Script.decodeBytes false (toChars body) with
    | some bytes => asciiText bytes.toList
    | none => throw (.value "invalid \\x escape")

private def hexWorth (digits : List Char) : Option Nat :=
  digits.foldlM (fun n c => (hexValue? c).map fun d => 16 * n + d) 0

/-- Resolves the escapes of code points, the only ones that count in a plain
line. -/
private def plainLine : Nat → List Char → Except Fault (List Char)
  | 0, _ => .error .encoding
  | _ + 1, [] => .ok []
  | fuel + 1, '\\' :: c :: rest =>
      if c == 'u' || c == 'U' then
        let width := if c == 'u' then 4 else 8
        if rest.length < width then .error .encoding
        else
          match hexWorth (rest.take width) with
          | some code =>
              if 0x10ffff < code then .error .encoding
              else (plainLine fuel (rest.drop width)).map (Char.ofNat code :: ·)
          | none => .error .encoding
      else (plainLine fuel rest).map fun found => '\\' :: c :: found
  | fuel + 1, c :: rest => (plainLine fuel rest).map (c :: ·)

/-! ## Numbers -/

private def unreadableNumber : Fault := .value "invalid literal for a number"

/-- The most bytes of a line that are shown where it holds no integer. -/
private def shownLimit : Nat := 200

/-- Refuses a line that holds no integer: what is shown of it has to be text. -/
private def refuseLine (line : List UInt8) : Fault :=
  match utf8Text ((line.takeWhile (· != 0)).take shownLimit) with
  | .ok _ => unreadableNumber
  | .error fault => fault

/-- The text of the number in a line. A zero byte ends it; blanks and digits are
those of ASCII. -/
private def numberText? (line : List UInt8) : Option (List Char) :=
  let bytes := line.takeWhile (· != 0)
  if bytes.any fun byte => 0x80 ≤ byte || (0x1c ≤ byte && byte < 0x20) then none
  else some (toChars bytes)

/-- The base that a prefix of digits tells, and the digits. -/
private def basedDigits : List Char → Option (Nat × List Char)
  | '0' :: x :: rest =>
      if x == 'x' || x == 'X' then some (16, rest)
      else if x == 'o' || x == 'O' then some (8, rest)
      else if x == 'b' || x == 'B' then some (2, rest)
      else none
  | _ => none

private def worthIn (base : Nat) (digits : List Char) : Option Nat :=
  if digits.isEmpty then none
  else digits.foldlM
    (fun n c =>
      match hexValue? c with
      | some d => if d < base then some (base * n + d) else none
      | none => none)
    0

private def splitSign : List Char → Bool × List Char
  | '-' :: rest => (true, rest)
  | '+' :: rest => (false, rest)
  | text => (false, text)

private def signed (negative : Bool) (n : Nat) : Int :=
  if negative then -(n : Int) else n

/-- Whether a number fits in a machine word. -/
private def isWord (n : Int) : Bool := -0x8000000000000000 ≤ n && n < 0x8000000000000000

/-- Reads a machine word: digits to the base sixteen behind `0x`, to the base eight
behind another zero. Blanks may stand in front only, and no text at all is zero. -/
private def readWord? (text : List Char) : Option Int :=
  if text.isEmpty then some 0
  else
    let (negative, body) := splitSign (text.dropWhile isBlank)
    let worth :=
      match body with
      | '0' :: c :: rest =>
          if c == 'x' || c == 'X' then worthIn 16 rest else worthIn 8 (c :: rest)
      | _ => worthIn 10 body
    (worth.map (signed negative)).filter isWord

/-- Drops single underscores, each of which stands in front of another character. -/
private def dropUnderscores? : List Char → Option (List Char)
  | [] => some []
  | ['_'] => none
  | '_' :: c :: rest =>
      if c == '_' then none else (dropUnderscores? rest).map (c :: ·)
  | c :: rest => (dropUnderscores? rest).map (c :: ·)

/-- Reads an integer whose prefix may tell its base. A decimal one begins with a zero
only if it is zero. -/
private def readBased (text : List Char) : Option Int :=
  let (negative, body) := splitSign (stripBlanks text)
  match basedDigits body with
  | some (base, digits) =>
      (dropUnderscores? digits >>= worthIn base).map (signed negative)
  | none =>
      (readInteger? (String.ofList text)).filter fun n =>
        n == 0 || body.head? != some '0'

/-- The value of a line that holds an integer. A machine word of two characters that
is zero or one is a truth value. -/
private def integerLine (line : List UInt8) : Except Fault Atom :=
  match numberText? line with
  | some text =>
      match readWord? text, readBased text with
      | some n, _ =>
          if line.length = 2 ∧ (n = 0 ∨ n = 1) then .ok (.bool (n == 1)) else .ok (.int n)
      | none, some n => .ok (.int n)
      | none, none => .error unreadableNumber
  | none => .error unreadableNumber

/-- The letter L. -/
private def longMark : UInt8 := 0x4c

/-- The value of a line that holds an integer, perhaps marked as long. -/
private def longLine (line : List UInt8) : Except Fault Atom :=
  let digits := if line.getLast? == some longMark then line.dropLast else line
  match numberText? digits >>= readBased with
  | some n => .ok (.int n)
  | none => .error (refuseLine line)

private def indexLine (line : List UInt8) : Except Fault Int :=
  match (numberText? line).bind fun text => readInteger? (String.ofList text) with
  | some n => if isWord n then .ok n else .error .overflow
  | none => .error (refuseLine line)

private def keepLine (line : List UInt8) : Except Fault Nat := do
  let n ← indexLine line
  if n < 0 then throw (.value "negative PUT argument") else return n.toNat

/-- The value of a line that holds a double. -/
private def floatLine (line : List UInt8) : Except Fault Atom :=
  let chars := (numberText? line).getD []
  if chars.any fun c => isBlank c || c == '_' then .error unreadableNumber
  else
    match readFloat? (String.ofList chars) with
    | some x =>
        if x.isInfinite && chars.any (fun c => '0' ≤ c && c ≤ '9') then
          .error .overflow
        else .ok (.float x)
    | none => .error unreadableNumber

/-- The integer of bytes in two's complement. -/
private def longBytes (bytes : List UInt8) : Int :=
  if bytes.isEmpty then 0
  else twosComplement (8 * bytes.length) (littleEndian bytes)

/-! ## Instructions -/

/-- An instruction whose operand was read. Nothing is left behind one that cannot be
read. -/
private def reading (operand : Except Fault (α × Input))
    (make : α → Except Fault Instruction) : Instruction × Input :=
  match operand with
  | .error fault => (.broken fault, .ofBytes [])
  | .ok (a, rest) =>
      match make a with
      | .ok instruction => (instruction, rest)
      | .error fault => (.broken fault, .ofBytes [])

private def pushing (operand : Except Fault (α × Input))
    (make : α → Except Fault Atom) : Instruction × Input :=
  reading operand fun a => (make a).map .push

private def pushText (operand : Except Fault (List UInt8 × Input))
    (decode : List UInt8 → Except Fault String) : Instruction × Input :=
  pushing operand fun bytes => (decode bytes).map .str

private def pushBytes (operand : Except Fault (List UInt8 × Input)) :
    Instruction × Input :=
  pushing operand fun bytes => .ok (.bytes ⟨bytes.toArray⟩)

/-- Two lines: a module and a name in it. -/
private def takeGlobal (decode : List UInt8 → Except Fault String)
    (input : Input) : Except Fault ((String × String) × Input) := do
  let (module, rest) ← takeFullLine input
  let module ← decode module
  let (name, rest) ← takeFullLine rest
  return ((module, ← decode name), rest)

private def extension (operand : Except Fault (Int × Input)) :
    Instruction × Input :=
  reading operand fun code =>
    if code ≤ 0 then .error (.pickle "EXT specifies code <= 0")
    else .error (.value "unregistered extension code")

/-- Opens a frame, which has to be complete. -/
private def frame (input : Input) : Instruction × Input :=
  let opened : Except Fault Input := do
    let (size, rest) ← takeSize 8 input
    orTruncated (rest.openFrame? size)
  reading (opened.map fun rest => ((), rest)) fun () => .ok .skip

private def protocol (input : Input) : Instruction × Input :=
  reading (takeNat 1 input) fun version =>
    if 5 < version then .error (.value "unsupported pickle protocol")
    else .ok .skip

/-- The instruction of a code without operands. -/
private def simple? (code : Char) : Option Instruction :=
  match code with
  | '.' => some .stop
  | '(' => some .mark
  | '0' => some .pop
  | '1' => some .popGroup
  | '2' => some .duplicate
  | 'N' => some (.push .none)
  | ']' => some .emptyList
  | '\x7d' => some .emptyDict
  | ')' => some .emptyTuple
  | 'l' => some .listOfGroup
  | 'd' => some .dictOfGroup
  | 't' => some .tupleOfGroup
  | 'a' => some .append
  | 'e' => some .appendGroup
  | 's' => some .setItem
  | 'u' => some .setItemsOfGroup
  | 'o' => some .instantiateGroup
  | 'R' => some .call
  | 'b' => some .build
  | 'Q' => some .persistentOnStack
  | '\x81' => some .newObject
  | '\x85' => some (.tupleOf 1)
  | '\x86' => some (.tupleOf 2)
  | '\x87' => some (.tupleOf 3)
  | '\x88' => some (.push (.bool true))
  | '\x89' => some (.push (.bool false))
  | '\x8f' => some .emptySet
  | '\x90' => some .addItemsOfGroup
  | '\x91' => some .frozenSetOfGroup
  | '\x92' => some .newObjectWithKeywords
  | '\x93' => some .globalOnStack
  | '\x94' => some .keepNext
  | '\x97' => some (.broken (.pickle "no out-of-band data was given"))
  | '\x98' => some .makeReadOnly
  | _ => none

/-- The instruction of a code with operands. -/
private def compound? (code : Char) (input : Input) :
    Option (Instruction × Input) :=
  match code with
  | 'I' => some (pushing (takeFullLine input) integerLine)
  | 'L' => some (pushing (takeFullLine input) longLine)
  | 'F' => some (pushing (takeFullLine input) floatLine)
  | 'J' => some (pushing (takeInt 4 input) fun n => .ok (.int n))
  | 'K' => some (pushing (takeNat 1 input) fun n => .ok (.int n))
  | 'M' => some (pushing (takeNat 2 input) fun n => .ok (.int n))
  | '\x8a' => some (pushing (takeCounted 1 input) fun bytes => .ok (.int (longBytes bytes)))
  | '\x8b' =>
      some (pushing (takeSignedCounted input) fun bytes => .ok (.int (longBytes bytes)))
  | 'G' =>
      some (pushing (takeBytes 8 input) fun bytes =>
        .ok (.float (.ofBits (littleEndian bytes.reverse).toUInt64)))
  | 'S' => some (pushText (takeLine input) quotedLine)
  | 'T' => some (pushText (takeSignedCounted input) asciiText)
  | 'U' => some (pushText (takeCounted 1 input) asciiText)
  | 'V' =>
      some (pushText (takeLine input) fun line =>
        (plainLine (line.length + 1) (toChars line)).map String.ofList)
  | 'X' => some (pushText (takeCounted 4 input) utf8Text)
  | '\x8c' => some (pushText (takeCounted 1 input) utf8Text)
  | '\x8d' => some (pushText (takeCounted 8 input) utf8Text)
  | 'B' => some (pushBytes (takeContent 4 input))
  | 'C' => some (pushBytes (takeContent 1 input))
  | '\x8e' => some (pushBytes (takeContent 8 input))
  | '\x96' =>
      some (pushing (takeContent 8 input) fun bytes => .ok (.byteArray ⟨bytes.toArray⟩))
  | 'c' =>
      some (reading (takeGlobal utf8Text input) fun (module, name) =>
        .ok (.global module name))
  | 'i' =>
      match takeGlobal asciiText input with
      | .ok (names, rest) => some (.instantiate (.ok names), rest)
      | .error fault => some (.instantiate (.error fault), .ofBytes [])
  | 'P' =>
      some (reading (takeLine input) fun line =>
        if isAscii line then .ok (.persistent (String.ofList (toChars line)))
        else .error (.pickle "persistent IDs in protocol 0 must be ASCII strings"))
  | 'g' => some (reading (takeFullLine input) fun line => (indexLine line).map .recall)
  | 'h' => some (reading (takeNat 1 input) fun n => .ok (.recall n))
  | 'j' => some (reading (takeNat 4 input) fun n => .ok (.recall n))
  | 'p' => some (reading (takeFullLine input) fun line => .ok (.keep (keepLine line)))
  | 'q' => some (reading (takeNat 1 input) fun n => .ok (.keep (.ok n)))
  | 'r' => some (reading (takeNat 4 input) fun n => .ok (.keep (.ok n)))
  | '\x80' => some (protocol input)
  | '\x82' => some (extension ((takeNat 1 input).map fun (n, rest) => ((n : Int), rest)))
  | '\x83' => some (extension ((takeNat 2 input).map fun (n, rest) => ((n : Int), rest)))
  | '\x84' => some (extension (takeInt 4 input))
  | '\x95' => some (frame input)
  | _ => none

/-- The first instruction of a stream, and the bytes behind it. -/
private def readInstruction (input : Input) : Instruction × Input :=
  match takeNat 1 input with
  | .error fault => (.broken fault, input)
  | .ok (code, rest) =>
      let code := Char.ofNat code
      match simple? code with
      | some instruction => (instruction, rest)
      | none =>
          match compound? code rest with
          | some result => result
          | none => (.broken (.pickle "invalid load key"), rest)

/-- Whether nothing is read behind an instruction. -/
private def isLast : Instruction → Bool
  | .stop | .broken _ => true
  | _ => false

private def readWithin : Nat → Input → List Instruction
  | 0, _ => []
  | fuel + 1, input =>
      let (instruction, rest) := readInstruction input
      if isLast instruction then [instruction]
      else instruction :: readWithin fuel rest

/-- The instructions of a stream up to the one that ends it. -/
def read (data : ByteArray) : List Instruction :=
  readWithin (data.size + 1) (.ofBytes data.toList)

/-! ## The bytes of instructions -/

/-- Bytes that are read as an instruction behind which the stream goes on. -/
structure Reads (bytes : List UInt8) (instruction : Instruction) : Prop where
  nonempty : bytes ≠ []
  goesOn : isLast instruction = false
  reads :
    ∀ rest, readInstruction (.ofBytes (bytes ++ rest)) = (instruction, .ofBytes rest)

private theorem takeNat_ofBytes (front rest : List UInt8) {width : Nat}
    (length : front.length = width) :
    takeNat width (.ofBytes (front ++ rest)) = .ok (littleEndian front, .ofBytes rest) := by
  rw [takeNat, takeBytes, Input.take?_ofBytes_append rest length]
  rfl

private theorem readInstruction_ofBytes (code : UInt8) (rest : List UInt8) :
    readInstruction (.ofBytes (code :: rest)) =
      match simple? (Char.ofNat code.toNat) with
      | some instruction => (instruction, .ofBytes rest)
      | none =>
          match compound? (Char.ofNat code.toNat) (.ofBytes rest) with
          | some result => result
          | none => (.broken (.pickle "invalid load key"), .ofBytes rest) := by
  have taken : takeNat 1 (.ofBytes (code :: rest)) = .ok (code.toNat, .ofBytes rest) :=
    takeNat_ofBytes [code] rest rfl
  rw [readInstruction, taken]

/-- The code of an instruction without operands. -/
theorem reads_simple {code : UInt8} {instruction : Instruction}
    (simple : simple? (Char.ofNat code.toNat) = some instruction)
    (goesOn : isLast instruction = false) : Reads [code] instruction where
  nonempty := List.cons_ne_nil _ _
  goesOn := goesOn
  reads := by
    intro rest
    rw [List.singleton_append, readInstruction_ofBytes, simple]

/-- The version of the format, which is passed over. -/
theorem reads_protocol : Reads [0x80, 2] .skip where
  nonempty := List.cons_ne_nil _ _
  goesOn := rfl
  reads := by
    intro rest
    have taken : takeNat 1 (.ofBytes (2 :: rest)) = .ok (2, .ofBytes rest) :=
      takeNat_ofBytes [2] rest rfl
    rw [List.cons_append, readInstruction_ofBytes]
    change protocol (.ofBytes (2 :: rest)) = _
    rw [protocol, taken]
    rfl

theorem reads_int {bytes : List UInt8} (length : bytes.length = 4) :
    Reads (0x4a :: bytes) (.push (.int (twosComplement 32 (littleEndian bytes)))) where
  nonempty := List.cons_ne_nil _ _
  goesOn := rfl
  reads := by
    intro rest
    rw [List.cons_append, readInstruction_ofBytes]
    change pushing (takeInt 4 (.ofBytes (bytes ++ rest))) _ = _
    rw [takeInt, takeNat_ofBytes bytes rest length]
    rfl

theorem reads_float {bytes : List UInt8} (length : bytes.length = 8) :
    Reads (0x47 :: bytes) (.push (.float (.ofBits (littleEndian bytes.reverse).toUInt64))) where
  nonempty := List.cons_ne_nil _ _
  goesOn := rfl
  reads := by
    intro rest
    rw [List.cons_append, readInstruction_ofBytes]
    change pushing (takeBytes 8 (.ofBytes (bytes ++ rest))) _ = _
    rw [takeBytes, Input.take?_ofBytes_append rest length]
    rfl

/-- A text behind the number of its bytes. -/
theorem reads_text {size bytes : List UInt8} {text : String} (width : size.length = 4)
    (counts : littleEndian size = bytes.length) (short : bytes.length < sizeLimit)
    (decodes : String.fromUTF8? ⟨bytes.toArray⟩ = some text) :
    Reads (0x58 :: (size ++ bytes)) (.push (.str text)) where
  nonempty := List.cons_ne_nil _ _
  goesOn := rfl
  reads := by
    intro rest
    have counted : takeSize 4 (.ofBytes (size ++ (bytes ++ rest))) =
        .ok (bytes.length, .ofBytes (bytes ++ rest)) := by
      rw [takeSize, takeNat_ofBytes _ (bytes ++ rest) width, counts]
      exact if_neg (Nat.not_le_of_lt short)
    have taken : takeCounted 4 (.ofBytes (size ++ (bytes ++ rest))) =
        .ok (bytes, .ofBytes rest) := by
      rw [takeCounted, counted]
      change takeBytes bytes.length (.ofBytes (bytes ++ rest)) = _
      rw [takeBytes, Input.take?_ofBytes_append rest rfl]
      rfl
    have decoded : utf8Text bytes = .ok text := by
      rw [utf8Text, decodes]
    rw [List.cons_append, readInstruction_ofBytes, List.append_assoc]
    change pushText (takeCounted 4 (.ofBytes (size ++ (bytes ++ rest)))) utf8Text = _
    rw [taken, pushText, pushing, reading, decoded]
    rfl

private theorem takeFullLine_ofBytes {line : List UInt8} (rest : List UInt8) (some_ : line ≠ [])
    (unbroken : 10 ∉ line) :
    takeFullLine (.ofBytes (line ++ 10 :: rest)) = .ok (line, .ofBytes rest) := by
  rw [takeFullLine, takeLine, Input.takeLine?_ofBytes_append rest unbroken, orTruncated]
  cases line with
  | nil => exact absurd rfl some_
  | cons first others => rfl

/-- Two lines that are not empty: a module and a name in it. -/
theorem reads_global {module name : List UInt8} {moduleText nameText : String}
    (someModule : module ≠ []) (someName : name ≠ []) (unbrokenModule : 10 ∉ module)
    (unbrokenName : 10 ∉ name)
    (decodesModule : String.fromUTF8? ⟨module.toArray⟩ = some moduleText)
    (decodesName : String.fromUTF8? ⟨name.toArray⟩ = some nameText) :
    Reads (0x63 :: (module ++ 10 :: (name ++ [10]))) (.global moduleText nameText) where
  nonempty := List.cons_ne_nil _ _
  goesOn := rfl
  reads := by
    intro rest
    have decodedModule : utf8Text module = .ok moduleText := by
      rw [utf8Text, decodesModule]
    have decodedName : utf8Text name = .ok nameText := by
      rw [utf8Text, decodesName]
    have taken : takeGlobal utf8Text (.ofBytes (module ++ 10 :: (name ++ 10 :: rest))) =
        .ok ((moduleText, nameText), .ofBytes rest) := by
      rw [takeGlobal, takeFullLine_ofBytes _ someModule unbrokenModule]
      change (do
        let module ← utf8Text module
        let (name, rest) ← takeFullLine (.ofBytes (name ++ 10 :: rest))
        return ((module, ← utf8Text name), rest) : Except Fault ((String × String) × Input)) = _
      rw [decodedModule, takeFullLine_ofBytes rest someName unbrokenName]
      change (do return ((moduleText, ← utf8Text name), .ofBytes rest) :
        Except Fault ((String × String) × Input)) = _
      rw [decodedName]
      rfl
    rw [List.cons_append, readInstruction_ofBytes, List.append_assoc, List.cons_append,
      List.append_assoc, List.singleton_append]
    change reading (takeGlobal utf8Text (.ofBytes (module ++ 10 :: (name ++ 10 :: rest)))) _ = _
    rw [taken]
    rfl

private theorem readWithin_written (pieces : List (List UInt8 × Instruction))
    (reads : ∀ piece ∈ pieces, Reads piece.1 piece.2) (fuel : Nat)
    (enough : pieces.length < fuel) :
    readWithin fuel (.ofBytes (pieces.flatMap (·.1) ++ [0x2e])) = pieces.map (·.2) ++ [.stop] := by
  induction pieces generalizing fuel with
  | nil =>
      obtain ⟨fuel, rfl⟩ := Nat.exists_eq_succ_of_ne_zero (Nat.ne_of_gt enough)
      rfl
  | cons piece rest inductionHypothesis =>
      obtain ⟨bytes, instruction⟩ := piece
      obtain ⟨fuel, rfl⟩ :=
        Nat.exists_eq_succ_of_ne_zero (Nat.ne_of_gt (Nat.zero_lt_of_lt enough))
      have first := reads _ List.mem_cons_self
      rw [List.flatMap_cons, List.append_assoc, readWithin, first.reads]
      dsimp only
      rw [if_neg (by rw [first.goesOn]; exact Bool.false_ne_true),
        inductionHypothesis (fun piece member => reads piece (List.mem_cons_of_mem _ member))
          fuel (Nat.lt_of_succ_lt_succ enough)]
      rfl

/-- A stream of such bytes up to the one that ends it. -/
theorem read_written {data : ByteArray} (pieces : List (List UInt8 × Instruction))
    (reads : ∀ piece ∈ pieces, Reads piece.1 piece.2)
    (bytes : data.toList = pieces.flatMap (·.1) ++ [0x2e]) (size : pieces.length ≤ data.size) :
    read data = pieces.map (·.2) ++ [.stop] := by
  rw [read, bytes]
  exact readWithin_written pieces reads _ (Nat.lt_succ_of_le size)

/-! ## What reading can fail with -/

/-- Whether a fault is one of bytes that are no stream of instructions. -/
def isStreamFault (fault : Fault) : Bool :=
  match fault.kind with
  | .pickle | .value | .overflow | .encoding => true
  | _ => false

/-- The fault that an instruction carries, if its bytes could not be read. -/
def Instruction.fault? : Instruction → Option Fault
  | broken fault | instantiate (.error fault) | keep (.error fault) => some fault
  | _ => none

/-- An instruction that carries no fault but of bytes that are no stream. -/
def Instruction.Sound (instruction : Instruction) : Prop :=
  ∀ fault, instruction.fault? = some fault → isStreamFault fault = true

/-- A reading whose fault, if it is one, is that the bytes are no stream. -/
private def Readable (reading : Except Fault α) : Prop :=
  ∀ fault, reading = .error fault → isStreamFault fault = true

namespace Readable

private theorem ok (a : α) : Readable (.ok a) := fun _ same => by cases same

private theorem error {fault : Fault} (isStream : isStreamFault fault = true) :
    Readable (.error fault : Except Fault α) := fun _ same => by
  cases same
  exact isStream

private theorem bind {first : Except Fault α} {second : α → Except Fault β}
    (readable : Readable first) (further : ∀ a, Readable (second a)) :
    Readable (first >>= second) := by
  cases first with
  | error fault => exact error (readable fault rfl)
  | ok a => exact further a

private theorem map {reading : Except Fault α} (readable : Readable reading) (change : α → β) :
    Readable (reading.map change) := by
  cases reading with
  | error fault => exact error (readable fault rfl)
  | ok a => exact ok _

end Readable

/-! ### Operands -/

private theorem orTruncated_readable (found : Option α) : Readable (orTruncated found) := by
  cases found with
  | none => exact .error rfl
  | some a => exact .ok a

private theorem takeBytes_readable (count : Nat) (input : Input) :
    Readable (takeBytes count input) := orTruncated_readable _

private theorem takeLine_readable (input : Input) : Readable (takeLine input) :=
  orTruncated_readable _

private theorem takeFullLine_readable (input : Input) : Readable (takeFullLine input) := by
  rw [takeFullLine]
  split
  · exact .error rfl
  · exact takeLine_readable input

private theorem takeNat_readable (width : Nat) (input : Input) :
    Readable (takeNat width input) := (takeBytes_readable width input).map _

private theorem takeInt_readable (width : Nat) (input : Input) :
    Readable (takeInt width input) := (takeNat_readable width input).map _

private theorem takeSize_readable (width : Nat) (input : Input) :
    Readable (takeSize width input) := by
  refine (takeNat_readable width input).bind fun _ => ?_
  dsimp only
  split
  · exact .error rfl
  · exact .ok _

private theorem takeCounted_readable (width : Nat) (input : Input) :
    Readable (takeCounted width input) :=
  (takeSize_readable width input).bind fun _ => takeBytes_readable _ _

private theorem takeContent_readable (width : Nat) (input : Input) :
    Readable (takeContent width input) :=
  (takeSize_readable width input).bind fun _ => orTruncated_readable _

private theorem takeSignedCounted_readable (input : Input) :
    Readable (takeSignedCounted input) := by
  refine (takeInt_readable 4 input).bind fun _ => ?_
  dsimp only
  split
  · exact .error rfl
  · exact takeBytes_readable _ _

/-! ### Texts and numbers -/

private theorem asciiText_readable (bytes : List UInt8) : Readable (asciiText bytes) := by
  rw [asciiText]
  split
  · exact .ok _
  · exact .error rfl

private theorem utf8Text_readable (bytes : List UInt8) : Readable (utf8Text bytes) := by
  rw [utf8Text]
  split
  · exact .ok _
  · exact .error rfl

private theorem unquote_readable (line : List UInt8) : Readable (unquote line) := by
  unfold unquote
  split
  · split
    · exact .ok _
    · exact .error rfl
  · exact .error rfl

private theorem quotedLine_readable (line : List UInt8) : Readable (quotedLine line) := by
  refine (unquote_readable line).bind fun body => ?_
  split
  · exact .error rfl
  · split
    · exact .error rfl
    · split
      · exact asciiText_readable _
      · exact .error rfl

private theorem plainLine_readable (fuel : Nat) :
    ∀ text : List Char, Readable (plainLine fuel text) := by
  induction fuel with
  | zero =>
      intro text
      exact .error rfl
  | succ fuel inductionHypothesis =>
      intro text
      unfold plainLine
      split
      case h_1 zero => cases zero
      case h_2 => exact .ok _
      case h_3 c rest same =>
        cases same
        split
        · dsimp only
          generalize (if (c == 'u') = true then 4 else 8) = width
          split
          · exact .error rfl
          · split
            · split
              · exact .error rfl
              · exact (inductionHypothesis _).map _
            · exact .error rfl
        · exact (inductionHypothesis _).map _
      case h_4 same =>
        cases same
        exact (inductionHypothesis _).map _

private theorem isStreamFault_refuseLine (line : List UInt8) :
    isStreamFault (refuseLine line) = true := by
  rw [refuseLine]
  split
  · exact rfl
  · rename_i fault fails
    exact utf8Text_readable _ fault fails

private theorem integerLine_readable (line : List UInt8) : Readable (integerLine line) := by
  rw [integerLine]
  split
  · split
    · split
      · exact .ok _
      · exact .ok _
    · exact .ok _
    · exact .error rfl
  · exact .error rfl

private theorem longLine_readable (line : List UInt8) : Readable (longLine line) := by
  unfold longLine
  dsimp only
  split
  · exact .ok _
  · exact .error (isStreamFault_refuseLine line)

private theorem indexLine_readable (line : List UInt8) : Readable (indexLine line) := by
  rw [indexLine]
  split
  · split
    · exact .ok _
    · exact .error rfl
  · exact .error (isStreamFault_refuseLine line)

private theorem keepLine_readable (line : List UInt8) : Readable (keepLine line) := by
  refine (indexLine_readable line).bind fun n => ?_
  split
  · exact .error rfl
  · exact .ok _

private theorem floatLine_readable (line : List UInt8) : Readable (floatLine line) := by
  unfold floatLine
  dsimp only
  split
  · exact .error rfl
  · split
    · split
      · exact .error rfl
      · exact .ok _
    · exact .error rfl

/-! ### Instructions -/

private theorem sound_of_none {instruction : Instruction} (none : instruction.fault? = none) :
    instruction.Sound := by
  intro fault carries
  rw [none] at carries
  cases carries

private theorem sound_of_map {reading : Except Fault α} {make : α → Instruction}
    {instruction : Instruction} (none : ∀ a, (make a).fault? = none)
    (made : reading.map make = .ok instruction) : instruction.Sound := by
  cases reading with
  | error fault => cases made
  | ok a =>
      cases made
      exact sound_of_none (none a)

private theorem sound_broken {fault : Fault} (isStream : isStreamFault fault = true) :
    (Instruction.broken fault).Sound := by
  rintro _ ⟨⟩
  exact isStream

private theorem reading_sound {operand : Except Fault (α × Input)}
    {make : α → Except Fault Instruction} (readable : Readable operand)
    (makes : ∀ a, Readable (make a))
    (sound : ∀ a instruction, make a = .ok instruction → instruction.Sound) :
    (reading operand make).1.Sound := by
  unfold reading
  split
  · rename_i fault
    exact sound_broken (readable fault rfl)
  · split
    · rename_i made
      exact sound _ _ made
    · rename_i fails
      exact sound_broken (makes _ _ fails)

private theorem pushing_sound {operand : Except Fault (α × Input)}
    {make : α → Except Fault Atom} (readable : Readable operand) (makes : ∀ a, Readable (make a)) :
    (pushing operand make).1.Sound := by
  refine reading_sound readable (fun a => (makes a).map _) ?_
  exact fun a instruction made => sound_of_map (fun _ => rfl) made

private theorem pushText_sound {operand : Except Fault (List UInt8 × Input)}
    {decode : List UInt8 → Except Fault String} (readable : Readable operand)
    (decodes : ∀ bytes, Readable (decode bytes)) : (pushText operand decode).1.Sound :=
  pushing_sound readable fun bytes => (decodes bytes).map _

private theorem pushBytes_sound {operand : Except Fault (List UInt8 × Input)}
    (readable : Readable operand) : (pushBytes operand).1.Sound :=
  pushing_sound readable fun _ => .ok _

private theorem takeGlobal_readable {decode : List UInt8 → Except Fault String}
    (decodes : ∀ bytes, Readable (decode bytes)) (input : Input) :
    Readable (takeGlobal decode input) :=
  (takeFullLine_readable input).bind fun _ => (decodes _).bind fun _ =>
    (takeFullLine_readable _).bind fun _ => (decodes _).bind fun _ => .ok _

private theorem extension_sound {operand : Except Fault (Int × Input)}
    (readable : Readable operand) : (extension operand).1.Sound := by
  refine reading_sound readable ?_ ?_
  · intro code
    split
    · exact .error rfl
    · exact .error rfl
  · intro code instruction made
    split at made
    · cases made
    · cases made

private theorem frame_sound (input : Input) : (frame input).1.Sound := by
  refine reading_sound (Readable.map ?_ _) (fun _ => .ok _) ?_
  · exact (takeSize_readable 8 input).bind fun _ => orTruncated_readable _
  · rintro _ _ ⟨⟩
    exact sound_of_none rfl

private theorem protocol_sound (input : Input) : (protocol input).1.Sound := by
  refine reading_sound (takeNat_readable 1 input) ?_ ?_
  · intro version
    split
    · exact .error rfl
    · exact .ok _
  · intro version instruction made
    split at made
    · cases made
    · cases made
      exact sound_of_none rfl

private theorem simple_sound {code : Char} {instruction : Instruction}
    (simple : simple? code = some instruction) : instruction.Sound := by
  unfold simple? at simple
  split at simple
  case h_33 =>
    cases simple
    exact sound_broken rfl
  case h_35 => cases simple
  all_goals
    cases simple
    exact sound_of_none rfl

private theorem compound_sound {code : Char} {input : Input} {result : Instruction × Input}
    (compound : compound? code input = some result) : result.1.Sound := by
  have plain {α : Type} {operand : Except Fault (α × Input)} {make : α → Instruction}
      (readable : Readable operand) (none : ∀ a, (make a).fault? = none) :
      (reading operand fun a => .ok (make a)).1.Sound := by
    refine reading_sound readable (fun _ => .ok _) ?_
    rintro a _ ⟨⟩
    exact sound_of_none (none a)
  unfold compound? at compound
  split at compound
  case h_22 =>
    have readable := takeGlobal_readable asciiText_readable input
    split at compound
    · cases compound
      exact sound_of_none rfl
    · rename_i fault fails
      cases compound
      rintro _ ⟨⟩
      exact readable fault fails
  case h_35 => cases compound
  all_goals obtain rfl := Option.some.inj compound
  case h_1 => exact pushing_sound (takeFullLine_readable _) integerLine_readable
  case h_2 => exact pushing_sound (takeFullLine_readable _) longLine_readable
  case h_3 => exact pushing_sound (takeFullLine_readable _) floatLine_readable
  case h_4 => exact pushing_sound (takeInt_readable _ _) fun _ => .ok _
  case h_5 | h_6 => exact pushing_sound (takeNat_readable _ _) fun _ => .ok _
  case h_7 => exact pushing_sound (takeCounted_readable _ _) fun _ => .ok _
  case h_8 => exact pushing_sound (takeSignedCounted_readable _) fun _ => .ok _
  case h_9 => exact pushing_sound (takeBytes_readable _ _) fun _ => .ok _
  case h_10 => exact pushText_sound (takeLine_readable _) quotedLine_readable
  case h_11 => exact pushText_sound (takeSignedCounted_readable _) asciiText_readable
  case h_12 => exact pushText_sound (takeCounted_readable _ _) asciiText_readable
  case h_13 =>
    exact pushText_sound (takeLine_readable _) fun line => (plainLine_readable _ _).map _
  case h_14 | h_15 | h_16 => exact pushText_sound (takeCounted_readable _ _) utf8Text_readable
  case h_17 | h_18 | h_19 => exact pushBytes_sound (takeContent_readable _ _)
  case h_20 => exact pushing_sound (takeContent_readable _ _) fun _ => .ok _
  case h_21 => exact plain (takeGlobal_readable utf8Text_readable _) fun _ => rfl
  case h_23 =>
    refine reading_sound (takeLine_readable _) (fun line => ?_) fun line instruction made => ?_
    · split
      · exact .ok _
      · exact .error rfl
    · split at made
      · cases made
        exact sound_of_none rfl
      · cases made
  case h_24 =>
    refine reading_sound (takeFullLine_readable _) (fun line => (indexLine_readable line).map _) ?_
    exact fun line instruction made => sound_of_map (fun _ => rfl) made
  case h_25 | h_26 | h_28 | h_29 => exact plain (takeNat_readable _ _) fun _ => rfl
  case h_27 =>
    refine reading_sound (takeFullLine_readable _) (fun _ => .ok _) ?_
    rintro line _ ⟨⟩ fault carries
    cases kept : keepLine line with
    | ok index =>
        rw [kept] at carries
        cases carries
    | error other =>
        rw [kept] at carries
        cases carries
        exact keepLine_readable line fault kept
  case h_30 => exact protocol_sound _
  case h_31 | h_32 => exact extension_sound ((takeNat_readable _ _).map _)
  case h_33 => exact extension_sound (takeInt_readable _ _)
  case h_34 => exact frame_sound _

/-- The instructions of a stream carry no faults but of bytes that are no stream. -/
theorem read_sound {data : ByteArray} {instruction : Instruction}
    (inside : instruction ∈ read data) : instruction.Sound := by
  have first (input : Input) : (readInstruction input).1.Sound := by
    unfold readInstruction
    split
    · rename_i fault fails
      exact sound_broken (takeNat_readable 1 input fault fails)
    · dsimp only
      split
      · rename_i simple
        exact simple_sound simple
      · split
        · rename_i compound
          exact compound_sound compound
        · exact sound_broken rfl
  have within (fuel : Nat) (input : Input) (instruction : Instruction)
      (inside : instruction ∈ readWithin fuel input) : instruction.Sound := by
    induction fuel generalizing input with
    | zero => cases inside
    | succ fuel inductionHypothesis =>
        have sound := first input
        rw [readWithin] at inside
        cases reads : readInstruction input with
        | mk made rest =>
            rw [reads] at inside sound
            dsimp only at inside
            split at inside
            · rw [List.mem_singleton.mp inside]
              exact sound
            · rcases List.mem_cons.mp inside with rfl | later
              · exact sound
              · exact inductionHypothesis rest later
  exact within _ _ _ inside

end TorchArchive.Pickle
