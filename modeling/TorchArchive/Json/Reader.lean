import TorchArchive.Datum
import TorchArchive.Fault

/-!
Reading JSON documents. Beyond the standard, the words `NaN`, `Infinity` and
`-Infinity` are numbers, and integers keep all their digits.
-/

namespace TorchArchive.Json

open TorchArchive

private def unexpected (detail : String) : Fault := .json detail

private def isSpace (c : Char) : Bool :=
  c == ' ' || c == '\t' || c == '\n' || c == '\r'

private def skipSpace (input : List Char) : List Char := input.dropWhile isSpace

/-! ## Strings -/

private def hexCode? (a b c d : Char) : Option Nat := do
  let w ← hexValue? a
  let x ← hexValue? b
  let y ← hexValue? c
  let z ← hexValue? d
  return ((w * 16 + x) * 16 + y) * 16 + z

private def isHighSurrogate (code : Nat) : Bool :=
  0xd800 ≤ code && code < 0xdc00

private def isLowSurrogate (code : Nat) : Bool :=
  0xdc00 ≤ code && code < 0xe000

/-- The character of two surrogates. -/
private def joinSurrogates (high low : Nat) : Char :=
  Char.ofNat (0x10000 + (high - 0xd800) * 0x400 + (low - 0xdc00))

/-- The character of a code; half of a surrogate pair has none of its own. -/
private def charOfCode (code : Nat) : Char :=
  if isHighSurrogate code || isLowSurrogate code then '\ufffd'
  else Char.ofNat code

private def simpleEscape? : Char → Option Char
  | '"' => some '"'
  | '\\' => some '\\'
  | '/' => some '/'
  | 'b' => some '\x08'
  | 'f' => some '\x0c'
  | 'n' => some '\n'
  | 'r' => some '\r'
  | 't' => some '\t'
  | _ => none

/-- Joins the surrogate pairs among the codes of a string. -/
private def charsOfCodes : List Nat → List Char
  | [] => []
  | [code] => [charOfCode code]
  | high :: low :: rest =>
      if isHighSurrogate high && isLowSurrogate low then
        joinSurrogates high low :: charsOfCodes rest
      else charOfCode high :: charsOfCodes (low :: rest)

/-- Reads the rest of a string behind its opening quote; `done` holds the codes
so far in reverse. -/
private def readCodes (done : List Nat) :
    List Char → Except Fault (List Nat × List Char)
  | [] => .error (unexpected "Unterminated string")
  | '"' :: rest => .ok (done.reverse, rest)
  | '\\' :: 'u' :: a :: b :: c :: d :: rest =>
      match hexCode? a b c d with
      | none => .error (unexpected "Invalid \\uXXXX escape")
      | some code => readCodes (code :: done) rest
  | '\\' :: c :: rest =>
      match simpleEscape? c with
      | some plain => readCodes (plain.toNat :: done) rest
      | none => .error (unexpected "Invalid \\escape")
  | c :: rest =>
      if c.toNat < 0x20 then .error (unexpected "Invalid control character")
      else if c == '\\' then .error (unexpected "Unterminated string")
      else readCodes (c.toNat :: done) rest

private def readString (input : List Char) :
    Except Fault (String × List Char) := do
  let (codes, rest) ← readCodes [] input
  return (String.ofList (charsOfCodes codes), rest)

/-! ## Numbers -/

private def isDigit (c : Char) : Bool := '0' ≤ c && c ≤ '9'

/-- Splits off the digits at the front. -/
private def digitsOf (input : List Char) : List Char × List Char :=
  (input.takeWhile isDigit, input.dropWhile isDigit)

/-- Splits off the digits of an integer: a zero or digits that begin with none. -/
private def integerPart : List Char → List Char × List Char
  | '0' :: rest => (['0'], rest)
  | input => digitsOf input

/-- Splits off the digits behind a point; a point without digits is left. -/
private def fractionPart : List Char → Option (List Char) × List Char
  | '.' :: rest =>
      match digitsOf rest with
      | ([], _) => (none, '.' :: rest)
      | (digits, rest) => (some digits, rest)
  | input => (none, input)

/-- Splits off an exponent; one without digits is left. -/
private def exponentPart (input : List Char) : Option Int × List Char :=
  match input with
  | e :: rest =>
      if e == 'e' || e == 'E' then
        let (negative, behind) :=
          match rest with
          | '-' :: r => (true, r)
          | '+' :: r => (false, r)
          | r => (false, r)
        match digitsOf behind with
        | ([], _) => (none, input)
        | (digits, rest) =>
            let size : Int := natOfDigits digits
            (some (if negative then -size else size), rest)
      else (none, input)
  | [] => (none, [])

/-- Reads the digits of a number behind its sign. -/
private def readNumber (negative : Bool) (input : List Char) :
    Except Fault (Datum × List Char) :=
  let (digits, afterDigits) := integerPart input
  let (fraction?, afterFraction) := fractionPart afterDigits
  let (exponent?, rest) := exponentPart afterFraction
  if digits.isEmpty then .error (unexpected "Expecting value")
  else
    match fraction?, exponent? with
    | none, none =>
        if integerDigitLimit < digits.length then
          .error (.value "too many digits")
        else
          let n : Int := natOfDigits digits
          .ok (.int (if negative then -n else n), rest)
    | _, _ =>
        let fraction := fraction?.getD []
        let decimal : Decimal :=
          ⟨natOfDigits (digits ++ fraction),
            exponent?.getD 0 - (fraction.length : Int)⟩
        .ok (.float (decimal.round negative), rest)

/-! ## Values -/

/-- Splits off a word if the input begins with it. -/
private def afterWord? : List Char → List Char → Option (List Char)
  | [], rest => some rest
  | w :: word, c :: rest => if w = c then afterWord? word rest else none
  | _ :: _, [] => none

private def words : List (String × Datum) :=
  [("null", .none), ("true", .bool true), ("false", .bool false),
    ("NaN", .float .nan), ("Infinity", .float (.infinity false)),
    ("-Infinity", .float (.infinity true))]

private def readWord? (input : List Char) : Option (Datum × List Char) :=
  words.findSome? fun word =>
    (afterWord? word.1.toList input).map fun rest => (word.2, rest)

mutual

/-- Reads a value whose containers are nested less deep than `fuel`. -/
private def readValue : Nat → List Char → Except Fault (Datum × List Char)
  | 0, _ => .error .depth
  | fuel + 1, input =>
      match readWord? input with
      | some found => .ok found
      | none =>
          match input with
          | '"' :: rest => do
              let (text, rest) ← readString rest
              return (.str text, rest)
          | '[' :: rest =>
              match skipSpace rest with
              | ']' :: rest => .ok (.list [], rest)
              | rest => do
                  let (items, rest) ← readItems fuel rest
                  return (.list items, rest)
          | '\x7b' :: rest =>
              match skipSpace rest with
              | '\x7d' :: rest => .ok (.dict false [], rest)
              | rest => do
                  let (entries, rest) ← readEntries fuel rest
                  return (Datum.dictOfEntries entries, rest)
          | '-' :: rest => readNumber true rest
          | _ => readNumber false input

/-- Reads the items of a list up to its closing bracket. -/
private def readItems : Nat → List Char →
    Except Fault (List Datum × List Char)
  | 0, _ => .error .depth
  | fuel + 1, input => do
      let (item, rest) ← readValue fuel input
      match skipSpace rest with
      | ',' :: rest =>
          let (items, rest) ← readItems fuel (skipSpace rest)
          return (item :: items, rest)
      | ']' :: rest => return ([item], rest)
      | _ => throw (unexpected "Expecting ',' delimiter")

/-- Reads the entries of an object up to its closing brace. -/
private def readEntries : Nat → List Char →
    Except Fault (List (Datum × Datum) × List Char)
  | 0, _ => .error .depth
  | fuel + 1, input =>
      match input with
      | '"' :: rest => do
          let (key, rest) ← readString rest
          match skipSpace rest with
          | ':' :: rest =>
              let (value, rest) ← readValue fuel (skipSpace rest)
              match skipSpace rest with
              | ',' :: rest =>
                  let (entries, rest) ← readEntries fuel (skipSpace rest)
                  return ((.str key, value) :: entries, rest)
              | '\x7d' :: rest => return ([(.str key, value)], rest)
              | _ => throw (unexpected "Expecting ',' delimiter")
          | _ => throw (unexpected "Expecting ':' delimiter")
      | _ =>
          .error
            (unexpected "Expecting property name enclosed in double quotes")

end

/-- Reads a document. -/
def read (document : String) : Except Fault Datum := do
  let input := document.toList
  let (datum, rest) ← readValue (2 * input.length + 1) (skipSpace input)
  if (skipSpace rest).isEmpty then return datum
  else throw (unexpected "Extra data")

/-- Reads a document given as bytes of UTF-8. -/
def readBytes (data : ByteArray) : Except Fault Datum :=
  match String.fromUTF8? data with
  | some document => read document
  | none => .error .encoding

/-! ## What reading can fail with -/

/-- A fault of a text that is no document. -/
def Unreadable (fault : Fault) : Prop := fault.kind = .json ∨ fault.kind = .value

/-- A reading either goes on behind what it read or finds that the text is no document.
In particular it never gives up because of depth. -/
private def Advances (input : List Char) :
    Except Fault (α × List Char) → Prop
  | .ok (_, rest) => rest.length ≤ input.length
  | .error fault => Unreadable fault

private theorem unexpected_unreadable (detail : String) : Unreadable (unexpected detail) :=
  .inl rfl

private theorem Advances.mono {longer input : List Char}
    {reading : Except Fault (α × List Char)} (shorter : input.length ≤ longer.length)
    (advances : Advances input reading) : Advances longer reading := by
  cases reading with
  | error fault => exact advances
  | ok found => exact Nat.le_trans advances shorter

private theorem Advances.bind {input : List Char} {reading : Except Fault (α × List Char)}
    {next : α × List Char → Except Fault (β × List Char)} (advances : Advances input reading)
    (continued : ∀ a rest, rest.length ≤ input.length → Advances input (next (a, rest))) :
    Advances input (reading >>= next) := by
  cases reading with
  | error fault => exact advances
  | ok found => exact continued found.1 found.2 advances

private theorem length_skipSpace (input : List Char) :
    (skipSpace input).length ≤ input.length :=
  (List.dropWhile_suffix _).length_le

private theorem length_afterWord (word input rest : List Char)
    (found : afterWord? word input = some rest) : rest.length ≤ input.length := by
  induction word generalizing input with
  | nil =>
      simp only [afterWord?, Option.some.injEq] at found
      simp [found]
  | cons letter word inductionHypothesis =>
      cases input with
      | nil => simp [afterWord?] at found
      | cons c input =>
          simp only [afterWord?] at found
          split at found
          · have shorter := inductionHypothesis input found
            simp only [List.length_cons]
            omega
          · simp at found

private theorem readWord_advances (input : List Char) (found : Datum × List Char)
    (read : readWord? input = some found) : Advances input (.ok found) := by
  obtain ⟨word, _, behind⟩ := List.exists_of_findSome?_eq_some read
  obtain ⟨rest, follows, pair⟩ := Option.map_eq_some_iff.mp behind
  subst pair
  exact length_afterWord word.1.toList input rest follows

private theorem length_digitsOf (input : List Char) :
    (digitsOf input).2.length ≤ input.length :=
  (List.dropWhile_suffix _).length_le

private theorem length_integerPart (input : List Char) :
    (integerPart input).2.length ≤ input.length := by
  unfold integerPart
  split
  · simp
  · exact length_digitsOf input

private theorem length_fractionPart (input : List Char) :
    (fractionPart input).2.length ≤ input.length := by
  unfold fractionPart
  split
  · rename_i rest
    have shorter := length_digitsOf rest
    split
    · simp
    · rename_i digits
      rw [digits] at shorter
      exact Nat.le_succ_of_le shorter
  · simp

private theorem length_exponentPart (input : List Char) :
    (exponentPart input).2.length ≤ input.length := by
  unfold exponentPart
  split
  · rename_i e rest
    have behind (sign : List Char) (shorter : sign.length ≤ rest.length) :
        (digitsOf sign).2.length ≤ (e :: rest).length := by
      have := length_digitsOf sign
      simp only [List.length_cons]
      omega
    split
    · simp only
      split
      · simp
      · rename_i found
        have shorter := congrArg (fun parts => parts.2.length) found
        simp only at shorter
        rw [← shorter]
        apply behind
        split <;> simp
    · simp
  · simp

private theorem readNumber_advances (negative : Bool) (input : List Char) :
    Advances input (readNumber negative input) := by
  have integer := length_integerPart input
  have fraction := length_fractionPart (integerPart input).2
  have exponent := length_exponentPart (fractionPart (integerPart input).2).2
  have shorter := Nat.le_trans exponent (Nat.le_trans fraction integer)
  unfold readNumber
  simp only
  split
  · exact unexpected_unreadable _
  · split
    · split
      · exact .inr rfl
      · exact shorter
    · exact shorter

private theorem readCodes_advances (done : List Nat) (input : List Char) :
    Advances input (readCodes done input) := by
  fun_induction readCodes done input with
  | case1 | case3 | case6 | case7 | case8 => exact unexpected_unreadable _
  | case2 => simp [Advances]
  | case4 | case5 | case9 =>
      rename_i inductionHypothesis
      apply inductionHypothesis.mono
      simp only [List.length_cons]
      omega

private theorem readString_advances (input : List Char) :
    Advances input (readString input) :=
  (readCodes_advances [] input).bind fun _ _ shorter => shorter

section Containers

variable {fuel : Nat}

/-- What is in a container behind its bracket begins behind the spaces there. -/
private theorem Advances.opened {bracket : Char} {rest : List Char}
    {reading : Except Fault (α × List Char)} (advances : Advances (skipSpace rest) reading) :
    Advances (bracket :: rest) reading :=
  (advances.mono (length_skipSpace rest)).mono (Nat.le_succ rest.length)

/-- A container that is closed where it was opened. -/
private theorem Advances.closed {bracket closing : Char} {rest behind : List Char} {value : α}
    (closes : skipSpace rest = closing :: behind) :
    Advances (bracket :: rest) (.ok (value, behind)) := by
  have shorter := length_skipSpace rest
  rw [closes] at shorter
  simp only [Advances, List.length_cons] at shorter ⊢
  omega

private theorem readValue_advances
    (items : ∀ input, 2 * input.length + 2 ≤ fuel → Advances input (readItems fuel input))
    (entries : ∀ input, 2 * input.length + 2 ≤ fuel → Advances input (readEntries fuel input))
    {input : List Char} (enough : 2 * input.length ≤ fuel) :
    Advances input (readValue (fuel + 1) input) := by
  unfold readValue
  split
  · exact readWord_advances input _ ‹_›
  · split
    · rename_i rest _
      apply Advances.mono (Nat.le_succ rest.length)
      exact (readString_advances rest).bind fun _ _ shorter => shorter
    · rename_i rest _
      have shorter := length_skipSpace rest
      simp only [List.length_cons] at enough
      split
      · exact Advances.closed ‹_›
      · have read := items (skipSpace rest) (by omega)
        exact Advances.opened (read.bind fun _ _ shorter => shorter)
    · rename_i rest _
      have shorter := length_skipSpace rest
      simp only [List.length_cons] at enough
      split
      · exact Advances.closed ‹_›
      · have read := entries (skipSpace rest) (by omega)
        exact Advances.opened (read.bind fun _ _ shorter => shorter)
    · rename_i rest _
      exact (readNumber_advances true rest).mono (Nat.le_succ rest.length)
    · exact readNumber_advances false input

private theorem readItems_advances
    (value : ∀ input, 2 * input.length + 1 ≤ fuel → Advances input (readValue fuel input))
    (items : ∀ input, 2 * input.length + 2 ≤ fuel → Advances input (readItems fuel input))
    {input : List Char} (enough : 2 * input.length + 1 ≤ fuel) :
    Advances input (readItems (fuel + 1) input) := by
  unfold readItems
  refine (value input enough).bind fun item behind shorter => ?_
  have spaced := length_skipSpace behind
  simp only
  split
  · rename_i rest comma
    rw [comma, List.length_cons] at spaced
    have further := length_skipSpace rest
    have read := items (skipSpace rest) (by omega)
    exact (read.mono (by omega)).bind fun _ _ shorter => shorter
  · rename_i rest closed
    rw [closed, List.length_cons] at spaced
    show rest.length ≤ input.length
    omega
  · exact unexpected_unreadable _

private theorem readEntries_advances
    (value : ∀ input, 2 * input.length + 1 ≤ fuel → Advances input (readValue fuel input))
    (entries : ∀ input, 2 * input.length + 2 ≤ fuel → Advances input (readEntries fuel input))
    {input : List Char} (enough : 2 * input.length + 1 ≤ fuel) :
    Advances input (readEntries (fuel + 1) input) := by
  unfold readEntries
  split
  · rename_i rest
    simp only [List.length_cons] at enough
    refine Advances.mono (Nat.le_succ rest.length) ?_
    refine (readString_advances rest).bind fun key behindKey shorter => ?_
    have spacedKey := length_skipSpace behindKey
    simp only
    split
    · rename_i behindColon colon
      rw [colon, List.length_cons] at spacedKey
      have spacedColon := length_skipSpace behindColon
      have read := value (skipSpace behindColon) (by omega)
      refine (read.mono (by omega)).bind fun item behind shorterItem => ?_
      have spaced := length_skipSpace behind
      simp only
      split
      · rename_i behindComma comma
        rw [comma, List.length_cons] at spaced
        have further := length_skipSpace behindComma
        have read := entries (skipSpace behindComma) (by omega)
        exact (read.mono (by omega)).bind fun _ _ shorter => shorter
      · rename_i behindBrace closed
        rw [closed, List.length_cons] at spaced
        show behindBrace.length ≤ rest.length
        omega
      · exact unexpected_unreadable _
    · exact unexpected_unreadable _
  · exact unexpected_unreadable _

/-- The induction is on the fuel; two steps of it go into each bracket, one for the
container and one for its first item. -/
private theorem readers_advance (fuel : Nat) :
    (∀ input, 2 * input.length + 1 ≤ fuel → Advances input (readValue fuel input)) ∧
    (∀ input, 2 * input.length + 2 ≤ fuel → Advances input (readItems fuel input)) ∧
    (∀ input, 2 * input.length + 2 ≤ fuel → Advances input (readEntries fuel input)) := by
  induction fuel with
  | zero =>
      refine ⟨?_, ?_, ?_⟩ <;> intro input enough <;> omega
  | succ fuel inductionHypothesis =>
      obtain ⟨value, items, entries⟩ := inductionHypothesis
      exact ⟨fun _ enough => readValue_advances items entries (Nat.le_of_succ_le_succ enough),
        fun _ enough => readItems_advances value items (Nat.le_of_succ_le_succ enough),
        fun _ enough => readEntries_advances value entries (Nat.le_of_succ_le_succ enough)⟩

end Containers

/-- Reading fails only with what is wrong with the text. -/
theorem read_unreadable (document : String) (fault : Fault)
    (failed : read document = .error fault) : Unreadable fault := by
  have spaces := length_skipSpace document.toList
  have advances := (readers_advance (2 * document.toList.length + 1)).1
    (skipSpace document.toList) (by omega)
  unfold read at failed
  simp only at failed
  cases reading : readValue (2 * document.toList.length + 1)
      (skipSpace document.toList) with
  | error cause =>
      rw [reading] at advances failed
      cases failed
      exact advances
  | ok found =>
      simp only [reading, bind, Except.bind] at failed
      split at failed
      · cases failed
      · cases failed
        exact unexpected_unreadable _

end TorchArchive.Json
