import TorchArchive.Character.Composition
import TorchArchive.Character.Mark

/-!
The usual form of names. A name is taken apart into bases and marks, in which characters
that only look different become the same; marks are put in order; then bases take in the
marks that they can be made of.
-/

namespace TorchArchive

/-! ## Syllables -/

/-- Korean syllables are made of two or three letters by a rule. -/
private def syllableStart : Nat := 0xac00

private def leadStart : Nat := 0x1100
private def vowelStart : Nat := 0x1161

/-- One less than the first letter that may stand at the end of a syllable. -/
private def tailStart : Nat := 0x11a7

private def leadCount : Nat := 19
private def vowelCount : Nat := 21
private def tailCount : Nat := 28

/-- The place of a code point among so many that begin somewhere. -/
private def place? (start count : Nat) (c : Char) : Option Nat :=
  if start ≤ c.toNat && c.toNat < start + count then some (c.toNat - start) else none

private def syllablePlace? (c : Char) : Option Nat :=
  place? syllableStart (leadCount * vowelCount * tailCount) c

/-- The letters of a syllable. -/
private def syllableLetters (place : Nat) : List Char :=
  let tail := place % tailCount
  [Char.ofNat (leadStart + place / (vowelCount * tailCount)),
    Char.ofNat (vowelStart + place / tailCount % vowelCount)] ++
    if tail = 0 then [] else [Char.ofNat (tailStart + tail)]

/-- The syllable of two letters, or of a syllable and its last letter. -/
private def syllable? (first second : Char) : Option Char :=
  match place? leadStart leadCount first, place? vowelStart vowelCount second,
      syllablePlace? first, place? tailStart tailCount second with
  | some lead, some vowel, _, _ =>
      some (Char.ofNat (syllableStart + (lead * vowelCount + vowel) * tailCount))
  | _, _, some open_, some tail =>
      if open_ % tailCount = 0 && tail != 0 then some (Char.ofNat (first.toNat + tail))
      else none
  | _, _, _, _ => none

/-! ## Tables -/

/-- The base in front of a composite in a row of bases and composites. -/
private def baseIn? (composite : Char) : List Char → Option Char
  | base :: made :: rest => if made = composite then some base else baseIn? composite rest
  | _ => none

/-- The composite behind a base in a row of bases and composites. -/
private def compositeIn? (base : Char) : List Char → Option Char
  | first :: made :: rest => if first = base then some made else compositeIn? base rest
  | _ => none

/-- The base and the mark that a character is made of. -/
private def marked? (c : Char) : Option (List Char) :=
  markedForms.findSome? fun (mark, row) =>
    (baseIn? c row.toList).map fun base => [base, Char.ofNat mark]

/-- The character that another one stands for. -/
private def single? (c : Char) : Option (List Char) :=
  singleForms.findSome? fun (first, row) =>
    if c.toNat < first then none
    else (row.toList[c.toNat - first]?).map fun meaning => [meaning]

/-- The characters that one stands for. -/
private def multiple? (c : Char) : Option (List Char) :=
  multipleForms.findSome? fun (first, row) =>
    if c.toNat < first then none
    else ((row.splitOn " ")[c.toNat - first]?).map String.toList

/-! ## Taking apart -/

/-- The deepest that characters are made of others. -/
private def depthLimit : Nat := 6

private def apart : Nat → Char → List Char
  | 0, c => [c]
  | fuel + 1, c =>
      if c.toNat < 0x80 then [c]
      else
        match syllablePlace? c with
        | some place => syllableLetters place
        | none =>
            match (marked? c).orElse fun _ => (single? c).orElse fun _ => multiple? c with
            | some parts => parts.flatMap (apart fuel)
            | none => [c]

/-- Puts the marks between other characters in the order of their classes. `marks` are
those since the last other character. -/
private def orderMarks (marks : List Char) : List Char → List Char
  | [] => marks.mergeSort fun a b => markClass a ≤ markClass b
  | c :: rest =>
      if markClass c = 0 then
        (marks.mergeSort fun a b => markClass a ≤ markClass b) ++ c :: orderMarks [] rest
      else orderMarks (marks ++ [c]) rest

/-! ## Putting together -/

private def composite? (base mark : Char) : Option Char :=
  (syllable? base mark).orElse fun _ =>
    ((markedForms.lookup mark.toNat).map String.toList).bind (compositeIn? base)

/-- Lets a base take in the marks behind it. `kept` are the marks that it did not take;
one of them keeps those of its class away from the base. -/
private def together (base : Char) (kept : List Char) : List Char → List Char
  | [] => base :: kept
  | c :: rest =>
      let isFree :=
        match kept.getLast? with
        | none => true
        | some last => markClass last < markClass c
      match if isFree then composite? base c else none with
      | some made => together made kept rest
      | none =>
          if markClass c = 0 then base :: kept ++ together c [] rest
          else together base (kept ++ [c]) rest

/-- The usual form of a name. -/
def normalizeName (name : List Char) : List Char :=
  if name.all fun c => c.toNat < 0x80 then name
  else
    match orderMarks [] (name.flatMap (apart depthLimit)) with
    | [] => []
    | base :: rest => together base [] rest

end TorchArchive
