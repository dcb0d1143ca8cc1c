import TorchArchive.Datum
import TorchArchive.Fault

/-!
Printing JSON documents in ASCII: with one entry a line, indented, or on one line.
-/

namespace TorchArchive.Json

open TorchArchive

private def unitEscape (code : Nat) : List Char := '\\' :: 'u' :: hexDigits 4 code

/-- Writes one character of a string; what is not ASCII is written by its UTF-16
units. -/
private def escaped (c : Char) : List Char :=
  match c with
  | '"' => ['\\', '"']
  | '\\' => ['\\', '\\']
  | '\n' => ['\\', 'n']
  | '\r' => ['\\', 'r']
  | '\t' => ['\\', 't']
  | '\x08' => ['\\', 'b']
  | '\x0c' => ['\\', 'f']
  | c =>
      let code := c.toNat
      if 0x20 ≤ code ∧ code < 0x7f then [c]
      else if code < 0x10000 then unitEscape code
      else
        unitEscape (0xd800 + (code - 0x10000) / 0x400) ++
          unitEscape (0xdc00 + (code - 0x10000) % 0x400)

def printString (s : String) : String :=
  String.ofList ('"' :: (s.toList.flatMap escaped ++ ['"']))

private def printFloat (x : Binary64) : String :=
  match x.value with
  | .nan => "NaN"
  | .infinite negative => if negative then "-Infinity" else "Infinity"
  | .finite _ _ => x.text

/-- The text of an atom that JSON knows. -/
private def printAtom? : Atom → Option String
  | .none => some "null"
  | .bool b => some (if b then "true" else "false")
  | .int n => some (integerText n)
  | .float x => some (printFloat x)
  | .str s => some (printString s)
  | _ => none

/-- The name of an entry: a string, or the text of another atom. -/
private def printKey? : Datum → Option String
  | .atom (.str s) => some (printString s)
  | .atom atom => (printAtom? atom).map printString
  | _ => none

private def unprintable (datum : Datum) : Fault :=
  .type s!"Object of type {datum.typeName} is not JSON serializable"

/-- How entries are set apart: on one line, or on lines of their own that are
indented by so many spaces for each level. -/
inductive Layout where
  | line
  | indented (spaces : Nat)

/-- What stands in front of an entry at a depth. -/
private def Layout.lead : Layout → Nat → String
  | line, _ => ""
  | indented spaces, depth =>
      String.ofList ('\n' :: List.replicate (spaces * depth) ' ')

/-- What stands between two entries at a depth. -/
private def Layout.between (layout : Layout) (depth : Nat) : String :=
  match layout with
  | line => ", "
  | indented _ => "," ++ layout.lead depth

private def enclosed (opening closing : String) (layout : Layout) (depth : Nat) :
    List String → String
  | [] => opening ++ closing
  | entries =>
      opening ++ layout.lead (depth + 1) ++
        (layout.between (depth + 1)).intercalate entries ++
        layout.lead depth ++ closing

mutual

private def printValue (layout : Layout) (depth : Nat) : Datum → Except Fault String
  | .atom atom =>
      match printAtom? atom with
      | some text => .ok text
      | none => .error (unprintable (.atom atom))
  | .list items => do
      return enclosed "[" "]" layout depth (← printItems layout (depth + 1) items)
  | .tuple items => do
      return enclosed "[" "]" layout depth (← printItems layout (depth + 1) items)
  | .dict _ entries => do
      return enclosed "\x7b" "\x7d" layout depth
        (← printEntries layout (depth + 1) entries)
  | .set frozen items => .error (unprintable (.set frozen items))
  | .object name text handle => .error (unprintable (.object name text handle))
  | .cycle _ => .error (.value "Circular reference detected")

private def printItems (layout : Layout) (depth : Nat) :
    List Datum → Except Fault (List String)
  | [] => .ok []
  | item :: rest => do
      let line ← printValue layout depth item
      return line :: (← printItems layout depth rest)

private def printEntries (layout : Layout) (depth : Nat) :
    List (Datum × Datum) → Except Fault (List String)
  | [] => .ok []
  | (key, value) :: rest => do
      match printKey? key with
      | none =>
          throw (.type
            s!"keys must be str, int, float, bool or None, not {key.typeName}")
      | some name =>
          let text ← printValue layout depth value
          return (name ++ ": " ++ text) :: (← printEntries layout depth rest)

end

/-- Prints a document. -/
def print (layout : Layout) (datum : Datum) : Except Fault String :=
  printValue layout 0 datum

end TorchArchive.Json
