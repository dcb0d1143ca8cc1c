import TorchArchive.Fault

/-!
Cursors: what is left of a text, and where it stands.
-/

namespace TorchArchive.Yaml

open TorchArchive

/-- What is left of a text, with the number of characters before it, the number of
its line and its place in the line. -/
structure Cursor where
  rest : List Char
  index : Nat
  line : Nat
  column : Nat
  deriving Inhabited

/-- A break between lines. -/
def isBreak (c : Char) : Bool :=
  c == '\n' || c == '\r' || c == '\u0085' || c == '\u2028' || c == '\u2029'

/-- What stands behind the last character. -/
def endMark : Char := '\x00'

/-- A break or the end. -/
def isBreakOrEnd (c : Char) : Bool := isBreak c || c == endMark

/-- A blank, a break or the end. -/
def isGap (c : Char) : Bool := c == ' ' || c == '\t' || isBreakOrEnd c

/-- What is wrong with a document. -/
def malformed (detail : String) : Fault := .yaml detail

namespace Cursor

def ofText (text : String) : Cursor := ⟨text.toList, 0, 0, 0⟩

/-- The character so many places ahead. -/
def peek (cursor : Cursor) (ahead : Nat) : Char :=
  (cursor.rest[ahead]?).getD endMark

/-- Moves behind the next character. -/
def step (cursor : Cursor) : Cursor :=
  match cursor.rest with
  | [] => cursor
  | c :: rest =>
      if isBreak c then ⟨rest, cursor.index + 1, cursor.line + 1, 0⟩
      else if c = '\uFEFF' then ⟨rest, cursor.index + 1, cursor.line, cursor.column⟩
      else ⟨rest, cursor.index + 1, cursor.line, cursor.column + 1⟩

/-- Moves behind so many characters. -/
def skip (cursor : Cursor) : Nat → Cursor
  | 0 => cursor
  | n + 1 => cursor.step.skip n

/-- The characters ahead that are of a kind, and the cursor behind them. -/
def span (cursor : Cursor) (kind : Char → Bool) : List Char × Cursor :=
  let taken := cursor.rest.takeWhile kind
  (taken, cursor.skip taken.length)

/-- The cursor behind the characters of a kind. -/
def skipWhile (cursor : Cursor) (kind : Char → Bool) : Cursor := (cursor.span kind).2

/-- Moves behind a break, which gives the text that stands for it. -/
def lineBreak (cursor : Cursor) : List Char × Cursor :=
  match cursor.rest with
  | '\r' :: '\n' :: _ => (['\n'], cursor.skip 2)
  | c :: _ =>
      if c = '\n' ∨ c = '\r' ∨ c = '\u0085' then (['\n'], cursor.step)
      else if isBreak c then ([c], cursor.step)
      else ([], cursor)
  | [] => ([], cursor)

/-- Whether a mark between documents stands ahead, in a line of its own. -/
def atDocumentMark (cursor : Cursor) : Bool :=
  let mark := cursor.rest.take 3
  (mark == ['-', '-', '-'] || mark == ['.', '.', '.']) && isGap (cursor.peek 3)

end Cursor

end TorchArchive.Yaml
