import TorchArchive.Text.Quoted
import TorchArchive.Yaml.Cursor

/-!
Texts in YAML documents: plain, in quotes or as blocks. A single break between lines
of a text is read as a blank; several are read as one less.
-/

namespace TorchArchive.Yaml

open TorchArchive

/-- What reading a text yields: the text and the cursor behind it. -/
abbrev Spelled := Except Fault (List Char × Cursor)

/-- What stands for the breaks between two lines of a text. -/
private def foldBreaks (first : List Char) (others : List Char) : List Char :=
  if first != ['\n'] then first ++ others
  else if others.isEmpty then [' ']
  else others

/-! ## Quotes -/

/-- Breaks between lines of a quoted text, with the blanks that lead each line. -/
private def quotedBreaks :
    Nat → Cursor → Except Fault (List Char × Cursor)
  | 0, cursor => .ok ([], cursor)
  | fuel + 1, cursor =>
      if cursor.atDocumentMark then .error (malformed "unexpected document separator")
      else
        let cursor := cursor.skipWhile fun c => c == ' ' || c == '\t'
        if isBreak (cursor.peek 0) then do
          let (first, cursor) := cursor.lineBreak
          let (others, cursor) ← quotedBreaks fuel cursor
          return (first ++ others, cursor)
        else .ok ([], cursor)

/-- Blanks and breaks within quotes. -/
private def quotedGap (fuel : Nat) (cursor : Cursor) :
    Except Fault (List Char × Cursor) := do
  let (blanks, cursor) := cursor.span fun c => c == ' ' || c == '\t'
  let c := cursor.peek 0
  if c == endMark then throw (malformed "unexpected end of stream")
  else if isBreak c then
    let (first, cursor) := cursor.lineBreak
    let (others, cursor) ← quotedBreaks fuel cursor
    return (foldBreaks first others, cursor)
  else return (blanks, cursor)

/-- The character that a letter behind a backslash stands for. -/
private def escape? : Char → Option Char
  | '0' => some '\x00'
  | 'a' => some '\x07'
  | 'b' => some '\x08'
  | 't' | '\t' => some '\t'
  | 'n' => some '\n'
  | 'v' => some '\x0b'
  | 'f' => some '\x0c'
  | 'r' => some '\r'
  | 'e' => some '\x1b'
  | ' ' => some ' '
  | '"' => some '"'
  | '\\' => some '\\'
  | '/' => some '/'
  | 'N' => some '\u0085'
  | '_' => some '\u00a0'
  | 'L' => some '\u2028'
  | 'P' => some '\u2029'
  | _ => none

/-- The number of digits behind a letter that stands for a code point. -/
private def codeWidth? : Char → Option Nat
  | 'x' => some 2
  | 'u' => some 4
  | 'U' => some 8
  | _ => none

private def codePoint (digits : List Char) : Except Fault Char :=
  match digits.foldlM (fun n c => (hexValue? c).map fun d => 16 * n + d) 0 with
  | some code =>
      if 0x10ffff < code then .error (.value "not a code point")
      else .ok (Char.ofNat code)
  | none => .error (malformed "expected hexadecimal digits")

/-- What a backslash and the characters behind it stand for. -/
private def escapeSequence (fuel : Nat) (cursor : Cursor) : Spelled := do
  let cursor := cursor.step
  let c := cursor.peek 0
  match escape? c, codeWidth? c with
  | some meaning, _ => return ([meaning], cursor.step)
  | none, some width =>
      let digits := cursor.step.rest.take width
      if digits.length < width then
        throw (malformed "expected hexadecimal digits")
      else return ([← codePoint digits], cursor.skip (width + 1))
  | none, none =>
      if isBreak c then quotedBreaks fuel cursor.lineBreak.2
      else throw (malformed "unknown escape character")

/-- The rest of a text in quotes. -/
private def quotedRest (double : Bool) : Nat → Cursor → Spelled
  | 0, _ => .error (malformed "unexpected end of stream")
  | fuel + 1, cursor => do
      let quote := if double then '"' else '\''
      let c := cursor.peek 0
      let (piece, cursor) ←
        if !double && c == '\'' && cursor.peek 1 == '\'' then
          pure (some ['\''], cursor.skip 2)
        else if c == quote then pure (none, cursor.step)
        else if double && c == '\\' then do
          let (piece, cursor) ← escapeSequence fuel cursor
          pure (some piece, cursor)
        else if isGap c then do
          let (piece, cursor) ← quotedGap fuel cursor
          pure (some piece, cursor)
        else pure (some [c], cursor.step)
      match piece with
      | none => return ([], cursor)
      | some piece =>
          let (rest, cursor) ← quotedRest double fuel cursor
          return (piece ++ rest, cursor)

/-- A text in quotes, from its first quote on. -/
def readQuoted (double : Bool) (cursor : Cursor) : Spelled :=
  quotedRest double (cursor.rest.length + 1) cursor.step

/-! ## Plain texts -/

/-- Whether a plain text goes on so many places ahead. -/
private def goesOn (inFlow : Bool) (c next : Char) : Bool :=
  let special (c : Char) : Bool :=
    c == ',' || c == '[' || c == ']' || c == '\x7b' || c == '\x7d'
  !isGap c && !(c == ':' && (isGap next || inFlow && special next)) &&
    !(inFlow && (special c || c == '?'))

/-- The characters of a plain text within a line. -/
private def plainPiece (inFlow : Bool) : List Char → List Char
  | [] => []
  | c :: rest =>
      if goesOn inFlow c (rest.headD endMark) then c :: plainPiece inFlow rest else []

/-- Breaks between lines of a plain text; none if a document ends there. -/
private def plainBreaks : Nat → Cursor → Option (List Char × Cursor)
  | 0, cursor => some ([], cursor)
  | fuel + 1, cursor =>
      let cursor := cursor.skipWhile (· == ' ')
      if isBreak (cursor.peek 0) then do
        let (first, cursor) := cursor.lineBreak
        if cursor.atDocumentMark then none
        else
          let (others, cursor) ← plainBreaks fuel cursor
          return (first ++ others, cursor)
      else some ([], cursor)

/-- What is between two pieces of a plain text, whether it holds a break, and the
cursor behind it. -/
private def plainGap (fuel : Nat) (cursor : Cursor) : List Char × Bool × Cursor :=
  let (blanks, behind) := cursor.span (· == ' ')
  if isBreak (behind.peek 0) then
    let (first, next) := behind.lineBreak
    if next.atDocumentMark then ([], true, next)
    else
      match plainBreaks fuel next with
      | some (others, next) => (foldBreaks first others, true, next)
      | none => ([], true, endOfBreaks fuel next)
  else (blanks, false, behind)
where
  /-- The cursor in front of the mark that ends a document. -/
  endOfBreaks : Nat → Cursor → Cursor
    | 0, cursor => cursor
    | fuel + 1, cursor =>
        if cursor.atDocumentMark then cursor
        else
          let cursor := cursor.skipWhile (· == ' ')
          if isBreak (cursor.peek 0) then endOfBreaks fuel cursor.lineBreak.2
          else cursor

/-- A plain text and whether a key may begin behind it: so after a break. -/
private def plainRest (inFlow : Bool) (least : Nat) (gap : List Char) (afterBreak : Bool) :
    Nat → Cursor → List Char × Bool × Cursor
  | 0, cursor => ([], afterBreak, cursor)
  | fuel + 1, cursor =>
      let piece :=
        if cursor.peek 0 == '#' then [] else plainPiece inFlow cursor.rest
      if piece.isEmpty then ([], afterBreak, cursor)
      else
        let (space, broken, next) := plainGap fuel (cursor.skip piece.length)
        if space.isEmpty || next.peek 0 == '#' || (!inFlow && next.column < least) then
          (gap ++ piece, broken, next)
        else
          let (rest, afterBreak, next) := plainRest inFlow least space broken fuel next
          (gap ++ piece ++ rest, afterBreak, next)

/-- A plain text, whose further lines stand at a column at least, and whether a key
may begin behind it. -/
def readPlain (inFlow : Bool) (least : Nat) (cursor : Cursor) :
    List Char × Bool × Cursor :=
  plainRest inFlow least [] false (cursor.rest.length + 1) cursor

/-! ## Blocks -/

/-- What is kept of the breaks behind a block. -/
private inductive Chomping where
  | strip
  | clip
  | keep
  deriving DecidableEq

/-- The indicators of a block: what is kept of breaks and the indentation, if they are
told. -/
private def blockIndicators (cursor : Cursor) :
    Except Fault (Chomping × Option Nat × Cursor) := do
  let chomping? (c : Char) : Option Chomping :=
    if c == '+' then some .keep else if c == '-' then some .strip else none
  let digit? (c : Char) : Option Nat :=
    if '0' ≤ c && c ≤ '9' then some (c.toNat - '0'.toNat) else none
  let (chomping, increment, cursor) :=
    match chomping? (cursor.peek 0), digit? (cursor.peek 0) with
    | some chomping, _ =>
        match digit? (cursor.peek 1) with
        | some n => (chomping, some n, cursor.skip 2)
        | none => (chomping, none, cursor.step)
    | none, some n =>
        match chomping? (cursor.peek 1) with
        | some chomping => (chomping, some n, cursor.skip 2)
        | none => (.clip, some n, cursor.step)
    | none, none => (.clip, none, cursor)
  if increment = some 0 then throw (malformed "expected an indentation from 1 to 9")
  else if cursor.peek 0 == ' ' || isBreakOrEnd (cursor.peek 0) then
    return (chomping, increment, cursor)
  else throw (malformed "expected chomping or indentation indicators")

/-- The rest of the line that a block begins in: at most a comment. -/
private def blockHead (cursor : Cursor) : Except Fault Cursor :=
  let cursor := cursor.skipWhile (· == ' ')
  let cursor :=
    if cursor.peek 0 == '#' then cursor.skipWhile fun c => !isBreakOrEnd c else cursor
  if isBreakOrEnd (cursor.peek 0) then .ok cursor.lineBreak.2
  else .error (malformed "expected a comment or a line break")

/-- The empty lines in front of a block, and the largest column among them. -/
private def blockIndentation : Nat → Cursor → Nat → List Char × Nat × Cursor
  | 0, cursor, widest => ([], widest, cursor)
  | fuel + 1, cursor, widest =>
      let c := cursor.peek 0
      if c == ' ' then
        let cursor := cursor.step
        blockIndentation fuel cursor (max widest cursor.column)
      else if isBreak c then
        let (first, cursor) := cursor.lineBreak
        let (others, widest, cursor) := blockIndentation fuel cursor widest
        (first ++ others, widest, cursor)
      else ([], widest, cursor)

/-- Moves up to a column through blanks. -/
private def indentTo (column : Nat) (cursor : Cursor) : Cursor :=
  let blanks := (cursor.rest.takeWhile (· == ' ')).length
  cursor.skip (min blanks (column - cursor.column))

/-- The empty lines between lines of a block. -/
private def blockBreaks (column : Nat) : Nat → Cursor → List Char × Cursor
  | 0, cursor => ([], cursor)
  | fuel + 1, cursor =>
      let cursor := indentTo column cursor
      if isBreak (cursor.peek 0) then
        let (first, cursor) := cursor.lineBreak
        let (others, cursor) := blockBreaks column fuel cursor
        (first ++ others, cursor)
      else ([], cursor)

/-- Whether a line of a block stands ahead. -/
private def atBlockLine (column : Nat) (cursor : Cursor) : Bool :=
  cursor.column == column && cursor.peek 0 != endMark

private def isBlank (c : Char) : Bool := c == ' ' || c == '\t'

/-- The lines of a block: their text, the break behind the last one and the breaks of
the empty lines that follow. -/
private def blockLines (folded : Bool) (column : Nat) :
    Nat → Cursor → List Char × List Char × List Char × Cursor
  | 0, cursor => ([], [], [], cursor)
  | fuel + 1, cursor =>
      let (text, next) := cursor.span fun c => !isBreakOrEnd c
      let (break_, next) := next.lineBreak
      let (empty, next) := blockBreaks column fuel next
      if atBlockLine column next then
        let joint :=
          if folded && break_ == ['\n'] && !isBlank (cursor.peek 0) &&
              !isBlank (next.peek 0) then
            if empty.isEmpty then [' '] else []
          else break_
        let (rest, last, tail, next) := blockLines folded column fuel next
        (text ++ joint ++ empty ++ rest, last, tail, next)
      else (text, break_, empty, next)

/-- A block, from its indicator on, inside of a block at an indentation. -/
def readBlock (folded : Bool) (indent : Int) (cursor : Cursor) : Spelled := do
  let fuel := cursor.rest.length + 1
  let (chomping, increment, cursor) ← blockIndicators cursor.step
  let cursor ← blockHead cursor
  let least := (max 1 (indent + 1)).toNat
  let (empty, column, cursor) :=
    match increment with
    | none =>
        let (empty, widest, cursor) := blockIndentation fuel cursor 0
        (empty, max least widest, cursor)
    | some n =>
        let column := least + n - 1
        let (empty, cursor) := blockBreaks column fuel cursor
        (empty, column, cursor)
  let (text, last, tail, cursor) :=
    if atBlockLine column cursor then
      let (text, last, tail, cursor) := blockLines folded column fuel cursor
      (empty ++ text, last, tail, cursor)
    else ([], [], empty, cursor)
  let ending :=
    match chomping with
    | .strip => []
    | .clip => last
    | .keep => last ++ tail
  return (text ++ ending, cursor)

end TorchArchive.Yaml
