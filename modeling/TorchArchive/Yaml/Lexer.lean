import TorchArchive.Number.Decimal
import TorchArchive.Yaml.Text

/-!
From the text of a YAML document to tokens. The lexer knows the columns of the open
blocks and the number of open brackets. A key is known only by the colon behind it, so
each place where one may begin is remembered until its line ends.
-/

namespace TorchArchive.Yaml

open TorchArchive

/-! ## Kinds of tokens

Where a mapping may turn out to begin, a slot is left that is filled when a colon shows it. -/

/-- A tag as it is written: a handle, unless the tag is given whole, and a suffix. -/
structure Tag where
  handle : Option String
  suffix : String
  deriving DecidableEq, Inhabited

inductive Token where
  /-- A place where a key may begin; nothing if none does. -/
  | slot
  | versionDirective (major : Nat)
  | tagDirective (handle suffix : String)
  | otherDirective
  | documentStart
  | documentEnd
  | blockSequenceStart
  | blockMappingStart
  | blockEnd
  | flowSequenceStart
  | flowSequenceEnd
  | flowMappingStart
  | flowMappingEnd
  | blockEntry
  | flowEntry
  /-- A key; it may begin a block mapping. -/
  | key (beginsMapping : Bool)
  | value
  | aliasOf (name : String)
  | anchor (name : String)
  | tag (tag : Tag)
  | scalar (plain : Bool) (text : String)
  deriving DecidableEq, Inhabited

/-! ## What was read -/

/-- A place where a key may begin. -/
private structure KeyPlace where
  /-- The number of brackets that were open. -/
  level : Nat
  /-- The place of its slot among the tokens. -/
  slot : Nat
  /-- Whether only a key can stand there. -/
  required : Bool
  start : Cursor

/-- What has been read and what is ahead. -/
private structure Lexer where
  cursor : Cursor
  tokens : Array Token
  /-- The column of the innermost block; one less than the first if none is open. -/
  indent : Int
  /-- The columns of the blocks around it. -/
  outer : List Int
  /-- The number of open brackets. -/
  level : Nat
  /-- Whether a key may begin ahead. -/
  keyAllowed : Bool
  places : List KeyPlace

namespace Lexer

private def start (text : String) : Lexer :=
  ⟨.ofText text, #[], -1, [], 0, true, []⟩

private def inFlow (lexer : Lexer) : Bool := lexer.level != 0

private def push (lexer : Lexer) (token : Token) : Lexer :=
  { lexer with tokens := lexer.tokens.push token }

private def allowKey (lexer : Lexer) (allowed : Bool) : Lexer :=
  { lexer with keyAllowed := allowed }

/-- Pushes the token of an indicator of so many characters and moves behind it. -/
private def indicator (lexer : Lexer) (width : Nat) (token : Token) : Lexer :=
  { lexer.push token with cursor := lexer.cursor.skip width }

/-! ## Places of keys -/

private def missingColon : Fault := malformed "could not find expected ':'"

/-- The longest key without a mark of its own, in characters. -/
private def keyLimit : Nat := 1024

/-- Forgets the places whose line has ended, or that are too far behind. -/
private def forgetStale (lexer : Lexer) : Except Fault Lexer :=
  let isStale (place : KeyPlace) : Bool :=
    place.start.line != lexer.cursor.line ||
      keyLimit < lexer.cursor.index - place.start.index
  if lexer.places.any fun place => isStale place && place.required then
    .error missingColon
  else .ok { lexer with places := lexer.places.filter fun place => !isStale place }

/-- Forgets the place within the innermost brackets. -/
private def forgetPlace (lexer : Lexer) : Except Fault Lexer :=
  if lexer.places.any fun place => place.level == lexer.level && place.required then
    .error missingColon
  else
    .ok { lexer with
      places := lexer.places.filter fun place => place.level != lexer.level }

/-- Remembers that a key may begin here. -/
private def keepPlace (lexer : Lexer) : Except Fault Lexer := do
  if lexer.keyAllowed then
    let lexer ← lexer.forgetPlace
    let place : KeyPlace :=
      { level := lexer.level
        slot := lexer.tokens.size
        required := !lexer.inFlow && lexer.indent == lexer.cursor.column
        start := lexer.cursor }
    return { lexer.push .slot with places := place :: lexer.places }
  else return lexer

/-! ## Indentation -/

/-- The innermost block that is left once all blocks behind a column are closed, the
blocks around it and the number of closed ones. -/
private def unwound (column indent : Int) : List Int → Int × List Int × Nat
  | [] => (indent, [], 0)
  | next :: outer =>
      if column < indent then
        let (indent, outer, closed) := unwound column next outer
        (indent, outer, closed + 1)
      else (indent, next :: outer, 0)

/-- Closes the blocks that stand behind a column. -/
private def unwind (lexer : Lexer) (column : Int) : Lexer :=
  if lexer.inFlow then lexer
  else
    let (indent, outer, closed) := unwound column lexer.indent lexer.outer
    { lexer with
      tokens := lexer.tokens ++ Array.replicate closed Token.blockEnd
      indent, outer }

/-- Opens a block at a column, unless one is open there. -/
private def opened (lexer : Lexer) (column : Nat) : Option Lexer :=
  if lexer.indent < column then
    some { lexer with indent := column, outer := lexer.indent :: lexer.outer }
  else none

/-- Opens a block at the cursor, with its token, unless one is open there. -/
private def openBlock (lexer : Lexer) (token : Token) : Lexer :=
  match lexer.opened lexer.cursor.column with
  | some lexer => lexer.push token
  | none => lexer

/-! ## Blanks -/

/-- Moves to the next token, behind blanks, comments and breaks. -/
private def skipGaps : Nat → Lexer → Lexer
  | 0, lexer => lexer
  | fuel + 1, lexer =>
      let cursor := lexer.cursor.skipWhile (· == ' ')
      let cursor :=
        if cursor.peek 0 == '#' then cursor.skipWhile fun c => !isBreakOrEnd c
        else cursor
      if isBreak (cursor.peek 0) then
        skipGaps fuel
          { lexer with
            cursor := cursor.lineBreak.2
            keyAllowed := lexer.keyAllowed || !lexer.inFlow }
      else { lexer with cursor }

/-! ## Words -/

private def isWordChar (c : Char) : Bool :=
  c.isAlphanum || c == '-' || c == '_'

/-- A word of letters, digits, hyphens and underscores. -/
private def word (cursor : Cursor) : Except Fault (String × Cursor) :=
  let (letters, cursor) := cursor.span isWordChar
  if letters.isEmpty then .error (malformed "expected letters or digits")
  else .ok (String.ofList letters, cursor)

/-- Demands a blank or the end of the line ahead. -/
private def gapAhead (cursor : Cursor) : Except Fault Cursor :=
  if cursor.peek 0 == ' ' || isBreakOrEnd (cursor.peek 0) then .ok cursor
  else .error (malformed "expected a blank or the end of the line")

/-- The name of an anchor or an alias, behind its indicator. -/
private def anchorName (cursor : Cursor) : Except Fault (String × Cursor) := do
  let (name, cursor) ← word cursor.step
  if isGap (cursor.peek 0) || "?:,]\x7d%@\x60".contains (cursor.peek 0) then
    return (name, cursor)
  else throw (malformed "expected letters or digits")

/-! ## Tags -/

/-- A handle: exclamation marks with or without a word between them. -/
private def tagHandle (cursor : Cursor) : Except Fault (String × Cursor) :=
  if cursor.peek 0 != '!' then .error (malformed "expected '!'")
  else if cursor.peek 1 == ' ' then .ok ("!", cursor.step)
  else
    let (letters, next) := cursor.step.span isWordChar
    if next.peek 0 == '!' then
      .ok ("!" ++ String.ofList letters ++ "!", next.step)
    else .error (malformed "expected '!'")

private def isTagChar (c : Char) : Bool :=
  c.isAlphanum || "-;/?:@&=+$,_.!~*'()[]%".contains c

/-- The bytes that stand escaped ahead. -/
private def escapedBytes : Nat → Cursor → Except Fault (List UInt8 × Cursor)
  | 0, cursor => .ok ([], cursor)
  | fuel + 1, cursor =>
      if cursor.peek 0 != '%' then .ok ([], cursor)
      else
        match hexValue? (cursor.peek 1), hexValue? (cursor.peek 2) with
        | some high, some low => do
            let (rest, next) ← escapedBytes fuel (cursor.skip 3)
            return ((16 * high + low).toUInt8 :: rest, next)
        | _, _ => .error (malformed "expected hexadecimal digits")

private def tagPieces : Nat → Cursor → Except Fault (String × Cursor)
  | 0, cursor => .ok ("", cursor)
  | fuel + 1, cursor =>
      let c := cursor.peek 0
      if c == '%' then do
        let (bytes, next) ← escapedBytes (fuel + 1) cursor
        match String.fromUTF8? (ByteArray.mk bytes.toArray) with
        | none => throw (malformed "invalid escape in a tag")
        | some piece =>
            let (rest, next) ← tagPieces fuel next
            return (piece ++ rest, next)
      else if isTagChar c then do
        let (rest, next) ← tagPieces fuel cursor.step
        return (c.toString ++ rest, next)
      else .ok ("", cursor)

/-- The text of a tag or of what a handle stands for. -/
private def tagText (cursor : Cursor) : Except Fault (String × Cursor) :=
  if isTagChar (cursor.peek 0) then tagPieces cursor.rest.length cursor
  else .error (malformed "expected a tag")

/-- A tag, from its exclamation mark on. -/
private def tag (cursor : Cursor) : Except Fault (Tag × Cursor) := do
  let (tag, cursor) ←
    if cursor.peek 1 == '<' then do
      let (suffix, cursor) ← tagText (cursor.skip 2)
      if cursor.peek 0 != '>' then throw (malformed "expected '>'")
      pure ((⟨none, suffix⟩ : Tag), cursor.step)
    else if isGap (cursor.peek 1) then
      pure ((⟨none, "!"⟩ : Tag), cursor.step)
    else do
      let ahead := cursor.step.rest.takeWhile fun c =>
        c != ' ' && !isBreakOrEnd c
      let (handle, cursor) ←
        if ahead.contains '!' then tagHandle cursor else pure ("!", cursor.step)
      let (suffix, cursor) ← tagText cursor
      pure ((⟨some handle, suffix⟩ : Tag), cursor)
  return (tag, ← gapAhead cursor)

/-! ## Directives -/

private def number (cursor : Cursor) : Except Fault (Nat × Cursor) :=
  let (digits, cursor) := cursor.span fun c => '0' ≤ c && c ≤ '9'
  if digits.isEmpty then .error (malformed "expected a digit")
  else .ok (natOfDigits digits, cursor)

/-- The version behind the name of its directive. -/
private def versionDirective (cursor : Cursor) : Except Fault (Token × Cursor) := do
  let (major, cursor) ← number (cursor.skipWhile (· == ' '))
  if cursor.peek 0 != '.' then throw (malformed "expected a digit or '.'")
  let (_, cursor) ← number cursor.step
  return (.versionDirective major, ← gapAhead cursor)

/-- A handle and what it stands for, behind the name of their directive. -/
private def tagDirective (cursor : Cursor) : Except Fault (Token × Cursor) := do
  let (handle, cursor) ← tagHandle (cursor.skipWhile (· == ' '))
  if cursor.peek 0 != ' ' then throw (malformed "expected a blank")
  let (meaning, cursor) ← tagText (cursor.skipWhile (· == ' '))
  return (.tagDirective handle meaning, ← gapAhead cursor)

/-- A directive with the rest of its line, from its percent sign on. -/
private def directive (cursor : Cursor) : Except Fault (Token × Cursor) := do
  let (name, cursor) ← word cursor.step
  let cursor ← gapAhead cursor
  let (token, cursor) ←
    match name with
    | "YAML" => versionDirective cursor
    | "TAG" => tagDirective cursor
    | _ => pure (.otherDirective, cursor.skipWhile fun c => !isBreakOrEnd c)
  let cursor := cursor.skipWhile (· == ' ')
  let cursor :=
    if cursor.peek 0 == '#' then cursor.skipWhile fun c => !isBreakOrEnd c else cursor
  if isBreakOrEnd (cursor.peek 0) then return (token, cursor.lineBreak.2)
  else throw (malformed "expected a comment or a line break")

/-! ## Tokens -/

/-- Leaves all blocks, in front of a mark that stands at the start of a line. -/
private def leaveBlocks (lexer : Lexer) : Except Fault Lexer := do
  return (← (lexer.unwind (-1)).forgetPlace).allowKey false

private def openBracket (lexer : Lexer) (token : Token) : Except Fault Lexer := do
  let lexer := (← lexer.keepPlace).indicator 1 token
  return { lexer with level := lexer.level + 1, keyAllowed := true }

private def closeBracket (lexer : Lexer) (token : Token) : Except Fault Lexer := do
  let lexer := (← lexer.forgetPlace).indicator 1 token
  if lexer.level == 0 then throw (malformed "unexpected bracket")
  return { lexer with level := lexer.level - 1, keyAllowed := false }

/-- Demands that a mark, if it is no bracket's, stands where a key might. -/
private def demandKey (lexer : Lexer) (detail : String) : Except Fault Lexer :=
  if !lexer.inFlow && !lexer.keyAllowed then .error (malformed detail)
  else .ok lexer

private def entryMark (lexer : Lexer) : Except Fault Lexer := do
  let lexer ← lexer.demandKey "sequence entries are not allowed here"
  let lexer :=
    if lexer.inFlow then lexer else lexer.openBlock .blockSequenceStart
  return (← (lexer.allowKey true).forgetPlace).indicator 1 .blockEntry

private def keyMark (lexer : Lexer) : Except Fault Lexer := do
  let lexer ← lexer.demandKey "mapping keys are not allowed here"
  let lexer :=
    if lexer.inFlow then lexer else lexer.openBlock .blockMappingStart
  let lexer ← (lexer.allowKey !lexer.inFlow).forgetPlace
  return lexer.indicator 1 (.key false)

private def valueMark (lexer : Lexer) : Except Fault Lexer := do
  match lexer.places.find? fun place => place.level == lexer.level with
  | some place =>
      let opened :=
        if lexer.inFlow then none else lexer.opened place.start.column
      let lexer := opened.getD lexer
      return { lexer with
        tokens := lexer.tokens.setIfInBounds place.slot (.key opened.isSome)
        places := lexer.places.filter fun place => place.level != lexer.level
        keyAllowed := false }
        |>.indicator 1 .value
  | none =>
      let lexer ← lexer.demandKey "mapping values are not allowed here"
      let lexer :=
        if lexer.inFlow then lexer else lexer.openBlock .blockMappingStart
      let lexer ← (lexer.allowKey !lexer.inFlow).forgetPlace
      return lexer.indicator 1 .value

/-- A token that may be a key or stand in front of one. -/
private def item (lexer : Lexer) (read : Cursor → Except Fault (Token × Cursor)) :
    Except Fault Lexer := do
  let lexer ← lexer.keepPlace
  let (token, cursor) ← read lexer.cursor
  return { lexer.push token with cursor, keyAllowed := false }

private def quotedItem (double : Bool) (cursor : Cursor) :
    Except Fault (Token × Cursor) := do
  let (text, cursor) ← readQuoted double cursor
  return (.scalar false (String.ofList text), cursor)

private def blockItem (lexer : Lexer) (folded : Bool) : Except Fault Lexer := do
  let lexer ← (lexer.allowKey true).forgetPlace
  let (text, cursor) ← readBlock folded lexer.indent lexer.cursor
  return { lexer.push (.scalar false (String.ofList text)) with cursor }

private def plainItem (lexer : Lexer) : Except Fault Lexer := do
  let lexer ← lexer.keepPlace
  let (text, keyAllowed, cursor) :=
    readPlain lexer.inFlow (lexer.indent + 1).toNat lexer.cursor
  return { lexer.push (.scalar true (String.ofList text)) with cursor, keyAllowed }

/-- Whether a plain text begins with a character in front of another one. -/
private def beginsPlain (lexer : Lexer) (c next : Char) : Bool :=
  (!isGap c && !"-?:,[]\x7b\x7d#&*!|>'\"%@\x60".contains c) ||
    (!isGap next && (c == '-' || (!lexer.inFlow && (c == '?' || c == ':'))))

/-- Reads the next token, and says whether there was one. -/
private def next (lexer : Lexer) : Except Fault (Bool × Lexer) := do
  let lexer := skipGaps lexer.cursor.rest.length lexer
  let lexer ← lexer.forgetStale
  let lexer := lexer.unwind lexer.cursor.column
  let cursor := lexer.cursor
  let c := cursor.peek 0
  let ahead := cursor.peek 1
  let atLineStart := cursor.column == 0
  let isMark := lexer.inFlow || isGap ahead
  if c == endMark then return (false, ← lexer.leaveBlocks)
  else
    let lexer ←
      if c == '%' && atLineStart then do
        let lexer ← lexer.leaveBlocks
        let (token, cursor) ← directive cursor
        pure { lexer.push token with cursor }
      else if c == '-' && atLineStart && cursor.atDocumentMark then do
        pure ((← lexer.leaveBlocks).indicator 3 .documentStart)
      else if c == '.' && atLineStart && cursor.atDocumentMark then do
        pure ((← lexer.leaveBlocks).indicator 3 .documentEnd)
      else if c == '[' then lexer.openBracket .flowSequenceStart
      else if c == '\x7b' then lexer.openBracket .flowMappingStart
      else if c == ']' then lexer.closeBracket .flowSequenceEnd
      else if c == '\x7d' then lexer.closeBracket .flowMappingEnd
      else if c == ',' then do
        pure ((← (lexer.allowKey true).forgetPlace).indicator 1 .flowEntry)
      else if c == '-' && isGap ahead then lexer.entryMark
      else if c == '?' && isMark then lexer.keyMark
      else if c == ':' && isMark then lexer.valueMark
      else if c == '*' then
        lexer.item fun cursor => do
          let (name, cursor) ← anchorName cursor
          return (.aliasOf name, cursor)
      else if c == '&' then
        lexer.item fun cursor => do
          let (name, cursor) ← anchorName cursor
          return (.anchor name, cursor)
      else if c == '!' then
        lexer.item fun cursor => do
          let (tag, cursor) ← tag cursor
          return (.tag tag, cursor)
      else if c == '|' && !lexer.inFlow then lexer.blockItem false
      else if c == '>' && !lexer.inFlow then lexer.blockItem true
      else if c == '\'' then lexer.item (quotedItem false)
      else if c == '"' then lexer.item (quotedItem true)
      else if lexer.beginsPlain c ahead then lexer.plainItem
      else throw (malformed "found a character that cannot start any token")
    return (true, lexer)

/-- The tokens that a place among the tokens holds in the end. -/
private def settled : Token → List Token
  | .slot => []
  | .key true => [.blockMappingStart, .key false]
  | token => [token]

private def run : Nat → Lexer → Except Fault (List Token)
  | 0, _ => .error (malformed "unexpected end of stream")
  | fuel + 1, lexer => do
      let (more, lexer) ← lexer.next
      if more then run fuel lexer
      else return lexer.tokens.toList.flatMap settled

end Lexer

/-- Whether a character may stand in a document. -/
def isAllowed (c : Char) : Bool :=
  let code := c.toNat
  c == '\t' || c == '\n' || c == '\r' || code == 0x85 ||
    (0x20 ≤ code && code ≤ 0x7e) || (0xa0 ≤ code && code ≤ 0xd7ff) ||
    (0xe000 ≤ code && code ≤ 0xfffd) || 0x10000 ≤ code

/-- The tokens of a document. -/
def tokens (text : String) : Except Fault (List Token) :=
  if !text.toList.all isAllowed then
    .error (malformed "special characters are not allowed")
  else
    let start := Lexer.start text
    let start :=
      if start.cursor.peek 0 == '\uFEFF' then { start with cursor := start.cursor.step }
      else start
    Lexer.run (text.length + 1) start

end TorchArchive.Yaml
