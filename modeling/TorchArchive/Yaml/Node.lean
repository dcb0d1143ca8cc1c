import TorchArchive.Table
import TorchArchive.Yaml.Lexer
import TorchArchive.Yaml.Scalar

/-!
From the tokens of a document to its parts. An alias is replaced by the part that it
names, unless it stands inside of that part.
-/

namespace TorchArchive.Yaml

open TorchArchive

/-- A part of a document, with its tag. -/
inductive Node where
  | scalar (tag text : String)
  | sequence (tag : String) (items : List Node)
  | mapping (tag : String) (entries : List (Node × Node))
  /-- An alias of a mapping or a sequence around it. -/
  | enclosing (isMapping : Bool)

instance : Inhabited Node := ⟨.enclosing false⟩

namespace Node

/-- The tokens ahead, and what the names in them stand for. -/
private structure State where
  tokens : List Token
  anchors : Table String Node
  handles : Table String String

private abbrev Reading := StateT State (Except Fault)

/-! ## Tokens -/

private def peek? : Reading (Option Token) := do return (← get).tokens.head?

private def advance : Reading Unit :=
  modify fun state => { state with tokens := state.tokens.tail }

/-- Moves behind a token if it is ahead. -/
private def accept (token : Token) : Reading Bool := do
  if (← peek?) == some token then
    advance
    return true
  else return false

private def demand (token : Token) (detail : String) : Reading Unit := do
  if !(← accept token) then throw (malformed detail)

/-- Whether one of some tokens is ahead. -/
private def atAny (tokens : List Token) : Reading Bool := do
  return (← peek?).any tokens.contains

/-! ## Properties -/

private def acceptAnchor : Reading (Option String) := do
  match ← peek? with
  | some (.anchor name) => advance; return some name
  | _ => return none

private def acceptTag : Reading (Option Tag) := do
  match ← peek? with
  | some (.tag tag) => advance; return some tag
  | _ => return none

/-- The tag that a written tag stands for. -/
private def meaning (tag : Tag) : Reading String := do
  match tag.handle with
  | none => return tag.suffix
  | some handle =>
      match (← get).handles.get? handle with
      | some start => return start ++ tag.suffix
      | none => throw (malformed s!"found undefined tag handle '{handle}'")

/-- The anchor and the tag of a part, in either order. -/
private def properties : Reading (Option String × Option String) := do
  let anchor ← acceptAnchor
  let tag ← acceptTag
  let anchor ← if anchor.isNone then acceptAnchor else pure anchor
  return (anchor, ← tag.mapM meaning)

/-- The tag of a collection. -/
private def collectionTag (tag : Option String) (usual : String) : String :=
  match tag with
  | none => standardTag usual
  | some "!" => standardTag usual
  | some tag => tag

/-- The tag of a scalar, which its text decides if it is plain or has a bare tag. -/
private def scalarTag (tag : Option String) (plain : Bool) (text : String) : String :=
  match tag with
  | none => if plain then implicitTag text else standardTag "str"
  | some "!" => implicitTag text
  | some tag => tag

private def empty : Node := scalar (standardTag "null") ""

/-- Names a part. -/
private def name (anchor : Option String) (node : Node) : Reading Node := do
  match anchor with
  | none => return node
  | some anchor =>
      modify fun state => { state with anchors := state.anchors.insert anchor node }
      return node

/-- Demands that a name is not taken. -/
private def demandNew (anchor : Option String) : Reading Unit := do
  if anchor.any (← get).anchors.contains then
    throw (malformed "found duplicate anchor")

/-! ## Parts -/

/-- Reads a part, or nothing in front of tokens that cannot begin one. -/
private def orEmpty (others : List Token) (node : Reading Node) : Reading Node := do
  if ← atAny others then return empty else node

mutual

/-- Reads a part. Blocks may begin where `block` says so; the items of a sequence may
stand at the column of its key if `indentless` does. -/
private def node (block indentless : Bool) : Nat → Reading Node
  | 0 => throw (malformed "unexpected end of stream")
  | fuel + 1 => do
      match ← peek? with
      | some (.aliasOf name) =>
          advance
          match (← get).anchors.get? name with
          | some node => return node
          | none => throw (malformed s!"found undefined alias '{name}'")
      | _ =>
          let (anchor, tag) ← properties
          demandNew anchor
          let sequence (items : Reading (List Node)) : Reading Node := do
            let _ ← name anchor (enclosing false)
            name anchor (sequence (collectionTag tag "seq") (← items))
          let mapping (entries : Reading (List (Node × Node))) : Reading Node := do
            let _ ← name anchor (enclosing true)
            name anchor (mapping (collectionTag tag "map") (← entries))
          match ← peek?, block, indentless with
          | some .blockEntry, _, true => sequence (indentlessItems fuel)
          | some (.scalar plain text), _, _ =>
              advance
              name anchor (scalar (scalarTag tag plain text) text)
          | some .flowSequenceStart, _, _ =>
              advance
              sequence (flowItems true fuel)
          | some .flowMappingStart, _, _ =>
              advance
              mapping (flowEntries true fuel)
          | some .blockSequenceStart, true, _ =>
              advance
              sequence (blockItems fuel)
          | some .blockMappingStart, true, _ =>
              advance
              mapping (blockEntries fuel)
          | _, _, _ =>
              if anchor.isSome || tag.isSome then
                name anchor (scalar (scalarTag tag true "") "")
              else throw (malformed "expected the node content")

private def blockItems : Nat → Reading (List Node)
  | 0 => throw (malformed "unexpected end of stream")
  | fuel + 1 => do
      if ← accept .blockEntry then
        let item ← orEmpty [.blockEntry, .blockEnd] (node true false fuel)
        return item :: (← blockItems fuel)
      else
        demand .blockEnd "expected the end of a block"
        return []

private def indentlessItems : Nat → Reading (List Node)
  | 0 => throw (malformed "unexpected end of stream")
  | fuel + 1 => do
      if ← accept .blockEntry then
        let item ← orEmpty [.blockEntry, .key false, .value, .blockEnd]
          (node true false fuel)
        return item :: (← indentlessItems fuel)
      else return []

private def blockEntries : Nat → Reading (List (Node × Node))
  | 0 => throw (malformed "unexpected end of stream")
  | fuel + 1 => do
      let part := orEmpty [.key false, .value, .blockEnd] (node true true fuel)
      let hasKey ← accept (.key false)
      if hasKey then
        let key ← part
        let value ← if ← accept .value then part else pure empty
        return (key, value) :: (← blockEntries fuel)
      else
        demand .blockEnd "expected the end of a block"
        return []

/-- Reads the entry behind the mark of its key, inside of brackets that end so. -/
private def flowEntry (ending : Token) : Nat → Reading (Node × Node)
  | 0 => throw (malformed "unexpected end of stream")
  | fuel + 1 => do
      let key ← orEmpty [.value, .flowEntry, ending] (node false false fuel)
      let value ←
        if ← accept .value then
          orEmpty [.flowEntry, ending] (node false false fuel)
        else pure empty
      return (key, value)

private def flowItems (first : Bool) : Nat → Reading (List Node)
  | 0 => throw (malformed "unexpected end of stream")
  | fuel + 1 => do
      if ← accept .flowSequenceEnd then return []
      else
        if !first then demand .flowEntry "expected ',' or ']'"
        if ← accept (.key false) then
          let entry ← flowEntry .flowSequenceEnd fuel
          let item := mapping (standardTag "map") [entry]
          return item :: (← flowItems false fuel)
        else if ← accept .flowSequenceEnd then return []
        else
          let item ← node false false fuel
          return item :: (← flowItems false fuel)

private def flowEntries (first : Bool) : Nat → Reading (List (Node × Node))
  | 0 => throw (malformed "unexpected end of stream")
  | fuel + 1 => do
      if ← accept .flowMappingEnd then return []
      else
        if !first then demand .flowEntry "expected ',' or '\x7d'"
        if ← accept (.key false) then
          let entry ← flowEntry .flowMappingEnd fuel
          return entry :: (← flowEntries false fuel)
        else if ← accept .flowMappingEnd then return []
        else
          let key ← node false false fuel
          return (key, empty) :: (← flowEntries false fuel)

end

/-! ## Documents -/

/-- What the usual handles stand for. -/
private def usualHandles : List (String × String) :=
  [("!", "!"), ("!!", standardTag "")]

/-- Reads the directives in front of a document: at most one for the version, and one
for each handle. -/
private def directives (hasVersion : Bool) (handles : Table String String) :
    Nat → Reading (Table String String)
  | 0 => return handles
  | fuel + 1 => do
      match ← peek? with
      | some (.versionDirective major) =>
          advance
          if hasVersion then throw (malformed "found duplicate YAML directive")
          if major != 1 then throw (malformed "found incompatible YAML document")
          directives true handles fuel
      | some (.tagDirective handle start) =>
          advance
          if handles.contains handle then throw (malformed "duplicate tag handle")
          directives hasVersion (handles.insert handle start) fuel
      | some .otherDirective =>
          advance
          directives hasVersion handles fuel
      | _ => return handles

private def isDirective : Token → Bool
  | .versionDirective _ | .tagDirective _ _ | .otherDirective => true
  | _ => false

/-- Reads the only document of a stream; none if there is no document. -/
private def document (fuel : Nat) : Reading (Option Node) := do
  match ← peek? with
  | none => return none
  | some token =>
      let root ←
        if token == .documentStart || isDirective token then do
          let handles ← directives false .empty fuel
          let handles := usualHandles.foldl
            (fun handles (pair : String × String) =>
              if handles.contains pair.1 then handles
              else handles.insert pair.1 pair.2)
            handles
          modify fun state => { state with handles }
          demand .documentStart "expected the start of a document"
          match ← peek? with
          | none => pure empty
          | some token =>
              if isDirective token || token == .documentStart ||
                  token == .documentEnd then
                pure empty
              else node true false fuel
        else node true false fuel
      modify fun state =>
        { state with tokens := state.tokens.dropWhile (· == .documentEnd) }
      match ← peek? with
      | none => return some root
      | some _ => throw (malformed "expected a single document")

/-- The root of the parts of a document; none if the text holds no document. -/
def ofText (text : String) : Except Fault (Option Node) := do
  let tokens ← tokens text
  let start : State := ⟨tokens, .empty, .ofList usualHandles⟩
  (document (3 * tokens.length + 3)).run' start

end Node

end TorchArchive.Yaml
