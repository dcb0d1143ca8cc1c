import TorchArchive.Initializer.Basic

/-!
Decoding initializers. The elements are read from the data in one run and then
laid out in nested lists, row by row; `Initializer.decode` stops behind a limit
and marks every list that it leaves open. Their text has brackets and elements on
lines of their own, indented by depth.
-/

namespace TorchArchive

/-! ## Reading -/

/-- Whether an integer fits in a signed word of 64 bits. -/
def isWord (n : Int) : Bool := -0x8000000000000000 ≤ n && n < 0x8000000000000000

/-- Reads elements from a byte offset on: so many, or all that are left if the
count is negative. -/
def readElements (type : ElementType) (data : Option ByteArray)
    (count offset : Int) : Except Fault (List Atom) :=
  if !isWord count || !isWord offset then .error .overflow
  else
    match data with
    | none => .error (.type "a bytes-like object is required")
    | some data =>
        let size : Int := data.size
        if offset < 0 ∨ size < offset then
          .error (.value "offset must be non-negative and no greater than buffer length")
        else if count < 0 then
          if (size - offset) % type.itemSize = 0 then
            .ok (type.elements data offset.toNat
              ((size - offset) / type.itemSize).toNat)
          else
            .error (.value "buffer size must be a multiple of element size")
        else if size < offset + count * type.itemSize then
          .error (.value "buffer is smaller than requested size")
        else .ok (type.elements data offset.toNat count.toNat)

/-! ## Layout -/

/-- The elements still to be placed, and the number of those placed. -/
structure Cursor where
  rest : List Atom
  placed : Nat

/-- The mark at the end of a list that was left open. -/
def openMark : Datum := .str "..."

namespace Cursor

/-- Places one element. -/
def item (cursor : Cursor) : Except Fault (Datum × Cursor) :=
  match cursor.rest with
  | [] => .error .index
  | a :: rest => .ok (.atom a, ⟨rest, cursor.placed + 1⟩)

/-- Whether more elements were placed than a limit allows. -/
def isBeyond (cursor : Cursor) (limit : Number) : Bool :=
  limit.less (.int cursor.placed)

/-- Fills a list with so many entries, or marks it once the limit is passed. -/
def entries (limit : Number) (entry : Cursor → Except Fault (Datum × Cursor)) :
    Nat → Cursor → Except Fault (List Datum × Cursor)
  | 0, cursor => .ok ([], cursor)
  | n + 1, cursor =>
      if cursor.isBeyond limit then .ok ([openMark], cursor)
      else do
        let (first, cursor) ← entry cursor
        let (others, cursor) ← entries limit entry n cursor
        return (first :: others, cursor)

/-- Lays out a shape: an element for no extents, else a list with an entry of the
inner shape for each step of the first extent. -/
def layout (limit : Number) :
    List Datum → Cursor → Except Fault (Datum × Cursor)
  | [], cursor => cursor.item
  | extent :: inner, cursor => do
      let size ← extent.toInteger
      let (items, cursor) ←
        entries limit (layout limit inner) size.toNat cursor
      return (.list items, cursor)

end Cursor

namespace Initializer

/-- The number of elements to read: all of them, or one more than the limit. -/
def wanted (count limit : Number) : Except Fault Number := do
  let beyond ← limit.plus (.int 1)
  return if beyond.less count then beyond else count

/-- The nested lists of a view. Once more elements than `limit` were placed,
every list still open ends in a mark. -/
def decode (view : Initializer) (limit : Datum) : Except Fault Datum := do
  let name := view.dataType
  match name.bind ElementType.ofName? with
  | none =>
      throw (.key (match name with
        | some name => quotedText name
        | none => "None"))
  | some type =>
      match view.dims with
      | none => throw (.member "a view without dimensions has no extents")
      | some dims =>
          let count ← view.count
          let limit ← limit.toNumber
          let wanted ← wanted (← count.toNumber) limit
          let wanted ← (Datum.atom (.ofNumber wanted)).toInteger
          let offset ← view.offset.toInteger
          let elements ←
            readElements type view.data wanted (offset * type.itemSize)
          let cursor : Cursor := ⟨elements, 0⟩
          match dims with
          | [] =>
              let (items, _) ← cursor.entries limit Cursor.item 1
              match items with
              | item :: _ => return item
              | [] => throw .index
          | dims =>
              let (datum, _) ← cursor.layout limit dims
              return datum

/-- A limit above every number of elements. -/
def noLimit : Datum := .int 0x7fffffffffffffff

/-- All elements of a view, or nothing if it cannot be read. -/
def value (view : Initializer) : Except Fault Datum := do
  match ← view.state with
  | some _ => return .none
  | none => view.decode noLimit

end Initializer

/-! ## Text -/

/-- The text of an element or of a mark. -/
def elementText : Datum → String
  | .atom (.float x) =>
      match x.value with
      | .nan => "NaN"
      | .infinite negative => if negative then "-Infinity" else "Infinity"
      | .finite _ _ => x.text
  | datum => datum.text

private def indented (depth : Nat) (text : String) : String :=
  String.ofList (List.replicate (4 * depth) ' ') ++ text

mutual

/-- The lines of nested lists at a depth, joined. -/
def nestedText (depth : Nat) : Datum → String
  | .list [] => indented depth "[" ++ "\n" ++ indented depth "]"
  | .list items =>
      indented depth "[" ++ "\n" ++
        ",\n".intercalate (nestedTexts (depth + 1) items) ++ "\n" ++
        indented depth "]"
  | datum => indented depth (elementText datum)

private def nestedTexts (depth : Nat) : List Datum → List String
  | [] => []
  | item :: rest => nestedText depth item :: nestedTexts depth rest

end

private theorem nestedTexts_eq_map (depth : Nat) (items : List Datum) :
    nestedTexts depth items = items.map (nestedText depth) := by
  induction items with
  | nil => rfl
  | cons item rest inductionHypothesis =>
      rw [nestedTexts, inductionHypothesis, List.map_cons]

/-- An element stands behind the margin of its depth. -/
theorem toList_nestedText_atom (depth : Nat) (a : Atom) :
    (nestedText depth (.atom a)).toList =
      List.replicate (4 * depth) ' ' ++ (elementText (.atom a)).toList := by
  simp [nestedText, indented]

theorem toList_nestedText_nil (depth : Nat) :
    (nestedText depth (.list [])).toList =
      List.replicate (4 * depth) ' ' ++
        '[' :: '\n' :: (List.replicate (4 * depth) ' ' ++ [']']) := by
  simp [nestedText, indented]

/-- The entries of a list stand between its brackets, one level deeper. -/
theorem toList_nestedText_cons (depth : Nat) (first : Datum) (rest : List Datum) :
    (nestedText depth (.list (first :: rest))).toList =
      List.replicate (4 * depth) ' ' ++
        '[' :: '\n' ::
          ([',', '\n'].intercalate
              ((first :: rest).map fun item => (nestedText (depth + 1) item).toList) ++
            '\n' :: (List.replicate (4 * depth) ' ' ++ [']'])) := by
  simp [nestedText, indented, nestedTexts_eq_map, Function.comp_def]

/-- The text of a view up to its display limit; empty if it cannot be read. -/
def Initializer.text (view : Initializer) : Except Fault String := do
  match ← view.state with
  | some _ => return ""
  | none => return nestedText 0 (← view.decode view.displayLimit)

end TorchArchive
