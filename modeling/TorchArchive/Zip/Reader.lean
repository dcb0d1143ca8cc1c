import TorchArchive.Archive.Entry
import TorchArchive.Zip.Format
import TorchArchive.Zip.Inflate

/-!
Reading zip archives: the record of the end tells where the directory is, the directory
where the entries are. Data in front of an archive move all of it.
-/

namespace TorchArchive.Zip

open TorchArchive

private def damaged (message : String) : Fault := .notArchive message

/-! ## The end -/

/-- Where the directory is told to be. -/
private structure Ending where
  /-- The place of the record of the end. -/
  place : Nat
  directorySize : Nat
  directoryStart : Nat
  /-- The size of what else stands between the directory and that record. -/
  gap : Nat

private def noArchive : Fault := damaged "File is not a zip file"

/-- The last place of a record of the end, among so many before one. -/
private def lastEnd? (data : ByteArray) (place : Nat) : Nat → Option Nat
  | 0 => none
  | n + 1 =>
      if hasMark data place endMark then some place else lastEnd? data (place - 1) n

/-- The place of the record of the end: where it would be without a comment, or else
the last one that may have a comment. -/
private def endPlace? (data : ByteArray) : Option Nat :=
  if data.size < endSize then none
  else
    let last := data.size - endSize
    if hasMark data last endMark && numberAt data (last + 20) 2 == 0 then some last
    else
      let first := last - longestComment
      let place? := lastEnd? data (data.size - 1) (data.size - first)
      place?.filter fun place => place + endSize ≤ data.size

/-- The record of the end, with the wide one in front of it if there is one. -/
private def ending (data : ByteArray) : Except Fault Ending :=
  match endPlace? data with
  | none => .error noArchive
  | some place =>
      let plain : Ending :=
        ⟨place, numberAt data (place + 12) 4, numberAt data (place + 16) 4, 0⟩
      let locator := place - wideLocatorSize
      if place < wideLocatorSize || !hasMark data locator wideLocatorMark then .ok plain
      else if numberAt data (locator + 4) 4 != 0 || 1 < numberAt data (locator + 16) 4 then
        .error (damaged "zipfiles that span multiple disks are not supported")
      else if locator < wideEndSize then .error noArchive
      else
        let start := locator - wideEndSize
        if hasMark data start wideEndMark then
          .ok ⟨place, numberAt data (start + 40) 8, numberAt data (start + 48) 8,
            wideLocatorSize + wideEndSize⟩
        else .ok plain

/-! ## The directory -/

/-- What the directory tells of an entry. -/
private structure Header where
  /-- The name with what stands behind a null character. -/
  fullName : String
  flags : Nat
  method : Nat
  checksum : Nat
  storedSize : Nat
  size : Nat
  start : Int
  deriving Inhabited

/-- The name up to its first null character. -/
private def Header.name (header : Header) : String :=
  String.ofList (header.fullName.toList.takeWhile (· != '\x00'))

private def hasFlag (flags flag : Nat) : Bool := flags.testBit flag

private def decodeName (flags : Nat) (name : ByteArray) : Except Fault String :=
  if hasFlag flags unicodeFlag then
    match String.fromUTF8? name with
    | some text => .ok text
    | none => .error .encoding
  else .ok (String.ofList (name.toList.map codePageChar))

private def fourHexDigits (n : Nat) : String := String.ofList (hexDigits 4 n)

/-- The fields that are too wide for a directory record are told behind it. -/
private def widen (header : Header) (data : ByteArray) : Except Fault Header := do
  let missing (field : String) : Fault :=
    damaged s!"Corrupt zip64 extra field. {field} not found."
  let wide (fieldName : String) (told : Nat) (isWide : Bool) (rest : ByteArray) :
      Except Fault (Nat × ByteArray) :=
    if !isWide then .ok (told, rest)
    else if rest.size < 8 then .error (missing fieldName)
    else .ok (numberAt rest 0 8, rest.extract 8 rest.size)
  let (size, data) ← wide "File size" header.size
    (header.size == 0xffffffff || header.size == 0xffffffffffffffff) data
  let (storedSize, data) ← wide "Compress size" header.storedSize
    (header.storedSize == 0xffffffff) data
  let (start, _) ← wide "Header offset" header.start.toNat
    (header.start == 0xffffffff) data
  return { header with size, storedSize, start := start }

/-- Reads the extra fields of a directory record. -/
private def extraFields : Nat → Header → ByteArray → Except Fault Header
  | 0, header, _ => .ok header
  | fuel + 1, header, extra => do
      if extra.size < 4 then return header
      else
        let kind := numberAt extra 0 2
        let length := numberAt extra 2 2
        if extra.size < length + 4 then
          throw (damaged s!"Corrupt extra field {fourHexDigits kind} (size={length})")
        else
          let header ←
            if kind == 1 then widen header (slice extra 4 length) else pure header
          extraFields fuel header (extra.extract (length + 4) extra.size)

/-- A version in tenths. -/
private def versionText (version : Nat) : String := s!"{version / 10}.{version % 10}"

/-- Reads the records of the directory; `done` bytes of it are behind. -/
private def headers (directory : ByteArray) (size : Nat) :
    Nat → Nat → Except Fault (List Header)
  | 0, _ => .ok []
  | fuel + 1, done => do
      if size ≤ done then return []
      else if directory.size < done + directorySize then
        throw (damaged "Truncated central directory")
      else if !hasMark directory done directoryMark then
        throw (damaged "Bad magic number for central directory")
      else
        let field (place width : Nat) : Nat := numberAt directory (done + place) width
        let flags := field 8 2
        let nameLength := field 28 2
        let extraLength := field 30 2
        let place := done + directorySize
        let fullName ← decodeName flags (slice directory place nameLength)
        if newestVersion < field 6 1 then
          throw (.unsupportedArchive s!"zip file version {versionText (field 6 1)}")
        else
          let header : Header :=
            { fullName, flags
              method := field 10 2
              checksum := field 16 4
              storedSize := field 20 4
              size := field 24 4
              start := field 42 4 }
          let extra := slice directory (place + nameLength) extraLength
          let header ← extraFields (extraLength + 1) header extra
          let rest ← headers directory size fuel
            (place + nameLength + extraLength + field 32 2)
          return header :: rest

/-! ## Entries -/

/-- The place where what follows an entry begins: the next entry, or the directory. -/
private def limit (directoryStart : Nat) (headers : List Header) (index : Nat)
    (header : Header) : Int :=
  let later := headers.zipIdx.filterMap fun (other, place) =>
    if header.start < other.start || (header.start == other.start && place < index) then
      some other.start
    else none
  later.min?.getD directoryStart

/-- The data of an entry. -/
private def entryData (data : ByteArray) (limit : Int) (header : Header) :
    Except Fault ByteArray := do
  let start := header.start.toNat
  if header.start < 0 then throw .invalidPlace
  else if data.size < start + localSize then
    throw (damaged "Truncated file header")
  else if !hasMark data start localMark then
    throw (damaged "Bad magic number for file header")
  let nameLength := numberAt data (start + 26) 2
  let place := start + localSize + nameLength + numberAt data (start + 28) 2
  if hasFlag header.flags patchedFlag then
    throw (.unsupportedArchive "compressed patched data (flag bit 5)")
  if hasFlag header.flags strongFlag then
    throw (.unsupportedArchive "strong encryption (flag bit 6)")
  let name := slice data (start + localSize) nameLength
  if (← decodeName (numberAt data (start + 6) 2) name) != header.fullName then
    throw (damaged (s!"File name in directory {quotedText header.fullName} and header " ++
      s!"{quotedBytes name} differ."))
  if limit < (min place data.size : Int) + header.storedSize then
    throw (damaged
      s!"Overlapped entries: {quotedText header.fullName} (possible zip bomb)")
  if hasFlag header.flags encryptedFlag then
    throw (.encrypted s!"File {quotedText header.name} is encrypted")
  let told := slice data place header.storedSize
  let content ←
    if header.method == storedMethod then pure told
    else if header.method == deflatedMethod then
      match inflate told with
      | .ok content => pure content
      | .error detail => throw (.compression detail)
    else throw (.unsupportedArchive "That compression method is not supported")
  let content := slice content 0 header.size
  if (checksum content).toNat != header.checksum then
    throw (damaged s!"Bad CRC-32 for file {quotedText header.name}")
  return content

/-- The entries of an archive, in the order of its directory. Folders are left out. -/
def read (data : ByteArray) : Except Fault (List Entry) := do
  let ending ← ending data
  let shift : Int :=
    (ending.place : Int) - ending.directorySize - ending.directoryStart - ending.gap
  let directoryStart := ending.directoryStart + shift
  if directoryStart < 0 then throw (damaged "Bad offset for central directory")
  let directory := slice data directoryStart.toNat ending.directorySize
  let headers ← headers directory ending.directorySize (ending.directorySize + 1) 0
  let headers := headers.map fun header => { header with start := header.start + shift }
  let entries ← headers.zipIdx.mapM fun (header, index) => do
    if header.name.endsWith "/" then return none
    else
      let limit := limit directoryStart.toNat headers index header
      return some (⟨header.name, ← entryData data limit header⟩ : Entry)
  return entries.filterMap id

end TorchArchive.Zip
