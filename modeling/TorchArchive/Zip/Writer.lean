import TorchArchive.Archive.Entry
import TorchArchive.Zip.Format

/-!
Writing zip archives whose entries stand as they are.
-/

namespace TorchArchive.Zip

open TorchArchive

/-- The version that a reader of these archives needs, in tenths. -/
private def neededVersion : Nat := 20

/-- What the records of an entry have in common, from the needed version to the length
of the name and that of the extra fields. -/
private def commonFields (entry : Entry) : List UInt8 :=
  number 2 neededVersion ++ number 2 (1 <<< unicodeFlag) ++ number 2 storedMethod ++
    number 4 0 ++ number 4 (checksum entry.data).toNat ++ number 4 entry.data.size ++
    number 4 entry.data.size ++ number 2 entry.name.utf8ByteSize ++ number 2 0

private def nameBytes (entry : Entry) : List UInt8 := entry.name.toUTF8.toList

/-- The record of an entry with its data. -/
def localRecord (entry : Entry) : List UInt8 :=
  localMark ++ commonFields entry ++ nameBytes entry ++ entry.data.toList

/-- The record of an entry in the directory. -/
def directoryRecord (entry : Entry) (start : Nat) : List UInt8 :=
  directoryMark ++ number 2 neededVersion ++ commonFields entry ++ number 2 0 ++
    number 2 0 ++ number 2 0 ++ number 4 0 ++ number 4 start ++ nameBytes entry

/-- The records of entries and those of their directory, the first of them at a
place. -/
private def records (start : Nat) : List Entry → List UInt8 × List UInt8
  | [] => ([], [])
  | entry :: rest =>
      let own := localRecord entry
      let (others, directory) := records (start + own.length) rest
      (own ++ others, directoryRecord entry start ++ directory)

/-- An archive of entries. -/
def write (entries : List Entry) : ByteArray :=
  let (records, directory) := records 0 entries
  let ending :=
    endMark ++ number 2 0 ++ number 2 0 ++ number 2 entries.length ++
      number 2 entries.length ++ number 4 directory.length ++ number 4 records.length ++
      number 2 0
  ⟨(records ++ directory ++ ending).toArray⟩

end TorchArchive.Zip
