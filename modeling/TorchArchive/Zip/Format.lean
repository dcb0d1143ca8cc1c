import TorchArchive.Initializer.ElementType

/-!
The records of zip archives. An archive is a row of local records, each a header and the
data of an entry, then a directory with a record for each entry, then a record of the
end. Numbers are told lowest byte first. Entries have checksums, and names that are not
marked as Unicode are told in a code page.
-/

namespace TorchArchive

/-! ## Names

The first half of the code page is ASCII. -/

/-- The second half of the code page. -/
private def upperHalf : Array Char :=
  ("ÇüéâäàåçêëèïîìÄÅÉæÆôöòûùÿÖÜ¢£¥₧ƒáíóúñÑªº¿⌐¬½¼¡«»░▒▓│┤╡╢╖╕╣║╗╝╜╛┐" ++
    "└┴┬├─┼╞╟╚╔╩╦╠═╬╧╨╤╥╙╘╒╓╫╪┘┌█▄▌▐▀αßΓπΣσµτΦΘΩδ∞φε∩≡±≥≤⌠⌡÷≈°∙·√ⁿ²■\u00a0").toList.toArray

/-- The character of a byte. -/
def codePageChar (byte : UInt8) : Char :=
  if byte < 128 then Char.ofNat byte.toNat else upperHalf.getD (byte.toNat - 128) ' '

end TorchArchive

namespace TorchArchive.Zip

open TorchArchive

/-! ## Marks -/

def localMark : List UInt8 := [0x50, 0x4b, 3, 4]
def directoryMark : List UInt8 := [0x50, 0x4b, 1, 2]
def endMark : List UInt8 := [0x50, 0x4b, 5, 6]
def wideLocatorMark : List UInt8 := [0x50, 0x4b, 6, 7]
def wideEndMark : List UInt8 := [0x50, 0x4b, 6, 6]

/-! ## Sizes -/

def localSize : Nat := 30
def directorySize : Nat := 46
def endSize : Nat := 22
def wideLocatorSize : Nat := 20
def wideEndSize : Nat := 56

/-- The longest comment behind the record of the end. -/
def longestComment : Nat := 65536

/-! ## Flags and methods -/

def encryptedFlag : Nat := 0
def patchedFlag : Nat := 5
def strongFlag : Nat := 6
def unicodeFlag : Nat := 11

/-- Data that stand as they are. -/
def storedMethod : Nat := 0

/-- Data that are compressed. -/
def deflatedMethod : Nat := 8

/-- The version of a reader that archives may demand, in tenths. -/
def newestVersion : Nat := 63

/-! ## Numbers -/

/-- A number in so many bytes. -/
def number : Nat → Nat → List UInt8
  | 0, _ => []
  | width + 1, n => n.toUInt8 :: number width (n / 256)

/-- Bytes out of others, fewer if those end. -/
def slice (data : ByteArray) (start length : Nat) : ByteArray :=
  data.extract start (start + length)

/-- The number in so many bytes at a place. -/
def numberAt (data : ByteArray) (start width : Nat) : Nat :=
  littleEndian (slice data start width).toList

/-- Whether a mark stands at a place. -/
def hasMark (data : ByteArray) (start : Nat) (mark : List UInt8) : Bool :=
  (slice data start mark.length).toList == mark

/-! ## Checksums

Cyclic redundancy checks of 32 bits. -/

/-- The polynomial of the checks, lowest bit first. -/
private def polynomial : UInt32 := 0xedb88320

private def shifted (sum : UInt32) : Nat → UInt32
  | 0 => sum
  | n + 1 =>
      shifted (if sum &&& 1 == 1 then (sum >>> 1) ^^^ polynomial else sum >>> 1) n

/-- What each byte contributes. -/
private def contributions : Array UInt32 :=
  (Array.range 256).map fun n => shifted n.toUInt32 8

private def extend (sum : UInt32) (byte : UInt8) : UInt32 :=
  contributions.getD ((sum ^^^ byte.toUInt32) &&& 0xff).toNat 0 ^^^ (sum >>> 8)

/-- The checksum of bytes. -/
def checksum (data : ByteArray) : UInt32 :=
  data.foldl extend 0xffffffff ^^^ 0xffffffff

end TorchArchive.Zip
