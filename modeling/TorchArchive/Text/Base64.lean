/-!
Bytes spelled in base sixty-four. Characters that spell nothing are skipped; four
characters spell three bytes, and a group that is cut short is filled up with equals
signs.
-/

namespace TorchArchive.Base64

/-- The six bits that a character spells. -/
def value? (c : Char) : Option Nat :=
  if 'A' ≤ c && c ≤ 'Z' then some (c.toNat - 'A'.toNat)
  else if 'a' ≤ c && c ≤ 'z' then some (c.toNat - 'a'.toNat + 26)
  else if '0' ≤ c && c ≤ '9' then some (c.toNat - '0'.toNat + 52)
  else if c = '+' then some 62
  else if c = '/' then some 63
  else none

/-- The bytes of a text; `count` characters of the group that is being read spelled
`bits`, and `pads` equals signs follow them. -/
private def bytes? (bits count pads : Nat) : List Char → Option (List UInt8)
  | [] => if count = 0 then some [] else none
  | c :: rest =>
      if c = '=' then
        if 2 ≤ count && 4 ≤ count + pads + 1 then some []
        else bytes? bits count (if 2 ≤ count then pads + 1 else pads) rest
      else
        match value? c with
        | none => bytes? bits count pads rest
        | some value =>
            let bits := 64 * bits + value
            match count with
            | 0 => bytes? value 1 0 rest
            | 1 => ((bits / 16).toUInt8 :: ·) <$> bytes? (bits % 16) 2 0 rest
            | 2 => ((bits / 4).toUInt8 :: ·) <$> bytes? (bits % 4) 3 0 rest
            | _ => (bits.toUInt8 :: ·) <$> bytes? 0 0 0 rest

/-- The bytes that an ASCII text spells; none if its last group is cut short. -/
def decode? (text : List Char) : Option ByteArray :=
  if text.all fun c => c.toNat < 128 then
    (bytes? 0 0 0 text).map fun bytes => ⟨bytes.toArray⟩
  else none

end TorchArchive.Base64
