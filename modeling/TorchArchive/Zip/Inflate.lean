/-!
Compressed bytes: blocks of bytes and of references to bytes further back, spelled in
codes whose lengths the blocks tell. A stream that is cut short yields what it holds
up to there.
-/

namespace TorchArchive.Zip

/-! ## Bits -/

/-- The place in a stream of bits, and the bytes that were spelled before it. The
lowest bit of a byte comes first. -/
private structure Stream where
  data : ByteArray
  position : Nat
  out : ByteArray

/-- Why reading stops: the stream ends, or it makes no sense. -/
private inductive Stop where
  | ended
  | invalid (detail : String)

private abbrev Bits := ExceptT Stop (StateM Stream)

private def bit : Bits Nat := do
  let stream ← get
  match stream.data[stream.position / 8]? with
  | none => throw .ended
  | some byte =>
      set { stream with position := stream.position + 1 }
      return (byte.toNat >>> (stream.position % 8)) % 2

/-- A number of so many bits, lowest bit first. -/
private def bits : Nat → Bits Nat
  | 0 => return 0
  | width + 1 => do
      let low ← bit
      return low + 2 * (← bits width)

/-- Moves to the next whole byte. -/
private def align : Bits Unit :=
  modify fun stream => { stream with position := (stream.position + 7) / 8 * 8 }

/-! ## Codes -/

/-- The longest code, in bits. -/
private def longestCode : Nat := 15

/-- A code: how many symbols there are of each length, and the symbols in the order of
their codes. -/
private structure Code where
  counts : List Nat
  symbols : Array Nat

/-- The code in which symbols have the given lengths; those of no length have no
code. -/
private def Code.ofLengths (lengths : List Nat) : Code where
  counts := (List.range longestCode).map fun n => lengths.count (n + 1)
  symbols := ((List.range longestCode).flatMap fun n =>
    (lengths.zipIdx.filter fun entry => entry.1 == n + 1).map (·.2)).toArray

/-- The number of codes that are left unused; none if there are too many symbols. -/
private def Code.unused? (code : Code) : Option Nat :=
  (code.counts.foldlM
    (fun left count => if 2 * left < count then none else some (2 * left - count)) 1)

/-- Whether every code is used. A code of one symbol, or of none, may be incomplete
where that is allowed. -/
private def Code.isUsable (code : Code) (incomplete : Bool) : Bool :=
  match code.unused? with
  | some 0 => true
  | some _ => incomplete && (code.counts.drop 1).all (· == 0)
  | none => false

/-- The symbol whose code is ahead. `code` are the bits that were read, `first` is the
first code of their length and `index` the place of its symbol. -/
private def symbolWithin (symbols : Array Nat) : List Nat → Nat → Nat → Nat → Bits Nat
  | [], _, _, _ => throw (.invalid "invalid code")
  | count :: counts, code, first, index => do
      let code := code + (← bit)
      if code < first + count then return symbols.getD (index + (code - first)) 0
      else
        symbolWithin symbols counts (2 * code) (2 * (first + count)) (index + count)

private def symbol (code : Code) : Bits Nat :=
  symbolWithin code.symbols code.counts 0 0 0

/-! ## References -/

/-- The lengths that symbols stand for, and how many bits follow each. -/
private def lengthForms : List (Nat × Nat) :=
  [(3, 0), (4, 0), (5, 0), (6, 0), (7, 0), (8, 0), (9, 0), (10, 0), (11, 1), (13, 1),
    (15, 1), (17, 1), (19, 2), (23, 2), (27, 2), (31, 2), (35, 3), (43, 3), (51, 3),
    (59, 3), (67, 4), (83, 4), (99, 4), (115, 4), (131, 5), (163, 5), (195, 5),
    (227, 5), (258, 0)]

/-- The distances that symbols stand for, and how many bits follow each. -/
private def distanceForms : List (Nat × Nat) :=
  [(1, 0), (2, 0), (3, 0), (4, 0), (5, 1), (7, 1), (9, 2), (13, 2), (17, 3), (25, 3),
    (33, 4), (49, 4), (65, 5), (97, 5), (129, 6), (193, 6), (257, 7), (385, 7),
    (513, 8), (769, 8), (1025, 9), (1537, 9), (2049, 10), (3073, 10), (4097, 11),
    (6145, 11), (8193, 12), (12289, 12), (16385, 13), (24577, 13)]

private def amount (forms : List (Nat × Nat)) (symbol : Nat) : Bits Nat :=
  match forms[symbol]? with
  | some (least, width) => return least + (← bits width)
  | none => throw (.invalid "invalid reference")

/-- Repeats bytes that stand so far back. -/
private def copyBack (distance : Nat) : Nat → ByteArray → ByteArray
  | 0, out => out
  | n + 1, out =>
      copyBack distance n (out.push ((out[out.size - distance]?).getD 0))

/-! ## Blocks -/

/-- The symbol that ends a block. -/
private def endOfBlock : Nat := 256

private def emit (change : ByteArray → ByteArray) : Bits Unit :=
  modify fun stream => { stream with out := change stream.out }

/-- Reads symbols up to the end of a block. -/
private def spelled (literals distances : Code) : Nat → Bits Unit
  | 0 => throw .ended
  | fuel + 1 => do
      let next ← symbol literals
      if next < endOfBlock then
        emit (·.push next.toUInt8)
        spelled literals distances fuel
      else if next == endOfBlock then return
      else
        let length ← amount lengthForms (next - endOfBlock - 1)
        let distance ← amount distanceForms (← symbol distances)
        if (← get).out.size < distance then
          throw (.invalid "invalid distance too far back")
        else
          emit (copyBack distance length)
          spelled literals distances fuel

/-- The codes of blocks that do not tell them. -/
private def fixedCodes : Code × Code :=
  (.ofLengths (List.replicate 144 8 ++ List.replicate 112 9 ++ List.replicate 24 7 ++
      List.replicate 8 8),
    .ofLengths (List.replicate 30 5))

/-- The order in which the lengths of the codes for lengths are told. -/
private def lengthOrder : List Nat :=
  [16, 17, 18, 0, 8, 7, 9, 6, 10, 5, 11, 4, 12, 3, 13, 2, 14, 1, 15]

/-- Reads so many lengths of codes; `done` are those before them, the last one
first. -/
private def codeLengths (code : Code) (total : Nat) : Nat → List Nat → Bits (List Nat)
  | 0, _ => throw .ended
  | fuel + 1, done => do
      if done.length == total then return done.reverse
      else
        let next ← symbol code
        let more ←
          if next < 16 then pure [next]
          else if next == 16 then
            match done with
            | last :: _ => do pure (List.replicate (3 + (← bits 2)) last)
            | [] => throw (.invalid "invalid bit length repeat")
          else if next == 17 then do pure (List.replicate (3 + (← bits 3)) 0)
          else do pure (List.replicate (11 + (← bits 7)) 0)
        if total < done.length + more.length then
          throw (.invalid "invalid bit length repeat")
        else codeLengths code total fuel (more ++ done)

/-- Reads the codes that a block tells. -/
private def toldCodes : Bits (Code × Code) := do
  let literalCount := (← bits 5) + 257
  let distanceCount := (← bits 5) + 1
  let lengthCount := (← bits 4) + 4
  if 286 < literalCount || 30 < distanceCount then
    throw (.invalid "too many length or distance symbols")
  let told ← (lengthOrder.take lengthCount).mapM fun place => do
    return (place, ← bits 3)
  let lengthCode := Code.ofLengths ((List.range 19).map fun place =>
    (told.lookup place).getD 0)
  if !lengthCode.isUsable false then throw (.invalid "invalid code lengths set")
  let total := literalCount + distanceCount
  let lengths ← codeLengths lengthCode total (total + 1) []
  let literals := Code.ofLengths (lengths.take literalCount)
  let distances := Code.ofLengths (lengths.drop literalCount)
  if (lengths[endOfBlock]?).getD 0 == 0 then
    throw (.invalid "invalid code -- missing end-of-block")
  if !literals.isUsable true then throw (.invalid "invalid literal/lengths set")
  if !distances.isUsable true then throw (.invalid "invalid distances set")
  return (literals, distances)

private def storedBytes : Nat → Bits Unit
  | 0 => return
  | n + 1 => do
      let byte ← bits 8
      emit (·.push byte.toUInt8)
      storedBytes n

/-- Reads bytes that stand as they are. -/
private def stored : Bits Unit := do
  align
  let length ← bits 16
  let complement ← bits 16
  if length + complement != 65535 then throw (.invalid "invalid stored block lengths")
  storedBytes length

/-- Reads blocks up to the last one. -/
private def blocks : Nat → Bits Unit
  | 0 => throw .ended
  | fuel + 1 => do
      let last ← bits 1
      match ← bits 2 with
      | 0 => stored
      | 1 => spelled fixedCodes.1 fixedCodes.2 (fuel + 1)
      | 2 =>
          let (literals, distances) ← toldCodes
          spelled literals distances (fuel + 1)
      | _ => throw (.invalid "invalid block type")
      if last == 1 then return else blocks fuel

/-- The bytes that compressed bytes spell, up to their end if they are cut short. -/
def inflate (data : ByteArray) : Except String ByteArray :=
  match (blocks (8 * data.size + 1)).run ⟨data, 0, .empty⟩ with
  | (.ok (), stream) | (.error .ended, stream) => .ok stream.out
  | (.error (.invalid detail), _) => .error detail

end TorchArchive.Zip
