import Mathlib.Tactic.Linarith
import TorchArchive.Pickle.Reader

/-!
# Written streams

A writer puts one code after the other into a stream.  What it writes is read as the
instructions that the codes stand for.
-/

namespace TorchArchive.Pickle

/-! ## Bytes -/

theorem toList_loop (bytes : List UInt8) (position : Nat) (collected : List UInt8) :
    ByteArray.toList.loop ⟨bytes.toArray⟩ position collected =
      collected.reverse ++ bytes.drop position := by
  rw [ByteArray.toList.loop]
  split
  · rename_i inside
    have short : position < bytes.length := inside
    rw [toList_loop bytes (position + 1)]
    have read : (⟨bytes.toArray⟩ : ByteArray).get! position = bytes[position] := by
      change bytes.toArray[position]! = _
      simp [short]
    rw [read, List.reverse_cons, List.append_assoc, List.singleton_append,
      ← List.drop_eq_getElem_cons short]
  · rename_i outside
    have long : bytes.length ≤ position := Nat.le_of_not_lt outside
    rw [List.drop_eq_nil_of_le long, List.append_nil]
termination_by bytes.length - position

theorem toList_ofList (bytes : List UInt8) : (⟨bytes.toArray⟩ : ByteArray).toList = bytes := by
  rw [ByteArray.toList, toList_loop, List.reverse_nil, List.nil_append, List.drop_zero]

/-- The bytes of a number, the least significant first. -/
def littleBytes : Nat → Nat → List UInt8
  | 0, _ => []
  | width + 1, n => n.toUInt8 :: littleBytes width (n / 256)

theorem length_littleBytes (width n : Nat) : (littleBytes width n).length = width := by
  induction width generalizing n with
  | zero => rfl
  | succ width inductionHypothesis =>
      rw [littleBytes, List.length_cons, inductionHypothesis]

theorem littleEndian_littleBytes {width n : Nat} (small : n < 256 ^ width) :
    littleEndian (littleBytes width n) = n := by
  induction width generalizing n with
  | zero =>
      rw [Nat.pow_zero] at small
      exact (Nat.lt_one_iff.mp small).symm
  | succ width inductionHypothesis =>
      have quotient : n / 256 < 256 ^ width := by
        rw [Nat.pow_succ] at small
        exact Nat.div_lt_of_lt_mul (by rwa [Nat.mul_comm] at small)
      rw [littleBytes, littleEndian, inductionHypothesis quotient]
      exact Nat.mod_add_div n 256

/-- A number between the bounds of a word is the one that its word denotes. -/
theorem twosComplement_word {n : Int} (low : -2 ^ 31 ≤ n) (high : n < 2 ^ 31) :
    twosComplement 32 (n % 2 ^ 32).toNat = n := by
  rw [twosComplement]
  have power : Nat.pow 2 (32 - 1) = 2147483648 := by decide
  have whole : Nat.pow 2 32 = 4294967296 := by decide
  rw [power, whole]
  norm_num at low high ⊢
  split <;> omega

/-! ## Texts -/

/-- The bytes of a text. -/
def textBytes (text : String) : List UInt8 := text.toList.flatMap String.utf8EncodeChar

theorem fromUTF8?_textBytes (text : String) :
    String.fromUTF8? ⟨(textBytes text).toArray⟩ = some text := by
  have same : (⟨(textBytes text).toArray⟩ : ByteArray) = text.toByteArray := by
    rw [← String.utf8Encode_toList, List.utf8Encode, textBytes]
    apply ByteArray.ext
    apply Array.toList_inj.mp
    rw [List.toList_data_toByteArray]
  rw [same, String.fromUTF8?, dif_pos text.isValidUTF8]
  rfl

theorem newline_of_mem_textBytes {text : String} (member : 10 ∈ textBytes text) :
    '\n' ∈ text.toList := by
  obtain ⟨c, inside, byte⟩ := List.mem_flatMap.mp member
  suffices c = '\n' from this ▸ inside
  -- Only the byte of a single character of its own is less than 128.
  have other (n : Nat) (low : 128 ≤ n) (high : n < 256) : (10 : UInt8) ≠ UInt8.ofNat n := by
    intro same
    have values := congrArg UInt8.toNat same
    rw [UInt8.toNat_ofNat'] at values
    change 10 = n % 256 at values
    omega
  rw [String.utf8EncodeChar] at byte
  split at byte
  · rename_i small
    have value := congrArg UInt8.toNat (List.mem_singleton.mp byte)
    rw [UInt8.toNat_ofNat'] at value
    change 10 = c.val.toNat % 256 at value
    exact Char.ext (UInt32.toNat_inj.mp (show c.val.toNat = 10 by omega))
  · split at byte
    · rename_i small
      simp only [List.mem_cons, List.not_mem_nil, or_false] at byte
      rcases byte with same | same <;> exact absurd same (other _ (by omega) (by omega))
    · split at byte <;> simp only [List.mem_cons, List.not_mem_nil, or_false] at byte
      · rcases byte with same | same | same <;>
          exact absurd same (other _ (by omega) (by omega))
      · rcases byte with same | same | same | same <;>
          exact absurd same (other _ (by omega) (by omega))

theorem textBytes_ne_nil {text : String} (nonempty : text ≠ "") : textBytes text ≠ [] := by
  intro none_
  apply nonempty
  apply String.toList_injective
  cases chars : text.toList with
  | nil => rfl
  | cons c rest =>
      rw [textBytes, chars, List.flatMap_cons] at none_
      exact absurd (List.append_eq_nil_iff.mp none_).1 String.utf8EncodeChar_ne_nil

/-! ## Codes -/

/-- What a writer puts into a stream at a time. -/
inductive Code where
  | global (module name : String)
  | mark
  | tuple
  | emptyTuple
  | emptyDict
  | emptyList
  | appends
  | setItems
  | newObject
  | reduce
  | build
  | persistent
  | text (content : String)
  | int (n : Int)
  /-- A floating-point number, given by its word. -/
  | float (word : UInt64)
  | bool (b : Bool)
  | none

namespace Code

/-- The bytes of a code.  An integer has to be one of 32 bits, and the size of a text too. -/
def bytes? : Code → Option (List UInt8)
  | global module name => some (0x63 :: (textBytes module ++ 10 :: (textBytes name ++ [10])))
  | mark => some [0x28]
  | tuple => some [0x74]
  | emptyTuple => some [0x29]
  | emptyDict => some [0x7d]
  | emptyList => some [0x5d]
  | appends => some [0x65]
  | setItems => some [0x75]
  | newObject => some [0x81]
  | reduce => some [0x52]
  | build => some [0x62]
  | persistent => some [0x51]
  | text content =>
      let size := (textBytes content).length
      if size < 2 ^ 32 then some (0x58 :: (littleBytes 4 size ++ textBytes content))
      else Option.none
  | int n =>
      if -2 ^ 31 ≤ n ∧ n < 2 ^ 31 then some (0x4a :: littleBytes 4 (n % 2 ^ 32).toNat)
      else Option.none
  | float word => some (0x47 :: (littleBytes 8 word.toNat).reverse)
  | bool b => some [if b then 0x88 else 0x89]
  | none => some [0x4e]

/-- The instruction that a code stands for. -/
def instruction : Code → Instruction
  | global module name => .global module name
  | mark => .mark
  | tuple => .tupleOfGroup
  | emptyTuple => .emptyTuple
  | emptyDict => .emptyDict
  | emptyList => .emptyList
  | appends => .appendGroup
  | setItems => .setItemsOfGroup
  | newObject => .newObject
  | reduce => .call
  | build => .build
  | persistent => .persistentOnStack
  | text content => .push (.str content)
  | int n => .push (.int n)
  | float word => .push (.float (.ofBits word))
  | bool b => .push (.bool b)
  | none => .push .none

/-- The names of a code are lines that are not empty. -/
def NamesLines : Code → Prop
  | global module name =>
      (module ≠ "" ∧ '\n' ∉ module.toList) ∧ name ≠ "" ∧ '\n' ∉ name.toList
  | _ => True

theorem reads {code : Code} {bytes : List UInt8} (writes : code.bytes? = some bytes)
    (lines : code.NamesLines) : Reads bytes code.instruction := by
  cases code with
  | global module name =>
      obtain ⟨⟨someModule, unbrokenModule⟩, someName, unbrokenName⟩ := lines
      cases writes
      exact reads_global (textBytes_ne_nil someModule) (textBytes_ne_nil someName)
        (mt newline_of_mem_textBytes unbrokenModule) (mt newline_of_mem_textBytes unbrokenName)
        (fromUTF8?_textBytes module) (fromUTF8?_textBytes name)
  | text content =>
      rw [bytes?] at writes
      split at writes
      · rename_i short
        cases writes
        exact reads_text (length_littleBytes 4 _) (littleEndian_littleBytes short)
          (short.trans (by decide)) (fromUTF8?_textBytes content)
      · cases writes
  | int n =>
      rw [bytes?] at writes
      split at writes
      · rename_i bounds
        cases writes
        have word : littleEndian (littleBytes 4 (n % 2 ^ 32).toNat) = (n % 2 ^ 32).toNat :=
          littleEndian_littleBytes (by omega)
        have reads := reads_int (length_littleBytes 4 (n % 2 ^ 32).toNat)
        rw [word, twosComplement_word bounds.1 bounds.2] at reads
        exact reads
      · cases writes
  | float word =>
      cases writes
      have value : littleEndian (littleBytes 8 word.toNat) = word.toNat :=
        littleEndian_littleBytes word.toNat_lt
      have length : (littleBytes 8 word.toNat).reverse.length = 8 := by
        rw [List.length_reverse, length_littleBytes]
      have reads := reads_float length
      rw [List.reverse_reverse, value] at reads
      change Reads _ (.push (.float (.ofBits word)))
      rwa [show word.toNat.toUInt64 = word from UInt64.ofNat_toNat] at reads
  | bool b =>
      cases writes
      cases b <;> exact reads_simple rfl rfl
  | _ =>
      cases writes
      exact reads_simple rfl rfl

end Code

/-- A stream of codes: the version of the format, the codes, and the end. -/
def write? (codes : List Code) : Option (List UInt8) :=
  (codes.mapM Code.bytes?).map fun pieces => [0x80, 2] ++ pieces.flatten ++ [0x2e]

theorem exists_pieces {codes : List Code} {pieces : List (List UInt8)}
    (writes : codes.mapM Code.bytes? = some pieces) (lines : ∀ code ∈ codes, code.NamesLines) :
    ∃ pairs : List (List UInt8 × Instruction),
      pairs.map (·.1) = pieces ∧ pairs.map (·.2) = codes.map Code.instruction ∧
        ∀ pair ∈ pairs, Reads pair.1 pair.2 := by
  induction codes generalizing pieces with
  | nil =>
      cases writes
      exact ⟨[], rfl, rfl, fun pair never => absurd never List.not_mem_nil⟩
  | cons code rest inductionHypothesis =>
      rw [List.mapM_cons] at writes
      obtain ⟨bytes, writesFirst, writes⟩ := Option.bind_eq_some_iff.mp writes
      obtain ⟨others, writesRest, writes⟩ := Option.bind_eq_some_iff.mp writes
      cases writes
      obtain ⟨linesFirst, linesRest⟩ := List.forall_mem_cons.mp lines
      obtain ⟨pairs, rfl, instructions, reads⟩ := inductionHypothesis writesRest linesRest
      refine ⟨(bytes, code.instruction) :: pairs, rfl, ?_, ?_⟩
      · rw [List.map_cons, instructions, List.map_cons]
      · exact List.forall_mem_cons.mpr ⟨Code.reads writesFirst linesFirst, reads⟩

/-- What a writer writes is read as the instructions that it stands for. -/
theorem read_write? {codes : List Code} {bytes : List UInt8} (writes : write? codes = some bytes)
    (lines : ∀ code ∈ codes, code.NamesLines) :
    read ⟨bytes.toArray⟩ = .skip :: (codes.map Code.instruction ++ [.stop]) := by
  obtain ⟨pieces, writesAll, rfl⟩ := Option.map_eq_some_iff.mp writes
  obtain ⟨pairs, rfl, instructions, reads⟩ := exists_pieces writesAll lines
  have flat : (([0x80, 2], Instruction.skip) :: pairs).flatMap (·.1) ++ [0x2e] =
      [0x80, 2] ++ (pairs.map (·.1)).flatten ++ [0x2e] := by
    rw [List.flatMap_cons, List.flatMap_def]
  have counted (pieces : List (List UInt8 × Instruction))
      (reads : ∀ piece ∈ pieces, Reads piece.1 piece.2) :
      pieces.length ≤ (pieces.flatMap (·.1)).length := by
    induction pieces with
    | nil => exact Nat.le_refl 0
    | cons piece rest inductionHypothesis =>
        obtain ⟨readsFirst, readsRest⟩ := List.forall_mem_cons.mp reads
        rw [List.flatMap_cons, List.length_append, List.length_cons, Nat.add_comm]
        exact Nat.add_le_add (List.length_pos_iff.mpr readsFirst.nonempty)
          (inductionHypothesis readsRest)
  have readsAll : ∀ piece ∈ ([0x80, 2], Instruction.skip) :: pairs, Reads piece.1 piece.2 :=
    List.forall_mem_cons.mpr ⟨reads_protocol, reads⟩
  rw [read_written _ readsAll (by rw [toList_ofList, flat]), List.map_cons, instructions,
    List.cons_append]
  change _ ≤ List.length _
  rw [← flat, List.length_append]
  exact (counted _ readsAll).trans (Nat.le_add_right _ _)

end TorchArchive.Pickle
