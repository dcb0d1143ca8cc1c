import Mathlib.Algebra.BigOperators.Ring.Finset
import Mathlib.Data.List.Forall2
import Mathlib.Data.Nat.Digits.Lemmas
import TorchArchive.Initializer.Decode
import TorchArchive.Proofs.Initializer.Widening
import TorchArchive.Proofs.Steps

/-!
# Initializers are read row by row

The nested lists of an initializer have the shape that is declared, and the element at an
index is the item of the data at the offset plus the place of the index, where the last
dimension runs fastest.
-/

namespace TorchArchive

/-! ## Elements -/

namespace ElementType

/-- The number that a word of so many bits stands for in two's complement. -/
def DenotesSigned (width word : Nat) (atom : Atom) : Prop :=
  atom = .int (BitVec.ofNat width word).toInt

/-- The double that stands for what a word of a format stands for. -/
def DenotesFloat (format : FloatFormat) (word : Nat) (atom : Atom) : Prop :=
  ∃ x value, atom = .float x ∧ format.Denotes word value ∧
    FloatFormat.double.Denotes x.bits.toNat value

/-- What the bytes of an item stand for, the least significant byte first. -/
def Denotes (type : ElementType) (bytes : List UInt8) (atom : Atom) : Prop :=
  let word : Nat := Nat.ofDigits 256 (bytes.map UInt8.toNat)
  match type with
  | uint8 => atom = .int word
  | int8 => DenotesSigned 8 word atom
  | int16 => DenotesSigned 16 word atom
  | int32 => DenotesSigned 32 word atom
  | int64 => DenotesSigned 64 word atom
  | float16 => DenotesFloat .half word atom
  | float32 => DenotesFloat .single word atom
  | float64 => DenotesFloat .double word atom

/-- The bytes of the item at a place. -/
def itemBytes (type : ElementType) (data : ByteArray) (place : Nat) : List UInt8 :=
  (data.data.toList.drop (place * type.itemSize)).take type.itemSize

theorem littleEndian_eq (bytes : List UInt8) :
    littleEndian bytes = Nat.ofDigits 256 (bytes.map UInt8.toNat) := by
  induction bytes with
  | nil => rfl
  | cons byte rest inductionHypothesis =>
      rw [littleEndian, inductionHypothesis, List.map_cons, Nat.ofDigits_cons]

theorem twosComplement_eq {width word : Nat} (positive : 0 < width)
    (bounded : word < 2 ^ width) :
    twosComplement width word = (BitVec.ofNat width word).toInt := by
  obtain ⟨lower, rfl⟩ := Nat.exists_eq_succ_of_ne_zero positive.ne'
  rw [BitVec.toInt_eq_toNat_cond, BitVec.toNat_ofNat, Nat.mod_eq_of_lt bounded,
    twosComplement]
  simp only [Nat.pow_eq, Nat.succ_eq_add_one, Nat.add_sub_cancel, pow_succ] at bounded ⊢
  split <;> split <;> omega

theorem element_denotes {type : ElementType} {bytes : List UInt8}
    (width : bytes.length = type.itemSize) :
    type.Denotes bytes (type.element (littleEndian bytes)) := by
  have bounded : littleEndian bytes < 256 ^ type.itemSize := by
    rw [littleEndian_eq, ← width, ← List.length_map (f := UInt8.toNat)]
    apply Nat.ofDigits_lt_base_pow_length (by decide)
    intro digit member
    obtain ⟨byte, _, rfl⟩ := List.mem_map.mp member
    exact byte.toNat_lt
  have signed (bits : Nat) (positive : 0 < bits)
      (fits : littleEndian bytes < 2 ^ bits) :
      DenotesSigned bits (littleEndian bytes)
        (.int (twosComplement bits (littleEndian bytes))) := by
    rw [twosComplement_eq positive fits]
    rfl
  have float {format : FloatFormat} (widens : format.Widens)
      (fits : littleEndian bytes < 2 ^ (1 + format.exponentWidth + format.fractionWidth)) :
      DenotesFloat format (littleEndian bytes)
        (.float (.ofValue (format.read (littleEndian bytes)))) := by
    obtain ⟨value, stands, widened⟩ := FloatFormat.widened_denotes widens fits
    exact ⟨_, value, rfl, stands, widened⟩
  rw [Denotes.eq_def, ← littleEndian_eq]
  cases type with
  | uint8 => rfl
  | int8 => exact signed 8 (by decide) bounded
  | int16 => exact signed 16 (by decide) bounded
  | int32 => exact signed 32 (by decide) bounded
  | int64 => exact signed 64 (by decide) bounded
  | float16 => exact float FloatFormat.half_widens bounded
  | float32 => exact float FloatFormat.single_widens bounded
  | float64 => exact float FloatFormat.double_widens bounded

/-- The element read at a place of the data is what the bytes there stand for. -/
theorem elementAt_denotes {type : ElementType} {data : ByteArray} {place : Nat}
    (inside : (place + 1) * type.itemSize ≤ data.size) :
    type.Denotes (type.itemBytes data place)
      (type.elementAt data (place * type.itemSize)) := by
  have reaches : place * type.itemSize + type.itemSize ≤ data.data.toList.length := by
    rw [Array.length_toList]
    rw [Nat.add_mul, Nat.one_mul] at inside
    exact inside
  have bytes :
      ((List.range type.itemSize).map fun i => data.get! (place * type.itemSize + i)) =
        type.itemBytes data place := by
    apply List.ext_getElem
    · rw [itemBytes, List.length_map, List.length_range, List.length_take, List.length_drop]
      omega
    · intro i first second
      rw [List.length_map, List.length_range] at first
      rw [List.getElem_map, List.getElem_range]
      simp only [itemBytes, List.getElem_take, List.getElem_drop, Array.getElem_toList]
      exact getElem!_pos data.data _ _
  have width : (type.itemBytes data place).length = type.itemSize := by
    rw [itemBytes, List.length_take, List.length_drop]
    omega
  rw [elementAt, bytes]
  exact element_denotes width

end ElementType

/-! ## Nested lists -/

namespace Datum

/-- Whether a datum is an element for no extents, and else a list that has as many entries
as the first extent says, each of the inner shape. -/
def HasShape : List Nat → Datum → Prop
  | [], datum => ∃ atom, datum = .atom atom
  | extent :: inner, datum =>
      ∃ items, datum = .list items ∧ items.length = extent ∧
        ∀ item ∈ items, HasShape inner item

/-- The element at an index, list by list. -/
def elementAt? : List Nat → Datum → Option Datum
  | [], datum => some datum
  | place :: rest, .list items => items[place]?.bind (elementAt? rest)
  | _ :: _, _ => Option.none

end Datum

/-- The place of an index in a shape whose last extent runs fastest. -/
def rowMajorPlace : List Nat → List Nat → Nat
  | _ :: inner, index :: rest => index * inner.prod + rowMajorPlace inner rest
  | _, _ => 0

/-- An index into a shape. -/
abbrev IsIndexOf (index extents : List Nat) : Prop := List.Forall₂ (· < ·) index extents

theorem rowMajorPlace_lt {index extents : List Nat} (inside : IsIndexOf index extents) :
    rowMajorPlace extents index < extents.prod := by
  induction inside with
  | nil => simp [rowMajorPlace]
  | @cons place extent index inner below _ inductionHypothesis =>
      rw [rowMajorPlace, List.prod_cons]
      calc place * inner.prod + rowMajorPlace inner index
          < place * inner.prod + inner.prod := by omega
        _ = (place + 1) * inner.prod := by ring
        _ ≤ extent * inner.prod := Nat.mul_le_mul_right _ below

namespace Cursor

/-- Nested lists of a shape whose elements are given in the order of their places. -/
def Arranged (extents : List Nat) (elements : List Atom) (datum : Datum) : Prop :=
  datum.HasShape extents ∧
    ∀ index, IsIndexOf index extents →
      datum.elementAt? index =
        (elements[rowMajorPlace extents index]?).map Datum.atom

/-- A step that places so many elements, if they are there and the limit lets it. -/
def Places (limit width : Nat) (result : List Atom → Datum → Prop)
    (entry : Cursor → Except Fault (Datum × Cursor)) : Prop :=
  ∀ elements more placed, elements.length = width → placed + width ≤ limit →
    ∃ datum, entry ⟨elements ++ more, placed⟩ = .ok (datum, ⟨more, placed + width⟩) ∧
      result elements datum

variable {limit width : Nat} {result : List Atom → Datum → Prop}
  {entry : Cursor → Except Fault (Datum × Cursor)}

theorem not_isBeyond {cursor : Cursor} (below : cursor.placed ≤ limit) :
    cursor.isBeyond (.int limit) = false := by
  have order : ¬ (limit : Int) < cursor.placed := by omega
  simp [isBeyond, Number.less, Number.compare?, compare_lt_iff_lt, order]

/-- A list is filled with one entry after the other, each of the elements that follow
those of the entries in front. -/
theorem entries_places (places : Places limit width result entry) (count : Nat)
    {elements : List Atom} (more : List Atom) (placed : Nat)
    (enough : elements.length = count * width)
    (room : placed + count * width ≤ limit) :
    ∃ items,
      entries (.int limit) entry count ⟨elements ++ more, placed⟩ =
          .ok (items, ⟨more, placed + count * width⟩) ∧
        items.length = count ∧
          ∀ place item, items[place]? = some item →
            result ((elements.drop (place * width)).take width) item := by
  induction count generalizing elements placed with
  | zero =>
      rw [Nat.zero_mul] at enough
      rw [List.eq_nil_of_length_eq_zero enough, Nat.zero_mul]
      exact ⟨[], rfl, rfl, fun place item found => by cases found⟩
  | succ count inductionHypothesis =>
      rw [Nat.add_mul, Nat.one_mul] at enough room
      have front : (elements.take width).length = width := by
        rw [List.length_take]
        omega
      have back : (elements.drop width).length = count * width := by
        rw [List.length_drop]
        omega
      obtain ⟨first, placesFirst, holdsFirst⟩ :=
        places (elements.take width) (elements.drop width ++ more) placed front (by omega)
      obtain ⟨others, placesOthers, length, holdsOthers⟩ :=
        inductionHypothesis (placed + width) back (by omega)
      rw [← List.append_assoc, List.take_append_drop] at placesFirst
      refine ⟨first :: others, ?_, by rw [List.length_cons, length], ?_⟩
      · rw [entries, not_isBeyond (by dsimp only; omega), placesFirst]
        simp only [bind, Except.bind, placesOthers]
        have total : placed + width + count * width = placed + (count + 1) * width := by ring
        rw [total]
        rfl
      · intro place item found
        cases place with
        | zero =>
            cases found
            rw [Nat.zero_mul, List.drop_zero]
            exact holdsFirst
        | succ place =>
            rw [Nat.add_mul, Nat.one_mul, Nat.add_comm, ← List.drop_drop]
            exact holdsOthers place item found

theorem item_places : Places limit 1 (Arranged []) item := by
  intro elements more placed single room
  obtain ⟨atom, rfl⟩ := List.length_eq_one_iff.mp single
  refine ⟨.atom atom, rfl, ⟨atom, rfl⟩, ?_⟩
  intro index inside
  cases inside
  rfl

/-- Lists of a shape are arranged if their items are, each with the elements that follow
those of the items in front. -/
theorem Arranged.list {extent : Nat} {inner : List Nat} {elements : List Atom}
    {items : List Datum} (length : items.length = extent)
    (arranged : ∀ place item, items[place]? = some item →
      Arranged inner ((elements.drop (place * inner.prod)).take inner.prod) item) :
    Arranged (extent :: inner) elements (.list items) := by
  refine ⟨⟨items, rfl, length, ?_⟩, ?_⟩
  · intro item member
    obtain ⟨place, found⟩ := List.getElem?_of_mem member
    exact (arranged place item found).1
  · intro index inside
    cases inside with
    | @cons place _ rest _ below insideRest =>
        have short : place < items.length := by omega
        have found : items[place]? = some items[place] := List.getElem?_eq_getElem short
        have element := (arranged place items[place] found).2 rest insideRest
        have small := rowMajorPlace_lt insideRest
        rw [List.getElem?_take_of_lt small, List.getElem?_drop] at element
        rw [Datum.elementAt?, found, Option.bind_some, element, rowMajorPlace]

/-- A shape is laid out in the order of the places. -/
theorem layout_places {dims : List Datum} {extents : List Nat}
    (sizes : List.Forall₂ (fun dim extent => dim.integer? = some ((extent : Nat) : Int))
      dims extents) :
    Places limit extents.prod (Arranged extents) (layout (.int limit) dims) := by
  induction sizes with
  | nil => exact item_places
  | @cons dim extent dims inner size _ inductionHypothesis =>
      intro elements more placed enough room
      rw [List.prod_cons] at enough room ⊢
      obtain ⟨items, fills, length, arranged⟩ :=
        entries_places inductionHypothesis extent more placed enough room
      refine ⟨.list items, ?_, Arranged.list length arranged⟩
      rw [layout, Datum.toInteger, size]
      simp only [bind, Except.bind, Int.toNat_natCast, fills]
      rfl

end Cursor

/-! ## Sizes -/

namespace Datum

theorem numeric?_of_integer? {datum : Datum} {n : Int} (integer : datum.integer? = some n) :
    datum.numeric? = some (.int n) := by
  cases datum with
  | atom atom =>
      cases atom with
      | bool b => exact congrArg _ (congrArg Number.int (Option.some.inj integer))
      | int m => exact congrArg _ (congrArg Number.int (Option.some.inj integer))
      | _ => cases integer
  | _ => cases integer

end Datum

namespace Initializer

theorem count_int {view : Initializer} {dims : List Datum} {sizes : List Int}
    (shape : view.dims = some dims)
    (integers : List.Forall₂ (fun dim size => dim.integer? = some size) dims sizes) :
    view.count = .ok (.int sizes.prod) := by
  have product (start : Int) :
      dims.foldlM Datum.times (.int start) = .ok (.int (start * sizes.prod)) := by
    clear shape
    induction integers generalizing start with
    | nil => simp [pure, Except.pure]
    | @cons dim size dims sizes integer _ inductionHypothesis =>
        have first : Datum.times (.int start) dim = .ok (.int (start * size)) := by
          have number : (Datum.int start).numeric? = some (.int start) := rfl
          rw [Datum.times, number, Datum.numeric?_of_integer? integer]
          rfl
        rw [List.foldlM_cons, first]
        have rest := inductionHypothesis (start * size)
        rw [mul_assoc, ← List.prod_cons] at rest
        exact rest
  have whole := product 1
  rw [one_mul] at whole
  rw [count, shape]
  exact whole

theorem integers_cast {dims : List Datum} {extents : List Nat}
    (sizes : List.Forall₂ (fun dim extent => dim.integer? = some ((extent : Nat) : Int))
      dims extents) :
    List.Forall₂ (fun dim size => dim.integer? = some size) dims (extents.map Nat.cast) :=
  List.forall₂_map_right_iff.mpr sizes

theorem count_eq {view : Initializer} {dims : List Datum} {extents : List Nat}
    (shape : view.dims = some dims)
    (sizes : List.Forall₂ (fun dim extent => dim.integer? = some ((extent : Nat) : Int))
      dims extents) :
    view.count = .ok (.int (extents.prod : Nat)) := by
  rw [count_int shape (integers_cast sizes), Nat.cast_list_prod]

/-- A view that can be read has a type of elements, extents and data.  The data reach to the
end of the last element, as far as the product of the extents and the offset tell. -/
theorem of_state_integers {view : Initializer} {sizes : List Int} {offset : Int}
    (readable : view.state = .ok none)
    (integers : ∀ dims, view.dims = some dims →
      List.Forall₂ (fun dim size => dim.integer? = some size) dims sizes)
    (from_ : view.offset.integer? = some offset) :
    ∃ type dims data, view.dataType.bind ElementType.ofName? = some type ∧
      view.dims = some dims ∧ view.data = some data ∧
        (offset + sizes.prod) * type.itemSize ≤ data.size := by
  rw [state] at readable
  split at readable
  · cases readable
  · rename_i name named
    split at readable
    · cases readable
    · split at readable
      · cases readable
      · rename_i type typed
        split at readable
        · cases readable
        · cases readable
        · rename_i dims data shape bytes
          refine ⟨type, dims, data, by rw [named, Option.bind_some, typed], shape, bytes, ?_⟩
          have reach : view.extent type.itemSize =
              .ok (.int ((offset + sizes.prod) * type.itemSize)) := by
            rw [extent, count_int shape (integers dims shape), Datum.toNumber,
              Datum.numeric?_of_integer? from_]
            rfl
          rw [reach] at readable
          split at readable
          · cases readable
          · simp only [bind, Except.bind, pure, Except.pure, Except.ok.injEq,
              ite_eq_right_iff, reduceCtorEq, imp_false, Bool.not_eq_true] at readable
            by_contra short
            have less : ((data.size : Nat) : Int) < (offset + sizes.prod) * type.itemSize :=
              not_le.mp short
            rw [Number.less, Number.compare?, compare_lt_iff_lt.mpr less] at readable
            cases readable

/-- A view that can be read has a type of elements, extents and data, which reach to the
end of its last element. -/
theorem of_state_eq_none {view : Initializer} {extents : List Nat} {offset : Nat}
    (readable : view.state = .ok none)
    (sizes : ∀ dims, view.dims = some dims →
      List.Forall₂ (fun dim extent => dim.integer? = some ((extent : Nat) : Int))
        dims extents)
    (from_ : view.offset.integer? = some (offset : Int)) :
    ∃ type dims data, view.dataType.bind ElementType.ofName? = some type ∧
      view.dims = some dims ∧ view.data = some data ∧
        (offset + extents.prod) * type.itemSize ≤ data.size := by
  obtain ⟨type, dims, data, typed, shape, bytes, inside⟩ :=
    of_state_integers readable (fun dims shape => integers_cast (sizes dims shape)) from_
  rw [← Nat.cast_list_prod] at inside
  exact ⟨type, dims, data, typed, shape, bytes, by exact_mod_cast inside⟩

/-- The elements of a view that can be read, in the order of their places. -/
def elementsFrom (type : ElementType) (data : ByteArray) (offset count : Nat) :
    List Atom :=
  type.elements data (offset * type.itemSize) count

theorem readElements_eq {type : ElementType} {data : ByteArray} {offset count : Nat}
    (inside : (offset + count) * type.itemSize ≤ data.size)
    (addressable : data.size < 2 ^ 63) :
    readElements type (some data) count (offset * type.itemSize) =
      .ok (elementsFrom type data offset count) := by
  have positive : 1 ≤ type.itemSize := by cases type <;> decide
  have total : (offset + count) * type.itemSize =
      offset * type.itemSize + count * type.itemSize := Nat.add_mul _ _ _
  have enough : count ≤ count * type.itemSize := Nat.le_mul_of_pos_right count positive
  have countWord : isWord count = true := by
    simp only [isWord, Bool.and_eq_true, decide_eq_true_eq]
    omega
  have start : ((offset : Int) * type.itemSize) = ((offset * type.itemSize : Nat) : Int) := by
    push_cast
    rfl
  have stop : ((count : Int) * type.itemSize) = ((count * type.itemSize : Nat) : Int) := by
    push_cast
    rfl
  have offsetWord : isWord (offset * type.itemSize) = true := by
    rw [start]
    simp only [isWord, Bool.and_eq_true, decide_eq_true_eq]
    omega
  rw [readElements, countWord, offsetWord, start]
  dsimp only
  rw [if_neg (by decide), if_neg (by omega), if_neg (by omega), stop, if_neg (by omega)]
  rfl

theorem wanted_of_le {count limit : Nat} (below : count ≤ limit + 1) :
    wanted (.int count) (.int limit) = .ok (.int count) := by
  have order : ¬ (limit : Int) + 1 < count := by omega
  have notLess : (Number.int ((limit : Int) + 1)).less (.int count) = false := by
    simp only [Number.less, Number.compare?, beq_eq_false_iff_ne, ne_eq,
      Option.some.injEq, compare_lt_iff_lt]
    exact order
  have next : (Number.int limit).plus (.int 1) = .ok (.int ((limit : Int) + 1)) := rfl
  simp [wanted, next, notLess, bind, Except.bind, pure, Except.pure]

/-- A limit that is not passed leaves no list open. -/
theorem decode_within {view : Initializer} {type : ElementType} {dims : List Datum}
    {data : ByteArray} {extents : List Nat} {offset limit : Nat}
    (typed : view.dataType.bind ElementType.ofName? = some type)
    (shape : view.dims = some dims) (bytes : view.data = some data)
    (sizes : List.Forall₂ (fun dim extent => dim.integer? = some ((extent : Nat) : Int))
      dims extents)
    (from_ : view.offset.integer? = some (offset : Int))
    (inside : (offset + extents.prod) * type.itemSize ≤ data.size)
    (addressable : data.size < 2 ^ 63) (few : extents.prod ≤ limit) (some_ : 1 ≤ limit) :
    ∃ datum, view.decode (.int limit) = .ok datum ∧
      Cursor.Arranged extents (elementsFrom type data offset extents.prod) datum := by
  have wholly : wanted (.int (extents.prod : Nat)) (.int limit) =
      .ok (.int (extents.prod : Nat)) := wanted_of_le (by omega)
  have elements : (elementsFrom type data offset extents.prod).length = extents.prod := by
    simp [elementsFrom, ElementType.elements]
  have number (n : Int) : (Datum.int n).toNumber = .ok (.int n) := rfl
  have whole (n : Int) : (Datum.atom (.ofNumber (.int n))).toInteger = .ok n := rfl
  have ok_bind {α β : Type} (a : α) (next : α → Except Fault β) :
      (Except.ok a >>= next) = next a := rfl
  rw [decode, typed, shape, Datum.toInteger, from_]
  simp only [count_eq shape sizes, number, ok_bind, wholly, whole, bytes,
    readElements_eq inside addressable]
  cases sizes with
  | nil =>
      have room : 0 + 1 * 1 ≤ limit := by omega
      obtain ⟨items, fills, length, arranged⟩ :=
        Cursor.entries_places Cursor.item_places 1 [] 0 elements room
      obtain ⟨item, rfl⟩ := List.length_eq_one_iff.mp length
      have holds := arranged 0 item rfl
      rw [Nat.zero_mul, List.drop_zero,
        List.take_of_length_le (show _ ≤ 1 from elements.le)] at holds
      rw [List.append_nil] at fills
      exact ⟨item, by simp only [fills, ok_bind]; rfl, holds⟩
  | @cons dim extent dims inner size sizes =>
      have room : 0 + (extent :: inner).prod ≤ limit := by omega
      obtain ⟨datum, lays, arranged⟩ :=
        Cursor.layout_places (.cons size sizes)
          (elementsFrom type data offset (extent :: inner).prod) [] 0 elements room
      rw [List.append_nil] at lays
      exact ⟨datum, by simp only [lays, ok_bind]; rfl, arranged⟩

theorem noLimit_eq : noLimit = .int (0x7fffffffffffffff : Nat) := rfl

/-- A view that can be read has the value that its shape and its data say: lists of the
declared lengths, and under each index what the bytes of the item stand for that is as
far behind the offset as the place of the index in row-major order.  Data of so many
bytes as no address reaches do not exist. -/
theorem value_rowMajor {view : Initializer} {extents : List Nat} {offset : Nat}
    (readable : view.state = .ok none)
    (sizes : ∀ dims, view.dims = some dims →
      List.Forall₂ (fun dim extent => dim.integer? = some ((extent : Nat) : Int))
        dims extents)
    (from_ : view.offset.integer? = some (offset : Int))
    (addressable : ∀ data, view.data = some data → data.size < 2 ^ 63) :
    ∃ type data datum, view.dataType.bind ElementType.ofName? = some type ∧
      view.data = some data ∧ view.value = .ok datum ∧ datum.HasShape extents ∧
        ∀ index, IsIndexOf index extents →
          (offset + rowMajorPlace extents index + 1) * type.itemSize ≤ data.size ∧
            ∃ atom, datum.elementAt? index = some (.atom atom) ∧
              type.Denotes (type.itemBytes data (offset + rowMajorPlace extents index))
                atom := by
  obtain ⟨type, dims, data, typed, shape, bytes, inside⟩ :=
    of_state_eq_none readable sizes from_
  have positive : 1 ≤ type.itemSize := by cases type <;> decide
  have within : extents.prod ≤ (offset + extents.prod) * type.itemSize :=
    (Nat.le_add_left _ _).trans (Nat.le_mul_of_pos_right _ positive)
  have reached := addressable data bytes
  have few : extents.prod ≤ 0x7fffffffffffffff := by omega
  obtain ⟨datum, decodes, hasShape, arranged⟩ :=
    decode_within typed shape bytes (sizes dims shape) from_ inside reached few (by omega)
  rw [← noLimit_eq] at decodes
  refine ⟨type, data, datum, typed, bytes, ?_, hasShape, ?_⟩
  · rw [value, readable]
    exact decodes
  · intro index isIndex
    have below := rowMajorPlace_lt isIndex
    have reaches :
        (offset + rowMajorPlace extents index + 1) * type.itemSize ≤ data.size :=
      (Nat.mul_le_mul_right _ (by omega)).trans inside
    refine ⟨reaches, _, ?_, ElementType.elementAt_denotes reaches⟩
    rw [arranged index isIndex, elementsFrom, ElementType.elements, List.getElem?_map,
      List.getElem?_range below, Option.map_some, Option.map_some]
    rw [Nat.add_mul]

/-- Two rows of two items behind the first item of the data. -/
def square : Initializer where
  name := "square"
  dataType := some "int16"
  dims := some [.int 2, .int 2]
  data := some ⟨#[9, 9, 1, 0, 2, 0, 3, 0, 255, 255]⟩
  offset := .int 1
  displayLimit := .int 1000

theorem value_rowMajor_square :
    square.state = .ok none ∧
      ∃ type data datum, square.dataType.bind ElementType.ofName? = some type ∧
        square.data = some data ∧ square.value = .ok datum ∧ datum.HasShape [2, 2] ∧
          ∀ index, IsIndexOf index [2, 2] →
            (1 + rowMajorPlace [2, 2] index + 1) * type.itemSize ≤ data.size ∧
              ∃ atom, datum.elementAt? index = some (.atom atom) ∧
                type.Denotes (type.itemBytes data (1 + rowMajorPlace [2, 2] index)) atom := by
  have readable : square.state = .ok none := by rfl
  refine ⟨readable, value_rowMajor readable ?_ rfl ?_⟩
  · intro dims shape
    cases shape
    exact .cons rfl (.cons rfl .nil)
  · intro data bytes
    cases bytes
    decide

end Initializer

end TorchArchive
