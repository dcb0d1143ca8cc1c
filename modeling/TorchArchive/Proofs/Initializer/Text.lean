import TorchArchive.Proofs.Initializer.Decoding
import TorchArchive.Proofs.Script.Literals

/-!
# The text of an initializer tells its elements

The text of nested lists of integers can be read back: the margin of a line tells how deep it
stands, a bracket tells a list from an element, and what is behind an entry tells whether
another one follows.  So initializers of integers have one text if and only if they are
decoded to the same nested lists, open or not.
-/

namespace TorchArchive

namespace Datum

/-! ## Nested lists of integers -/

/-- An integer, or the mark of a list that was left open. -/
def IsEntry (datum : Datum) : Prop := datum = openMark ∨ ∃ n, datum = .int n

/-- Nested lists of integers, some of them left open. -/
inductive Integral : Datum → Prop where
  | entry {datum : Datum} (isEntry : datum.IsEntry) : Integral datum
  | list {items : List Datum} (parts : ∀ item ∈ items, Integral item) : Integral (.list items)

/-- Lists of a shape whose elements are integers are nested lists of integers. -/
theorem FitsShape.integral {extents : List Nat} {datum : Datum} (fits : datum.FitsShape extents)
    (integers : ∀ element ∈ datum.elements, ∃ n, element = .int n) : datum.Integral := by
  induction extents generalizing datum with
  | nil =>
      obtain ⟨element, rfl, distinct⟩ := fits
      have single : (atom element).elements = [element] := by
        simp [elements, leaves, distinct]
      rw [single] at integers
      obtain ⟨n, rfl⟩ := integers element (List.mem_singleton_self element)
      exact .entry (.inr ⟨n, rfl⟩)
  | cons extent inner inductionHypothesis =>
      obtain ⟨items, fits, shape⟩ := fits
      have parts (within : items.flatMap elements ⊆ datum.elements) :
          ∀ item ∈ items, Integral item := by
        intro item member
        have below : item.elements ⊆ datum.elements := fun element inside =>
          within (List.mem_flatMap_of_mem member inside)
        exact inductionHypothesis (fits item member) fun element inside =>
          integers element (below inside)
      rcases shape with ⟨rfl, _⟩ | ⟨rfl, _⟩
      · rw [elements_list] at parts
        exact .list (parts (List.Subset.refl _))
      · rw [elements_list, List.flatMap_append] at parts
        refine .list (List.forall_mem_append.mpr ⟨parts (List.subset_append_left _ _), ?_⟩)
        intro item member
        rw [List.mem_singleton.mp member]
        exact .entry (.inl rfl)

end Datum

/-! ## The text of an entry -/

/-- The characters of integers and marks. -/
def isInk (c : Char) : Bool := c.isDigit || c == '-' || c == '.'

/-- What is behind the text of an entry: nothing, another entry, or the end of the list. -/
def EndsEntry (rest : List Char) : Prop := ∀ c ∈ rest.head?, c = ',' ∨ c = '\n'

theorem EndsEntry.not_isInk {rest : List Char} {c : Char} (ends : EndsEntry rest)
    (front : c ∈ rest.head?) : isInk c = false := by
  rcases ends c front with rfl | rfl <;> decide

/-- A run of such characters ends where an entry ends. -/
theorem takeWhile_isInk {run rest : List Char} (ink : ∀ c ∈ run, isInk c = true)
    (ends : EndsEntry rest) : (run ++ rest).takeWhile isInk = run := by
  have none : rest.takeWhile isInk = [] := by
    cases rest with
    | nil => rfl
    | cons c others => rw [List.takeWhile_cons, ends.not_isInk rfl, if_neg (by decide)]
  rw [List.takeWhile_append_of_pos ink, none, List.append_nil]

theorem toList_integerText (n : Int) :
    (integerText n).toList =
      if n < 0 then '-' :: decimalDigits n.natAbs else decimalDigits n.natAbs := by
  by_cases negative : n < 0
  · simp [integerText, negative]
  · simp [integerText, negative]

theorem decimalDigits_inj {m n : Nat} (same : decimalDigits m = decimalDigits n) : m = n := by
  rw [← Script.natOfDigits_decimalDigits m, same, Script.natOfDigits_decimalDigits]

theorem not_mem_decimalDigits {c : Char} (noDigit : c.isDigit = false) (n : Nat) :
    c ∉ decimalDigits n := by
  intro member
  have digit := Script.isDigit_of_mem_decimalDigits member
  rw [noDigit] at digit
  cases digit

theorem toList_integerText_inj {m n : Int}
    (same : (integerText m).toList = (integerText n).toList) : m = n := by
  have unsigned (number : Nat) : '-' ∉ decimalDigits number :=
    not_mem_decimalDigits (by decide) number
  rw [toList_integerText, toList_integerText] at same
  by_cases negative : m < 0
  · by_cases negativeToo : n < 0
    · rw [if_pos negative, if_pos negativeToo] at same
      have absolute := decimalDigits_inj (List.cons.inj same).2
      omega
    · rw [if_pos negative, if_neg negativeToo] at same
      exact absurd (same ▸ List.mem_cons_self) (unsigned n.natAbs)
  · by_cases negativeToo : n < 0
    · rw [if_neg negative, if_pos negativeToo] at same
      exact absurd (same ▸ List.mem_cons_self) (unsigned m.natAbs)
    · rw [if_neg negative, if_neg negativeToo] at same
      have absolute := decimalDigits_inj same
      omega

theorem mem_integerText_cases {n : Int} {c : Char} (member : c ∈ (integerText n).toList) :
    c = '-' ∨ c.isDigit = true := by
  rw [toList_integerText] at member
  by_cases negative : n < 0
  · rw [if_pos negative, List.mem_cons] at member
    exact member.imp_right Script.isDigit_of_mem_decimalDigits
  · rw [if_neg negative] at member
    exact .inr (Script.isDigit_of_mem_decimalDigits member)

namespace Datum.IsEntry

variable {one two : Datum}

theorem ink (isEntry : one.IsEntry) : ∀ c ∈ (elementText one).toList, isInk c = true := by
  intro c member
  rcases isEntry with rfl | ⟨n, rfl⟩
  · have dot : c ∈ ['.', '.', '.'] := member
    simp only [List.mem_cons, List.not_mem_nil, or_false, or_self] at dot
    rw [dot]
    decide
  · rcases mem_integerText_cases member with rfl | digit
    · decide
    · simp [isInk, digit]

theorem text_ne_nil (isEntry : one.IsEntry) : (elementText one).toList ≠ [] := by
  rcases isEntry with rfl | ⟨n, rfl⟩
  · decide
  · change (integerText n).toList ≠ []
    rw [toList_integerText]
    by_cases negative : n < 0
    · rw [if_pos negative]
      exact List.cons_ne_nil _ _
    · rw [if_neg negative]
      exact Script.decimalDigits_ne_nil _

theorem eq_of_text (isEntry : one.IsEntry) (isEntryToo : two.IsEntry)
    (same : (elementText one).toList = (elementText two).toList) : one = two := by
  have dotless (n : Int) : '.' ∉ (integerText n).toList := by
    intro member
    have never := mem_integerText_cases member
    revert never
    decide
  have dotted : '.' ∈ (elementText openMark).toList := by decide
  rcases isEntry with rfl | ⟨m, rfl⟩
  · rcases isEntryToo with rfl | ⟨n, rfl⟩
    · rfl
    · exact absurd (same ▸ dotted) (dotless n)
  · rcases isEntryToo with rfl | ⟨n, rfl⟩
    · exact absurd (same ▸ dotted) (dotless m)
    · rw [toList_integerText_inj same]

theorem toList_nestedText (isEntry : one.IsEntry) (depth : Nat) :
    (nestedText depth one).toList =
      List.replicate (4 * depth) ' ' ++ (elementText one).toList := by
  rcases isEntry with rfl | ⟨n, rfl⟩
  · exact toList_nestedText_atom depth _
  · exact toList_nestedText_atom depth _

end Datum.IsEntry

/-! ## The text of nested lists -/

namespace Datum

/-- Whether a datum and what is behind it are known from its text at a depth, among nested
lists of integers. -/
def IsTold (depth : Nat) (one : Datum) : Prop :=
  ∀ (two : Datum) (rest restToo : List Char), two.Integral → EndsEntry rest →
    EndsEntry restToo →
      (nestedText depth one).toList ++ rest = (nestedText depth two).toList ++ restToo →
        one = two ∧ rest = restToo

/-- The text of a list has a bracket behind the margin. -/
theorem exists_bracket (depth : Nat) (items : List Datum) :
    ∃ tail, (nestedText depth (.list items)).toList =
      List.replicate (4 * depth) ' ' ++ '[' :: tail := by
  cases items with
  | nil => exact ⟨_, toList_nestedText_nil depth⟩
  | cons first rest => exact ⟨_, toList_nestedText_cons depth first rest⟩

/-- The text of an entry is no text of a list. -/
theorem IsEntry.text_ne_list {one : Datum} (isEntry : one.IsEntry) (depth : Nat)
    (items : List Datum) (rest restToo : List Char) :
    (nestedText depth one).toList ++ rest ≠
      (nestedText depth (.list items)).toList ++ restToo := by
  intro same
  obtain ⟨tail, bracket⟩ := exists_bracket depth items
  rw [isEntry.toList_nestedText, bracket, List.append_assoc, List.append_assoc] at same
  obtain ⟨c, others, text⟩ := List.exists_cons_of_ne_nil isEntry.text_ne_nil
  have ink : isInk c = true := isEntry.ink c (text ▸ List.mem_cons_self)
  rw [text] at same
  obtain rfl : c = '[' := (List.cons.inj (List.append_cancel_left same)).1
  revert ink
  decide

theorem IsEntry.isTold {one : Datum} (isEntry : one.IsEntry) (depth : Nat) :
    one.IsTold depth := by
  intro two rest restToo integral ends endsToo same
  cases integral with
  | entry isEntryToo =>
      rw [isEntry.toList_nestedText, isEntryToo.toList_nestedText, List.append_assoc,
        List.append_assoc] at same
      replace same := List.append_cancel_left same
      have texts : (elementText one).toList = (elementText two).toList := by
        rw [← takeWhile_isInk isEntry.ink ends, same, takeWhile_isInk isEntryToo.ink endsToo]
      rw [texts] at same
      exact ⟨isEntry.eq_of_text isEntryToo texts, List.append_cancel_left same⟩
  | list _ => exact absurd same (isEntry.text_ne_list depth _ _ _)

/-- The end of a list, behind the margin of its depth. -/
def closing (depth : Nat) (rest : List Char) : List Char :=
  List.replicate (4 * depth) ' ' ++ ']' :: rest

/-- The texts of entries, with what separates them and what ends them. -/
def rows (depth : Nat) (items : List Datum) (rest : List Char) : List Char :=
  [',', '\n'].intercalate (items.map fun item => (nestedText depth item).toList) ++ '\n' :: rest

theorem rows_single (depth : Nat) (first : Datum) (rest : List Char) :
    rows depth [first] rest = (nestedText depth first).toList ++ '\n' :: rest := by
  rw [rows, List.map_singleton, List.intercalate_singleton]

theorem rows_cons (depth : Nat) (first second : Datum) (items : List Datum) (rest : List Char) :
    rows depth (first :: second :: items) rest =
      (nestedText depth first).toList ++ ',' :: '\n' :: rows depth (second :: items) rest := by
  simp [rows, List.intercalate_cons_cons]

/-- Entries are known from their texts if each of them is. -/
theorem rows_inj {depth : Nat} {first other : Datum} {items others : List Datum}
    {rest restToo : List Char} (told : ∀ item ∈ first :: items, item.IsTold depth)
    (integral : ∀ item ∈ other :: others, Integral item)
    (same : rows depth (first :: items) rest = rows depth (other :: others) restToo) :
    first :: items = other :: others ∧ rest = restToo := by
  have comma (tail : List Char) : EndsEntry (',' :: tail) := by simp [EndsEntry]
  have newline (tail : List Char) : EndsEntry ('\n' :: tail) := by simp [EndsEntry]
  induction items generalizing first other others with
  | nil =>
      have toldFirst {tail tailToo : List Char} :=
        told first List.mem_cons_self other tail tailToo (integral other List.mem_cons_self)
      rw [rows_single] at same
      cases others with
      | nil =>
          rw [rows_single] at same
          obtain ⟨rfl, sameRest⟩ := toldFirst (newline _) (newline _) same
          exact ⟨rfl, (List.cons.inj sameRest).2⟩
      | cons next others =>
          rw [rows_cons] at same
          have never := (List.cons.inj (toldFirst (newline _) (comma _) same).2).1
          exact absurd never (by decide)
  | cons second items inductionHypothesis =>
      have toldFirst {tail tailToo : List Char} :=
        told first List.mem_cons_self other tail tailToo (integral other List.mem_cons_self)
      rw [rows_cons] at same
      cases others with
      | nil =>
          rw [rows_single] at same
          have never := (List.cons.inj (toldFirst (comma _) (newline _) same).2).1
          exact absurd never (by decide)
      | cons next others =>
          rw [rows_cons] at same
          obtain ⟨rfl, sameRest⟩ := toldFirst (comma _) (comma _) same
          have sameRows := (List.cons.inj (List.cons.inj sameRest).2).2
          obtain ⟨sameItems, rfl⟩ :=
            inductionHypothesis (fun item member => told item (List.mem_cons_of_mem _ member))
              (fun item member => integral item (List.mem_cons_of_mem _ member)) sameRows
          exact ⟨congrArg _ sameItems, rfl⟩

/-- Every text of nested lists of integers begins with the margin of its depth. -/
theorem Integral.exists_margin {datum : Datum} (integral : datum.Integral) (depth : Nat) :
    ∃ tail, (nestedText depth datum).toList = List.replicate (4 * depth) ' ' ++ tail := by
  cases integral with
  | entry isEntry => exact ⟨_, isEntry.toList_nestedText depth⟩
  | list _ =>
      obtain ⟨tail, bracket⟩ := exists_bracket depth _
      exact ⟨_, bracket⟩

/-- The entries of a list do not begin like the end of an empty one. -/
theorem rows_ne_closing {depth : Nat} {first : Datum} (items : List Datum)
    (integral : first.Integral) (rest restToo : List Char) :
    rows (depth + 1) (first :: items) rest ≠ closing depth restToo := by
  obtain ⟨tail, margin⟩ := integral.exists_margin (depth + 1)
  have deeper : List.replicate (4 * (depth + 1)) ' ' =
      List.replicate (4 * depth) ' ' ++ [' ', ' ', ' ', ' '] := by
    rw [Nat.mul_add, List.replicate_add]
    rfl
  have begins : ∃ tail, rows (depth + 1) (first :: items) rest =
      List.replicate (4 * depth) ' ' ++ ' ' :: tail := by
    cases items with
    | nil =>
        rw [rows_single, margin, deeper, List.append_assoc, List.append_assoc]
        exact ⟨_, rfl⟩
    | cons second items =>
        rw [rows_cons, margin, deeper, List.append_assoc, List.append_assoc]
        exact ⟨_, rfl⟩
  obtain ⟨tail, begins⟩ := begins
  rw [begins]
  intro same
  have never := (List.cons.inj (List.append_cancel_left same)).1
  exact absurd never (by decide)

theorem toList_empty (depth : Nat) (rest : List Char) :
    (nestedText depth (.list [])).toList ++ rest =
      List.replicate (4 * depth) ' ' ++ '[' :: '\n' :: closing depth rest := by
  simp [toList_nestedText_nil, closing]

theorem toList_filled (depth : Nat) (first : Datum) (items : List Datum) (rest : List Char) :
    (nestedText depth (.list (first :: items))).toList ++ rest =
      List.replicate (4 * depth) ' ' ++
        '[' :: '\n' :: rows (depth + 1) (first :: items) (closing depth rest) := by
  simp [toList_nestedText_cons, rows, closing]

/-- What stands between the bracket of one list and that of another is the same. -/
theorem eq_of_brackets {margin inside insideToo : List Char}
    (same : margin ++ '[' :: '\n' :: inside = margin ++ '[' :: '\n' :: insideToo) :
    inside = insideToo :=
  (List.cons.inj (List.cons.inj (List.append_cancel_left same)).2).2

theorem eq_of_closing {depth : Nat} {rest restToo : List Char}
    (same : closing depth rest = closing depth restToo) : rest = restToo :=
  (List.cons.inj (List.append_cancel_left same)).2

/-- Nested lists of integers are known from their text. -/
theorem Integral.isTold {one : Datum} (integral : one.Integral) :
    ∀ depth, one.IsTold depth := by
  induction integral with
  | entry isEntry => exact isEntry.isTold
  | @list items parts inductionHypothesis =>
      intro depth two rest restToo integralToo ends endsToo same
      cases integralToo with
      | entry isEntryToo => exact absurd same.symm (isEntryToo.text_ne_list depth _ _ _)
      | @list others partsToo =>
          cases items with
          | nil =>
              cases others with
              | nil => exact ⟨rfl, List.append_cancel_left same⟩
              | cons other others =>
                  rw [toList_empty, toList_filled] at same
                  have never := (eq_of_brackets same).symm
                  exact absurd never
                    (rows_ne_closing others (partsToo other List.mem_cons_self) _ _)
          | cons first items =>
              cases others with
              | nil =>
                  rw [toList_filled, toList_empty] at same
                  exact absurd (eq_of_brackets same)
                    (rows_ne_closing items (parts first List.mem_cons_self) _ _)
              | cons other others =>
                  rw [toList_filled, toList_filled] at same
                  have told := fun item member => inductionHypothesis item member (depth + 1)
                  obtain ⟨sameItems, sameRest⟩ := rows_inj told partsToo (eq_of_brackets same)
                  exact ⟨congrArg Datum.list sameItems, eq_of_closing sameRest⟩

/-- Nested lists of integers are told apart by their texts. -/
theorem Integral.nestedText_inj {one two : Datum} (integral : one.Integral)
    (integralToo : two.Integral) {depth : Nat}
    (same : nestedText depth one = nestedText depth two) : one = two := by
  have nothing : EndsEntry [] := by simp [EndsEntry]
  have sameRest : (nestedText depth one).toList ++ [] = (nestedText depth two).toList ++ [] := by
    rw [same]
  exact (integral.isTold depth two [] [] integralToo nothing nothing sameRest).1

end Datum

/-! ## Views of integers -/

namespace ElementType

/-- Whether the elements are integers. -/
def isInteger : ElementType → Bool
  | uint8 | int8 | int16 | int32 | int64 => true
  | float16 | float32 | float64 => false

theorem exists_int_of_mem_elements {type : ElementType} (integer : type.isInteger = true)
    {data : ByteArray} {start count : Nat} {element : Atom}
    (member : element ∈ type.elements data start count) : ∃ n, element = .int n := by
  obtain ⟨place, _, rfl⟩ := List.mem_map.mp member
  cases type with
  | float16 => cases integer
  | float32 => cases integer
  | float64 => cases integer
  | _ => exact ⟨_, rfl⟩

end ElementType

namespace Initializer

/-- A view of integers without a defect in its state, whose extents, offset and limit are
natural numbers.  Data of so many bytes as no address reaches do not exist. -/
structure IsIntegral (view : Initializer) : Prop where
  readable : view.state = .ok none
  typed : ∀ type, view.dataType.bind ElementType.ofName? = some type → type.isInteger = true
  sizes : ∀ dims, view.dims = some dims →
    ∀ dim ∈ dims, ∃ extent : Nat, dim.integer? = some (extent : Int)
  offset : ∃ offset : Nat, view.offset.integer? = some (offset : Int)
  limit : ∃ limit : Nat, view.displayLimit.integer? = some (limit : Int)
  addressable : ∀ data, view.data = some data → data.size < 2 ^ 63

variable {view one two : Initializer}

/-- The extents of such a view. -/
theorem IsIntegral.exists_extents (integral : view.IsIntegral) :
    ∃ extents : List Nat, ∀ dims, view.dims = some dims →
      List.Forall₂ (fun dim extent => dim.integer? = some ((extent : Nat) : Int))
        dims extents := by
  let extent (dim : Datum) : Nat := (dim.integer?.getD 0).toNat
  refine ⟨(view.dims.getD []).map extent, fun dims shape => ?_⟩
  rw [shape, Option.getD_some, List.forall₂_map_right_iff, List.forall₂_same]
  intro dim member
  obtain ⟨size, same⟩ := integral.sizes dims shape dim member
  simp [extent, same]

/-- Such a view is decoded to nested lists of integers, and has their text. -/
theorem IsIntegral.exists_decoded (integral : view.IsIntegral) :
    ∃ decoded, view.decode view.displayLimit = .ok decoded ∧
      view.text = .ok (nestedText 0 decoded) ∧ decoded.Integral := by
  obtain ⟨extents, sizes⟩ := integral.exists_extents
  obtain ⟨offset, from_⟩ := integral.offset
  obtain ⟨limit, limited⟩ := integral.limit
  obtain ⟨type, dims, data, typed, shape, bytes, inside⟩ :=
    of_state_eq_none integral.readable sizes from_
  obtain ⟨decoded, decodes, fills⟩ :=
    exists_decode typed shape bytes (sizes dims shape) from_ inside
      (integral.addressable data bytes) limited
  have integers : ∀ element ∈ decoded.elements, ∃ n, element = .int n := by
    intro element member
    rw [fills.kept] at member
    exact ElementType.exists_int_of_mem_elements (integral.typed type typed)
      (List.mem_of_mem_take member)
  refine ⟨decoded, decodes, ?_, fills.fits.integral integers⟩
  rw [text, integral.readable]
  simp only [bind, Except.bind, decodes]
  rfl

/-- Views of integers are decoded up to their limits and have texts, and the texts are equal
if and only if the nested lists are. -/
theorem text_eq_iff_decode_eq (integral : one.IsIntegral) (integralToo : two.IsIntegral) :
    ∃ decoded decodedToo shown shownToo,
      one.decode one.displayLimit = .ok decoded ∧ two.decode two.displayLimit = .ok decodedToo ∧
        one.text = .ok shown ∧ two.text = .ok shownToo ∧
          decoded.Integral ∧ decodedToo.Integral ∧
            (shown = shownToo ↔ decoded = decodedToo) := by
  obtain ⟨decoded, decodes, shows_, nested⟩ := integral.exists_decoded
  obtain ⟨decodedToo, decodesToo, showsToo, nestedToo⟩ := integralToo.exists_decoded
  refine ⟨decoded, decodedToo, nestedText 0 decoded, nestedText 0 decodedToo, decodes,
    decodesToo, shows_, showsToo, nested, nestedToo, ?_⟩
  constructor
  · exact fun same => nested.nestedText_inj nestedToo same
  · exact fun same => congrArg (nestedText 0) same

theorem rows_isIntegral (last : UInt8) :
    IsIntegral { rows with data := some ⟨#[1, 2, 3, last]⟩ } where
  readable := by rfl
  typed := by
    intro type typed
    cases typed
    rfl
  sizes := by
    intro dims shape dim member
    cases shape
    have two : dim = .int 2 := by simpa using member
    rw [two]
    exact ⟨2, rfl⟩
  offset := ⟨0, rfl⟩
  limit := ⟨2, rfl⟩
  addressable := by
    intro data bytes
    cases bytes
    exact (by decide : 4 < 2 ^ 63)

/-- Rows that differ in the element that is left out. -/
theorem text_eq_iff_decode_eq_rows :
    ∃ decoded decodedToo shown shownToo,
      decode { rows with data := some ⟨#[1, 2, 3, 4]⟩ } (.int 2) = .ok decoded ∧
        decode { rows with data := some ⟨#[1, 2, 3, 5]⟩ } (.int 2) = .ok decodedToo ∧
        text { rows with data := some ⟨#[1, 2, 3, 4]⟩ } = .ok shown ∧
          text { rows with data := some ⟨#[1, 2, 3, 5]⟩ } = .ok shownToo ∧
          decoded.Integral ∧ decodedToo.Integral ∧
            (shown = shownToo ↔ decoded = decodedToo) :=
  text_eq_iff_decode_eq (rows_isIntegral 4) (rows_isIntegral 5)

end Initializer

end TorchArchive
