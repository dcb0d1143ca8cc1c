import TorchArchive.Initializer.Decode
import TorchArchive.Proofs.Initializer.RowMajor

/-!
# Decoding up to a limit

Once one element more than a limit was placed, decoding places no others and marks every
list that it leaves open.  So the elements of a truncated view are the first ones of the
whole view, and a view is whole if and only if it has at most one element more than the
limit.

A view without a defect in its state is decoded if and only if its offset is a place of the
data and, where a negative number of elements is asked for, the data are whole items.  The
state tells nothing about either: it compares the data with the sum of the offset and the
product of the extents, and both may be negative.
-/

namespace TorchArchive

/-! ## Leaves of nested lists -/

/-- The leaf that marks a list as left open. -/
def openLeaf : Atom := .str "..."

namespace Datum

mutual

/-- The elements and the marks of nested lists, from left to right. -/
def leaves : Datum → List Atom
  | atom a => [a]
  | list items => leavesOf items
  | _ => []

private def leavesOf : List Datum → List Atom
  | [] => []
  | first :: rest => leaves first ++ leavesOf rest

end

/-- The elements of nested lists, without the marks. -/
def elements (datum : Datum) : List Atom := datum.leaves.filter (· ≠ openLeaf)

/-- Lists of a shape that may be left open: a list has an entry for each step of its extent,
or at least one of them, but not all, and a single mark behind. -/
def FitsShape : List Nat → Datum → Prop
  | [], datum => ∃ element, datum = .atom element ∧ element ≠ openLeaf
  | extent :: inner, datum =>
      ∃ items, (∀ item ∈ items, FitsShape inner item) ∧
        (datum = .list items ∧ items.length = extent ∨
          datum = .list (items ++ [openMark]) ∧ 1 ≤ items.length ∧ items.length < extent)

theorem leaves_list (items : List Datum) : (list items).leaves = items.flatMap leaves := by
  rw [leaves]
  induction items with
  | nil => rfl
  | cons first rest inductionHypothesis =>
      rw [leavesOf, inductionHypothesis, List.flatMap_cons]

theorem elements_list (items : List Datum) :
    (list items).elements = items.flatMap elements := by
  rw [elements, leaves_list, List.filter_flatMap]
  rfl

theorem elements_openMark : openMark.elements = [] := by
  rfl

theorem length_flatMap_leaves {width : Nat} {items : List Datum}
    (widths : ∀ item ∈ items, item.leaves.length = width) :
    (items.flatMap leaves).length = items.length * width := by
  induction items with
  | nil => exact (Nat.zero_mul width).symm
  | cons first rest inductionHypothesis =>
      obtain ⟨widthFirst, widthsRest⟩ := List.forall_mem_cons.mp widths
      rw [List.flatMap_cons, List.length_append, widthFirst, inductionHypothesis widthsRest,
        List.length_cons, Nat.add_mul, Nat.one_mul, Nat.add_comm]

theorem HasShape.length_leaves {extents : List Nat} {datum : Datum}
    (hasShape : datum.HasShape extents) : datum.leaves.length = extents.prod := by
  induction extents generalizing datum with
  | nil =>
      obtain ⟨element, rfl⟩ := hasShape
      rw [leaves, List.prod_nil, List.length_singleton]
  | cons extent inner inductionHypothesis =>
      obtain ⟨items, rfl, length, shapes⟩ := hasShape
      rw [leaves_list, length_flatMap_leaves fun item member =>
        inductionHypothesis (shapes item member), length, List.prod_cons]

/-- Lists of equally many items are told apart by their leaves if the items are, and all
have the same number of leaves. -/
theorem flatMap_leaves_inj {width : Nat} {items others : List Datum}
    (widths : ∀ item ∈ items, item.leaves.length = width)
    (widthsToo : ∀ other ∈ others, other.leaves.length = width)
    (told : ∀ item ∈ items, ∀ other ∈ others, item.leaves = other.leaves → item = other)
    (length : items.length = others.length)
    (same : items.flatMap leaves = others.flatMap leaves) : items = others := by
  induction items generalizing others with
  | nil => exact (List.eq_nil_of_length_eq_zero length.symm).symm
  | cons first rest inductionHypothesis =>
      cases others with
      | nil => cases length
      | cons other others =>
          obtain ⟨width, widths⟩ := List.forall_mem_cons.mp widths
          obtain ⟨widthToo, widthsToo⟩ := List.forall_mem_cons.mp widthsToo
          rw [List.flatMap_cons, List.flatMap_cons] at same
          obtain ⟨sameFirst, sameRest⟩ := List.append_inj same (width.trans widthToo.symm)
          rw [told first List.mem_cons_self other List.mem_cons_self sameFirst]
          congr 1
          refine inductionHypothesis widths widthsToo ?_ (Nat.succ.inj length) sameRest
          exact fun item member two memberToo =>
            told item (List.mem_cons_of_mem _ member) two (List.mem_cons_of_mem _ memberToo)

/-- Lists of one shape are told apart by their leaves. -/
theorem HasShape.eq_of_leaves {extents : List Nat} {one two : Datum}
    (hasShape : one.HasShape extents) (hasShapeToo : two.HasShape extents)
    (same : one.leaves = two.leaves) : one = two := by
  induction extents generalizing one two with
  | nil =>
      obtain ⟨element, rfl⟩ := hasShape
      obtain ⟨other, rfl⟩ := hasShapeToo
      rw [leaves, leaves] at same
      rw [List.singleton_inj.mp same]
  | cons extent inner inductionHypothesis =>
      obtain ⟨items, rfl, length, shapes⟩ := hasShape
      obtain ⟨others, rfl, lengthToo, shapesToo⟩ := hasShapeToo
      rw [leaves_list, leaves_list] at same
      rw [flatMap_leaves_inj (fun item member => (shapes item member).length_leaves)
        (fun other member => (shapesToo other member).length_leaves)
        (fun item member other memberToo =>
          inductionHypothesis (shapes item member) (shapesToo other memberToo))
        (length.trans lengthToo.symm) same]

end Datum

/-! ## Layout up to a limit -/

theorem Number.less_int (m n : Int) : (Number.int m).less (.int n) = decide (m < n) := by
  have comparison : (compare m n == .lt) = decide (m < n) := by
    by_cases below : m < n
    · rw [compare_lt_iff_lt.mpr below, decide_eq_true below]
      rfl
    · rw [decide_eq_false below, beq_eq_false_iff_ne]
      exact fun lower => below (compare_lt_iff_lt.mp lower)
  exact comparison

namespace Cursor

/-- Nested lists of a shape in which there was room for so many of the elements.  Where
there was room for all of them no list is left open. -/
structure Fills (extents : List Nat) (room : Nat) (elements : List Atom) (datum : Datum) :
    Prop where
  fits : datum.FitsShape extents
  kept : datum.elements = elements.take room
  whole : extents.prod ≤ room → datum.HasShape extents ∧ datum.leaves = elements

/-- A step that lays out lists of a shape as far as a limit lets it.  Of the elements that
belong to the lists those beyond the limit need not be there. -/
def Lays (limit : Nat) (extents : List Nat) (entry : Cursor → Except Fault (Datum × Cursor)) :
    Prop :=
  ∀ elements more placed, elements.length = extents.prod → openLeaf ∉ elements →
    placed ≤ limit →
      ∃ datum,
        entry ⟨elements.take (limit + 1 - placed) ++ more, placed⟩ =
            .ok (datum, ⟨more, min (placed + extents.prod) (limit + 1)⟩) ∧
          Fills extents (limit + 1 - placed) elements datum

/-- How a list ends that was filled from a place on: behind all its entries, or with a mark
behind some of them.  The first entry is never left out for a mark. -/
def Closes (limit placed count : Nat) (items ending : List Datum) : Prop :=
  ending = [] ∧ items.length = count ∨
    ending = [openMark] ∧ items.length < count ∧ (placed ≤ limit → 1 ≤ items.length)

variable {limit : Nat} {extents : List Nat} {entry : Cursor → Except Fault (Datum × Cursor)}

theorem isBeyond_eq (cursor : Cursor) :
    cursor.isBeyond (.int limit) = decide (limit < cursor.placed) := by
  rw [isBeyond, Number.less_int]
  exact decide_eq_decide.mpr Int.ofNat_lt

/-- What there is room for: of the elements of a first entry, then of the others. -/
theorem take_room {elements : List Atom} {size : Nat}
    (front : (elements.take size).length = size) (limit placed : Nat) :
    elements.take (limit + 1 - placed) =
      (elements.take size).take (limit + 1 - placed) ++
        (elements.drop size).take (limit + 1 - min (placed + size) (limit + 1)) := by
  have rest : limit + 1 - min (placed + size) (limit + 1) = limit + 1 - placed - size := by
    omega
  rw [rest]
  conv_lhs => rw [← List.take_append_drop size elements]
  rw [List.take_append, front]

/-- A list is filled entry by entry until the limit is passed. -/
theorem entries_lays (lays : Lays limit extents entry) (count : Nat) {elements : List Atom}
    (more : List Atom) {placed : Nat} (enough : elements.length = count * extents.prod)
    (plain : openLeaf ∉ elements) (room : placed ≤ limit + 1) :
    ∃ items ending,
      entries (.int limit) entry count ⟨elements.take (limit + 1 - placed) ++ more, placed⟩ =
          .ok (items ++ ending, ⟨more, min (placed + count * extents.prod) (limit + 1)⟩) ∧
        Closes limit placed count items ending ∧
        (∀ item ∈ items, item.FitsShape extents) ∧
        items.flatMap Datum.elements = elements.take (limit + 1 - placed) ∧
        ((count = 0 ∨ placed ≤ limit) → placed + count * extents.prod ≤ limit + 1 →
          ending = [] ∧ (∀ item ∈ items, item.HasShape extents) ∧
            items.flatMap Datum.leaves = elements) := by
  induction count generalizing elements placed with
  | zero =>
      rw [Nat.zero_mul] at enough
      rw [List.eq_nil_of_length_eq_zero enough, List.take_nil, List.nil_append, Nat.zero_mul,
        Nat.add_zero, Nat.min_eq_left room]
      refine ⟨[], [], rfl, Or.inl ⟨rfl, rfl⟩, ?_, rfl, fun _ _ => ⟨rfl, ?_, rfl⟩⟩
      · exact fun item member => (List.not_mem_nil member).elim
      · exact fun item member => (List.not_mem_nil member).elim
  | succ count inductionHypothesis =>
      by_cases beyond : limit < placed
      · have full : placed = limit + 1 := by omega
        subst full
        rw [entries, isBeyond_eq, decide_eq_true beyond, if_pos rfl, Nat.sub_self,
          List.take_zero, List.nil_append, Nat.min_eq_right (Nat.le_add_right _ _)]
        refine ⟨[], [openMark], rfl, Or.inr ⟨rfl, Nat.succ_pos _, ?_⟩, ?_, rfl, ?_⟩
        · exact fun below => absurd below (Nat.not_succ_le_self limit)
        · exact fun item member => (List.not_mem_nil member).elim
        · rintro (never | below)
          · cases never
          · omega
      · rw [Nat.add_mul, Nat.one_mul] at enough
        have front : (elements.take extents.prod).length = extents.prod := by
          rw [List.length_take]
          omega
        have back : (elements.drop extents.prod).length = count * extents.prod := by
          rw [List.length_drop]
          omega
        have plainFront : openLeaf ∉ elements.take extents.prod :=
          fun member => plain (List.mem_of_mem_take member)
        have plainBack : openLeaf ∉ elements.drop extents.prod :=
          fun member => plain (List.mem_of_mem_drop member)
        have split := take_room front limit placed
        obtain ⟨first, laysFirst, fillsFirst⟩ :=
          lays (elements.take extents.prod)
            ((elements.drop extents.prod).take
              (limit + 1 - min (placed + extents.prod) (limit + 1)) ++ more)
            placed front plainFront (by omega)
        obtain ⟨others, ending, laysOthers, closes, fits, same, whole⟩ :=
          inductionHypothesis back plainBack (Nat.min_le_right (placed + extents.prod) _)
        refine ⟨first :: others, ending, ?_, ?_, ?_, ?_, ?_⟩
        · rw [entries, isBeyond_eq, decide_eq_false beyond, if_neg (by decide), split,
            List.append_assoc, laysFirst]
          simp only [bind, Except.bind, laysOthers]
          have total : min (min (placed + extents.prod) (limit + 1) + count * extents.prod)
              (limit + 1) = min (placed + (count + 1) * extents.prod) (limit + 1) := by
            rw [Nat.add_mul, Nat.one_mul]
            omega
          rw [total]
          rfl
        · rcases closes with ⟨noEnding, length⟩ | ⟨marked, shorter, _⟩
          · exact Or.inl ⟨noEnding, congrArg (· + 1) length⟩
          · exact Or.inr ⟨marked, Nat.succ_lt_succ shorter, fun _ => Nat.succ_pos _⟩
        · exact List.forall_mem_cons.mpr ⟨fillsFirst.fits, fits⟩
        · rw [List.flatMap_cons, fillsFirst.kept, same, ← split]
        · intro _ within
          rw [Nat.add_mul, Nat.one_mul] at within
          have wholeFirst := fillsFirst.whole (by omega)
          have started : count = 0 ∨ min (placed + extents.prod) (limit + 1) ≤ limit := by
            rcases Nat.eq_zero_or_pos count with none | some
            · exact Or.inl none
            · have wide : extents.prod ≤ count * extents.prod := Nat.le_mul_of_pos_left _ some
              omega
          obtain ⟨noEnding, shapes, leaves⟩ := whole started (by omega)
          refine ⟨noEnding, List.forall_mem_cons.mpr ⟨wholeFirst.1, shapes⟩, ?_⟩
          rw [List.flatMap_cons, wholeFirst.2, leaves, List.take_append_drop]

theorem item_lays : Lays limit [] item := by
  intro elements more placed single plain below
  obtain ⟨element, rfl⟩ := List.length_eq_one_iff.mp single
  have distinct : element ≠ openLeaf := fun same => plain (same ▸ List.mem_singleton_self _)
  have taken : [element].take (limit + 1 - placed) = [element] := by
    rw [List.take_of_length_le]
    rw [List.length_singleton]
    omega
  have kept : (Datum.atom element).elements = [element] := by
    simp [Datum.elements, Datum.leaves, distinct]
  rw [taken, List.prod_nil, Nat.min_eq_left (by omega)]
  exact ⟨.atom element, rfl, ⟨element, rfl, distinct⟩, kept.trans taken.symm,
    fun _ => ⟨⟨element, rfl⟩, Datum.leaves.eq_1 element⟩⟩

/-- A list fills its shape as its entries do. -/
theorem Fills.list {extent room placed : Nat} {elements : List Atom} {items ending : List Datum}
    (below : placed ≤ limit) (roomy : room = limit + 1 - placed)
    (closes : Closes limit placed extent items ending)
    (fits : ∀ item ∈ items, item.FitsShape extents)
    (same : items.flatMap Datum.elements = elements.take room)
    (whole : placed + extent * extents.prod ≤ limit + 1 →
      ending = [] ∧ (∀ item ∈ items, item.HasShape extents) ∧
        items.flatMap Datum.leaves = elements) :
    Fills (extent :: extents) room elements (.list (items ++ ending)) where
  fits := by
    refine ⟨items, fits, ?_⟩
    rcases closes with ⟨rfl, length⟩ | ⟨rfl, shorter, begun⟩
    · exact Or.inl ⟨by rw [List.append_nil], length⟩
    · exact Or.inr ⟨rfl, begun below, shorter⟩
  kept := by
    rw [Datum.elements_list, List.flatMap_append, same]
    rcases closes with ⟨rfl, _⟩ | ⟨rfl, _⟩
    · rw [List.flatMap_nil, List.append_nil]
    · rw [List.flatMap_singleton, Datum.elements_openMark, List.append_nil]
  whole := by
    rw [List.prod_cons]
    intro enough
    obtain ⟨rfl, shapes, leaves⟩ := whole (by omega)
    rw [List.append_nil, Datum.leaves_list]
    rcases closes with ⟨_, length⟩ | ⟨never, _⟩
    · exact ⟨⟨items, rfl, length, shapes⟩, leaves⟩
    · cases never

/-- A shape is laid out as far as the limit goes.  An extent below zero counts as none. -/
theorem layout_lays {dims : List Datum} {extents : List Nat}
    (sizes : List.Forall₂
      (fun dim extent => ∃ n, dim.integer? = some n ∧ n.toNat = extent) dims extents) :
    Lays limit extents (layout (.int limit) dims) := by
  induction sizes with
  | nil => exact item_lays
  | @cons dim extent dims inner size _ inductionHypothesis =>
      obtain ⟨n, integer, rfl⟩ := size
      intro elements more placed enough plain below
      rw [List.prod_cons] at enough ⊢
      obtain ⟨items, ending, fills, closes, fits, same, whole⟩ :=
        entries_lays inductionHypothesis n.toNat more enough plain (Nat.le_succ_of_le below)
      refine ⟨.list (items ++ ending), ?_,
        Fills.list below rfl closes fits same (whole (Or.inr below))⟩
      rw [layout, Datum.toInteger, integer]
      simp only [bind, Except.bind, fills]
      rfl

end Cursor

/-! ## Decoding up to a limit -/

namespace ElementType

theorem itemSize_pos (type : ElementType) : 0 < type.itemSize := by
  cases type <;> decide

theorem length_elements (type : ElementType) (data : ByteArray) (start count : Nat) :
    (type.elements data start count).length = count := by
  rw [elements, List.length_map, List.length_range]

theorem take_elements (type : ElementType) (data : ByteArray) (start count room : Nat) :
    (type.elements data start count).take room = type.elements data start (min count room) := by
  rw [elements, elements, ← List.map_take, List.take_range, Nat.min_comm]

/-- Elements that were read are numbers, and no marks. -/
theorem openLeaf_notMem_elements (type : ElementType) (data : ByteArray) (start count : Nat) :
    openLeaf ∉ type.elements data start count := by
  have number (place : Nat) : type.elementAt data place ≠ openLeaf := by
    cases type <;> exact Atom.noConfusion
  intro member
  obtain ⟨place, _, same⟩ := List.mem_map.mp member
  exact number _ same

end ElementType

namespace Initializer

variable {view : Initializer} {type : ElementType} {dims : List Datum} {bound : Datum}

/-- The nested lists that a view lays elements out in. -/
def arrange (limit : Number) (dims : List Datum) (elements : List Atom) : Except Fault Datum :=
  match dims with
  | [] => do
      let (items, _) ← Cursor.entries limit Cursor.item 1 ⟨elements, 0⟩
      match items with
      | item :: _ => return item
      | [] => throw .index
  | dims => do
      let (datum, _) ← Cursor.layout limit dims ⟨elements, 0⟩
      return datum

theorem wanted_int (count limit : Int) :
    wanted (.int count) (.int limit) = .ok (.int (min count (limit + 1))) := by
  have next : (Number.int limit).plus (.int 1) = .ok (.int (limit + 1)) := rfl
  rw [wanted, next]
  simp only [bind, Except.bind, pure, Except.pure, Number.less_int]
  by_cases below : limit + 1 < count
  · rw [decide_eq_true below, if_pos rfl, min_eq_right below.le]
  · rw [decide_eq_false below, if_neg (by decide), min_eq_left (not_lt.mp below)]

/-- A view is decoded in two steps: the elements are read from the data, as many as there
are or one more than the limit, and then they are laid out. -/
theorem decode_eq {count offset limit : Int}
    (typed : view.dataType.bind ElementType.ofName? = some type)
    (shape : view.dims = some dims) (counts : view.count = .ok (.int count))
    (from_ : view.offset.integer? = some offset) (limited : bound.integer? = some limit) :
    view.decode bound =
      readElements type view.data (min count (limit + 1)) (offset * type.itemSize) >>=
        arrange (.int limit) dims := by
  have number (n : Int) : (Datum.int n).toNumber = .ok (.int n) := rfl
  have whole (n : Int) : (Datum.atom (.ofNumber (.int n))).toInteger = .ok n := rfl
  have ok_bind {α β : Type} (a : α) (next : α → Except Fault β) :
      (Except.ok a >>= next) = next a := rfl
  rw [decode, typed, shape, Datum.toInteger, from_, Datum.toNumber,
    Datum.numeric?_of_integer? limited]
  simp only [counts, number, ok_bind, wanted_int, whole]
  cases dims with
  | nil => rfl
  | cons dim inner => rfl

/-- Elements are laid out as far as the limit goes. -/
theorem arrange_fills {extents : List Nat} {elements : List Atom} {limit : Nat}
    (more : List Atom)
    (sizes : List.Forall₂
      (fun dim extent => ∃ n, dim.integer? = some n ∧ n.toNat = extent) dims extents)
    (enough : elements.length = extents.prod) (plain : openLeaf ∉ elements) :
    ∃ datum, arrange (.int limit) dims (elements.take (limit + 1) ++ more) = .ok datum ∧
      Cursor.Fills extents (limit + 1) elements datum := by
  cases sizes with
  | nil =>
      have width : elements.length = 1 * ([] : List Nat).prod := by
        rw [enough, Nat.one_mul]
      obtain ⟨items, ending, fills, closes, fits, same, whole⟩ :=
        Cursor.entries_lays Cursor.item_lays 1 more width plain (Nat.zero_le (limit + 1))
      have single : items.length = 1 ∧ ending = [] := by
        rcases closes with ⟨noEnding, length⟩ | ⟨_, shorter, begun⟩
        · exact ⟨length, noEnding⟩
        · have some := begun (Nat.zero_le limit)
          omega
      obtain ⟨⟨item, rfl⟩, rfl⟩ := single.imp_left List.length_eq_one_iff.mp
      obtain ⟨_, shapes, leaves⟩ := whole (Or.inr (Nat.zero_le limit)) (by
        rw [List.prod_nil]
        omega)
      rw [List.flatMap_singleton] at same leaves
      refine ⟨item, ?_, fits item (List.mem_singleton_self item), same,
        fun _ => ⟨shapes item (List.mem_singleton_self item), leaves⟩⟩
      rw [Nat.sub_zero] at fills
      rw [arrange, fills]
      rfl
  | @cons dim extent dims inner size sizes =>
      obtain ⟨datum, lays, fills⟩ :=
        Cursor.layout_lays (.cons size sizes) elements more 0 enough plain (Nat.zero_le limit)
      rw [Nat.sub_zero] at lays fills
      refine ⟨datum, ?_, fills⟩
      change Cursor.layout (.int limit) (dim :: dims) _ >>= _ = _
      rw [lays]
      rfl

theorem exists_decode {data : ByteArray} {extents : List Nat} {offset limit : Nat}
    (typed : view.dataType.bind ElementType.ofName? = some type)
    (shape : view.dims = some dims) (bytes : view.data = some data)
    (sizes : List.Forall₂ (fun dim extent => dim.integer? = some ((extent : Nat) : Int))
      dims extents)
    (from_ : view.offset.integer? = some (offset : Int))
    (inside : (offset + extents.prod) * type.itemSize ≤ data.size)
    (addressable : data.size < 2 ^ 63) (limited : bound.integer? = some (limit : Int)) :
    ∃ datum, view.decode bound = .ok datum ∧
      Cursor.Fills extents (limit + 1) (elementsFrom type data offset extents.prod) datum := by
  have fewer : min (extents.prod : Int) ((limit : Int) + 1) =
      ((min extents.prod (limit + 1) : Nat) : Int) := by
    push_cast
    rfl
  have insideFewer : (offset + min extents.prod (limit + 1)) * type.itemSize ≤ data.size :=
    (Nat.mul_le_mul_right _ (Nat.add_le_add_left (Nat.min_le_left _ _) _)).trans inside
  have natural : List.Forall₂
      (fun (dim : Datum) extent => ∃ n, dim.integer? = some n ∧ n.toNat = extent)
      dims extents :=
    sizes.imp fun dim extent size => ⟨_, size, Int.toNat_natCast extent⟩
  obtain ⟨datum, arranges, fills⟩ :=
    arrange_fills [] natural
      (type.length_elements data (offset * type.itemSize) extents.prod)
      (type.openLeaf_notMem_elements data (offset * type.itemSize) extents.prod)
  refine ⟨datum, ?_, fills⟩
  rw [List.append_nil, type.take_elements] at arranges
  rw [decode_eq typed shape (count_eq shape sizes) from_ limited, fewer, bytes,
    readElements_eq insideFewer addressable]
  exact arranges

/-- A view that can be read is decoded up to every limit: what is left of the value are its
first elements, one more than the limit if there are so many, in lists that are marked where
they were left open.  Nothing is left out if and only if there are no more elements. -/
theorem decode_truncates {extents : List Nat} {offset limit : Nat}
    (readable : view.state = .ok none)
    (sizes : ∀ dims, view.dims = some dims →
      List.Forall₂ (fun dim extent => dim.integer? = some ((extent : Nat) : Int))
        dims extents)
    (from_ : view.offset.integer? = some (offset : Int))
    (addressable : ∀ data, view.data = some data → data.size < 2 ^ 63)
    (limited : bound.integer? = some (limit : Int)) :
    ∃ whole part, view.value = .ok whole ∧ view.decode bound = .ok part ∧
      whole.HasShape extents ∧ whole.leaves.length = extents.prod ∧
        openLeaf ∉ whole.leaves ∧
        part.elements = whole.leaves.take (min extents.prod (limit + 1)) ∧
        part.FitsShape extents ∧ (part = whole ↔ extents.prod ≤ limit + 1) := by
  obtain ⟨type, dims, data, typed, shape, bytes, inside⟩ :=
    of_state_eq_none readable sizes from_
  have reached := addressable data bytes
  have few : extents.prod ≤ 0x7fffffffffffffff + 1 := by
    have within : extents.prod ≤ (offset + extents.prod) * type.itemSize :=
      (Nat.le_add_left _ _).trans (Nat.le_mul_of_pos_right _ type.itemSize_pos)
    omega
  obtain ⟨part, decodes, fills⟩ :=
    exists_decode typed shape bytes (sizes dims shape) from_ inside reached limited
  obtain ⟨whole, decodesWhole, fillsWhole⟩ :=
    exists_decode typed shape bytes (sizes dims shape) from_ inside reached
      (show noLimit.integer? = some ((0x7fffffffffffffff : Nat) : Int) from rfl)
  obtain ⟨hasShape, leaves⟩ := fillsWhole.whole few
  have plain : openLeaf ∉ whole.leaves :=
    leaves ▸ type.openLeaf_notMem_elements data (offset * type.itemSize) extents.prod
  have total : whole.leaves.length = extents.prod := hasShape.length_leaves
  have first : part.elements = whole.leaves.take (min extents.prod (limit + 1)) := by
    rw [fills.kept, leaves, List.take_eq_take_min, elementsFrom, type.length_elements, Nat.min_comm]
  refine ⟨whole, part, ?_, decodes, hasShape, total, plain, first, fills.fits, ?_, ?_⟩
  · rw [value, readable]
    exact decodesWhole
  · rintro rfl
    have lengths := congrArg List.length first
    rw [fillsWhole.kept, List.length_take, List.length_take, elementsFrom,
      type.length_elements, total] at lengths
    omega
  · intro enough
    obtain ⟨hasShapeToo, leavesToo⟩ := fills.whole enough
    exact hasShapeToo.eq_of_leaves hasShape (leavesToo.trans leaves.symm)

/-- Two rows of two bytes. -/
def rows : Initializer where
  name := "rows"
  dataType := some "uint8"
  dims := some [.int 2, .int 2]
  data := some ⟨#[1, 2, 3, 4]⟩
  offset := .int 0
  displayLimit := .int 2

/-- Of four elements three are left, one more than the limit. -/
theorem decode_truncates_rows :
    rows.state = .ok none ∧
      ∃ whole part, rows.value = .ok whole ∧ rows.decode rows.displayLimit = .ok part ∧
        whole.HasShape [2, 2] ∧ whole.leaves.length = [2, 2].prod ∧
          openLeaf ∉ whole.leaves ∧
          part.elements = whole.leaves.take (min [2, 2].prod (2 + 1)) ∧
          part.FitsShape [2, 2] ∧ (part = whole ↔ [2, 2].prod ≤ 2 + 1) := by
  have readable : rows.state = .ok none := by rfl
  have front : rows.offset.integer? = some ((0 : Nat) : Int) := by rfl
  have limited : rows.displayLimit.integer? = some ((2 : Nat) : Int) := by rfl
  refine ⟨readable, decode_truncates readable ?_ front ?_ limited⟩
  · intro dims shape
    cases shape
    exact .cons rfl (.cons rfl .nil)
  · intro data bytes
    cases bytes
    decide

/-! ## Data that admit a view -/

variable {data : ByteArray} {sizes : List Int} {offset limit wanted : Int} {elements : List Atom}

/-- Whether so many elements can be read behind an offset of data of a size, which has room
for them: the offset is a place of the data, and a negative number, which asks for all that
are left, fits in a word and meets whole items only. -/
structure Admits (type : ElementType) (size : Nat) (wanted offset : Int) : Prop where
  start : 0 ≤ offset
  inside : offset * type.itemSize ≤ size
  whole : wanted < 0 → -2 ^ 63 ≤ wanted ∧ (type.itemSize : Int) ∣ size

/-! ## Reading -/

/-- What was read are elements, and as many as were wanted if not more. -/
theorem of_readElements {start : Int}
    (reads : readElements type (some data) wanted start = .ok elements) :
    openLeaf ∉ elements ∧ wanted.toNat ≤ elements.length := by
  rw [readElements] at reads
  split at reads
  · cases reads
  · dsimp only at reads
    split at reads
    · cases reads
    · split at reads
      · rename_i negative
        split at reads
        · cases reads
          refine ⟨type.openLeaf_notMem_elements _ _ _, ?_⟩
          rw [Int.toNat_of_nonpos negative.le]
          exact Nat.zero_le _
        · cases reads
      · split at reads
        · cases reads
        · cases reads
          exact ⟨type.openLeaf_notMem_elements _ _ _, (type.length_elements _ _ _).ge⟩

/-- The elements that there is room for can be read where the data admit it. -/
theorem readElements_ok_iff (addressable : data.size < 2 ^ 63)
    (room : (offset + wanted) * type.itemSize ≤ data.size) :
    (∃ elements, readElements type (some data) wanted (offset * type.itemSize) = .ok elements) ↔
      Admits type data.size wanted offset := by
  have positive : (0 : Int) < type.itemSize := Int.natCast_pos.mpr type.itemSize_pos
  have atStart : offset * type.itemSize < 0 ↔ offset < 0 := by
    rw [← not_le, ← not_le, mul_nonneg_iff_of_pos_right positive]
  have sum : (offset + wanted) * type.itemSize =
      offset * type.itemSize + wanted * type.itemSize := add_mul _ _ _
  constructor
  · rintro ⟨elements, reads⟩
    rw [readElements] at reads
    split at reads
    · cases reads
    · rename_i words
      simp only [isWord, Bool.or_eq_true, Bool.not_eq_true', Bool.and_eq_false_imp,
        decide_eq_true_eq, decide_eq_false_iff_not, not_or, not_forall, not_not] at words
      dsimp only at reads
      split at reads
      · cases reads
      · rename_i placed
        rw [not_or, atStart, not_lt, not_lt] at placed
        refine ⟨placed.1, placed.2, fun negative => ⟨words.1.1, ?_⟩⟩
        rw [if_pos negative] at reads
        split at reads
        · rename_i divides
          rw [← Int.dvd_iff_emod_eq_zero] at divides
          exact (Int.dvd_iff_dvd_of_dvd_sub divides).mpr (Dvd.intro_left _ rfl)
        · cases reads
  · intro admits
    have start := admits.start
    have inside := admits.inside
    have startNonneg : 0 ≤ offset * type.itemSize := Int.mul_nonneg start positive.le
    have fewer : 0 ≤ wanted → wanted ≤ data.size := by
      intro nonnegative
      have wide : wanted ≤ wanted * type.itemSize :=
        le_mul_of_one_le_right nonnegative positive
      omega
    have lower : -2 ^ 63 ≤ wanted := by
      rcases lt_or_ge wanted 0 with negative | nonnegative
      · exact (admits.whole negative).1
      · omega
    have wantedWord : isWord wanted = true := by
      simp only [isWord, Bool.and_eq_true, decide_eq_true_eq]
      omega
    have startWord : isWord (offset * type.itemSize) = true := by
      simp only [isWord, Bool.and_eq_true, decide_eq_true_eq]
      omega
    rw [readElements, wantedWord, startWord]
    dsimp only
    rw [if_neg (by decide), if_neg (by omega)]
    by_cases negative : wanted < 0
    · have divides : ((data.size : Int) - offset * type.itemSize) % type.itemSize = 0 :=
        Int.emod_eq_zero_of_dvd
          ((admits.whole negative).2.sub (Dvd.intro_left _ rfl))
      rw [if_pos negative, if_pos divides]
      exact ⟨_, rfl⟩
    · rw [if_neg negative, if_neg (by omega)]
      exact ⟨_, rfl⟩

/-! ## Laying out -/

/-- Below zero a limit lets nothing be placed. -/
theorem entries_negative (negative : limit < 0)
    (entry : Cursor → Except Fault (Datum × Cursor)) (count : Nat) (elements : List Atom) :
    Cursor.entries (.int limit) entry count ⟨elements, 0⟩ =
      .ok (if count = 0 then [] else [openMark], ⟨elements, 0⟩) := by
  cases count with
  | zero => rfl
  | succ count =>
      have beyond : Cursor.isBeyond ⟨elements, 0⟩ (.int limit) = true := by
        rw [Cursor.isBeyond, Number.less_int]
        exact decide_eq_true negative
      rw [Cursor.entries, beyond]
      rfl

/-- The product of extents that count as none below zero is their product or nothing. -/
theorem prod_toNat (sizes : List Int) :
    ((sizes.map Int.toNat).prod : Int) = sizes.prod ∨ (sizes.map Int.toNat).prod = 0 := by
  induction sizes with
  | nil => exact Or.inl rfl
  | cons size sizes inductionHypothesis =>
      rw [List.map_cons, List.prod_cons, List.prod_cons]
      rcases lt_or_ge size 0 with negative | nonnegative
      · rw [Int.toNat_of_nonpos negative.le, Nat.zero_mul]
        exact Or.inr rfl
      · rcases inductionHypothesis with same | none
        · refine Or.inl ?_
          rw [Nat.cast_mul, same, Int.toNat_of_nonneg nonnegative]
        · rw [none, Nat.mul_zero]
          exact Or.inr rfl

/-- Elements that fill a room, or are as many as are asked for, are the first of so many, as
far as there is room for them. -/
theorem exists_extension {count room : Nat} (plain : openLeaf ∉ elements)
    (enough : min count room ≤ elements.length) :
    ∃ (given more : List Atom), given.length = count ∧ openLeaf ∉ given ∧
      given.take room ++ more = elements := by
  rcases Nat.le_total count room with few | many
  · rw [Nat.min_eq_left few] at enough
    have length : (elements.take count).length = count := List.length_take_of_le enough
    refine ⟨elements.take count, elements.drop count, length, ?_, ?_⟩
    · exact fun member => plain (List.mem_of_mem_take member)
    · rw [List.take_of_length_le (length.trans_le few), List.take_append_drop]
  · rw [Nat.min_eq_right many] at enough
    have length : (elements.take room).length = room := List.length_take_of_le enough
    refine ⟨elements.take room ++ List.replicate (count - room) (.int 0), elements.drop room,
      ?_, ?_, ?_⟩
    · rw [List.length_append, length, List.length_replicate, Nat.add_sub_of_le many]
    · intro member
      rcases List.mem_append.mp member with inside | missing
      · exact plain (List.mem_of_mem_take inside)
      · exact Atom.noConfusion (List.eq_of_mem_replicate missing)
    · rw [List.take_left' length, List.take_append_drop]

/-- Elements are laid out if they are as many as are placed: there is nothing to place for
an extent below zero, or up to a limit below zero. -/
theorem exists_arrange
    (integers : List.Forall₂ (fun dim size => dim.integer? = some size) dims sizes)
    (plain : openLeaf ∉ elements)
    (enough : (min sizes.prod (limit + 1)).toNat ≤ elements.length) :
    ∃ datum, arrange (.int limit) dims elements = .ok datum := by
  rcases lt_or_ge limit 0 with negative | nonnegative
  · cases integers with
    | nil =>
        rw [arrange, entries_negative negative]
        exact ⟨openMark, rfl⟩
    | @cons dim size dims sizes integer _ =>
        refine ⟨.list (if size.toNat = 0 then [] else [openMark]), ?_⟩
        change Cursor.layout (.int limit) (dim :: dims) _ >>= _ = _
        rw [Cursor.layout, Datum.toInteger, integer]
        simp only [bind, Except.bind, entries_negative negative]
        rfl
  · obtain ⟨limit, rfl⟩ := Int.eq_ofNat_of_zero_le nonnegative
    have extents : List.Forall₂
        (fun (dim : Datum) extent => ∃ n, dim.integer? = some n ∧ n.toNat = extent)
        dims (sizes.map Int.toNat) :=
      List.forall₂_map_right_iff.mpr
        (integers.imp fun dim size integer => ⟨size, integer, rfl⟩)
    have placed : min (sizes.map Int.toNat).prod (limit + 1) ≤ elements.length := by
      rcases prod_toNat sizes with same | none <;> omega
    obtain ⟨given, more, length, plainGiven, rfl⟩ := exists_extension plain placed
    obtain ⟨datum, arranges, _⟩ := arrange_fills more extents length plainGiven
    exact ⟨datum, arranges⟩

/-! ## Decoding -/

/-- A view with room for its elements is decoded where its data admit that as many are read
as the limit lets. -/
theorem decode_ok_iff (typed : view.dataType.bind ElementType.ofName? = some type)
    (shape : view.dims = some dims) (bytes : view.data = some data)
    (integers : List.Forall₂ (fun dim size => dim.integer? = some size) dims sizes)
    (from_ : view.offset.integer? = some offset)
    (inside : (offset + sizes.prod) * type.itemSize ≤ data.size)
    (addressable : data.size < 2 ^ 63) (limited : bound.integer? = some limit) :
    (∃ datum, view.decode bound = .ok datum) ↔
      Admits type data.size (min sizes.prod (limit + 1)) offset := by
  have room : (offset + min sizes.prod (limit + 1)) * type.itemSize ≤ data.size :=
    (Int.mul_le_mul_of_nonneg_right (Int.add_le_add_left (min_le_left _ _) _)
      (Int.natCast_nonneg _)).trans inside
  rw [decode_eq typed shape (count_int shape integers) from_ limited, bytes,
    ← readElements_ok_iff addressable room]
  constructor
  · rintro ⟨datum, decodes⟩
    obtain ⟨elements, reads, _⟩ := Except.bind_eq_ok_iff.mp decodes
    exact ⟨elements, reads⟩
  · rintro ⟨elements, reads⟩
    obtain ⟨plain, enough⟩ := of_readElements reads
    obtain ⟨datum, arranges⟩ := exists_arrange integers plain enough
    exact ⟨datum, Except.bind_eq_ok_iff.mpr ⟨elements, reads, arranges⟩⟩

/-- A view without a defect in its state has a value if and only if its data admit that all
its elements are read, and a text if and only if they admit that as many are read as its
limit lets. -/
theorem shown_iff (readable : view.state = .ok none)
    (integers : ∀ dims, view.dims = some dims →
      List.Forall₂ (fun dim size => dim.integer? = some size) dims sizes)
    (from_ : view.offset.integer? = some offset)
    (limited : view.displayLimit.integer? = some limit)
    (addressable : ∀ data, view.data = some data → data.size < 2 ^ 63) :
    ∃ type data, view.dataType.bind ElementType.ofName? = some type ∧ view.data = some data ∧
      ((∃ datum, view.value = .ok datum) ↔ Admits type data.size sizes.prod offset) ∧
        ((∃ text, view.text = .ok text) ↔
          Admits type data.size (min sizes.prod (limit + 1)) offset) := by
  obtain ⟨type, dims, data, typed, shape, bytes, inside⟩ :=
    of_state_integers readable integers from_
  have decodes {bound : Datum} {limit : Int} (limited : bound.integer? = some limit) :=
    decode_ok_iff typed shape bytes (integers dims shape) from_ inside (addressable data bytes)
      limited
  refine ⟨type, data, typed, bytes, ?_, ?_⟩
  · have every : Admits type data.size (min sizes.prod (0x7fffffffffffffff + 1)) offset ↔
        Admits type data.size sizes.prod offset := by
      constructor
      · rintro ⟨start, inside, whole⟩
        refine ⟨start, inside, fun negative => ?_⟩
        have fewer := whole (by omega)
        exact ⟨by omega, fewer.2⟩
      · rintro ⟨start, inside, whole⟩
        refine ⟨start, inside, fun negative => ?_⟩
        have fewer := whole (by omega)
        exact ⟨by omega, fewer.2⟩
    rw [← every, ← decodes (show noLimit.integer? = some 0x7fffffffffffffff from rfl), value,
      readable]
    rfl
  · rw [← decodes limited, text, readable]
    change (∃ text, (view.decode view.displayLimit >>= fun datum =>
      Except.ok (nestedText 0 datum)) = .ok text) ↔ _
    constructor
    · rintro ⟨text, shown⟩
      obtain ⟨datum, decoded, _⟩ := Except.bind_eq_ok_iff.mp shown
      exact ⟨datum, decoded⟩
    · rintro ⟨datum, decoded⟩
      exact ⟨nestedText 0 datum, Except.bind_eq_ok_iff.mpr ⟨datum, decoded, rfl⟩⟩

/-- Half an item, behind the last whole one. -/
def trailed : Initializer where
  name := "trailed"
  dataType := some "int16"
  dims := some [.int 1]
  data := some ⟨#[1, 0, 0]⟩
  offset := .int 0
  displayLimit := .int (-2)

theorem shown_iff_trailed :
    trailed.state = .ok none ∧
      ∃ type data, trailed.dataType.bind ElementType.ofName? = some type ∧
        trailed.data = some data ∧
          ((∃ datum, trailed.value = .ok datum) ↔
              Admits type data.size ([1] : List Int).prod 0) ∧
            ((∃ text, trailed.text = .ok text) ↔
              Admits type data.size (min ([1] : List Int).prod (-2 + 1)) 0) := by
  have readable : trailed.state = .ok none := by rfl
  refine ⟨readable, shown_iff readable ?_ (by rfl) (by rfl) ?_⟩
  · intro dims shape
    cases shape
    exact .cons rfl .nil
  · intro data bytes
    cases bytes
    decide

end Initializer

namespace NegativeOffset

/-- One element, at an offset in front of the data. -/
def view : Initializer where
  name := "t"
  dataType := some "float32"
  dims := some [.int 1]
  data := some ⟨#[0, 0, 0, 0]⟩
  offset := .int (-1)
  displayLimit := .int 10000

/-- A state without a defect although neither the value nor the text can be produced. -/
theorem exists_undecoded :
    view.state = .ok none ∧
      view.value =
        .error (.value "offset must be non-negative and no greater than buffer length") ∧
        view.text =
          .error (.value "offset must be non-negative and no greater than buffer length") := by
  exact ⟨by rfl, by rfl, by rfl⟩

end NegativeOffset

end TorchArchive
