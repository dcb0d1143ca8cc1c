import TorchArchive.Proofs.Steps

/-!
# Equality of data

Data are compared by contents, and dictionaries as maps unless both keep an order.  So
equality is not transitive in general: two dictionaries that keep different orders can both
equal one that keeps none.  It is as long as the datum that the others are compared with
holds no order, as documents do, and it can be turned around where the keys of dictionaries
and the items of sets are told apart.
-/

namespace TorchArchive

/-! ## Pairs of lists -/

section Pairs

variable {α β γ : Type} {first : α → γ → Prop} {second : β → γ → Prop} {third : α → β → Prop}

/-- Lists that are paired with one list are paired with each other. -/
theorem forall₂_of_common {left : List α} {right : List β} {common : List γ}
    (pairsLeft : List.Forall₂ first left common) (pairsRight : List.Forall₂ second right common)
    (meet : ∀ a ∈ left, ∀ b ∈ right, ∀ c ∈ common, first a c → second b c → third a b) :
    List.Forall₂ third left right := by
  induction pairsLeft generalizing right with
  | nil =>
      cases pairsRight
      exact .nil
  | cons related _ inductionHypothesis =>
      cases pairsRight with
      | cons relatedRight others =>
          refine .cons ?_ (inductionHypothesis others fun a inLeft b inRight c inCommon => ?_)
          · exact meet _ List.mem_cons_self _ List.mem_cons_self _ List.mem_cons_self related
              relatedRight
          · exact meet a (List.mem_cons_of_mem _ inLeft) b (List.mem_cons_of_mem _ inRight) c
              (List.mem_cons_of_mem _ inCommon)

/-- If each of so many items has a partner among as many others, and no two share one, then
each of the others is a partner. -/
theorem exists_matched {relation : α → β → Prop} {left : List α} {right : List β}
    (sameLength : left.length = right.length)
    (matched : ∀ a ∈ left, ∃ b ∈ right, relation a b)
    (apart : left.Pairwise fun a a' => ∀ b ∈ right, relation a b → relation a' b → False) :
    ∀ b ∈ right, ∃ a ∈ left, relation a b := by
  induction left generalizing right with
  | nil =>
      intro b member
      rw [List.length_eq_zero_iff.mp sameLength.symm] at member
      cases member
  | cons a others inductionHypothesis =>
      obtain ⟨⟨partner, isPartner, related⟩, matchedOthers⟩ := List.forall_mem_cons.mp matched
      obtain ⟨apartFirst, apartOthers⟩ := List.pairwise_cons.mp apart
      obtain ⟨front, back, rfl⟩ := List.append_of_mem isPartner
      have smaller : ∀ b, b ∈ front ++ back → b ∈ front ++ partner :: back := by
        intro b member
        rcases List.mem_append.mp member with inFront | inBack
        · exact List.mem_append_left _ inFront
        · exact List.mem_append_right _ (List.mem_cons_of_mem _ inBack)
      have remaining : ∀ b ∈ front ++ back, ∃ a ∈ others, relation a b := by
        apply inductionHypothesis
        · simp only [List.length_append, List.length_cons] at sameLength ⊢
          omega
        · intro other member
          obtain ⟨b, inRight, relatedOther⟩ := matchedOthers other member
          refine ⟨b, ?_, relatedOther⟩
          -- The partner of the first item is taken.
          rcases List.mem_append.mp inRight with inFront | inBack
          · exact List.mem_append_left _ inFront
          · rcases List.mem_cons.mp inBack with rfl | inBack
            · exact (apartFirst other member b inRight related relatedOther).elim
            · exact List.mem_append_right _ inBack
        · exact apartOthers.imp fun separate b member => separate b (smaller b member)
      intro b member
      rcases List.mem_append.mp member with inFront | inBack
      · obtain ⟨other, isOther, relatedOther⟩ := remaining b (List.mem_append_left _ inFront)
        exact ⟨other, List.mem_cons_of_mem _ isOther, relatedOther⟩
      · rcases List.mem_cons.mp inBack with rfl | inBack
        · exact ⟨a, List.mem_cons_self, related⟩
        · obtain ⟨other, isOther, relatedOther⟩ := remaining b (List.mem_append_right _ inBack)
          exact ⟨other, List.mem_cons_of_mem _ isOther, relatedOther⟩

end Pairs

/-! ## Atoms and values -/

theorem Atom.equals_iff {a b : Atom} :
    a.equals b = true ↔ a.canonical = b.canonical ∧ a.canonical ≠ .float .nan := by
  rw [Atom.equals, Bool.and_eq_true_iff, beq_iff_eq, bne_iff_ne]

namespace Value

mutual

theorem eq_of_identical : ∀ {a b : Value}, a.identical b = true → a = b
  | atom _, atom _, same => congrArg atom (eq_of_beq same)
  | tuple _, tuple _, same => congrArg tuple (eq_of_identicalItems same)
  | set _ _, set _ _, same => by
      obtain ⟨kind, items⟩ := Bool.and_eq_true_iff.mp same
      exact congrArg₂ set (eq_of_beq kind) (eq_of_identicalItems items)
  | packed _ _, packed _ _, same => by
      obtain ⟨form, arguments⟩ := Bool.and_eq_true_iff.mp same
      exact congrArg₂ packed (eq_of_beq form) (eq_of_identicalItems arguments)
  | list _, list _, same => congrArg list (eq_of_beq same)
  | dict _, dict _, same => congrArg dict (eq_of_beq same)
  | tensor _, tensor _, same => congrArg tensor (eq_of_beq same)
  | storage _, storage _, same => congrArg storage (eq_of_beq same)
  | module _, module _, same => congrArg module (eq_of_beq same)
  | moduleClass _, moduleClass _, same => congrArg moduleClass (eq_of_beq same)
  | package _, package _, same => congrArg package (eq_of_beq same)
  | function _, function _, same => congrArg function (eq_of_beq same)
  | storageType _, storageType _, same => congrArg storageType (eq_of_beq same)
  | builtin _, builtin _, same => congrArg builtin (eq_of_beq same)
  | method _, method _, same => congrArg method (eq_of_beq same)

theorem eq_of_identicalItems : ∀ {a b : List Value}, identicalItems a b = true → a = b
  | [], [], _ => rfl
  | _ :: _, _ :: _, same => by
      obtain ⟨first, rest⟩ := Bool.and_eq_true_iff.mp same
      exact congrArg₂ List.cons (eq_of_identical first) (eq_of_identicalItems rest)

end

mutual

theorem identical_self : ∀ a : Value, a.identical a = true
  | tuple items => identicalItems_self items
  | set _ items => Bool.and_eq_true_iff.mpr ⟨beq_self_eq_true _, identicalItems_self items⟩
  | packed _ arguments =>
      Bool.and_eq_true_iff.mpr ⟨beq_self_eq_true _, identicalItems_self arguments⟩
  | atom _ | list _ | dict _ | tensor _ | storage _ | module _ | moduleClass _ | package _
  | function _ | storageType _ | builtin _ | method _ => beq_self_eq_true _

theorem identicalItems_self : ∀ items : List Value, identicalItems items items = true
  | [] => rfl
  | first :: rest =>
      Bool.and_eq_true_iff.mpr ⟨identical_self first, identicalItems_self rest⟩

end

end Value

namespace Datum

/-! ## Induction -/

/-- What holds of a datum if it holds of its parts holds of every datum. -/
theorem inductionOn {motive : Datum → Prop} (atom : ∀ a, motive (atom a))
    (list : ∀ items, (∀ item ∈ items, motive item) → motive (list items))
    (tuple : ∀ items, (∀ item ∈ items, motive item) → motive (tuple items))
    (dict : ∀ ordered entries, (∀ entry ∈ entries, motive entry.1 ∧ motive entry.2) →
      motive (dict ordered entries))
    (set : ∀ frozen items, (∀ item ∈ items, motive item) → motive (set frozen items))
    (object : ∀ typeName written handle, motive (object typeName written handle))
    (cycle : ∀ written, motive (cycle written)) (datum : Datum) : motive datum := by
  refine @Datum.rec motive (fun items => ∀ item ∈ items, motive item)
    (fun entries => ∀ entry ∈ entries, motive entry.1 ∧ motive entry.2)
    (fun entry => motive entry.1 ∧ motive entry.2)
    atom list tuple dict set object cycle nofun ?_ nofun ?_ (fun _ _ key value => ⟨key, value⟩)
    datum
  · exact fun _ _ first rest => List.forall_mem_cons.mpr ⟨first, rest⟩
  · exact fun _ _ first rest => List.forall_mem_cons.mpr ⟨first, rest⟩

/-! ## Equality, constructor by constructor -/

/-- Whether two entries have equal keys and equal values. -/
def EqualEntry (a b : Datum × Datum) : Prop := a.1.equals b.1 = true ∧ a.2.equals b.2 = true

theorem equalItems_iff {left right : List Datum} :
    equalItems left right = true ↔
      List.Forall₂ (fun a b => a.equals b = true) left right := by
  induction left generalizing right with
  | nil => cases right <;> simp [equalItems]
  | cons first rest inductionHypothesis =>
      cases right with
      | nil => simp [equalItems]
      | cons other others => simp [equalItems, inductionHypothesis]

theorem equalEntries_iff {left right : List (Datum × Datum)} :
    equalEntries left right = true ↔ List.Forall₂ EqualEntry left right := by
  induction left generalizing right with
  | nil => cases right <;> simp [equalEntries]
  | cons first rest inductionHypothesis =>
      obtain ⟨key, value⟩ := first
      cases right with
      | nil => simp [equalEntries]
      | cons other others =>
          obtain ⟨otherKey, otherValue⟩ := other
          simp [equalEntries, inductionHypothesis, EqualEntry]

theorem heldItems_iff {left right : List Datum} :
    heldItems left right = true ↔ ∀ a ∈ left, ∃ b ∈ right, a.equals b = true := by
  induction left with
  | nil => simp [heldItems]
  | cons first rest inductionHypothesis => simp [heldItems, inductionHypothesis]

theorem heldEntries_iff {left right : List (Datum × Datum)} :
    heldEntries left right = true ↔ ∀ a ∈ left, ∃ b ∈ right, EqualEntry a b := by
  induction left with
  | nil => simp [heldEntries]
  | cons first rest inductionHypothesis =>
      obtain ⟨key, value⟩ := first
      rw [heldEntries, Bool.and_eq_true_iff, inductionHypothesis, List.any_eq_true,
        List.forall_mem_cons]
      simp only [Bool.and_eq_true_iff]
      rfl

theorem equals_list {left right : List Datum} :
    (list left).equals (list right) = true ↔
      List.Forall₂ (fun a b => a.equals b = true) left right := by
  rw [equals, equalItems_iff]

theorem equals_tuple {left right : List Datum} :
    (tuple left).equals (tuple right) = true ↔
      List.Forall₂ (fun a b => a.equals b = true) left right := by
  rw [equals, equalItems_iff]

theorem equals_set {frozen frozen' : Bool} {left right : List Datum} :
    (set frozen left).equals (set frozen' right) = true ↔
      left.length = right.length ∧ ∀ a ∈ left, ∃ b ∈ right, a.equals b = true := by
  rw [equals, Bool.and_eq_true_iff, beq_iff_eq, heldItems_iff]

/-- A dictionary without an order is compared as a map. -/
theorem equals_dict_unordered {ordered : Bool} {left right : List (Datum × Datum)} :
    (dict false left).equals (dict ordered right) = true ↔
      left.length = right.length ∧ ∀ a ∈ left, ∃ b ∈ right, EqualEntry a b := by
  rw [equals, Bool.false_and, if_neg Bool.false_ne_true, Bool.and_eq_true_iff, beq_iff_eq,
    heldEntries_iff]

/-- How two data can be equal. Of dictionaries it is only told that they are equal as
maps. -/
inductive Equality : Datum → Datum → Prop where
  | atom {a b : Atom} (same : a.equals b = true) : Equality (atom a) (atom b)
  | list {left right : List Datum}
      (pairs : List.Forall₂ (fun a b => a.equals b = true) left right) :
      Equality (list left) (list right)
  | tuple {left right : List Datum}
      (pairs : List.Forall₂ (fun a b => a.equals b = true) left right) :
      Equality (tuple left) (tuple right)
  | dict {ordered ordered' : Bool} {left right : List (Datum × Datum)}
      (sameLength : left.length = right.length)
      (held : ∀ a ∈ left, ∃ b ∈ right, EqualEntry a b) :
      Equality (dict ordered left) (dict ordered' right)
  | set {frozen frozen' : Bool} {left right : List Datum}
      (sameLength : left.length = right.length)
      (held : ∀ a ∈ left, ∃ b ∈ right, a.equals b = true) :
      Equality (set frozen left) (set frozen' right)
  | object {typeName typeName' written written' : String} {handle : Value} :
      Equality (object typeName written handle) (object typeName' written' handle)

theorem equality_of_equals {left right : Datum} (same : left.equals right = true) :
    Equality left right := by
  cases left with
  | atom a =>
      cases right with
      | atom b => exact .atom (by simpa only [equals] using same)
      | _ => simp [equals] at same
  | list items =>
      cases right with
      | list others => exact .list (equals_list.mp same)
      | _ => simp [equals] at same
  | tuple items =>
      cases right with
      | tuple others => exact .tuple (equals_tuple.mp same)
      | _ => simp [equals] at same
  | dict ordered entries =>
      cases right with
      | dict ordered' others =>
          rw [equals] at same
          split at same
          · have pairs := equalEntries_iff.mp same
            exact .dict pairs.length_eq fun a member => exists_partner pairs member
          · rw [Bool.and_eq_true_iff, beq_iff_eq, heldEntries_iff] at same
            exact .dict same.1 same.2
      | _ => simp [equals] at same
  | set frozen items =>
      cases right with
      | set frozen' others =>
          obtain ⟨sameLength, held⟩ := equals_set.mp same
          exact .set sameLength held
      | _ => simp [equals] at same
  | object typeName written handle =>
      cases right with
      | object typeName' written' handle' =>
          obtain rfl : handle = handle' := Value.eq_of_identical (by simpa only [equals] using same)
          exact .object
      | _ => simp [equals] at same
  | cycle written => simp [equals] at same

/-! ## Keys and orders -/

/-- What can be a key: what has no part that may change. -/
inductive CanKey : Datum → Prop where
  | atom {a : Atom} (fixed : ∀ data, a ≠ .byteArray data) : CanKey (atom a)
  | tuple {items : List Datum} (parts : ∀ item ∈ items, CanKey item) : CanKey (tuple items)
  | set {items : List Datum} (parts : ∀ item ∈ items, CanKey item) : CanKey (set true items)
  | object (typeName written : String) (handle : Value) :
      CanKey (object typeName written handle)

/-- What holds no dictionary that keeps an order. -/
inductive Orderless : Datum → Prop where
  | atom (a : Atom) : Orderless (atom a)
  | list {items : List Datum} (parts : ∀ item ∈ items, Orderless item) :
      Orderless (list items)
  | tuple {items : List Datum} (parts : ∀ item ∈ items, Orderless item) :
      Orderless (tuple items)
  | dict {entries : List (Datum × Datum)} (keys : ∀ entry ∈ entries, Orderless entry.1)
      (values : ∀ entry ∈ entries, Orderless entry.2) : Orderless (dict false entries)
  | set {frozen : Bool} {items : List Datum} (parts : ∀ item ∈ items, Orderless item) :
      Orderless (set frozen items)
  | object (typeName written : String) (handle : Value) :
      Orderless (object typeName written handle)
  | cycle (written : String) : Orderless (cycle written)

/-- What is built as data are: keys of dictionaries and items of sets can be keys, and no
two of them are equal. -/
inductive Keyed : Datum → Prop where
  | atom (a : Atom) : Keyed (atom a)
  | list {items : List Datum} (parts : ∀ item ∈ items, Keyed item) : Keyed (list items)
  | tuple {items : List Datum} (parts : ∀ item ∈ items, Keyed item) : Keyed (tuple items)
  | dict {ordered : Bool} {entries : List (Datum × Datum)}
      (canKey : ∀ entry ∈ entries, CanKey entry.1)
      (apart : entries.Pairwise fun a b => a.1.equals b.1 = false)
      (keys : ∀ entry ∈ entries, Keyed entry.1) (values : ∀ entry ∈ entries, Keyed entry.2) :
      Keyed (dict ordered entries)
  | set {frozen : Bool} {items : List Datum} (canKey : ∀ item ∈ items, CanKey item)
      (apart : items.Pairwise fun a b => a.equals b = false)
      (parts : ∀ item ∈ items, Keyed item) : Keyed (set frozen items)
  | object (typeName written : String) (handle : Value) : Keyed (object typeName written handle)
  | cycle (written : String) : Keyed (cycle written)

theorem CanKey.orderless {datum : Datum} (canKey : CanKey datum) : Orderless datum := by
  induction canKey with
  | atom _ => exact .atom _
  | tuple _ inductionHypothesis => exact .tuple inductionHypothesis
  | set _ inductionHypothesis => exact .set inductionHypothesis
  | object typeName written handle => exact .object typeName written handle

/-! ## Equality as a relation -/

/-- What equals a datum that equals another one equals the other one, if it holds no
order. -/
theorem equals_trans (middle : Datum) :
    ∀ {left right : Datum}, Orderless left → left.equals middle = true →
      middle.equals right = true → left.equals right = true := by
  induction middle using inductionOn with
  | atom b =>
      intro left right _ same sameRight
      cases equality_of_equals same with | atom equal =>
      cases equality_of_equals sameRight with | atom equalRight =>
      rw [Atom.equals_iff] at equal equalRight
      rw [equals, Atom.equals_iff]
      exact ⟨equal.1.trans equalRight.1, equal.2⟩
  | list items inductionHypothesis =>
      intro left right orderless same sameRight
      cases equality_of_equals same with | list pairs =>
      cases equality_of_equals sameRight with | list pairsRight =>
      cases orderless with | list orderless =>
      refine equals_list.mpr (forall₂_of_common pairs pairsRight.flip ?_)
      exact fun a inLeft _ _ b inMiddle => inductionHypothesis b inMiddle (orderless a inLeft)
  | tuple items inductionHypothesis =>
      intro left right orderless same sameRight
      cases equality_of_equals same with | tuple pairs =>
      cases equality_of_equals sameRight with | tuple pairsRight =>
      cases orderless with | tuple orderless =>
      refine equals_tuple.mpr (forall₂_of_common pairs pairsRight.flip ?_)
      exact fun a inLeft _ _ b inMiddle => inductionHypothesis b inMiddle (orderless a inLeft)
  | dict ordered entries inductionHypothesis =>
      intro left right orderless same sameRight
      cases equality_of_equals same with | dict sameLength held =>
      cases equality_of_equals sameRight with | dict sameLengthRight heldRight =>
      cases orderless with | dict keys values =>
      refine equals_dict_unordered.mpr ⟨sameLength.trans sameLengthRight, fun a inLeft => ?_⟩
      obtain ⟨b, inMiddle, sameKey, sameValue⟩ := held a inLeft
      obtain ⟨c, inRight, sameKeyRight, sameValueRight⟩ := heldRight b inMiddle
      obtain ⟨ofKey, ofValue⟩ := inductionHypothesis b inMiddle
      exact ⟨c, inRight, ofKey (keys a inLeft) sameKey sameKeyRight,
        ofValue (values a inLeft) sameValue sameValueRight⟩
  | set frozen items inductionHypothesis =>
      intro left right orderless same sameRight
      cases equality_of_equals same with | set sameLength held =>
      cases equality_of_equals sameRight with | set sameLengthRight heldRight =>
      cases orderless with | set orderless =>
      refine equals_set.mpr ⟨sameLength.trans sameLengthRight, fun a inLeft => ?_⟩
      obtain ⟨b, inMiddle, sameItem⟩ := held a inLeft
      obtain ⟨c, inRight, sameItemRight⟩ := heldRight b inMiddle
      exact ⟨c, inRight, inductionHypothesis b inMiddle (orderless a inLeft) sameItem
        sameItemRight⟩
  | object typeName written handle =>
      intro left right _ same sameRight
      cases equality_of_equals same
      cases equality_of_equals sameRight
      rw [equals, Value.identical_self]
  | cycle written =>
      intro left right _ same
      cases equality_of_equals same

/-- What equals a datum that another one equals too equals the other one, if it holds no
order and the other one is built as data are. -/
theorem equals_of_common (common : Datum) :
    ∀ {left right : Datum}, Orderless left → Keyed right → left.equals common = true →
      right.equals common = true → left.equals right = true := by
  induction common using inductionOn with
  | atom c =>
      intro left right _ _ same sameRight
      cases equality_of_equals same with | atom equal =>
      cases equality_of_equals sameRight with | atom equalRight =>
      rw [Atom.equals_iff] at equal equalRight
      rw [equals, Atom.equals_iff]
      exact ⟨equal.1.trans equalRight.1.symm, equal.2⟩
  | list items inductionHypothesis =>
      intro left right orderless keyed same sameRight
      cases equality_of_equals same with | list pairs =>
      cases equality_of_equals sameRight with | list pairsRight =>
      cases orderless with | list orderless =>
      cases keyed with | list keyed =>
      refine equals_list.mpr (forall₂_of_common pairs pairsRight ?_)
      exact fun a inLeft b inRight c inCommon =>
        inductionHypothesis c inCommon (orderless a inLeft) (keyed b inRight)
  | tuple items inductionHypothesis =>
      intro left right orderless keyed same sameRight
      cases equality_of_equals same with | tuple pairs =>
      cases equality_of_equals sameRight with | tuple pairsRight =>
      cases orderless with | tuple orderless =>
      cases keyed with | tuple keyed =>
      refine equals_tuple.mpr (forall₂_of_common pairs pairsRight ?_)
      exact fun a inLeft b inRight c inCommon =>
        inductionHypothesis c inCommon (orderless a inLeft) (keyed b inRight)
  | dict ordered entries inductionHypothesis =>
      intro left right orderless keyed same sameRight
      cases equality_of_equals same with | dict sameLength held =>
      cases equality_of_equals sameRight with | dict sameLengthRight heldRight =>
      cases orderless with | dict leftKeys leftValues =>
      cases keyed with | dict canKey apart rightKeys rightValues =>
      -- Two keys that equal a third one are equal, so no two entries share a partner.
      have matched := exists_matched sameLengthRight heldRight <|
        apart.imp_of_mem fun {b b'} isEntry isEntry' different c inCommon equal equal' =>
          Bool.false_ne_true <| different.symm.trans <|
            (inductionHypothesis c inCommon).1 (canKey b isEntry).orderless
              (rightKeys b' isEntry') equal.1 equal'.1
      refine equals_dict_unordered.mpr
        ⟨sameLength.trans sameLengthRight.symm, fun a inLeft => ?_⟩
      obtain ⟨c, inCommon, sameKey, sameValue⟩ := held a inLeft
      obtain ⟨b, inRight, sameKeyRight, sameValueRight⟩ := matched c inCommon
      obtain ⟨ofKey, ofValue⟩ := inductionHypothesis c inCommon
      exact ⟨b, inRight, ofKey (leftKeys a inLeft) (rightKeys b inRight) sameKey sameKeyRight,
        ofValue (leftValues a inLeft) (rightValues b inRight) sameValue sameValueRight⟩
  | set frozen items inductionHypothesis =>
      intro left right orderless keyed same sameRight
      cases equality_of_equals same with | set sameLength held =>
      cases equality_of_equals sameRight with | set sameLengthRight heldRight =>
      cases orderless with | set orderless =>
      cases keyed with | set canKey apart keyed =>
      have matched := exists_matched sameLengthRight heldRight <|
        apart.imp_of_mem fun {b b'} isItem isItem' different c inCommon equal equal' =>
          Bool.false_ne_true <| different.symm.trans <|
            inductionHypothesis c inCommon (canKey b isItem).orderless (keyed b' isItem')
              equal equal'
      refine equals_set.mpr ⟨sameLength.trans sameLengthRight.symm, fun a inLeft => ?_⟩
      obtain ⟨c, inCommon, sameItem⟩ := held a inLeft
      obtain ⟨b, inRight, sameItemRight⟩ := matched c inCommon
      exact ⟨b, inRight, inductionHypothesis c inCommon (orderless a inLeft) (keyed b inRight)
        sameItem sameItemRight⟩
  | object typeName written handle =>
      intro left right _ _ same sameRight
      cases equality_of_equals same
      cases equality_of_equals sameRight
      rw [equals, Value.identical_self]
  | cycle written =>
      intro left right _ _ same
      cases equality_of_equals same

end Datum

end TorchArchive
