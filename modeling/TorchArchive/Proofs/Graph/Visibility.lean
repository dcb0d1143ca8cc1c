import Mathlib
import TorchArchive.Graph.Attribute
import TorchArchive.Proofs.Equality

/-!
# What hides an attribute

A schema hides the attributes that it wants hidden and those that are the default.  Data
that count as the same are hidden alike, but for one case: a list of defaults is hidden, and
the tuple of the same items is not, unless the type of the attribute makes a list of it.
-/

namespace TorchArchive

namespace Datum

/-! ## Comparison with defaults -/

def isBool : Datum → Bool
  | atom (.bool _) => true
  | _ => false

def isList : Datum → Bool
  | list _ => true
  | _ => false

theorem sameItems_iff {left right : List Datum} :
    sameItems left right = true ↔
      List.Forall₂ (fun a b => a.sameAs b = true) left right := by
  induction left generalizing right with
  | nil => cases right <;> simp [sameItems]
  | cons first rest inductionHypothesis =>
      cases right with
      | nil => simp [sameItems]
      | cons other others => simp [sameItems, inductionHypothesis]

private theorem sameAs_atom {a b : Atom} :
    (atom a).sameAs (atom b) = true ↔
      (atom a).isBool = (atom b).isBool ∧ (atom a).equals (atom b) = true := by
  cases a with
  | bool x =>
      cases b with
      | bool y => cases x <;> cases y <;> simp [sameAs, isBool, equals, Atom.equals, Atom.canonical]
      | _ => simp [sameAs, isBool]
  | _ => cases b <;> simp [sameAs, isBool]

/-- Two sequences are the same item by item, and other data if they are equal and both are
booleans or none is. -/
theorem sameAs_iff {left right : Datum} :
    left.sameAs right = true ↔
      (∃ items others, left.items? = some items ∧ right.items? = some others ∧
        List.Forall₂ (fun a b => a.sameAs b = true) items others) ∨
      (left.items? = Option.none ∧ right.items? = Option.none ∧
        left.isBool = right.isBool ∧ left.equals right = true) := by
  cases left with
  | list items =>
      cases right with
      | list others => simp [sameAs, items?, sameItems_iff]
      | tuple others => simp [sameAs, items?, sameItems_iff]
      | _ => simp [sameAs, items?]
  | tuple items =>
      cases right with
      | list others => simp [sameAs, items?, sameItems_iff]
      | tuple others => simp [sameAs, items?, sameItems_iff]
      | _ => simp [sameAs, items?]
  | atom a =>
      cases right with
      | atom b => simp [items?, sameAs_atom]
      | _ => cases a <;> simp [sameAs, items?, isBool, equals]
  | _ =>
      cases right with
      | atom b => cases b <;> simp [sameAs, items?, isBool, equals]
      | _ => simp [sameAs, items?, isBool]

theorem sameAs_sequence {default value : Datum} {items : List Datum}
    (isItems : value.items? = some items) :
    default.sameAs value = true ↔
      ∃ defaults, default.items? = some defaults ∧
        List.Forall₂ (fun a b => a.sameAs b = true) defaults items := by
  rw [sameAs_iff, isItems]
  simp

/-- What holds of a datum if it holds of its items, should it be a sequence, holds of every
datum. -/
theorem inductionOnItems {motive : Datum → Prop}
    (step : ∀ datum, (∀ items, datum.items? = some items → ∀ item ∈ items, motive item) →
      motive datum) (datum : Datum) : motive datum := by
  induction datum using inductionOn with
  | list items inductionHypothesis =>
      refine step _ fun items isItems => ?_
      cases isItems
      exact inductionHypothesis
  | tuple items inductionHypothesis =>
      refine step _ fun items isItems => ?_
      cases isItems
      exact inductionHypothesis
  | atom _ => exact step _ nofun
  | dict _ _ _ => exact step _ nofun
  | set _ _ _ => exact step _ nofun
  | object _ _ _ => exact step _ nofun
  | cycle _ => exact step _ nofun

theorem Orderless.items {datum : Datum} (orderless : Orderless datum) {items : List Datum}
    (isItems : datum.items? = some items) : ∀ item ∈ items, Orderless item := by
  cases orderless with
  | list parts =>
      cases isItems
      exact parts
  | tuple parts =>
      cases isItems
      exact parts
  | _ => cases isItems

theorem Keyed.items {datum : Datum} (keyed : Keyed datum) {items : List Datum}
    (isItems : datum.items? = some items) : ∀ item ∈ items, Keyed item := by
  cases keyed with
  | list parts =>
      cases isItems
      exact parts
  | tuple parts =>
      cases isItems
      exact parts
  | _ => cases isItems

/-- What is the same as a datum that is the same as another one is the same as the other
one, if it holds no order. -/
theorem sameAs_trans (middle : Datum) :
    ∀ {left right : Datum}, Orderless left → left.sameAs middle = true →
      middle.sameAs right = true → left.sameAs right = true := by
  induction middle using inductionOnItems with
  | step middle inductionHypothesis =>
      intro left right orderless same sameRight
      rcases sameAs_iff.mp same with
        ⟨items, between, isItems, isBetween, pairs⟩ | ⟨single, singleBetween, kind, equal⟩
      · rcases sameAs_iff.mp sameRight with
          ⟨between', others, isBetween', isOthers, pairsRight⟩ | ⟨never, _⟩
        · obtain rfl := Option.some.inj (isBetween.symm.trans isBetween')
          refine sameAs_iff.mpr (.inl ⟨items, others, isItems, isOthers, ?_⟩)
          exact forall₂_of_common pairs pairsRight.flip fun a inLeft _ _ b inMiddle =>
            inductionHypothesis between isBetween b inMiddle (orderless.items isItems a inLeft)
        · cases isBetween.symm.trans never
      · rcases sameAs_iff.mp sameRight with
          ⟨_, _, never, _⟩ | ⟨_, singleRight, kindRight, equalRight⟩
        · cases never.symm.trans singleBetween
        · exact sameAs_iff.mpr (.inr ⟨single, singleRight, kind.trans kindRight,
            equals_trans middle orderless equal equalRight⟩)

/-- What is the same as a datum that another one is the same as too is the same as the other
one, if it holds no order and the other one is built as data are. -/
theorem sameAs_of_common (common : Datum) :
    ∀ {left right : Datum}, Orderless left → Keyed right → left.sameAs common = true →
      right.sameAs common = true → left.sameAs right = true := by
  induction common using inductionOnItems with
  | step common inductionHypothesis =>
      intro left right orderless keyed same sameRight
      rcases sameAs_iff.mp same with
        ⟨items, shared, isItems, isShared, pairs⟩ | ⟨single, singleShared, kind, equal⟩
      · rcases sameAs_iff.mp sameRight with
          ⟨others, shared', isOthers, isShared', pairsRight⟩ | ⟨_, never, _⟩
        · obtain rfl := Option.some.inj (isShared.symm.trans isShared')
          refine sameAs_iff.mpr (.inl ⟨items, others, isItems, isOthers, ?_⟩)
          exact forall₂_of_common pairs pairsRight fun a inLeft b inRight c inShared =>
            inductionHypothesis shared isShared c inShared (orderless.items isItems a inLeft)
              (keyed.items isOthers b inRight)
        · cases isShared.symm.trans never
      · rcases sameAs_iff.mp sameRight with
          ⟨_, _, _, never, _⟩ | ⟨singleRight, _, kindRight, equalRight⟩
        · cases never.symm.trans singleShared
        · exact sameAs_iff.mpr (.inr ⟨single, singleRight, kind.trans kindRight.symm,
            equals_of_common common orderless keyed equal equalRight⟩)

/-- Data that are the same are the same as the same defaults. -/
theorem sameAs_congr {default left right : Datum} (orderless : Orderless default)
    (keyed : Keyed left) (same : left.sameAs right = true) :
    default.sameAs left = default.sameAs right := by
  rw [Bool.eq_iff_iff]
  constructor
  · exact fun isLeft => sameAs_trans left orderless isLeft same
  · exact fun isRight => sameAs_of_common right orderless keyed isRight same

/-! ## Conversion -/

/-- A whole double and its integer are the same as the same defaults. -/
theorem sameAs_wholeAsInteger (default value : Datum) :
    default.sameAs value.wholeAsInteger = default.sameAs value := by
  cases value with
  | atom a =>
      cases a with
      | float x =>
          rw [wholeAsInteger]
          split
          · rename_i whole
            cases default with
            | atom b =>
                rw [Bool.eq_iff_iff, int, sameAs_atom, sameAs_atom]
                simp [equals, Atom.equals, Atom.canonical, whole, isBool]
            | _ => simp [int, sameAs, equals]
          · rfl
      | _ => rfl
  | _ => rfl

/-- The types whose values are made lists of integers. -/
def integerLists : List String := ["int32[]", "int64[]"]

/-- A type of lists of integers makes lists of sequences. -/
theorem coerce_integers {type : String} (isType : type ∈ integerLists) {value : Datum}
    {items : List Datum} (isItems : value.items? = some items) :
    value.coerce (some type) = list (items.map wholeAsInteger) := by
  rw [integerLists, List.mem_cons, List.mem_singleton] at isType
  rcases isType with rfl | rfl
  · rw [coerce, asIntegers, isItems]
  · rw [coerce, asIntegers, isItems]

/-- What is neither a text nor made a list stays as it is. -/
theorem coerce_eq_self {type : Option String} {value : Datum} (noText : value.str? = Option.none)
    (noItems : (∃ name ∈ integerLists, type = some name) → value.items? = Option.none) :
    value.coerce type = value := by
  unfold coerce
  split
  · rw [asBoolean, noText]
  · rw [asInteger, noText]
    rfl
  · rw [asInteger, noText]
    rfl
  · rw [asFloat, noText]
    rfl
  · rw [asFloat, noText]
    rfl
  · rw [asIntegers, noItems ⟨_, by decide, rfl⟩]
  · rw [asIntegers, noItems ⟨_, by decide, rfl⟩]
  · rfl

/-- Texts are the same as themselves only. -/
theorem str?_of_sameAs {left right : Datum} (same : left.sameAs right = true) (s : String) :
    left.str? = some s ↔ right.str? = some s := by
  rcases sameAs_iff.mp same with ⟨_, _, isItems, isOthers, _⟩ | ⟨_, _, _, equal⟩
  · have noText : ∀ {datum : Datum} {items : List Datum}, datum.items? = some items →
        datum.str? = Option.none := by
      intro datum items isItems
      cases datum <;> first | rfl | cases isItems
    rw [noText isItems, noText isOthers]
  · constructor
    · intro isText
      obtain rfl := str?_eq_some_iff.mp isText
      cases equality_of_equals equal with | @atom _ b equalAtoms =>
      rw [Atom.equals_iff] at equalAtoms
      refine (equals_str_iff (atom b) s).mp ?_
      rw [str, equals, Atom.equals_iff]
      exact ⟨equalAtoms.1.symm, equalAtoms.1 ▸ equalAtoms.2⟩
    · intro isText
      obtain rfl := str?_eq_some_iff.mp isText
      exact (equals_str_iff left s).mp equal

end Datum

namespace Attribute

/-! ## Hiding -/

variable {default left right : Datum}

/-- A sequence whose items all are the default, which is no list itself. -/
def Repeats (default value : Datum) : Prop :=
  default.isList = false ∧
    ∃ items, value.items? = some items ∧ ∀ item ∈ items, default.sameAs item = true

/-- The default is hidden, and so is a list that repeats it. -/
theorem isDefault_iff {default value : Datum} :
    isDefault default value = true ↔
      default.sameAs value = true ∨ value.isList = true ∧ Repeats default value := by
  unfold isDefault Repeats
  by_cases same : default.sameAs value = true
  · simp [same]
  · rw [if_neg same]
    cases value with
    | list items =>
        cases default with
        | list others => simp [same, Datum.isList]
        | _ => simp [same, Datum.isList, Datum.items?]
    | _ => simp [same, Datum.isList]

/-- Data that are the same repeat the same defaults. -/
theorem Repeats.congr (orderless : default.Orderless) (keyed : left.Keyed)
    (same : left.sameAs right = true) : Repeats default left ↔ Repeats default right := by
  refine and_congr_right fun _ => ?_
  rcases Datum.sameAs_iff.mp same with
    ⟨items, others, isItems, isOthers, pairs⟩ | ⟨single, singleRight, _⟩
  · rw [isItems, isOthers]
    simp only [Option.some.injEq, exists_eq_left']
    constructor
    · intro repeats other member
      obtain ⟨item, isItem, sameItem⟩ := exists_partner pairs.flip member
      rw [← Datum.sameAs_congr orderless (keyed.items isItems item isItem) sameItem]
      exact repeats item isItem
    · intro repeats item member
      obtain ⟨other, isOther, sameItem⟩ := exists_partner pairs member
      rw [Datum.sameAs_congr orderless (keyed.items isItems item member) sameItem]
      exact repeats other isOther
  · rw [single, singleRight]

/-- A value that is no text is the default after its conversion if it was before, or if it
repeats the default and is a list or is made one. -/
theorem isDefault_coerce_iff {type : Option String} {value : Datum}
    (noText : value.str? = none) :
    isDefault default (value.coerce type) = true ↔
      default.sameAs value = true ∨
        (value.isList = true ∨ ∃ name ∈ Datum.integerLists, type = some name) ∧
          Repeats default value := by
  by_cases makesList : (∃ name ∈ Datum.integerLists, type = some name) ∧ value.items? ≠ none
  · obtain ⟨⟨name, isName, rfl⟩, isSequence⟩ := makesList
    obtain ⟨items, isItems⟩ := Option.ne_none_iff_exists'.mp isSequence
    have sameItems : default.sameAs (.list (items.map Datum.wholeAsInteger)) = true ↔
        default.sameAs value = true := by
      rw [Datum.sameAs_sequence rfl, Datum.sameAs_sequence isItems]
      simp only [List.forall₂_map_right_iff, Datum.sameAs_wholeAsInteger]
    have repeats : Repeats default (.list (items.map Datum.wholeAsInteger)) ↔
        Repeats default value := by
      rw [Repeats, Repeats, isItems, Datum.items?]
      simp [Datum.sameAs_wholeAsInteger]
    have makes : ∃ other ∈ Datum.integerLists, some name = some other := ⟨name, isName, rfl⟩
    rw [Datum.coerce_integers isName isItems, isDefault_iff, sameItems, repeats]
    simp only [makes, or_true, Datum.isList]
  · have noItems : (∃ name ∈ Datum.integerLists, type = some name) → value.items? = none :=
      fun makes => by_contra fun isSequence => makesList ⟨makes, isSequence⟩
    rw [Datum.coerce_eq_self noText noItems, isDefault_iff]
    refine or_congr_right (and_congr_left fun repeats => ?_)
    -- What repeats a default is a sequence, which is not made a list here.
    obtain ⟨_, items, isItems, _⟩ := repeats
    refine (or_iff_left fun makes => ?_).symm
    cases (noItems makes).symm.trans isItems

/-- A value is shown unless its schema wants it hidden or it is the default. -/
theorem isShown_iff {schema value : Datum} :
    isShown schema value = true ↔
      (∀ wanted, schema.get? "visible" = some wanted → wanted.truthy = true) ∧
        ∀ default, schema.get? "default" = some default → isDefault default value = false := by
  rw [isShown]
  cases schema.get? "visible" with
  | some wanted =>
      cases schema.get? "default" with
      | some default => cases truthy : wanted.truthy <;> simp [truthy]
      | none => cases truthy : wanted.truthy <;> simp [truthy]
  | none =>
      cases schema.get? "default" with
      | some default => simp
      | none => simp

/-! ## Values that are the same -/

/-- A schema whose type makes lists of integers of sequences. -/
def MakesLists (schema : Datum) : Prop :=
  ∃ name ∈ Datum.integerLists, ((schema.get? "type").getD .none).str? = some name

/-- What a schema tells apart although it is the same: a list and a tuple that repeat the
default and are not the default themselves, if no lists are made of them and the schema does
not want them hidden anyway. -/
def TellsApart (schema left right : Datum) : Prop :=
  ¬ MakesLists schema ∧
    (∀ wanted, schema.get? "visible" = some wanted → wanted.truthy = true) ∧
    ∃ default, schema.get? "default" = some default ∧ default.sameAs left = false ∧
      Repeats default left ∧ left.isList ≠ right.isList

theorem isShown_eq_iff {schema : Datum}
    (orderless : ∀ default, schema.get? "default" = some default → default.Orderless)
    (keyed : left.Keyed) (same : left.sameAs right = true) :
    isShown schema (left.coerce ((schema.get? "type").getD .none).str?) =
        isShown schema (right.coerce ((schema.get? "type").getD .none).str?) ↔
      ¬ TellsApart schema left right := by
  cases text : left.str? with
  | some s =>
      have textRight := (Datum.str?_of_sameAs same s).mp text
      obtain rfl := Datum.str?_eq_some_iff.mp text
      obtain rfl := Datum.str?_eq_some_iff.mp textRight
      exact iff_of_true rfl fun ⟨_, _, _, _, _, _, different⟩ => different rfl
  | none =>
      have textRight : right.str? = none := by
        cases other : right.str? with
        | some s => cases text.symm.trans ((Datum.str?_of_sameAs same s).mpr other)
        | none => rfl
      rw [Bool.eq_iff_iff, isShown_iff, isShown_iff, TellsApart, MakesLists]
      generalize ((schema.get? "type").getD .none).str? = type
      cases found : schema.get? "default" with
      | none => simp
      | some default =>
          have sameDefault := Datum.sameAs_congr (orderless default found) keyed same
          have repeats := Repeats.congr (orderless default found) keyed same
          have hidesLeft : isDefault default (left.coerce type) = true ↔ _ :=
            isDefault_coerce_iff text
          have hidesRight : isDefault default (right.coerce type) = true ↔ _ :=
            isDefault_coerce_iff textRight
          rw [← sameDefault, ← repeats] at hidesRight
          simp only [Option.some.injEq, forall_eq', exists_eq_left', ← Bool.not_eq_true,
            hidesLeft, hidesRight]
          -- What is left is about five propositions.
          grind

/-- An attribute is visible if its schema shows its converted value, unless it tells whether
a model was being trained. -/
theorem make_dict (ordered : Bool) (entries : List (Datum × Datum)) (name : String)
    (value : Datum) :
    ∃ made, make (some (.dict ordered entries)) name value = .ok made ∧
      made.visible =
        (isShown (.dict ordered entries)
            (value.coerce (((Datum.dict ordered entries).get? "type").getD .none).str?) &&
          name != "training") := by
  cases entries with
  | nil => exact ⟨_, rfl, rfl⟩
  | cons => exact ⟨_, rfl, rfl⟩

/-- Attributes of values that are the same are both visible or both hidden, unless the
schema tells the values apart. -/
theorem visible_eq_iff (ordered : Bool) (entries : List (Datum × Datum)) (name : String)
    (orderless : ∀ default, (Datum.dict ordered entries).get? "default" = some default →
      default.Orderless)
    (keyed : left.Keyed) (same : left.sameAs right = true) :
    ∃ first second,
      make (some (.dict ordered entries)) name left = .ok first ∧
      make (some (.dict ordered entries)) name right = .ok second ∧
      (first.visible = second.visible ↔
        name = "training" ∨ ¬ TellsApart (.dict ordered entries) left right) := by
  obtain ⟨first, isFirst, visibleFirst⟩ := make_dict ordered entries name left
  obtain ⟨second, isSecond, visibleSecond⟩ := make_dict ordered entries name right
  refine ⟨first, second, isFirst, isSecond, ?_⟩
  rw [visibleFirst, visibleSecond]
  by_cases training : name = "training"
  · simp [training]
  · simp only [bne_iff_ne.mpr training, Bool.and_true, training, false_or]
    exact isShown_eq_iff orderless keyed same

end Attribute

namespace RepeatedDefault

/-- A schema with a default, and a type if one is given. -/
def schema (type : List (String × Datum)) : Datum := .fields (type ++ [("default", .int 1)])

def integers : List (String × Datum) := [("type", .str "int64[]")]

def items : List Datum := [.int 1, .int 1]

theorem sameAs_items : (Datum.list items).sameAs (.tuple items) = true := by
  cbv

/-- Where lists of integers are made, a list and a tuple of defaults are hidden alike. -/
theorem visible_eq_iff_integers :
    ∃ first second,
      Attribute.make (some (schema integers)) "stride" (.list items) = .ok first ∧
      Attribute.make (some (schema integers)) "stride" (.tuple items) = .ok second ∧
      first.visible = second.visible := by
  have orderless : ∀ default, (schema integers).get? "default" = some default →
      default.Orderless := by
    intro default found
    cases found
    exact .atom _
  have keyed : (Datum.list items).Keyed := by
    refine .list ?_
    rw [items, List.forall_mem_cons, List.forall_mem_singleton]
    exact ⟨.atom _, .atom _⟩
  obtain ⟨first, second, isFirst, isSecond, alike⟩ :=
    Attribute.visible_eq_iff false _ "stride" orderless keyed sameAs_items
  refine ⟨first, second, isFirst, isSecond, alike.mpr (.inr ?_)⟩
  rintro ⟨makesNone, _⟩
  exact makesNone ⟨"int64[]", by decide, rfl⟩

/-- Without the type the list is hidden and the tuple is not. -/
theorem exists_seen :
    (Datum.list items).sameAs (.tuple items) = true ∧
      ∃ first second,
        Attribute.make (some (schema [])) "stride" (.list items) = .ok first ∧
        Attribute.make (some (schema [])) "stride" (.tuple items) = .ok second ∧
        first.visible = false ∧ second.visible = true :=
  ⟨sameAs_items, _, _, rfl, rfl, by cbv, by cbv⟩

end RepeatedDefault

end TorchArchive
