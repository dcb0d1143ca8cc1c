import TorchArchive.Proofs.Graph.Visibility

/-!
# Comparison with defaults is an equivalence

Data are compared with defaults without telling lists from tuples, at any depth, and numbers
by their value; but a boolean is the same as a boolean only, wherever it stands.  On nested
data, where no number differs from itself, the comparison is an equivalence.
-/

namespace TorchArchive

namespace Datum

variable {left right : Datum}

/-- What is nested in lists and tuples: nothing, booleans, texts, and numbers that are
numbers. -/
inductive Nested : Datum → Prop where
  | none : Nested (atom .none)
  | bool (b : Bool) : Nested (atom (.bool b))
  | int (n : Int) : Nested (atom (.int n))
  | float {x : Binary64} (number : x.isNaN = false) : Nested (atom (.float x))
  | str (s : String) : Nested (atom (.str s))
  | list {items : List Datum} (parts : ∀ item ∈ items, Nested item) : Nested (list items)
  | tuple {items : List Datum} (parts : ∀ item ∈ items, Nested item) : Nested (tuple items)

/-! ## The same as itself, and in both directions -/

theorem Nested.orderless (nested : Nested left) : Orderless left := by
  induction nested with
  | list _ inductionHypothesis => exact .list inductionHypothesis
  | tuple _ inductionHypothesis => exact .tuple inductionHypothesis
  | _ => exact .atom _

theorem Nested.keyed (nested : Nested left) : Keyed left := by
  induction nested with
  | list _ inductionHypothesis => exact .list inductionHypothesis
  | tuple _ inductionHypothesis => exact .tuple inductionHypothesis
  | _ => exact .atom _

/-- A double that is a number is represented by a number. -/
theorem canonical_float_ne_nan {x : Binary64} (number : x.isNaN = false) :
    (Atom.float x).canonical ≠ .float .nan := by
  rw [Atom.canonical]
  by_cases whole : x.isWhole = true
  · rw [if_pos whole]
    exact Atom.noConfusion
  · rw [if_neg whole]
    intro same
    have isNaN : x = .nan := Atom.float.inj same
    have never : Binary64.nan.isNaN = true := by decide +kernel
    rw [isNaN, never] at number
    cases number

theorem sameAs_atom_self {a : Atom} (number : a.canonical ≠ .float .nan) :
    (atom a).sameAs (atom a) = true := by
  have equal : (atom a).equals (atom a) = true := by
    rw [equals, Atom.equals_iff]
    exact ⟨rfl, number⟩
  exact sameAs_iff.mpr (.inr ⟨rfl, rfl, rfl, equal⟩)

/-- Pairing the items of a list with themselves. -/
theorem sameItems_self {items : List Datum}
    (parts : ∀ item ∈ items, item.sameAs item = true) : sameItems items items = true := by
  rw [sameItems_iff, List.forall₂_same]
  exact parts

theorem Nested.sameAs_self (nested : Nested left) : left.sameAs left = true := by
  induction nested with
  | float number => exact sameAs_atom_self (canonical_float_ne_nan number)
  | list _ inductionHypothesis => exact sameItems_self inductionHypothesis
  | tuple _ inductionHypothesis => exact sameItems_self inductionHypothesis
  | bool b => cases b <;> exact sameAs_atom_self Atom.noConfusion
  | _ => exact sameAs_atom_self Atom.noConfusion

theorem Nested.sameAs_symm (nested : Nested left) (nestedRight : Nested right)
    (same : left.sameAs right = true) : right.sameAs left = true :=
  sameAs_of_common right nestedRight.orderless nested.keyed nestedRight.sameAs_self same

/-! ## Lists and tuples -/

/-- Two relations that agree on the items of a list pair it alike. -/
theorem forall₂_congr_of_mem {first second : Datum → Datum → Bool} {items others : List Datum}
    (agree : ∀ item ∈ items, ∀ other, first item other = second item other) :
    List.Forall₂ (fun a b => first a b = true) items others ↔
      List.Forall₂ (fun a b => second a b = true) items others := by
  induction items generalizing others with
  | nil => rw [List.forall₂_nil_left_iff, List.forall₂_nil_left_iff]
  | cons item rest inductionHypothesis =>
      obtain ⟨agreeFirst, agreeRest⟩ := List.forall_mem_cons.mp agree
      simp only [List.forall₂_cons_left_iff, agreeFirst, inductionHypothesis agreeRest]

mutual

/-- The same data with lists in the places of tuples, at every depth. -/
def listed : Datum → Datum
  | list items => list (listedItems items)
  | tuple items => list (listedItems items)
  | datum => datum

def listedItems : List Datum → List Datum
  | [] => []
  | first :: rest => listed first :: listedItems rest

end

theorem listedItems_eq_map (items : List Datum) : listedItems items = items.map listed := by
  induction items with
  | nil => rfl
  | cons first rest inductionHypothesis =>
      rw [listedItems, inductionHypothesis, List.map_cons]

theorem listed_of_items {items : List Datum} (isItems : left.items? = some items) :
    left.listed = list (items.map listed) := by
  cases left with
  | list _ =>
      cases isItems
      rw [listed, listedItems_eq_map]
  | tuple _ =>
      cases isItems
      rw [listed, listedItems_eq_map]
  | _ => cases isItems

theorem listed_of_single (single : left.items? = Option.none) : left.listed = left := by
  cases left with
  | list _ => cases single
  | tuple _ => cases single
  | _ => rfl

theorem items?_listed (datum : Datum) :
    datum.listed.items? = datum.items?.map (List.map listed) := by
  cases isItems : datum.items? with
  | none => rw [listed_of_single isItems, isItems, Option.map_none]
  | some items => rw [listed_of_items isItems, items?, Option.map_some]

/-- Whether lists or tuples hold the items makes no difference. -/
theorem sameAs_listed (left : Datum) :
    ∀ right : Datum, left.listed.sameAs right.listed = left.sameAs right := by
  induction left using inductionOnItems with
  | step left inductionHypothesis =>
      intro right
      cases isItems : left.items? with
      | none =>
          have single := listed_of_single isItems
          cases isOthers : right.items? with
          | none => rw [single, listed_of_single isOthers]
          | some others =>
              rw [Bool.eq_iff_iff, sameAs_iff, sameAs_iff, items?_listed, items?_listed,
                isItems, isOthers]
              simp
      | some items =>
          rw [Bool.eq_iff_iff, sameAs_iff, sameAs_iff, items?_listed, items?_listed, isItems]
          cases isOthers : right.items? with
          | none => simp
          | some others =>
              have pairs :
                  List.Forall₂ (fun a b => a.listed.sameAs b.listed = true) items others ↔
                    List.Forall₂ (fun a b => a.sameAs b = true) items others :=
                forall₂_congr_of_mem (inductionHypothesis items isItems)
              simp [pairs]

/-! ## Booleans -/

/-- What stands at a position: the places to take in sequences, from the outside in. -/
def at? : List Nat → Datum → Option Datum
  | [], datum => some datum
  | place :: rest, datum => (datum.items?.bind (·[place]?)).bind (at? rest)

/-- What stands at one position of data that are the same is the same. -/
theorem sameAs_at {path : List Nat} {part other : Datum} (same : left.sameAs right = true)
    (here : at? path left = some part) (there : at? path right = some other) :
    part.sameAs other = true := by
  induction path generalizing left right with
  | nil =>
      cases here
      cases there
      exact same
  | cons place rest inductionHypothesis =>
      obtain ⟨item, found, here⟩ := Option.bind_eq_some_iff.mp here
      obtain ⟨items, isItems, isItem⟩ := Option.bind_eq_some_iff.mp found
      obtain ⟨item', found', there⟩ := Option.bind_eq_some_iff.mp there
      obtain ⟨others, isOthers, isItem'⟩ := Option.bind_eq_some_iff.mp found'
      rw [sameAs_iff, isItems, isOthers] at same
      rcases same with ⟨_, _, same, same', pairs⟩ | ⟨never, _⟩
      · cases same
        cases same'
        obtain ⟨inside, rfl⟩ := List.getElem?_eq_some_iff.mp isItem
        obtain ⟨insideToo, rfl⟩ := List.getElem?_eq_some_iff.mp isItem'
        have paired := (List.forall₂_iff_get.mp pairs).2 place inside insideToo
        exact inductionHypothesis paired here there
      · cases never

/-- Booleans are the same as booleans only. -/
theorem isBool_eq_of_sameAs (same : left.sameAs right = true) : left.isBool = right.isBool := by
  have sequence {datum : Datum} {items : List Datum} (isItems : datum.items? = some items) :
      datum.isBool = false := by
    cases datum with
    | atom _ => cases isItems
    | _ => rfl
  rcases sameAs_iff.mp same with ⟨items, others, isItems, isOthers, _⟩ | ⟨_, _, kind, _⟩
  · rw [sequence isItems, sequence isOthers]
  · exact kind

/-! ## The equivalence -/

/-- On nested data the comparison is reflexive, symmetric and transitive.  It does not tell
data apart that differ in lists and tuples only, at whatever depth, and it tells data apart
that have a boolean and something else at one position. -/
theorem sameAs_isEquivalence :
    Equivalence (fun left right : {datum : Datum // datum.Nested} =>
      left.1.sameAs right.1 = true) ∧
    (∀ left right other otherRight : Datum,
      left.listed = other.listed → right.listed = otherRight.listed →
        left.sameAs right = other.sameAs otherRight) ∧
    (∀ (left right : Datum) (path : List Nat) (part other : Datum),
      at? path left = some part → at? path right = some other → part.isBool ≠ other.isBool →
        left.sameAs right = false) := by
  have equivalence : Equivalence (fun left right : {datum : Datum // datum.Nested} =>
      left.1.sameAs right.1 = true) :=
    ⟨fun datum => datum.2.sameAs_self,
      fun {left right} same => left.2.sameAs_symm right.2 same,
      fun {left middle _} same sameRight =>
        sameAs_trans middle.1 left.2.orderless same sameRight⟩
  refine ⟨equivalence, ?_, ?_⟩
  · intro left right other otherRight alike alikeRight
    rw [← sameAs_listed left, ← sameAs_listed other, alike, alikeRight]
  · intro left right path part other here there apart
    by_contra same
    have sameParts := sameAs_at (Bool.not_eq_false _ |>.mp same) here there
    exact apart (isBool_eq_of_sameAs sameParts)

/-- One, as a double. -/
private def oneFloat : Datum := .float (.ofMagnitude false FloatValue.one)

private theorem oneFloat_nested : Nested oneFloat := by
  have number : (Binary64.ofMagnitude false FloatValue.one).isNaN = false := by decide +kernel
  exact .float number

/-- One is the same as the double, in both directions, whether a list in a tuple or a tuple in
a list holds it; it is not the same as true at that place. -/
theorem sameAs_isEquivalence_one :
    (int 1).sameAs oneFloat = true ∧
      (tuple [list [oneFloat]]).sameAs (list [tuple [int 1]]) = true ∧
        (tuple [list [oneFloat]]).sameAs (list [tuple [bool true]]) = false := by
  have ⟨equivalence, alike, apart⟩ := sameAs_isEquivalence
  have one : oneFloat.sameAs (int 1) = true := by decide +kernel
  have exchanged :
      (tuple [list [oneFloat]]).sameAs (list [tuple [int 1]]) =
        (list [list [oneFloat]]).sameAs (list [list [int 1]]) :=
    alike _ _ _ _ (by simp [listed, listedItems]) (by simp [listed, listedItems])
  refine ⟨?_, ?_, ?_⟩
  · exact @equivalence.symm ⟨oneFloat, oneFloat_nested⟩ ⟨int 1, .int 1⟩ one
  · rw [exchanged]
    simp [sameAs, sameItems, one]
  · exact apart _ _ [0, 0] oneFloat (bool true) rfl rfl Bool.noConfusion

end Datum

end TorchArchive
