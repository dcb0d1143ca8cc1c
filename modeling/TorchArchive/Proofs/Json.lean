import Mathlib.Logic.Basic
import TorchArchive.Json.Reader

/-!
# Reading given texts

Whether a text is read as a given datum can be computed, as far as documents hold data.
-/

namespace TorchArchive

/-- A text has the characters of a list. -/
def Spells (text : String) (characters : List Char) : Prop := text.toList = characters

namespace Spells

/-- A literal is compared with the list as it stands, and its bytes are not decoded. -/
theorem literal {characters : List Char} : Spells (String.ofList characters) characters :=
  String.toList_ofList

theorem append {before behind : String} {first second : List Char}
    (spelled : Spells before first) (next : Spells behind second) :
    Spells (before ++ behind) (first ++ second) := by
  rw [Spells] at spelled next ⊢
  rw [String.toList_append, spelled, next]

end Spells

namespace Datum

mutual

/-- Whether two data are the same, as far as documents hold them. -/
def isSame : Datum → Datum → Bool
  | atom a, atom b => a == b
  | list left, list right => areSame left right
  | dict ordered left, dict ordered' right => ordered == ordered' && haveSame left right
  | _, _ => false

def areSame : List Datum → List Datum → Bool
  | [], [] => true
  | left :: lefts, right :: rights => left.isSame right && areSame lefts rights
  | _, _ => false

def haveSame : List (Datum × Datum) → List (Datum × Datum) → Bool
  | [], [] => true
  | (key, value) :: lefts, (other, found) :: rights =>
      (key.isSame other && value.isSame found) && haveSame lefts rights
  | _, _ => false

end

mutual

theorem eq_of_isSame : ∀ {left right : Datum}, left.isSame right = true → left = right
  | atom _, atom _, same => congrArg atom (eq_of_beq same)
  | list _, list _, same => congrArg list (eq_of_areSame same)
  | dict _ _, dict _ _, same => by
      obtain ⟨order, entries⟩ := Bool.and_eq_true_iff.mp same
      exact congrArg₂ dict (eq_of_beq order) (eq_of_haveSame entries)

theorem eq_of_areSame : ∀ {left right : List Datum}, areSame left right = true → left = right
  | [], [], _ => rfl
  | _ :: _, _ :: _, same => by
      obtain ⟨first, rest⟩ := Bool.and_eq_true_iff.mp same
      exact congrArg₂ List.cons (eq_of_isSame first) (eq_of_areSame rest)

theorem eq_of_haveSame :
    ∀ {left right : List (Datum × Datum)}, haveSame left right = true → left = right
  | [], [], _ => rfl
  | (_, _) :: _, (_, _) :: _, same => by
      obtain ⟨first, rest⟩ := Bool.and_eq_true_iff.mp same
      obtain ⟨key, value⟩ := Bool.and_eq_true_iff.mp first
      exact congrArg₂ List.cons
        (congrArg₂ Prod.mk (eq_of_isSame key) (eq_of_isSame value)) (eq_of_haveSame rest)

end

end Datum

namespace Json

/-- Whether a text is read as a datum. -/
def reads (text : String) (datum : Datum) : Bool :=
  match read text with
  | .ok found => found.isSame datum
  | .error _ => false

theorem read_of_reads {text : String} {datum : Datum} (same : reads text datum = true) :
    read text = .ok datum := by
  rw [reads] at same
  split at same
  · rename_i found isFound
    rw [isFound, Datum.eq_of_isSame same]
  · cases same

end Json

end TorchArchive
