import Mathlib.Data.List.Induction
import TorchArchive.Proofs.Package.Names
import TorchArchive.Proofs.Scope.Cells

/-!
# Where dotted names lead

A dotted name is looked up part by part: its first part in a scope, the others among the
members of what was found.  Where no place for bindings is reached in two ways, a write
changes where those names lead that lead through it, and no others.
-/

namespace TorchArchive

namespace Heap

variable {heap after : Heap} {scope : Scope}

/-! ## Paths -/

theorem follow_append (heap : Heap) (value : Value) (front back : List String) :
    heap.follow value (front ++ back) = heap.follow (heap.follow value front) back := by
  induction front generalizing value with
  | nil => rfl
  | cons part rest inductionHypothesis =>
      simp only [List.cons_append, follow]
      split
      · rw [follow_missing]
      · exact inductionHypothesis _

/-- The value that the parts of a name lead to. -/
def reach (heap : Heap) (scope : Scope) : List String → Value
  | [] => .missing
  | first :: rest => heap.follow (heap.lookup scope first) rest

theorem lookupQualified_eq_reach (heap : Heap) (scope : Scope) (name : String) :
    heap.lookupQualified scope name = heap.reach scope (nameParts name) := by
  rw [lookupQualified]
  cases nameParts name <;> rfl

/-- What the part behind a path is looked up in: the scope at first, then values. -/
def owner? (heap : Heap) (scope : Scope) (path : List String) : Option Value :=
  if path = [] then none else some (heap.reach scope path)

/-- What a scope, or a value, shows under a name. -/
def memberOf (heap : Heap) (scope : Scope) (owner : Option Value) (name : String) : Value :=
  owner.elim (heap.lookup scope name) (heap.findMember · name)

def cellOf? (heap : Heap) (scope : Scope) (owner : Option Value) : Option Cell :=
  owner.elim (some (.table scope.inner.table)) heap.cell?

def cellsOf (heap : Heap) (scope : Scope) (owner : Option Value) : List Cell :=
  owner.elim (scope.frames.map (.table ·.table)) heap.cells

theorem reach_append {path : List String} (some : path ≠ []) (rest : List String) :
    heap.reach scope (path ++ rest) = heap.follow (heap.reach scope path) rest := by
  cases path with
  | nil => exact absurd rfl some
  | cons first others => exact follow_append heap _ others rest

theorem eq_missing_or_none_of_isVacant {value : Value} (vacant : isVacant value = true) :
    value = .missing ∨ value = .none := by
  cases value with
  | atom a =>
      cases a with
      | missing => exact .inl rfl
      | none => exact .inr rfl
      | _ => cases vacant
  | _ => cases vacant

/-- Nothing is found behind what is vacant. -/
theorem findMember_of_isVacant (heap : Heap) {value : Value} (vacant : isVacant value = true)
    (name : String) : heap.findMember value name = .missing := by
  have shown : heap.member? value name = none := by
    rcases eq_missing_or_none_of_isVacant vacant with same | same <;> subst same <;>
      exact ite_self _
  rw [findMember, shown, Option.getD_none]

theorem follow_of_isVacant (heap : Heap) {value : Value} (vacant : isVacant value = true)
    {rest : List String} (some : rest ≠ []) : heap.follow value rest = .missing := by
  cases rest with
  | nil => exact absurd rfl some
  | cons part rest =>
      rw [follow, findMember_of_isVacant heap vacant, follow_missing, ite_self]

theorem follow_cons (heap : Heap) (value : Value) (part : String) (rest : List String) :
    heap.follow value (part :: rest) = heap.follow (heap.findMember value part) rest := by
  rw [follow]
  split
  · rename_i missing
    have vacant : isVacant value = true := by
      rw [isVacant, missing, Bool.true_or]
    rw [findMember_of_isVacant heap vacant, follow_missing]
  · rfl

theorem reach_snoc (heap : Heap) (scope : Scope) (path : List String) (part : String) :
    heap.reach scope (path ++ [part]) = heap.memberOf scope (heap.owner? scope path) part := by
  by_cases start : path = []
  · rw [start]
    rfl
  · rw [reach_append start, owner?, if_neg start, follow_cons]
    rfl

/-! ## Scopes without packages -/

/-- The first frame that has the name tells its value. -/
theorem lookup_of_plain (plain : ∀ frame ∈ scope.frames, frame.package = none) (heap : Heap)
    (name : String) :
    heap.lookup scope name =
      (((scope.frames.map (Cell.table ·.table)).findSome? (heap.read · name)).getD .missing) := by
  rw [lookup]
  generalize scope.frames = frames at plain
  induction frames with
  | nil => rfl
  | cons frame rest inductionHypothesis =>
      obtain ⟨first, others⟩ := List.forall_mem_cons.mp plain
      rw [search, List.map_cons, List.findSome?_cons, read]
      split
      · rename_i unbound
        rw [unbound]
        exact inductionHypothesis others
      · rename_i value bound
        have other : heap.isSubpackage frame value = false := by
          simp [isSubpackage, first]
        simp [bound, other]

/-- Names lead to containers without a way around: of the places for bindings, none is
reached in two ways. -/
structure IsForest (heap : Heap) (scope : Scope) : Prop where
  plain : ∀ frame ∈ scope.frames, frame.package = none
  framesHeld : ∀ frame ∈ scope.frames, heap.tables.Holds frame.table
  held : ∀ name, heap.HoldsValue (heap.lookupQualified scope name)
  /-- Where members of a value are set is no place that others show. -/
  apart :
    ∀ name other, name ≠ other → ∀ cell,
      heap.cell? (heap.lookupQualified scope name) = some cell →
        cell ∉ heap.cells (heap.lookupQualified scope other)
  framesApart :
    ∀ frame ∈ scope.frames, ∀ name,
      .table frame.table ∉ heap.cells (heap.lookupQualified scope name)

/-- The parts of names: they have no points in them. -/
def Dotless (parts : List String) : Prop := ∀ part ∈ parts, '.' ∉ part.toList

theorem exists_nameParts {parts : List String} (some : parts ≠ []) (dotless : Dotless parts) :
    ∃ name, nameParts name = parts :=
  ⟨_, nameParts_intercalate_of_dotless some dotless⟩

theorem dotless_nameParts (name : String) : Dotless (nameParts name) :=
  fun _ member => dotless_of_mem_nameParts member

theorem Dotless.of_append {front back : List String} (dotless : Dotless (front ++ back)) :
    Dotless front :=
  fun part member => dotless part (List.mem_append_left back member)

/-- A path leads to what the name with its parts leads to. -/
theorem reach_eq_lookupQualified {first : String} {rest : List String}
    (dotless : Dotless (first :: rest)) (heap : Heap) (scope : Scope) :
    heap.reach scope (first :: rest) =
      heap.lookupQualified scope (".".intercalate (first :: rest)) := by
  rw [lookupQualified_eq_reach,
    nameParts_intercalate_of_dotless (List.cons_ne_nil _ _) dotless]

theorem owner?_nil (heap : Heap) (scope : Scope) : heap.owner? scope [] = none := rfl

theorem owner?_of_ne_nil {path : List String} (some : path ≠ []) :
    heap.owner? scope path = .some (heap.reach scope path) := if_neg some

namespace IsForest

variable (forest : heap.IsForest scope)

include forest

theorem holdsValue_reach {path : List String} (some : path ≠ []) (dotless : Dotless path) :
    heap.HoldsValue (heap.reach scope path) := by
  obtain ⟨name, parts⟩ := exists_nameParts some dotless
  rw [← parts, ← lookupQualified_eq_reach]
  exact forest.held name

/-- The places that two paths show are apart. -/
theorem apart_of_ne {path other : List String} (dotless : Dotless path)
    (otherDotless : Dotless other) (distinct : path ≠ other) {cell : Cell}
    (found : heap.cellOf? scope (heap.owner? scope path) = some cell) :
    cell ∉ heap.cellsOf scope (heap.owner? scope other) := by
  by_cases start : path = []
  · by_cases otherStart : other = []
    · exact absurd (start.trans otherStart.symm) distinct
    · obtain ⟨name, parts⟩ := exists_nameParts otherStart otherDotless
      rw [start] at found
      cases found
      rw [owner?_of_ne_nil otherStart, ← parts, ← lookupQualified_eq_reach]
      exact forest.framesApart scope.inner List.mem_cons_self name
  · obtain ⟨name, parts⟩ := exists_nameParts start dotless
    rw [owner?_of_ne_nil start, ← parts, ← lookupQualified_eq_reach] at found
    by_cases otherStart : other = []
    · rw [otherStart]
      intro inside
      obtain ⟨frame, member, same⟩ := List.mem_map.mp inside
      obtain ⟨others, shows⟩ := mem_cells_of_cell? found
      apply forest.framesApart frame member name
      rw [shows, same]
      exact List.mem_cons_self
    · obtain ⟨otherName, otherParts⟩ := exists_nameParts otherStart otherDotless
      rw [owner?_of_ne_nil otherStart, ← otherParts, ← lookupQualified_eq_reach]
      apply forest.apart name otherName _ cell found
      intro same
      exact distinct (parts.symm.trans ((congrArg nameParts same).trans otherParts))

/-- What is looked up where nothing was touched is what it was. -/
theorem memberOf_of_alters {touched : Cell → String → Prop}
    (alters : Alters touched heap after) {path : List String} (dotless : Dotless path)
    (part : String)
    (untouched : ∀ cell ∈ heap.cellsOf scope (heap.owner? scope path), ¬ touched cell part) :
    after.memberOf scope (heap.owner? scope path) part =
      heap.memberOf scope (heap.owner? scope path) part := by
  by_cases start : path = []
  · rw [start, owner?_nil] at untouched ⊢
    change after.lookup scope part = heap.lookup scope part
    rw [lookup_of_plain forest.plain, lookup_of_plain forest.plain]
    congr 1
    apply findSome?_congr
    intro cell inside
    apply alters.reads cell part _ (untouched cell inside)
    obtain ⟨frame, member, same⟩ := List.mem_map.mp inside
    rw [← same]
    exact forest.framesHeld frame member
  · rw [owner?_of_ne_nil start] at untouched ⊢
    exact alters.findMember (forest.holdsValue_reach start dotless) part untouched

/-- A path that does not lead through what was written leads where it did. -/
theorem reach_of_alters {path : List String} (dotless : Dotless path) {key : String}
    {cell : Cell} (found : heap.cellOf? scope (heap.owner? scope path) = some cell)
    (alters : Alters (fun other name => other = cell ∧ name = key) heap after)
    {other : List String} (otherDotless : Dotless other)
    (elsewhere : ¬ path ++ [key] <+: other) :
    after.reach scope other = heap.reach scope other := by
  induction other using List.reverseRecOn with
  | nil => rfl
  | append_singleton front part inductionHypothesis =>
      have frontDotless := otherDotless.of_append
      have same := inductionHypothesis frontDotless fun leads =>
        elsewhere (leads.trans (List.prefix_append front [part]))
      have sameOwner : after.owner? scope front = heap.owner? scope front := by
        rw [owner?, owner?, same]
      rw [reach_snoc, reach_snoc, sameOwner]
      apply forest.memberOf_of_alters alters frontDotless
      rintro shown inside ⟨rfl, rfl⟩
      by_cases here : path = front
      · exact elsewhere (here ▸ List.prefix_rfl)
      · exact forest.apart_of_ne dotless frontDotless here found inside

end IsForest

end Heap

end TorchArchive
