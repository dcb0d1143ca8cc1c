import Mathlib.Data.List.Basic
import TorchArchive.Evaluation.Package

/-!
# Dotted names

A dotted name is taken apart at its points and put together again.
-/

namespace TorchArchive

/-- No part of a text has the separator in it. -/
theorem not_mem_of_mem_splitOn {separator : Char} {text part : List Char}
    (member : part ∈ text.splitOn separator) : separator ∉ part := by
  induction text generalizing part with
  | nil =>
      rw [List.splitOn_nil, List.mem_singleton] at member
      rw [member]
      exact List.not_mem_nil
  | cons c rest inductionHypothesis =>
      rw [List.splitOn_cons_eq_if_modifyHead] at member
      split at member
      · rcases List.mem_cons.mp member with rfl | later
        · exact List.not_mem_nil
        · exact inductionHypothesis later
      · rename_i other
        obtain ⟨first, others, split⟩ :=
          List.exists_cons_of_ne_nil (List.splitOn_ne_nil separator rest)
        rw [split] at member inductionHypothesis
        rcases List.mem_cons.mp member with rfl | later
        · intro inside
          rcases List.mem_cons.mp inside with same | inside
          · exact other (beq_iff_eq.mpr same.symm)
          · exact inductionHypothesis List.mem_cons_self inside
        · exact inductionHypothesis (List.mem_cons_of_mem first later)

/-- A character of a joined text is the separator, or stands in a part. -/
theorem mem_intercalate_iff {separator c : Char} {parts : List (List Char)}
    (other : c ≠ separator) :
    c ∈ [separator].intercalate parts ↔ ∃ part ∈ parts, c ∈ part := by
  rw [List.intercalate]
  induction parts with
  | nil => simp
  | cons first rest inductionHypothesis =>
      cases rest with
      | nil => simp
      | cons next rest =>
          rw [List.intersperse_cons_cons, List.flatten_cons, List.flatten_cons, List.mem_append,
            List.mem_append, inductionHypothesis, List.mem_singleton]
          simp [other]

namespace Heap

/-- Taking a text apart and joining the parts are inverse to each other. -/
theorem intercalate_nameParts (name : String) : ".".intercalate (nameParts name) = name := by
  apply String.toList_injective
  rw [String.toList_intercalate, nameParts, partsBetween, List.map_map]
  have inverse : String.toList ∘ String.ofList = id := funext fun _ => String.toList_ofList
  rw [inverse, List.map_id]
  exact List.intercalate_splitOn '.'

/-- Joining parts without points and taking the text apart are inverse to each other. -/
theorem nameParts_intercalate_of_dotless {parts : List String} (some : parts ≠ [])
    (dotless : ∀ part ∈ parts, '.' ∉ part.toList) :
    nameParts (".".intercalate parts) = parts := by
  have pointless : ∀ text ∈ parts.map String.toList, '.' ∉ text := by
    intro text member
    obtain ⟨part, inside, rfl⟩ := List.mem_map.mp member
    exact dotless part inside
  have split : (['.'].intercalate (parts.map String.toList)).splitOn '.' =
      parts.map String.toList :=
    List.splitOn_intercalate '.' pointless (mt List.map_eq_nil_iff.mp some)
  have joined : (".".intercalate parts).toList =
      ['.'].intercalate (parts.map String.toList) := String.toList_intercalate
  rw [nameParts, partsBetween, joined, split, List.map_map]
  have inverse : String.ofList ∘ String.toList = id := funext fun _ => String.ofList_toList
  rw [inverse, List.map_id]

theorem nameParts_injective : Function.Injective nameParts := by
  intro left right same
  rw [← intercalate_nameParts left, same, intercalate_nameParts]

theorem nameParts_ne_nil (name : String) : nameParts name ≠ [] :=
  mt List.map_eq_nil_iff.mp (List.splitOn_ne_nil '.' name.toList)

/-- The parts in front of a point and behind it. -/
theorem nameParts_append (front back : String) :
    nameParts (front ++ "." ++ back) = nameParts front ++ nameParts back := by
  have text : (front ++ "." ++ back).toList = front.toList ++ '.' :: back.toList := by
    rw [String.toList_append, String.toList_append, List.append_assoc]
    rfl
  rw [nameParts, partsBetween, text, List.splitOn_append_cons_self, List.map_append]
  rfl

theorem nameParts_of_dotless {name : String} (dotless : '.' ∉ name.toList) :
    nameParts name = [name] := by
  rw [nameParts, partsBetween, List.splitOn_eq_singleton dotless, List.map_singleton,
    String.ofList_toList]

theorem dotless_of_mem_nameParts {name part : String} (member : part ∈ nameParts name) :
    '.' ∉ part.toList := by
  obtain ⟨text, inside, rfl⟩ := List.mem_map.mp member
  rw [String.toList_ofList]
  exact not_mem_of_mem_splitOn inside

/-- The characters of a part of a name are characters of the name. -/
theorem mem_of_mem_nameParts {name part : String} {c : Char} (member : part ∈ nameParts name)
    (inside : c ∈ part.toList) : c ∈ name.toList := by
  have other : c ≠ '.' := by
    rintro rfl
    exact dotless_of_mem_nameParts member inside
  rw [← intercalate_nameParts name, String.toList_intercalate]
  exact (mem_intercalate_iff other).mpr ⟨_, List.mem_map_of_mem member, inside⟩

end Heap

theorem splitLast_append {owner member : String} (dotless : '.' ∉ member.toList) :
    splitLast (owner ++ "." ++ member) = (owner, member) := by
  rw [splitLast, Heap.nameParts_append, Heap.nameParts_of_dotless dotless]
  simp [Heap.intercalate_nameParts]

/-- The owner of a name without slashes is a name without slashes. -/
theorem slashless_owner {name : String} (slashless : '/' ∉ name.toList) :
    '/' ∉ (splitLast name).1.toList := by
  rw [splitLast]
  dsimp only
  rw [String.toList_intercalate]
  intro inside
  obtain ⟨text, member, inside⟩ := (mem_intercalate_iff (by decide)).mp inside
  obtain ⟨part, isPart, rfl⟩ := List.mem_map.mp member
  exact slashless (Heap.mem_of_mem_nameParts (List.dropLast_subset _ isPart) inside)

/-- Packages without slashes in their names are kept in files of their own. -/
theorem packageFile_injective {first second : String} (slashlessFirst : '/' ∉ first.toList)
    (slashlessSecond : '/' ∉ second.toList) (same : packageFile first = packageFile second) :
    first = second := by
  have joined : "/".intercalate (Heap.nameParts first) =
      "/".intercalate (Heap.nameParts second) := by
    rw [packageFile, packageFile] at same
    have texts := congrArg String.toList same
    simp only [String.toList_append] at texts
    exact String.toList_injective
      (List.append_cancel_left (List.append_cancel_right texts))
  have texts := congrArg (fun text => text.toList.splitOn '/') joined
  simp only [String.toList_intercalate] at texts
  have apart {name : String} (slashless : '/' ∉ name.toList) :
      (['/'].intercalate ((Heap.nameParts name).map String.toList)).splitOn '/' =
        (Heap.nameParts name).map String.toList := by
    refine List.splitOn_intercalate '/' ?_ (mt List.map_eq_nil_iff.mp (Heap.nameParts_ne_nil name))
    intro text member inside
    obtain ⟨part, isPart, rfl⟩ := List.mem_map.mp member
    exact slashless (Heap.mem_of_mem_nameParts isPart inside)
  have parts := ((apart slashlessFirst).symm.trans texts).trans (apart slashlessSecond)
  exact Heap.nameParts_injective
    (List.map_injective_iff.mpr (fun _ _ same => String.toList_injective same) parts)

end TorchArchive
