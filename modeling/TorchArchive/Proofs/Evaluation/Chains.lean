import TorchArchive.Proofs.Evaluation.Qualified

/-!
# Chains of members and dotted names

A chain of members is evaluated in one of two ways.  Where its first name is bound to a value
that is no package, one member after the other has to be there; where it is bound to a package,
the dotted name in front of the last point is looked up at once.  Both give what the dotted
name leads to if it leads anywhere.  If it does not, a chain that begins with a value fails at
the first member that is not there, and no package is loaded for it.
-/

namespace TorchArchive

namespace Heap

variable {heap : Heap} {scope : Scope} {name : String}

/-- A frame of the scope binds the name. -/
def IsBound (heap : Heap) (scope : Scope) (name : String) : Prop :=
  ∃ frame ∈ scope.frames, ∃ value, (heap.table frame.table).get? name = some value

/-- On the way along a chain nothing is bound to what unbound names evaluate to: neither its
first name in a frame, nor a later one among the members that it is asked of. -/
structure Definite (heap : Heap) (scope : Scope) (first : String) (rest : List String) :
    Prop where
  frames : ∀ frame ∈ scope.frames, (heap.table frame.table).get? first ≠ some .missing
  members : ∀ front part back, rest = front ++ part :: back →
    heap.member? (heap.reach scope (first :: front)) part ≠ some .missing

/-! ## Names that are bound -/

/-- A search finds a value if there is one to fall back on, or a frame that binds the name. -/
theorem search_of_bound {frames : List Frame}
    (definite : ∀ frame ∈ frames, (heap.table frame.table).get? name ≠ some .missing)
    {fallback : Value}
    (bound : fallback.isMissing = false ∨
      ∃ frame ∈ frames, ∃ value, (heap.table frame.table).get? name = some value) :
    (heap.search name fallback frames).isMissing = false := by
  induction frames generalizing fallback with
  | nil =>
      rcases bound with present | ⟨frame, member, _⟩
      · exact present
      · cases member
  | cons frame rest inductionHypothesis =>
      obtain ⟨definiteFirst, definiteRest⟩ := List.forall_mem_cons.mp definite
      rw [search]
      split
      · rename_i unbound
        refine inductionHypothesis definiteRest (bound.imp_right ?_)
        rintro ⟨other, member, value, isBound⟩
        rcases List.mem_cons.mp member with rfl | later
        · rw [unbound] at isBound
          cases isBound
        · exact ⟨other, later, value, isBound⟩
      · rename_i value isBound
        have present : value.isMissing = false :=
          Bool.eq_false_iff.mpr fun missing =>
            definiteFirst (Pickle.eq_missing missing ▸ isBound)
        split
        · -- A sub-package gives way, but is what the search falls back on from here.
          refine inductionHypothesis definiteRest (.inl ?_)
          split
          · exact present
          · rename_i other
            exact Bool.eq_false_iff.mpr other
        · exact present

theorem lookup_of_isBound
    (definite : ∀ frame ∈ scope.frames, (heap.table frame.table).get? name ≠ some .missing)
    (bound : heap.IsBound scope name) : (heap.lookup scope name).isMissing = false :=
  search_of_bound definite (.inr bound)

/-! ## Members that have to exist -/

/-- Members are asked for one after the other.  If the path leads nowhere, the first one that is
not there is reported. -/
theorem exists_unknownMember {value : Value} {path : List String}
    (present : value.isMissing = false)
    (definite : ∀ front part back, path = front ++ part :: back →
      heap.member? (heap.follow value front) part ≠ some .missing)
    (missing : (heap.follow value path).isMissing = true) :
    ∃ front part back, path = front ++ part :: back ∧
      (heap.follow value front).isMissing = false ∧
        heap.member? (heap.follow value front) part = none ∧
          path.foldlM heap.getMember value =
            .error (.unknownMember part (heap.describe (heap.follow value front))) := by
  induction path generalizing value with
  | nil =>
      rw [follow, present] at missing
      cases missing
  | cons part rest inductionHypothesis =>
      cases shown : heap.member? value part with
      | none =>
          refine ⟨[], part, rest, rfl, present, shown, ?_⟩
          rw [List.foldlM_cons, getMember, shown]
          rfl
      | some member =>
          have found : heap.findMember value part = member := by
            rw [findMember, shown, Option.getD_some]
          have leads (path : List String) :
              heap.follow value (part :: path) = heap.follow member path := by
            rw [follow_cons, found]
          have memberPresent : member.isMissing = false :=
            Bool.eq_false_iff.mpr fun isMissing =>
              definite [] part rest rfl (Pickle.eq_missing isMissing ▸ shown)
          rw [leads] at missing
          obtain ⟨front, lacking, back, split, owned, lacks, fails⟩ :=
            inductionHypothesis memberPresent
              (fun front other back split =>
                leads front ▸ definite (part :: front) other back (congrArg (part :: ·) split))
              missing
          refine ⟨part :: front, lacking, back, congrArg (part :: ·) split, ?_⟩
          rw [leads, List.foldlM_cons, getMember, shown]
          exact ⟨owned, lacks, fails⟩

end Heap

/-! ## Chains that begin with a value -/

section Chains

variable {calls : Calls} {scope : Scope} {machine : Machine} {name first last : String}
  {front rest : List String}

theorem beginsWithPackage_of_value (dotless : Heap.Dotless (first :: rest))
    (present : (machine.heap.lookup scope first).isMissing = false)
    (noPackage : ∀ ref, machine.heap.lookup scope first ≠ .package ref) :
    beginsWithPackage machine.heap scope (".".intercalate (first :: rest)) = false := by
  rw [beginsWithPackage, Heap.nameParts_intercalate_of_dotless (List.cons_ne_nil _ _) dotless,
    List.headD_cons]
  split
  · rfl
  · split
    · rename_i ref leads
      exact (noPackage ref leads).elim
    · exact present

/-- The member that ends a chain is asked of what the chain in front of it is evaluated to. -/
theorem evaluate_snoc_of_value
    (begins : beginsWithPackage machine.heap scope (".".intercalate (first :: front)) = false) :
    evaluate calls scope (.chain first (front ++ [last])) machine =
      (do
        let owner ← evaluate calls scope (.chain first front)
        ofExcept ((← Run.heap).getMember owner last) : Run Value) machine := by
  have owned (evaluated : Run Value) :
      ownerValue calls scope (some (".".intercalate (first :: front))) evaluated machine =
        evaluated machine := by
    rw [ownerValue]
    refine (EStateM.bind_of_ok rfl).trans ?_
    rw [begins]
    rfl
  rw [Expr.chain_snoc, evaluate, Expr.dottedName?_chain]
  change EStateM.bind _ _ machine = EStateM.bind _ _ machine
  rw [EStateM.bind, EStateM.bind, owned]

/-- A chain that begins with a value is evaluated member by member, in the state at hand. -/
theorem evaluate_chain_of_value (plain : first ∉ literalNames)
    (dotless : Heap.Dotless (first :: rest))
    (present : (machine.heap.lookup scope first).isMissing = false)
    (noPackage : ∀ ref, machine.heap.lookup scope first ≠ .package ref) :
    evaluate calls scope (.chain first rest) machine =
      (ofExcept (rest.foldlM machine.heap.getMember (machine.heap.lookup scope first)) :
        Run Value) machine := by
  induction rest using List.reverseRecOn with
  | nil =>
      rw [Expr.chain, List.foldl_nil, evaluate]
      exact nameValue_of_found plain present
  | append_singleton front last inductionHypothesis =>
      have whole : Heap.Dotless ((first :: front) ++ [last]) := dotless
      have frontDotless := whole.of_append
      rw [evaluate_snoc_of_value (beginsWithPackage_of_value frontDotless present noPackage)]
      simp only [List.foldlM_append, List.foldlM_cons, List.foldlM_nil, bind_pure]
      change EStateM.bind _ _ machine = _
      rw [EStateM.bind, inductionHypothesis frontDotless]
      cases front.foldlM machine.heap.getMember (machine.heap.lookup scope first) with
      | error fault => rfl
      | ok owner => rfl

/-! ## Both ways to follow a dotted name -/

namespace Machine

/-- Evaluation and lookup agree on dotted names: a chain is evaluated to what its dotted name
leads to, and nothing is loaded.  If the name leads nowhere and the chain begins with a value
that is no package, the first member that is not there is unknown. -/
theorem evaluate_eq_lookupQualified (dotless : Heap.Dotless (first :: rest))
    (plain : first ∉ literalNames) (bound : machine.heap.IsBound scope first)
    (definite : machine.heap.Definite scope first rest)
    (spells : (Expr.chain first rest).dottedName? = some name) :
    ((machine.heap.lookupQualified scope name).isMissing = false →
        evaluate calls scope (.chain first rest) machine =
          .ok (machine.heap.lookupQualified scope name) machine) ∧
      ((machine.heap.lookupQualified scope name).isMissing = true →
        (∀ ref, machine.heap.lookup scope first ≠ .package ref) →
          ∃ fault, evaluate calls scope (.chain first rest) machine = .error fault machine ∧
            fault.kind = .unknownSymbol ∧
              ∃ front part back, rest = front ++ part :: back ∧
                (machine.heap.reach scope (first :: front)).isMissing = false ∧
                  machine.heap.member? (machine.heap.reach scope (first :: front)) part = none ∧
                    fault = .unknownMember part
                      (machine.heap.describe (machine.heap.reach scope (first :: front)))) := by
  rw [Expr.dottedName?_chain] at spells
  cases spells
  rw [← Heap.reach_eq_lookupQualified dotless]
  refine ⟨evaluate_chain plain dotless, ?_⟩
  intro missing noPackage
  have present := Heap.lookup_of_isBound definite.frames bound
  obtain ⟨front, part, back, split, owned, lacks, fails⟩ :=
    Heap.exists_unknownMember present definite.members missing
  have evaluates : evaluate calls scope (.chain first rest) machine =
      (ofExcept (rest.foldlM machine.heap.getMember (machine.heap.lookup scope first)) :
        Run Value) machine :=
    evaluate_chain_of_value plain dotless present noPackage
  rw [fails] at evaluates
  exact ⟨_, evaluates, rfl, front, part, back, split, owned, lacks, rfl⟩

end Machine

end Chains

namespace PassedOver

open Heap

/-- The package `p` has a sub-package that gives way to a dictionary of the same name around
it, in which there is another dictionary. -/
def heap : Heap :=
  { (default : Heap) with
    tables := ((Store.empty.add (Table.empty.insert "d" (.package ⟨1⟩))).add .empty).add
      (Table.empty.insert "d" (.dict ⟨0⟩))
    packages := (Store.empty.add ⟨"p", none, ⟨0⟩⟩).add ⟨"p.d", none, ⟨1⟩⟩
    dicts := (Store.empty.add ⟨false, Entries.putName .empty "x" (.dict ⟨1⟩)⟩).add
      ⟨false, Entries.putName .empty "y" (.int 1)⟩ }

/-- The scope of the package's code. -/
def scope : Scope := ⟨⟨⟨0⟩, some "p"⟩, [⟨⟨2⟩, none⟩]⟩

def machine : Machine := (default : Machine).withHeap heap

theorem isBound : machine.heap.IsBound scope "d" :=
  ⟨_, List.mem_cons_self, .package ⟨1⟩, rfl⟩

theorem definite (last : String) : machine.heap.Definite scope "d" ["x", last] where
  frames := by
    intro frame member never
    rcases List.mem_cons.mp member with rfl | outer
    · cases never
    · rw [List.mem_singleton.mp outer] at never
      cases never
  members := by
    intro front part back split never
    rcases front with _ | ⟨head, _ | ⟨next, front⟩⟩
    · cases split
      cases never
    · cases split
      change ((Table.empty.insert (Value.nameKey "y") (Value.str "y", Value.int 1)).get?
        (Value.nameKey last)).map (·.2) = some .missing at never
      rw [Table.get?_insert] at never
      split at never <;> cases never
    · simp at split

/-- The dictionary is reached past the sub-package, though every load would fail. -/
theorem evaluate_eq_lookupQualified_outward :
    Dotless ["d", "x", "y"] ∧ Dotless ["d", "x", "z"] ∧ "d" ∉ literalNames ∧
      machine.heap.IsBound scope "d" ∧ machine.heap.Definite scope "d" ["x", "y"] ∧
      machine.heap.Definite scope "d" ["x", "z"] ∧
      evaluate .exhausted scope (.chain "d" ["x", "y"]) machine = .ok (.int 1) machine ∧
      ∃ fault, evaluate .exhausted scope (.chain "d" ["x", "z"]) machine =
        .error fault machine ∧ fault.kind = .unknownSymbol := by
  have dotless : Dotless ["d", "x", "y"] := by
    rw [Dotless]
    decide
  have dotlessOther : Dotless ["d", "x", "z"] := by
    rw [Dotless]
    decide
  have plain : "d" ∉ literalNames := by decide
  have noPackage (ref : Ref .package) : machine.heap.lookup scope "d" ≠ .package ref := by
    intro never
    cases never
  have leads : evaluate .exhausted scope (.chain "d" ["x", "y"]) machine =
      .ok (machine.heap.lookupQualified scope "d.x.y") machine :=
    (Machine.evaluate_eq_lookupQualified dotless plain isBound (definite "y") rfl).1 rfl
  obtain ⟨fault, fails, kind, _⟩ :=
    (Machine.evaluate_eq_lookupQualified dotlessOther plain isBound (definite "z") rfl).2 rfl
      noPackage
  exact ⟨dotless, dotlessOther, plain, isBound, definite "y", definite "z", leads, fault,
    fails, kind⟩

end PassedOver

end TorchArchive
