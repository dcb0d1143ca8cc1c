import TorchArchive.Evaluation.Nesting
import TorchArchive.Proofs.Package.Loading

/-!
# Libraries of definitions

Where every package only defines, what was loaded so far does not matter: a load ends, and
leaves in its package what the source of the package says.
-/

namespace TorchArchive

/-- The code of every package that there is. -/
abbrev Library := String → Option (List Stmt)

/-- What is bound outermost before any code ran. -/
def outermostValue (name : String) : Option Value :=
  (Machine.initial.heap.table Machine.initial.root.inner.table).get? name

namespace Library

/-- The sources of a library of definitions.  No definition has a name that a package binds
itself, no name of a package begins with a builtin, and none continues the name of another
package with something that is bound there. -/
structure Lawful (library : Library) (sources : Sources) : Prop where
  serves :
    ∀ name body, library name = some body →
      sources.program (packageFile name) = .ok ⟨body, packageFile name⟩
  lacks :
    ∀ name, '/' ∉ name.toList → library name = none →
      sources.program (packageFile name) = .error (.missingSource (packageFile name))
  slashless : ∀ name body, library name = some body → '/' ∉ name.toList
  definitions :
    ∀ name body, library name = some body → ∀ statement ∈ body,
      statement.isDefinition = true ∧ statement.boundName? ≠ some moduleNameKey ∧
        statement.boundName? ≠ some fileKey
  outer :
    ∀ name body, library name = some body → ∀ first rest,
      Heap.nameParts name = first :: rest → outermostValue first = none
  apart :
    ∀ above body below code next rest, library above = some body → library below = some code →
      Heap.nameParts below = Heap.nameParts above ++ next :: rest →
        Stmt.lastBinding next body = none ∧ next ≠ moduleNameKey ∧ next ≠ fileKey

/-- The packages in the tree agree with the packages that are known and with their sources;
the file of each was asked for once if it is known, and never before. -/
structure Consistent (library : Library) (machine : Machine) (root : Ref .table)
    (node : List String → Option (Ref .package))
    (own : List String → String → Option Value) : Prop where
  isRoot : machine.root = .outermost root
  tree : machine.heap.Tree root node own
  outermost : own [] = outermostValue
  known :
    ∀ name ref, machine.packages.get? name = some ref →
      node (Heap.nameParts name) = some ref ∧ library name ≠ none
  defined :
    ∀ name body, library name = some body → machine.packages.get? name ≠ none → ∀ member,
      LeftUnder (machine.heap.IsDefinition name) body
        (presetValue name (packageFile name) member) member
        (own (Heap.nameParts name) member)
  empty :
    ∀ path, path ≠ [] →
      (∀ name, machine.packages.get? name ≠ none → Heap.nameParts name ≠ path) →
        own path = fun _ => none
  below :
    ∀ path, node path ≠ none → ∃ name body, library name = some body ∧
      path <+: Heap.nameParts name
  requests :
    ∀ name body, library name = some body →
      machine.requests.count (packageFile name) =
        if (machine.packages.get? name).isSome then 1 else 0

/-- What was known stays known, with what it has bound. -/
structure Continues (before after : Machine) (own later : List String → String → Option Value) :
    Prop where
  known :
    ∀ name ref, before.packages.get? name = some ref → after.packages.get? name = some ref
  bound :
    ∀ name, before.packages.get? name ≠ none →
      later (Heap.nameParts name) = own (Heap.nameParts name)

namespace Continues

variable {before between after : Machine} {own later last : List String → String → Option Value}

theorem refl (machine : Machine) (own : List String → String → Option Value) :
    Continues machine machine own own where
  known := fun _ _ known => known
  bound := fun _ _ => rfl

theorem trans (first : Continues before between own later)
    (second : Continues between after later last) : Continues before after own last where
  known := fun name ref known => second.known name ref (first.known name ref known)
  bound := by
    intro name known
    obtain ⟨ref, isKnown⟩ := Option.ne_none_iff_exists'.mp known
    have stays : between.packages.get? name ≠ none := by
      rw [first.known name ref isKnown]
      exact Option.some_ne_none _
    rw [second.bound name stays, first.bound name known]

end Continues

variable {library : Library} {sources : Sources} {machine : Machine} {root : Ref .table}
  {node : List String → Option (Ref .package)} {own : List String → String → Option Value}
  {name : String} {body : List Stmt}

namespace Consistent

/-- Below a package there is none where its code, or its load, binds something. -/
theorem noneBelow (lawful : library.Lawful sources)
    (consistent : library.Consistent machine root node own) (listed : library name = some body)
    {member : String}
    (bound : Stmt.lastBinding member body ≠ none ∨ member = moduleNameKey ∨ member = fileKey) :
    node (Heap.nameParts name ++ [member]) = none := by
  by_contra isNode
  obtain ⟨below, code, listedBelow, rest, split⟩ := consistent.below _ isNode
  rw [List.append_assoc, List.singleton_append] at split
  obtain ⟨unbound, otherName, otherFile⟩ :=
    lawful.apart name body below code member rest listed listedBelow split.symm
  rcases bound with binds | isName | isFile
  · exact binds unbound
  · exact otherName isName
  · exact otherFile isFile

/-- Nothing stands in the way of the name of a package. -/
theorem vacant (lawful : library.Lawful sources)
    (consistent : library.Consistent machine root node own)
    (listed : library name = some body) :
    Heap.Vacant node own [] (Heap.nameParts name) := by
  intro front part behind split _
  rw [List.nil_append]
  by_cases start : front = []
  · rw [start, consistent.outermost]
    rw [start, List.nil_append] at split
    exact lawful.outer name body listed part behind split
  · by_cases owner : ∃ above, machine.packages.get? above ≠ none ∧ Heap.nameParts above = front
    · obtain ⟨above, known, rfl⟩ := owner
      obtain ⟨ref, isKnown⟩ := Option.ne_none_iff_exists'.mp known
      obtain ⟨code, listedAbove⟩ :=
        Option.ne_none_iff_exists'.mp (consistent.known above ref isKnown).2
      obtain ⟨unbound, otherName, otherFile⟩ :=
        lawful.apart above code name body part behind listedAbove listed split
      have left := consistent.defined above code listedAbove known part
      rw [LeftUnder, unbound, presetValue, if_neg otherFile, if_neg otherName] at left
      exact left
    · rw [consistent.empty front start fun above known same => owner ⟨above, known, same⟩]

/-- Nothing is bound in a package that is not known. -/
theorem unbound (consistent : library.Consistent machine root node own)
    (unknown : machine.packages.get? name = none) :
    own (Heap.nameParts name) = fun _ => none := by
  refine consistent.empty _ (Heap.nameParts_ne_nil name) fun other known same => ?_
  rw [Heap.nameParts_injective same] at known
  exact known unknown

/-- A package was added to the tree, with what its source defines. -/
theorem extend (lawful : library.Lawful sources)
    (consistent : library.Consistent machine root node own) (listed : library name = some body)
    (unknown : machine.packages.get? name = none) {heap : Heap} {ref : Ref .package}
    {extended : List String → Option (Ref .package)} {bound : String → Option Value}
    (extends_ : Heap.Extends node extended (Heap.nameParts name) ref)
    (tree : heap.Tree root extended (Function.update own (Heap.nameParts name) bound))
    (grows : machine.heap.Grows (heap.InTree root extended) heap)
    (left :
      ∀ member,
        LeftUnder (heap.IsDefinition name) body (presetValue name (packageFile name) member)
          member (bound member)) :
    library.Consistent
      { (machine.asked (packageFile name)).withHeap heap with
        packages := machine.packages.insert name ref }
      root extended (Function.update own (Heap.nameParts name) bound) := by
  have some_ := Heap.nameParts_ne_nil name
  have others {other : String} (distinct : name ≠ other) :
      (machine.packages.insert name ref).get? other = machine.packages.get? other :=
    Table.get?_insert_of_ne _ _ distinct
  constructor
  case isRoot => exact consistent.isRoot
  case tree => exact tree
  case outermost =>
    rw [Function.update_of_ne some_.symm]
    exact consistent.outermost
  case known =>
    intro other found isKnown
    dsimp only at isKnown
    rw [Table.get?_insert] at isKnown
    split at isKnown
    · rename_i same
      cases isKnown
      rw [← same, listed]
      exact ⟨extends_.leads, Option.some_ne_none _⟩
    · obtain ⟨isNode, isListed⟩ := consistent.known other found isKnown
      exact ⟨extends_.kept _ found isNode, isListed⟩
  case defined =>
    intro other code listedOther isKnown member
    by_cases same : name = other
    · subst same
      rw [listed] at listedOther
      cases listedOther
      rw [Function.update_self]
      exact left member
    · dsimp only at isKnown
      rw [others same] at isKnown
      rw [Function.update_of_ne fun parts => same (Heap.nameParts_injective parts).symm]
      -- No class that was there before has become a part of the tree.
      have closed : machine.heap.ClassesClosed (heap.InTree root extended) := by
        intro class_ held
        obtain ⟨heldAfter, sameClass⟩ := grows.moduleClasses class_ held
        refine ⟨(consistent.tree.closed class_ held).1, ?_⟩
        rw [← sameClass]
        exact (tree.closed class_ heldAfter).2
      exact (consistent.defined other code listedOther isKnown member).mono
        fun statement value is => grows.isDefinition closed is
  case empty =>
    intro path nonempty none_
    have elsewhere : Heap.nameParts name ≠ path :=
      none_ name (by rw [Table.get?_insert_self]; exact Option.some_ne_none _)
    rw [Function.update_of_ne elsewhere.symm]
    refine consistent.empty path nonempty fun other isKnown => none_ other ?_
    have distinct : name ≠ other := by
      rintro rfl
      exact isKnown unknown
    dsimp only
    rwa [others distinct]
  case below =>
    intro path isNode
    rcases extends_.new path isNode with before | ⟨_, onTheWay⟩
    · exact consistent.below path before
    · exact ⟨name, body, listed, onTheWay⟩
  case requests =>
    intro other code listedOther
    have requests := consistent.requests other code listedOther
    change (machine.requests ++ [packageFile name]).count (packageFile other) = _
    rw [List.count_append, requests, List.count_singleton]
    by_cases same : name = other
    · subst same
      rw [unknown, Table.get?_insert_self, if_pos (beq_self_eq_true _)]
      rfl
    · have apart : ¬ (packageFile name == packageFile other) = true := fun sameFile =>
        same (packageFile_injective (lawful.slashless name body listed)
          (lawful.slashless other code listedOther) (beq_iff_eq.mp sameFile))
      rw [others same, if_neg apart, Nat.add_zero]

/-- A package that is loaded has what its source defines; what was known stays as it is. -/
theorem load (lawful : library.Lawful sources)
    (consistent : library.Consistent machine root node own)
    (listed : library name = some body) (unknown : machine.packages.get? name = none)
    (calls : Calls) :
    ∃ ref after extended later,
      loadPackage sources calls name none machine = .ok ref after ∧
        library.Consistent after root extended later ∧
          after.packages = machine.packages.insert name ref ∧
            Continues machine after own later := by
  let file := packageFile name
  let asked := machine.asked file
  have asks : requestProgram sources file machine = .ok ⟨body, file⟩ asked := by
    rw [requestProgram_eq, lawful.serves name body listed]
  have noName := consistent.noneBelow lawful listed (Or.inr (Or.inl rfl))
  have noFile := consistent.noneBelow lawful listed (Or.inr (Or.inr rfl))
  obtain ⟨ref, heap, extended, enters, treeEntered, extends_, growsEntered⟩ :=
    enterPackage_tree asked file consistent.tree consistent.isRoot
      (consistent.vacant lawful listed) (consistent.unbound unknown) noName noFile
  let entered : Machine :=
    { asked.withHeap heap with packages := machine.packages.insert name ref }
  have named : presetValue name file moduleNameKey = some (.str name) := by
    rw [presetValue, if_neg (by decide), if_pos rfl]
  obtain ⟨heapAfter, bound, runs, treeAfter, growsAfter, left⟩ :=
    runBlock_tree entered calls (some (heap.package ref).name) treeEntered extends_.leads
      (by rw [Function.update_self]; exact named) (extends_.below noName)
      (fun statement member =>
        have definition := lawful.definitions name body listed statement member
        ⟨definition.1, definition.2.1⟩)
      (fun member binds => extends_.below (consistent.noneBelow lawful listed (Or.inl binds)))
  rw [Function.update_idem] at treeAfter
  rw [Function.update_self] at left
  have growsAll : machine.heap.Grows (heapAfter.InTree root extended) heapAfter := by
    have inTree {table : Ref .table} (inTree : heap.InTree root extended table) :
        heapAfter.InTree root extended table :=
      treeEntered.inTree_grows growsAfter (fun _ _ isNode => isNode) inTree
    have members := treeEntered.tableAt_node extends_.leads
    exact (growsEntered.mono fun _ => inTree).trans
      (growsAfter.mono fun _ same => same ▸ inTree ⟨_, members⟩) fun _ _ isOpen => isOpen
  refine ⟨ref, entered.withHeap heapAfter, extended,
    Function.update own (Heap.nameParts name) bound, ?_,
    consistent.extend lawful listed unknown extends_ treeAfter growsAll left, rfl, ?_⟩
  · refine (loadPackage_of_unknown unknown).trans ?_
    refine EStateM.bind_eq_ok_iff.mpr ⟨⟨body, file⟩, asked, asks, ?_⟩
    refine EStateM.bind_eq_ok_iff.mpr ⟨_, entered, enters, ?_⟩
    exact EStateM.bind_eq_ok_iff.mpr ⟨.none, _, runs, rfl⟩
  · have distinct {other : String} (isKnown : machine.packages.get? other ≠ none) :
        name ≠ other := by
      rintro rfl
      exact isKnown unknown
    constructor
    case known =>
      intro other found isKnown
      have apart := distinct (by rw [isKnown]; exact Option.some_ne_none _)
      exact (Table.get?_insert_of_ne _ _ apart).trans isKnown
    case bound =>
      intro other isKnown
      rw [Function.update_of_ne fun parts =>
        distinct isKnown (Heap.nameParts_injective parts).symm]

end Consistent

/-! ## Before any code ran -/

/-- A table that there is does not become the table of a class. -/
theorem noClass_edits {heap after : Heap} (table : Ref .table)
    (edits : heap.Edits .everywhere after)
    (held : heap.tables.Holds table) (closed : heap.ClassesClosed (· = table)) :
    after.tables.Holds table ∧ after.ClassesClosed (· = table) := by
  induction edits with
  | refl => exact ⟨held, closed⟩
  | tail _ edit inductionHypothesis =>
      rename_i between _ _
      obtain ⟨heldBetween, closedBetween⟩ := inductionHypothesis
      cases edit with
      | table new =>
          exact ⟨Store.holds_add heldBetween new, fun ref isClass =>
            ⟨Store.holds_add (closedBetween ref isClass).1 new, (closedBetween ref isClass).2⟩⟩
      | package name =>
          exact ⟨Store.holds_add heldBetween .empty, fun ref isClass =>
            ⟨Store.holds_add (closedBetween ref isClass).1 .empty,
              (closedBetween ref isClass).2⟩⟩
      | moduleClass module name =>
          have grows := between.grows_addModuleClass (fun _ => False) module name
          refine ⟨(grows.tables _ heldBetween).1, fun ref isClass => ?_⟩
          rcases Store.holds_add_cases isClass with rfl | old
          · have new : (between.addModuleClass module name).2.moduleClass
                between.moduleClasses.next = ⟨module, name, between.tables.next⟩ :=
              Store.get_add_next between.moduleClasses _
            rw [new]
            exact ⟨Store.holds_next between.tables _, fun same =>
              Store.next_not_holds _ (same ▸ heldBetween)⟩
          · rw [(grows.moduleClasses ref old).2]
            exact ⟨(grows.tables _ (closedBetween ref old).1).1, (closedBetween ref old).2⟩
      | bind ref name value =>
          exact ⟨between.holds_bind heldBetween name value, closedBetween.bind ref name value⟩
      | _ => exact ⟨heldBetween, closedBetween⟩

/-- Where nothing is known, only the builtins are bound. -/
theorem consistent_unloaded (library : Library)
    (isRoot : machine.root = .outermost root) (held : machine.heap.tables.Holds root)
    (closed : machine.heap.ClassesClosed (· = root))
    (bound : ∀ name, (machine.heap.table root).get? name = outermostValue name)
    (unloaded : ∀ name, machine.packages.get? name = none) (unasked : machine.requests = []) :
    library.Consistent machine root (fun _ => none)
      (Function.update (fun _ _ => none) [] outermostValue) := by
  have tableAt {path : List String} {table : Ref .table}
      (found : machine.heap.tableAt root (fun _ => none) path = some table) :
      path = [] ∧ root = table := by
    rw [Heap.tableAt] at found
    split at found
    · rename_i start
      cases found
      exact ⟨start, rfl⟩
    · cases found
  constructor
  case isRoot => exact isRoot
  case tree =>
    constructor
    case start => rfl
    case held =>
      intro path ref never
      cases never
    case tablesHeld =>
      intro path table found
      rw [← (tableAt found).2]
      exact held
    case distinct =>
      intro path other table first second
      rw [(tableAt first).1, (tableAt second).1]
    case above => exact fun path name never => absurd rfl never
    case content =>
      intro path table found name
      rw [(tableAt found).1, ← (tableAt found).2, Function.update_self]
      exact bound name
    case outside =>
      intro path missing
      have elsewhere : path ≠ [] := by
        rintro rfl
        cases missing
      rw [Function.update_of_ne elsewhere]
    case closed =>
      intro ref isClass
      obtain ⟨heldMembers, apart⟩ := closed ref isClass
      refine ⟨heldMembers, ?_⟩
      rintro ⟨path, found⟩
      exact apart (tableAt found).2.symm
  case outermost => exact Function.update_self ..
  case known =>
    intro name ref never
    rw [unloaded] at never
    cases never
  case defined => exact fun name body listed never => absurd (unloaded name) never
  case empty => exact fun path some_ _ => Function.update_of_ne some_ ..
  case below => exact fun path never => absurd rfl never
  case requests =>
    intro name body listed
    rw [unloaded, unasked]
    rfl

theorem consistent_initial (library : Library) :
    library.Consistent .initial Machine.initial.root.inner.table (fun _ => none)
      (Function.update (fun _ _ => none) [] outermostValue) := by
  obtain ⟨held, closed⟩ := noClass_edits Machine.initial.root.inner.table
    Registry.initial_edits (by decide)
    (fun ref isClass => by
      rcases Store.holds_add_cases isClass with rfl | never
      · decide
      · exact absurd never (Nat.not_lt_zero _))
  rw [← Machine.heap_initial] at held closed
  exact library.consistent_unloaded rfl held closed (fun _ => rfl) (fun _ => rfl) rfl

end Library

end TorchArchive
