import Mathlib.Data.List.Induction
import TorchArchive.Heap.Scope
import TorchArchive.Proofs.Package.Definitions
import TorchArchive.Proofs.Package.Names

/-!
# The tree of packages

The packages of archive code stand in a tree below the outermost scope: a package is bound
in the package that its dotted name continues, beside what the code there binds.  A lookup
walks down this tree, and a package is bound to a name by a walk that makes what is missing
on the way.
-/

namespace TorchArchive

namespace Heap

/-- The table at a path: the outermost one, or that of the package that is there. -/
def tableAt (heap : Heap) (root : Ref .table) (node : List String → Option (Ref .package))
    (path : List String) : Option (Ref .table) :=
  if path = [] then some root else (node path).map fun ref => (heap.package ref).members

/-- Whether a table is in the tree. -/
def InTree (heap : Heap) (root : Ref .table) (node : List String → Option (Ref .package))
    (table : Ref .table) : Prop :=
  ∃ path, heap.tableAt root node path = some table

/-- Packages in a tree: those at the paths, what else is bound in their tables, and no table
of a class among these. -/
structure Tree (heap : Heap) (root : Ref .table) (node : List String → Option (Ref .package))
    (own : List String → String → Option Value) : Prop where
  start : node [] = none
  held :
    ∀ path ref, node path = some ref → heap.packages.Holds ref
  tablesHeld :
    ∀ path table, heap.tableAt root node path = some table → heap.tables.Holds table
  distinct :
    ∀ path other table, heap.tableAt root node path = some table →
      heap.tableAt root node other = some table → path = other
  above :
    ∀ path name, node (path ++ [name]) ≠ none → heap.tableAt root node path ≠ none
  content :
    ∀ path table, heap.tableAt root node path = some table → ∀ name,
      (heap.table table).get? name =
        match node (path ++ [name]) with
        | some ref => some (.package ref)
        | none => own path name
  outside : ∀ path, heap.tableAt root node path = none → own path = fun _ => none
  closed : heap.ClassesClosed (heap.InTree root node)

namespace Tree

variable {heap after : Heap} {root : Ref .table}
  {node : List String → Option (Ref .package)} {own : List String → String → Option Value}
  {path rest : List String} {name : String} {ref : Ref .package}

theorem tableAt_node (tree : heap.Tree root node own) (found : node path = some ref) :
    heap.tableAt root node path = some (heap.package ref).members := by
  have some_ : path ≠ [] := by
    rintro rfl
    rw [tree.start] at found
    cases found
  rw [tableAt, if_neg some_, found, Option.map_some]

theorem node_of_tableAt {table : Ref .table} (some_ : path ≠ [])
    (found : heap.tableAt root node path = some table) :
    ∃ ref, node path = some ref ∧ (heap.package ref).members = table := by
  rw [tableAt, if_neg some_] at found
  exact Option.map_eq_some_iff.mp found

/-- A path in front of one that leads to a package leads to one. -/
theorem tableAt_prefix (tree : heap.Tree root node own) (path rest : List String)
    (found : heap.tableAt root node (path ++ rest) ≠ none) :
    heap.tableAt root node path ≠ none := by
  induction rest using List.reverseRecOn with
  | nil => rwa [List.append_nil] at found
  | append_singleton rest last inductionHypothesis =>
      apply inductionHypothesis
      apply tree.above _ last
      intro missing
      apply found
      rw [tableAt, if_neg (by simp), ← List.append_assoc, missing, Option.map_none]

/-! ## Lookups -/

theorem findMember_package (tree : heap.Tree root node own) (found : node path = some ref) :
    heap.findMember (.package ref) name =
      match node (path ++ [name]) with
      | some child => .package child
      | none => (own path name).getD .missing := by
  rw [findMember, member?, tree.content path _ (tree.tableAt_node found) name]
  cases node (path ++ [name]) with
  | some child => rfl
  | none => rfl

theorem lookup_root (tree : heap.Tree root node own) :
    heap.lookup ⟨⟨root, none⟩, []⟩ name =
      match node [name] with
      | some child => .package child
      | none => (own [] name).getD .missing := by
  have content := tree.content [] root (by rw [tableAt, if_pos rfl]) name
  rw [List.nil_append] at content
  rw [lookup, Scope.frames, search, content]
  cases node [name] with
  | some child => rfl
  | none =>
      cases own [] name with
      | none => rfl
      | some value => rfl

/-- A walk down the tree that leads to a package. -/
theorem follow_node (tree : heap.Tree root node own) {last : Ref .package} :
    ∀ (rest : List String) {path : List String} {ref : Ref .package},
      node path = some ref → node (path ++ rest) = some last →
        heap.follow (.package ref) rest = .package last
  | [], path, ref, found, leads => by
      rw [List.append_nil, found] at leads
      cases leads
      rfl
  | name :: rest, path, ref, found, leads => by
      have split : path ++ name :: rest = (path ++ [name]) ++ rest := by simp
      rw [split] at leads
      have onTheWay := tree.tableAt_prefix (path ++ [name]) rest (by
        rw [tree.tableAt_node leads]
        exact Option.some_ne_none _)
      obtain ⟨table, stands⟩ := Option.ne_none_iff_exists'.mp onTheWay
      obtain ⟨child, isChild, _⟩ := node_of_tableAt (by simp) stands
      rw [follow, tree.findMember_package found, isChild, if_neg (by simp [Value.isMissing])]
      exact tree.follow_node rest isChild leads

/-- A walk down the tree that leaves it goes on from what is bound there. -/
theorem follow_leaf (tree : heap.Tree root node own) {name : String} {rest : List String} :
    ∀ (front : List String) {path : List String} {ref : Ref .package},
      node path = some ref → heap.tableAt root node (path ++ front) ≠ none →
        node (path ++ front ++ [name]) = none →
          heap.follow (.package ref) (front ++ name :: rest) =
            heap.follow ((own (path ++ front) name).getD .missing) rest
  | [], path, ref, found, _, leaves => by
      rw [List.append_nil] at leaves ⊢
      rw [List.nil_append, follow, tree.findMember_package found, leaves,
        if_neg (by simp [Value.isMissing])]
  | next :: front, path, ref, found, stands, leaves => by
      have split : path ++ next :: front = (path ++ [next]) ++ front := by simp
      rw [split] at stands leaves ⊢
      obtain ⟨table, isTable⟩ :=
        Option.ne_none_iff_exists'.mp (tree.tableAt_prefix (path ++ [next]) front stands)
      obtain ⟨child, isChild, _⟩ := node_of_tableAt (by simp) isTable
      rw [List.cons_append, follow, tree.findMember_package found, isChild,
        if_neg (by simp [Value.isMissing])]
      exact tree.follow_leaf front isChild stands leaves

/-- Where a path leads to no package, it leaves the tree. -/
theorem exists_leaf (heap : Heap) (root : Ref .table)
    (node : List String → Option (Ref .package)) :
    ∀ (front parts : List String), heap.tableAt root node front ≠ none →
      parts ≠ [] → node (front ++ parts) = none →
        ∃ before part rest, parts = before ++ part :: rest ∧
          heap.tableAt root node (front ++ before) ≠ none ∧
            node (front ++ before ++ [part]) = none
  | _, [], _, some_, _ => absurd rfl some_
  | front, part :: rest, stands, _, missing => by
      by_cases leaves : node (front ++ [part]) = none
      · exact ⟨[], part, rest, rfl, by rwa [List.append_nil], by rwa [List.append_nil]⟩
      · have next : heap.tableAt root node (front ++ [part]) ≠ none := by
          rw [tableAt, if_neg (by simp)]
          exact mt Option.map_eq_none_iff.mp leaves
        have split : front ++ part :: rest = (front ++ [part]) ++ rest := by simp
        rw [split] at missing
        have more : rest ≠ [] := by
          rintro rfl
          rw [List.append_nil] at missing
          exact leaves missing
        obtain ⟨before, last, behind, same, stands, leaves⟩ :=
          exists_leaf heap root node (front ++ [part]) rest next more missing
        rw [show front ++ [part] ++ before = front ++ part :: before by simp] at stands leaves
        exact ⟨part :: before, last, behind, by rw [same]; rfl, stands, leaves⟩

theorem lookupQualified_node (tree : heap.Tree root node own) {name : String}
    (found : node (nameParts name) = some ref) :
    heap.lookupQualified ⟨⟨root, none⟩, []⟩ name = .package ref := by
  rw [lookupQualified]
  obtain ⟨first, rest, split⟩ := List.exists_cons_of_ne_nil (nameParts_ne_nil name)
  rw [split] at found ⊢
  obtain ⟨table, isTable⟩ := Option.ne_none_iff_exists'.mp (tree.tableAt_prefix [first] rest (by
    rw [List.singleton_append, tree.tableAt_node found]
    exact Option.some_ne_none _))
  obtain ⟨child, isChild, _⟩ := node_of_tableAt (by simp) isTable
  dsimp only
  rw [tree.lookup_root, isChild]
  exact tree.follow_node rest isChild found

theorem lookupQualified_leaf (tree : heap.Tree root node own) {name part : String}
    {front rest : List String} (split : nameParts name = front ++ part :: rest)
    (stands : heap.tableAt root node front ≠ none) (leaves : node (front ++ [part]) = none) :
    heap.lookupQualified ⟨⟨root, none⟩, []⟩ name =
      heap.follow ((own front part).getD .missing) rest := by
  rw [lookupQualified, split]
  cases front with
  | nil =>
      rw [List.nil_append] at leaves ⊢
      dsimp only
      rw [tree.lookup_root, leaves]
  | cons first front =>
      obtain ⟨table, isTable⟩ :=
        Option.ne_none_iff_exists'.mp (tree.tableAt_prefix [first] front stands)
      obtain ⟨child, isChild, _⟩ := node_of_tableAt (by simp) isTable
      rw [List.cons_append]
      dsimp only
      rw [tree.lookup_root, isChild]
      exact tree.follow_leaf front isChild stands leaves

/-! ## Changes -/

/-- Packages keep their tables. -/
theorem tableAt_grows (tree : heap.Tree root node own) {opened : Ref .table → Prop}
    (grows : heap.Grows opened after) (path : List String) :
    after.tableAt root node path = heap.tableAt root node path := by
  rw [tableAt, tableAt]
  split
  · rfl
  · cases found : node path with
    | none => rfl
    | some ref =>
        rw [Option.map_some, Option.map_some, (grows.packages ref (tree.held path ref found)).2.1]

/-- A table stays in a tree that only grows. -/
theorem inTree_grows (tree : heap.Tree root node own) {opened : Ref .table → Prop}
    (grows : heap.Grows opened after) {extended : List String → Option (Ref .package)}
    (kept : ∀ path found, node path = some found → extended path = some found)
    {table : Ref .table} (inTree : heap.InTree root node table) :
    after.InTree root extended table := by
  obtain ⟨path, isTable⟩ := inTree
  refine ⟨path, ?_⟩
  rw [tableAt] at isTable ⊢
  split at isTable
  · rename_i start
    rw [if_pos start, isTable]
  · rename_i some_
    obtain ⟨ref, isNode, members⟩ := Option.map_eq_some_iff.mp isTable
    rw [if_neg some_, kept path ref isNode, Option.map_some,
      (grows.packages ref (tree.held path ref isNode)).2.1, members]

/-- New bindings in the package at a path, which are no packages below it. -/
theorem refill (tree : heap.Tree root node own) {table : Ref .table}
    (isTable : heap.tableAt root node path = some table)
    (grows : heap.Grows (· = table) after)
    (closed : after.ClassesClosed (heap.InTree root node))
    {bound : String → Option Value}
    (content :
      ∀ name,
        (after.table table).get? name =
          match node (path ++ [name]) with
          | some ref => some (.package ref)
          | none => bound name) :
    after.Tree root node (Function.update own path bound) := by
  have same := tree.tableAt_grows grows
  constructor
  case start => exact tree.start
  case held => exact fun path ref found => (grows.packages ref (tree.held path ref found)).1
  case tablesHeld =>
    intro path table found
    rw [same] at found
    exact (grows.tables table (tree.tablesHeld path table found)).1
  case distinct =>
    intro path other table first second
    rw [same] at first second
    exact tree.distinct path other table first second
  case above =>
    intro path name found
    rw [same]
    exact tree.above path name found
  case content =>
    intro other otherTable found name
    rw [same] at found
    by_cases here : other = path
    · subst here
      rw [isTable] at found
      cases found
      rw [Function.update_self]
      exact content name
    · have apart : otherTable ≠ table := by
        rintro rfl
        exact here (tree.distinct other path otherTable found isTable)
      rw [Function.update_of_ne here,
        (grows.tables otherTable (tree.tablesHeld other otherTable found)).2 apart]
      exact tree.content other otherTable found name
  case outside =>
    intro other missing
    rw [same] at missing
    have elsewhere : other ≠ path := by
      rintro rfl
      rw [isTable] at missing
      cases missing
    rw [Function.update_of_ne elsewhere]
    exact tree.outside other missing
  case closed =>
    intro ref held
    obtain ⟨heldMembers, isClosed⟩ := closed ref held
    refine ⟨heldMembers, ?_⟩
    rintro ⟨path, found⟩
    rw [same] at found
    exact isClosed ⟨path, found⟩

/-- What is added to a heap leaves the tree as it is. -/
theorem grows (tree : heap.Tree root node own) (grows : heap.Grows (fun _ => False) after)
    (classes : after.moduleClasses = heap.moduleClasses) : after.Tree root node own := by
  have isRoot : heap.tableAt root node [] = some root := by rw [tableAt, if_pos rfl]
  have same : Function.update own [] (own []) = own := Function.update_eq_self [] own
  rw [← same]
  refine tree.refill isRoot (grows.mono fun _ never => never.elim) ?_ ?_
  · intro ref held
    rw [classes] at held
    obtain ⟨heldMembers, closed⟩ := tree.closed ref held
    rw [(grows.moduleClasses ref held).2]
    exact ⟨(grows.tables _ heldMembers).1, closed⟩
  · intro name
    rw [(grows.tables root (tree.tablesHeld [] root isRoot)).2 id]
    exact tree.content [] root isRoot name

end Tree

/-- A package without members that is not in the tree yet. -/
structure Detached (heap : Heap) (root : Ref .table)
    (node : List String → Option (Ref .package)) (ref : Ref .package) : Prop where
  held : heap.packages.Holds ref
  heldMembers : heap.tables.Holds (heap.package ref).members
  empty : heap.table (heap.package ref).members = .empty
  apart : ∀ path, heap.tableAt root node path ≠ some (heap.package ref).members
  noClass :
    ∀ other, heap.moduleClasses.Holds other →
      (heap.moduleClass other).members ≠ (heap.package ref).members

namespace Tree

variable {heap after : Heap} {root : Ref .table}
  {node : List String → Option (Ref .package)} {own : List String → String → Option Value}
  {path rest : List String} {name : String} {ref : Ref .package}

/-- A new package is in no tree yet. -/
theorem detached_addPackage (tree : heap.Tree root node own) (name : String) :
    (heap.addPackage name).2.Detached root node (heap.addPackage name).1 := by
  have new : (heap.addPackage name).2.package (heap.addPackage name).1 =
      ⟨name, none, heap.tables.next⟩ := Store.get_add_next heap.packages _
  have grown := heap.grows_addPackage (fun _ => False) name
  constructor
  case held => exact Store.holds_next heap.packages _
  case heldMembers =>
    rw [new]
    exact Store.holds_next heap.tables _
  case empty =>
    rw [new]
    exact Store.get_add_next heap.tables _
  case apart =>
    intro path found
    rw [new, tree.tableAt_grows grown] at found
    exact Store.next_not_holds _ (tree.tablesHeld path _ found)
  case noClass =>
    intro other held same
    rw [new] at same
    exact Store.next_not_holds _ (same ▸ (tree.closed other held).1)

/-- The tables where a package was bound to a path. -/
theorem tableAt_attached (heap : Heap) (root : Ref .table)
    (node : List String → Option (Ref .package)) (path : List String) (name : String)
    (ref : Ref .package) (table : Ref .table) (bound : Ref .package) (place : List String) :
    (heap.bind table name (.package bound)).tableAt root
        (Function.update node (path ++ [name]) (some ref)) place =
      if place = path ++ [name] then some (heap.package ref).members
      else heap.tableAt root node place := by
  by_cases here : place = path ++ [name]
  · subst here
    rw [if_pos rfl, tableAt, if_neg (by simp), Function.update_self]
    rfl
  · rw [if_neg here, tableAt, Function.update_of_ne here]
    rfl

/-- A package that is bound shows nothing: it has no members, and no package is below it. -/
theorem content_attached (tree : heap.Tree root node own) {table : Ref .table}
    (isTable : heap.tableAt root node path = some table) (detached : heap.Detached root node ref)
    (missing : node (path ++ [name]) = none) (last : String) :
    ((heap.bind table name (.package ref)).table (heap.package ref).members).get? last =
      match Function.update node (path ++ [name]) (some ref) (path ++ [name] ++ [last]) with
      | some child => some (.package child)
      | none => own (path ++ [name]) last := by
  have absent : heap.tableAt root node (path ++ [name]) = none := by
    rw [tableAt, if_neg (by simp), missing, Option.map_none]
  have empty : node (path ++ [name] ++ [last]) = none := by
    by_contra isNode
    exact tree.above _ last isNode absent
  have longer : path ++ [name] ++ [last] ≠ path ++ [name] := by
    intro same
    have lengths := congrArg List.length same
    simp at lengths
  have other : table ≠ (heap.package ref).members := by
    rintro rfl
    exact detached.apart path isTable
  rw [Function.update_of_ne longer, empty, tree.outside _ absent, table_bind, if_neg other,
    detached.empty]
  rfl

/-- The package that it is bound in shows it, and the others show what they did. -/
theorem content_around (tree : heap.Tree root node own) {table found : Ref .table}
    (isTable : heap.tableAt root node path = some table) {other : List String}
    (isFound : heap.tableAt root node other = some found) (last : String) :
    ((heap.bind table name (.package ref)).table found).get? last =
      match Function.update node (path ++ [name]) (some ref) (other ++ [last]) with
      | some child => some (.package child)
      | none => own other last := by
  by_cases here : other = path
  · subst here
    rw [isTable] at isFound
    cases isFound
    rw [table_bind, if_pos rfl, Table.get?_insert]
    by_cases same : name = last
    · subst same
      rw [if_pos rfl, Function.update_self]
    · have apart : other ++ [last] ≠ other ++ [name] := by
        intro equal
        exact same (List.singleton_inj.mp (List.append_cancel_left equal)).symm
      rw [if_neg same, Function.update_of_ne apart]
      exact tree.content other table isTable last
  · have apart : table ≠ found := by
      rintro rfl
      exact here (tree.distinct other path table isFound isTable)
    have elsewhere : other ++ [last] ≠ path ++ [name] := fun same =>
      here (List.append_inj' same rfl).1
    rw [table_bind, if_neg apart, Function.update_of_ne elsewhere]
    exact tree.content other found isFound last

/-- A detached package is bound in the package at a path. -/
theorem attach (tree : heap.Tree root node own) {table : Ref .table}
    (isTable : heap.tableAt root node path = some table) (detached : heap.Detached root node ref)
    (missing : node (path ++ [name]) = none) :
    (heap.bind table name (.package ref)).Tree root
      (Function.update node (path ++ [name]) (some ref)) own := by
  have below : path ++ [name] ≠ [] := by simp
  have nodes := tableAt_attached heap root node path name ref table ref
  constructor
  case start =>
    rw [Function.update_of_ne below.symm]
    exact tree.start
  case held =>
    intro other found isNode
    by_cases here : other = path ++ [name]
    · rw [here, Function.update_self] at isNode
      cases isNode
      exact detached.held
    · rw [Function.update_of_ne here] at isNode
      exact tree.held other found isNode
  case tablesHeld =>
    intro other found isFound
    rw [nodes] at isFound
    apply heap.holds_bind
    split at isFound
    · cases isFound
      exact detached.heldMembers
    · exact tree.tablesHeld other found isFound
  case distinct =>
    intro first second found isFirst isSecond
    rw [nodes] at isFirst isSecond
    split at isFirst
    · rename_i here
      cases isFirst
      split at isSecond
      · rename_i there
        rw [here, there]
      · exact absurd isSecond (detached.apart second)
    · split at isSecond
      · cases isSecond
        exact absurd isFirst (detached.apart first)
      · exact tree.distinct first second found isFirst isSecond
  case above =>
    intro other last isNode
    rw [nodes]
    split
    · exact Option.some_ne_none _
    · by_cases here : other ++ [last] = path ++ [name]
      · rw [(List.append_inj' here rfl).1, isTable]
        exact Option.some_ne_none _
      · rw [Function.update_of_ne here] at isNode
        exact tree.above other last isNode
  case content =>
    intro other found isFound last
    rw [nodes] at isFound
    split at isFound
    · rename_i here
      subst here
      cases isFound
      exact tree.content_attached isTable detached missing last
    · exact tree.content_around isTable isFound last
  case outside =>
    intro other isMissing
    rw [nodes] at isMissing
    split at isMissing
    · cases isMissing
    · exact tree.outside other isMissing
  case closed =>
    intro other held
    obtain ⟨heldMembers, isClosed⟩ := tree.closed other held
    refine ⟨heap.holds_bind heldMembers _ _, ?_⟩
    rintro ⟨place, isFound⟩
    rw [nodes] at isFound
    split at isFound
    · exact detached.noClass other held (Option.some.inj isFound).symm
    · exact isClosed ⟨place, isFound⟩

/-! ## Walks that make packages -/

/-- A new package on the way to the one that is bound. -/
theorem makes (tree : heap.Tree root node own) {table : Ref .table}
    (isTable : heap.tableAt root node path = some table) (detached : heap.Detached root node ref)
    (missing : node (path ++ [name]) = none) (full : String) :
    let made := heap.addPackage full
    let bound := made.2.bind table name (.package made.1)
    let extended := Function.update node (path ++ [name]) (some made.1)
    bound.Tree root extended own ∧ bound.Detached root extended ref ∧
      heap.Grows (heap.InTree root node) bound ∧
        ∀ table, heap.tables.Holds table → bound.InTree root extended table →
          heap.InTree root node table := by
  intro made bound extended
  have grown : heap.Grows (fun _ => False) made.2 := heap.grows_addPackage _ full
  have treeMade : made.2.Tree root node own := tree.grows grown rfl
  have isTableMade : made.2.tableAt root node path = some table := by
    rw [tree.tableAt_grows grown, isTable]
  have new : (made.2.package made.1).members = heap.tables.next :=
    congrArg Package.members (Store.get_add_next heap.packages _)
  refine ⟨treeMade.attach isTableMade (tree.detached_addPackage full) missing, ?_, ?_, ?_⟩
  · have members : (made.2.package ref).members = (heap.package ref).members :=
      (grown.packages ref detached.held).2.1
    have apartTable : table ≠ (heap.package ref).members := by
      rintro rfl
      exact detached.apart path isTable
    have apartMade : (made.2.package made.1).members ≠ (heap.package ref).members := by
      intro equal
      rw [new] at equal
      exact Store.next_not_holds _ (equal ▸ detached.heldMembers)
    constructor
    case held => exact (grown.packages ref detached.held).1
    case heldMembers =>
      apply made.2.holds_bind
      change made.2.tables.Holds (made.2.package ref).members
      rw [members]
      exact (grown.tables _ detached.heldMembers).1
    case empty =>
      change (made.2.bind table name (.package made.1)).table (made.2.package ref).members = _
      rw [members, table_bind, if_neg apartTable,
        (grown.tables _ detached.heldMembers).2 id, detached.empty]
    case apart =>
      intro place
      change _ ≠ some (made.2.package ref).members
      rw [tableAt_attached, members, tree.tableAt_grows grown]
      split
      · exact fun equal => apartMade (Option.some.inj equal)
      · exact detached.apart place
    case noClass =>
      intro other held
      change (made.2.moduleClass other).members ≠ (made.2.package ref).members
      rw [members, (grown.moduleClasses other held).2]
      exact detached.noClass other held
  · exact (grown.mono fun _ never => never.elim).trans
      (made.2.grows_bind (heap.InTree root node) ⟨path, isTable⟩ name _)
      fun _ _ open_ => open_
  · rintro found held ⟨place, isFound⟩
    rw [tableAt_attached, new, tree.tableAt_grows grown] at isFound
    split at isFound
    · cases isFound
      exact absurd held (Store.next_not_holds _)
    · exact ⟨place, isFound⟩

end Tree

/-- A tree in which a package was bound to a path: what was there stays, and what is new
is on the way. -/
structure Extends (node extended : List String → Option (Ref .package)) (parts : List String)
    (ref : Ref .package) : Prop where
  kept : ∀ path found, node path = some found → extended path = some found
  new :
    ∀ path, extended path ≠ none → node path ≠ none ∨ (path ≠ [] ∧ path <+: parts)
  leads : extended parts = some ref

/-- No binding stands in the way of a path. -/
def Vacant (node : List String → Option (Ref .package))
    (own : List String → String → Option Value) (path parts : List String) : Prop :=
  ∀ front part behind, parts = front ++ part :: behind →
    node (path ++ front ++ [part]) = none → own (path ++ front) part = none

theorem Vacant.next {node : List String → Option (Ref .package)}
    {own : List String → String → Option Value} {path rest : List String} {part : String}
    (vacant : Vacant node own path (part :: rest)) :
    Vacant node own (path ++ [part]) rest := by
  intro front last behind same missing
  have split : path ++ [part] ++ front = path ++ (part :: front) := by simp
  rw [split] at missing ⊢
  exact vacant (part :: front) last behind (by rw [same]; rfl) missing

theorem Vacant.update {node : List String → Option (Ref .package)}
    {own : List String → String → Option Value} {path rest : List String} {part : String}
    (vacant : Vacant node own (path ++ [part]) rest) (ref : Ref .package) :
    Vacant (Function.update node (path ++ [part]) (some ref)) own (path ++ [part]) rest := by
  intro front last behind same missing
  refine vacant front last behind same ?_
  have longer : path ++ [part] ++ front ++ [last] ≠ path ++ [part] := by
    intro equal
    have lengths := congrArg List.length equal
    simp at lengths
  rwa [Function.update_of_ne longer] at missing

theorem extends_update {node : List String → Option (Ref .package)} {path : List String}
    {part : String} (missing : node (path ++ [part]) = none) (ref : Ref .package) :
    Extends node (Function.update node (path ++ [part]) (some ref)) (path ++ [part]) ref where
  kept := by
    intro other found isNode
    have elsewhere : other ≠ path ++ [part] := by
      rintro rfl
      rw [missing] at isNode
      cases isNode
    rw [Function.update_of_ne elsewhere, isNode]
  new := by
    intro other isNode
    by_cases here : other = path ++ [part]
    · right
      rw [here]
      exact ⟨by simp, List.prefix_refl _⟩
    · rw [Function.update_of_ne here] at isNode
      exact Or.inl isNode
  leads := Function.update_self ..

theorem Extends.trans {node between extended : List String → Option (Ref .package)}
    {path parts : List String} {first ref : Ref .package} (begins : path <+: parts)
    (extendsFirst : Extends node between path first)
    (extendsSecond : Extends between extended parts ref) : Extends node extended parts ref where
  kept := fun path found isNode =>
    extendsSecond.kept path found (extendsFirst.kept path found isNode)
  new := by
    intro other isNode
    rcases extendsSecond.new other isNode with isBetween | onTheWay
    · rcases extendsFirst.new other isBetween with before | ⟨some_, onTheWay⟩
      · exact Or.inl before
      · exact Or.inr ⟨some_, onTheWay.trans begins⟩
    · exact Or.inr onTheWay
  leads := extendsSecond.leads

namespace Tree

variable {heap after : Heap} {root : Ref .table}
  {node : List String → Option (Ref .package)} {own : List String → String → Option Value}
  {path rest : List String} {name : String} {ref : Ref .package}

/-- A package is bound by a walk from one that is in the tree. -/
theorem setPath (rest : List String) :
    ∀ (done : String) {heap : Heap} {node : List String → Option (Ref .package)}
      {path : List String} {owner : Ref .package}, heap.Tree root node own →
        node path = some owner → heap.Detached root node ref → rest ≠ [] →
        node (path ++ rest) = none → Vacant node own path rest →
          ∃ bound extended,
            heap.setPath (.package owner) done (.package ref) rest = .ok bound ∧
              bound.Tree root extended own ∧ Extends node extended (path ++ rest) ref ∧
                heap.Grows (heap.InTree root node) bound := by
  induction rest with
  | nil =>
      intro done heap node path owner tree isOwner detached some_
      exact absurd rfl some_
  | cons part rest inductionHypothesis =>
      intro done heap node path owner tree isOwner detached _ missing vacant
      have isTable := tree.tableAt_node isOwner
      cases rest with
      | nil =>
          exact ⟨_, _, rfl, tree.attach isTable detached missing, extends_update missing ref,
            heap.grows_bind (heap.InTree root node) ⟨path, isTable⟩ part _⟩
      | cons next rest =>
          have split : path ++ part :: next :: rest = path ++ [part] ++ next :: rest := by simp
          rw [split] at missing ⊢
          have begins : path ++ [part] <+: path ++ [part] ++ next :: rest :=
            List.prefix_append _ _
          rw [Heap.setPath]
          · dsimp only
            rw [tree.findMember_package isOwner]
            cases isChild : node (path ++ [part]) with
            | some child =>
                rw [if_neg (by simp [isVacant, Value.isMissing, Value.isNone])]
                exact inductionHypothesis (done ++ "." ++ part) tree isChild detached (by simp)
                  missing vacant.next
            | none =>
                have free : own path part = none := by
                  have free := vacant [] part (next :: rest) rfl (by rwa [List.append_nil])
                  rwa [List.append_nil] at free
                obtain ⟨treeMade, detachedMade, growsMade, fewer⟩ :=
                  tree.makes isTable detached isChild (done ++ "." ++ part)
                obtain ⟨bound, extended, sets, treeBound, extends_, growsBound⟩ :=
                  inductionHypothesis (done ++ "." ++ part) treeMade
                    (Function.update_self ..) detachedMade (by simp)
                    (by
                      rw [Function.update_of_ne (by simp)]
                      exact missing)
                    (vacant.next.update _)
                rw [free, Option.getD_none, if_pos (by rfl)]
                refine ⟨bound, extended, ?_, treeBound,
                  (extends_update isChild _).trans begins extends_,
                  growsMade.trans growsBound fewer⟩
                have grown := heap.grows_addPackage (fun _ => False)
                  (done ++ "." ++ part)
                have members := (grown.packages owner (tree.held path owner isOwner)).2.1
                rw [← members] at sets
                exact sets
          · exact fun same => by cases same

/-- A package is bound to a dotted name by a walk from the outermost scope. -/
theorem bindQualified (tree : heap.Tree root node own) (detached : heap.Detached root node ref)
    (missing : node (nameParts name) = none) (vacant : Vacant node own [] (nameParts name)) :
    ∃ bound extended,
      heap.bindQualified ⟨⟨root, none⟩, []⟩ name (.package ref) = .ok bound ∧
        bound.Tree root extended own ∧ Extends node extended (nameParts name) ref ∧
          heap.Grows (heap.InTree root node) bound := by
  have isRoot : heap.tableAt root node [] = some root := by rw [tableAt, if_pos rfl]
  rw [Heap.bindQualified]
  obtain ⟨first, rest, split⟩ := List.exists_cons_of_ne_nil (nameParts_ne_nil name)
  rw [split] at missing vacant ⊢
  cases rest with
  | nil =>
      exact ⟨_, _, rfl, tree.attach isRoot detached missing, extends_update missing ref,
        heap.grows_bind (heap.InTree root node) ⟨[], isRoot⟩ first _⟩
  | cons next rest =>
      have begins : [] ++ [first] <+: first :: next :: rest := List.prefix_append [first] _
      dsimp only
      rw [tree.lookup_root]
      cases isChild : node [first] with
      | some child =>
          rw [if_neg (by simp [isVacant, Value.isMissing, Value.isNone])]
          exact setPath (next :: rest) first tree isChild detached (by simp) missing vacant.next
      | none =>
          have free : own [] first = none := vacant [] first (next :: rest) rfl isChild
          obtain ⟨treeMade, detachedMade, growsMade, fewer⟩ :=
            tree.makes isRoot detached isChild first
          obtain ⟨bound, extended, sets, treeBound, extends_, growsBound⟩ :=
            setPath (next :: rest) first treeMade (Function.update_self ..) detachedMade (by simp)
              (by
                rw [Function.update_of_ne (by simp)]
                exact missing)
              (vacant.next.update _)
          rw [free, Option.getD_none, if_pos (by rfl)]
          exact ⟨bound, extended, sets, treeBound,
            (extends_update isChild _).trans begins extends_, growsMade.trans growsBound fewer⟩

end Tree

end Heap

end TorchArchive
