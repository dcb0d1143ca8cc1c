import TorchArchive.Proofs.Package.Failure
import TorchArchive.Proofs.Package.Tree

/-!
# Loads of packages that only define

The load of such a package never fails.  It adds the packages on the way to its name to the
tree, and leaves the name of the package, its file and its definitions in its table.
-/

namespace TorchArchive

namespace Heap

theorem grows_updatePackage (heap : Heap) {opened : Ref .table → Prop} (ref : Ref .package)
    {change : Package → Package}
    (keeps :
      ∀ package, (change package).members = package.members ∧
        (change package).name = package.name) :
    heap.Grows opened (heap.updatePackage ref change) :=
  { Grows.refl opened heap with
    packages := fun other held => by
      refine ⟨Store.holds_set held ref _, ?_⟩
      rw [package, updatePackage, Store.get_update]
      split
      · rename_i same
        rw [← same]
        exact keeps _
      · exact ⟨rfl, rfl⟩ }

end Heap

/-- The outermost scope over a table. -/
def Scope.outermost (root : Ref .table) : Scope := ⟨⟨root, none⟩, []⟩

/-- What is bound in a package before its code begins. -/
def presetValue (name file member : String) : Option Value :=
  if member = fileKey then some (.str file)
  else if member = moduleNameKey then some (.str name)
  else none

theorem LeftUnder.mono {described other : Stmt → Value → Prop} {body : List Stmt}
    {before after : Option Value} {name : String}
    (left : LeftUnder described body before name after)
    (stronger : ∀ statement value, described statement value → other statement value) :
    LeftUnder other body before name after := by
  rw [LeftUnder] at left ⊢
  split at left
  · exact left
  · obtain ⟨value, same, describes⟩ := left
    exact ⟨value, same, stronger _ _ describes⟩

section Loads

variable {sources : Sources} {machine : Machine} {root : Ref .table}
  {node : List String → Option (Ref .package)} {own : List String → String → Option Value}
  {name file : String} {body : List Stmt}

/-- The package of a name is found in the tree, or bound on the way of the name. -/
theorem claimPackage_tree (tree : machine.heap.Tree root node own)
    (isRoot : machine.root = .outermost root)
    (vacant : Heap.Vacant node own [] (Heap.nameParts name)) :
    ∃ ref heap extended,
      claimPackage name machine = .ok ref (machine.withHeap heap) ∧
        heap.Tree root extended own ∧
          Heap.Extends node extended (Heap.nameParts name) ref ∧
            machine.heap.Grows (heap.InTree root extended) heap := by
  cases found : node (Heap.nameParts name) with
  | some ref =>
      have leads : machine.heap.lookupQualified machine.root name = .package ref := by
        rw [isRoot]
        exact tree.lookupQualified_node found
      exact ⟨ref, machine.heap, node, claimPackage_of_package leads, tree,
        ⟨fun _ _ isNode => isNode, fun _ isNode => Or.inl isNode, found⟩, .refl _ _⟩
  | none =>
      obtain ⟨front, part, rest, split, stands, leaves⟩ :=
        Heap.Tree.exists_leaf machine.heap root node [] (Heap.nameParts name)
          (by simp [Heap.tableAt]) (Heap.nameParts_ne_nil name) found
      rw [List.nil_append] at stands leaves
      have free : own front part = none := vacant front part rest split leaves
      have other (ref : Ref .package) :
          machine.heap.lookupQualified machine.root name ≠ .package ref := by
        rw [isRoot, Scope.outermost, tree.lookupQualified_leaf split stands leaves, free,
          Option.getD_none, Heap.follow_missing]
        exact fun same => by cases same
      have grown := machine.heap.grows_addPackage (fun _ => False) name
      obtain ⟨bound, extended, binds, treeBound, extends_, growsBound⟩ :=
        (tree.grows grown rfl).bindQualified (tree.detached_addPackage name) found vacant
      refine ⟨_, bound, extended, claimPackage_of_ne_package other ?_, treeBound, extends_, ?_⟩
      · rw [isRoot]
        exact binds
      · have growsAfter := growsBound.mono fun table inTree =>
          (tree.grows grown rfl).inTree_grows growsBound extends_.kept inTree
        exact (grown.mono fun _ never => never.elim).trans growsAfter fun _ _ inTree => inTree

/-- Nothing new is below the package that a tree was extended by. -/
theorem Heap.Extends.below {extended : List String → Option (Ref .package)}
    {parts : List String} {ref : Ref .package} {member : String}
    (extends_ : Heap.Extends node extended parts ref) (free : node (parts ++ [member]) = none) :
    extended (parts ++ [member]) = none := by
  by_contra isNode
  rcases extends_.new _ isNode with before | ⟨_, onTheWay⟩
  · exact before free
  · have lengths := onTheWay.length_le
    rw [List.length_append] at lengths
    exact Nat.not_succ_le_self _ lengths

/-- A package that was claimed is made known, with its name and its file in its table. -/
theorem enterPackage_of_claims {ref : Ref .package} {claimed filed : Heap}
    (claims : claimPackage name machine = .ok ref (machine.withHeap claimed))
    (files : claimed.updatePackage ref ({ · with file := some file }) = filed) :
    enterPackage name file machine =
      .ok (ref, machine.root.pushPackage (filed.package ref).members (filed.package ref).name)
        { machine.withHeap
            ((filed.bind (filed.package ref).members moduleNameKey (.str name)).bind
              (filed.package ref).members fileKey (.str file)) with
          packages := machine.packages.insert name ref } := by
  subst files
  exact EStateM.bind_eq_ok_iff.mpr ⟨ref, machine.withHeap claimed, claims, rfl⟩

/-- A package is made known, and its name and its file are bound in it. -/
theorem enterPackage_tree (machine : Machine) (file : String)
    (tree : machine.heap.Tree root node own)
    (isRoot : machine.root = .outermost root)
    (vacant : Heap.Vacant node own [] (Heap.nameParts name))
    (unbound : own (Heap.nameParts name) = fun _ => none)
    (freeName : node (Heap.nameParts name ++ [moduleNameKey]) = none)
    (freeFile : node (Heap.nameParts name ++ [fileKey]) = none) :
    ∃ ref heap extended,
      enterPackage name file machine =
          .ok (ref, machine.root.pushPackage (heap.package ref).members (heap.package ref).name)
            { machine.withHeap heap with packages := machine.packages.insert name ref } ∧
        heap.Tree root extended
            (Function.update own (Heap.nameParts name) (presetValue name file)) ∧
          Heap.Extends node extended (Heap.nameParts name) ref ∧
            machine.heap.Grows (heap.InTree root extended) heap := by
  obtain ⟨ref, claimed, extended, claims, treeClaimed, extends_, growsClaimed⟩ :=
    claimPackage_tree tree isRoot vacant
  obtain ⟨filed, files⟩ :
      ∃ filed, claimed.updatePackage ref ({ · with file := some file }) = filed := ⟨_, rfl⟩
  let members := (filed.package ref).members
  let named := (filed.bind members moduleNameKey (.str name)).bind members fileKey (.str file)
  have growsFiled : claimed.Grows (fun _ => False) filed :=
    files ▸ claimed.grows_updatePackage ref fun _ => ⟨rfl, rfl⟩
  have classes : filed.moduleClasses = claimed.moduleClasses := files ▸ rfl
  have treeFiled : filed.Tree root extended own := treeClaimed.grows growsFiled classes
  have isTable : filed.tableAt root extended (Heap.nameParts name) = some members :=
    treeFiled.tableAt_node extends_.leads
  have growsNamed : filed.Grows (· = members) named :=
    (filed.grows_bind (· = members) rfl moduleNameKey (.str name)).trans
      (Heap.grows_bind _ (· = members) rfl fileKey (.str file)) fun _ _ same => same
  have closed : named.ClassesClosed (filed.InTree root extended) :=
    (treeFiled.closed.bind _ _ _).bind _ _ _
  refine ⟨ref, named, extended, ?_, treeFiled.refill isTable growsNamed closed ?_, extends_, ?_⟩
  · rw [Heap.package_bind, Heap.package_bind]
    exact enterPackage_of_claims claims files
  · intro member
    have content := treeFiled.content _ members isTable member
    rw [unbound] at content
    rw [Heap.table_bind, if_pos rfl, Heap.table_bind, if_pos rfl, Table.get?_insert,
      Table.get?_insert, presetValue, content]
    by_cases isFile : fileKey = member
    · rw [if_pos isFile, if_pos isFile.symm, ← isFile, extends_.below freeFile]
    · rw [if_neg isFile, if_neg (Ne.symm isFile)]
      by_cases isName : moduleNameKey = member
      · rw [if_pos isName, if_pos isName.symm, ← isName, extends_.below freeName]
      · rw [if_neg isName, if_neg (Ne.symm isName)]
  · have growsAll : claimed.Grows (· = members) named :=
      (growsFiled.mono fun _ never => never.elim).trans growsNamed fun _ _ same => same
    have inTree {table : Ref .table} (inTree : claimed.InTree root extended table) :
        named.InTree root extended table :=
      treeClaimed.inTree_grows growsAll (fun _ _ isNode => isNode) inTree
    have inside : named.InTree root extended members :=
      treeFiled.inTree_grows growsNamed (fun _ _ isNode => isNode) ⟨_, isTable⟩
    exact (growsClaimed.mono fun _ => inTree).trans
      (growsAll.mono fun _ same => same ▸ inside) fun _ _ isOpen => isOpen

/-- The code of a package of definitions ends, and leaves these in its table. -/
theorem runBlock_tree (machine : Machine) (calls : Calls) (packageName : Option String)
    {ref : Ref .package} (tree : machine.heap.Tree root node own)
    (isNode : node (Heap.nameParts name) = some ref)
    (named : own (Heap.nameParts name) moduleNameKey = some (.str name))
    (freeName : node (Heap.nameParts name ++ [moduleNameKey]) = none)
    (definitions :
      ∀ statement ∈ body,
        statement.isDefinition = true ∧ statement.boundName? ≠ some moduleNameKey)
    (free :
      ∀ member, Stmt.lastBinding member body ≠ none →
        node (Heap.nameParts name ++ [member]) = none) :
    let scope : Scope := ⟨⟨(machine.heap.package ref).members, packageName⟩, machine.root.frames⟩
    ∃ heap bound,
      runBlock calls scope body machine = .ok .none (machine.withHeap heap) ∧
        heap.Tree root node (Function.update own (Heap.nameParts name) bound) ∧
          machine.heap.Grows (· = (machine.heap.package ref).members) heap ∧
            ∀ member,
              LeftUnder (heap.IsDefinition name) body (own (Heap.nameParts name) member) member
                (bound member) := by
  intro scope
  have isTable := tree.tableAt_node isNode
  have content := tree.content _ _ isTable
  have opens : Heap.Opens (machine.heap.InTree root node) name scope machine.heap := by
    constructor
    case held =>
      rintro table ⟨path, isFound⟩
      exact tree.tablesHeld path table isFound
    case isOpen => exact ⟨_, isTable⟩
    case closed => exact tree.closed
    case named => rw [content, freeName, named]
  obtain ⟨heap, runs, grows, opensAfter, left⟩ :=
    (bindsIn_package calls scope (machine.heap.InTree root node) name).executeAll body
      definitions machine opens
  have runsBlock : runBlock calls scope body machine = .ok .none (machine.withHeap heap) := by
    rw [runBlock_eq]
    exact EStateM.bind_eq_ok_iff.mpr ⟨none, _, runs, rfl⟩
  let bound (member : String) : Option Value :=
    (node (Heap.nameParts name ++ [member])).elim
      ((heap.table (machine.heap.package ref).members).get? member)
      fun _ => own (Heap.nameParts name) member
  refine ⟨heap, bound, runsBlock, tree.refill isTable grows opensAfter.closed ?_, grows, ?_⟩
  · intro member
    have leftMember := left member
    rw [content] at leftMember
    dsimp only [bound]
    cases isNode : node (Heap.nameParts name ++ [member]) with
    | none => rfl
    | some child =>
        -- A package below this one is not bound by its code, so it stays bound.
        have other : Stmt.lastBinding member body = none := by
          by_contra binds
          rw [free member binds] at isNode
          cases isNode
        rw [isNode, LeftUnder, other] at leftMember
        exact leftMember
  · intro member
    have leftMember := left member
    rw [content] at leftMember
    dsimp only [bound]
    cases isNode : node (Heap.nameParts name ++ [member]) with
    | none =>
        rw [isNode] at leftMember
        exact leftMember
    | some child =>
        rw [LeftUnder]
        cases binds : Stmt.lastBinding member body with
        | none => rfl
        | some statement =>
            rw [free member (by rw [binds]; exact Option.some_ne_none _)] at isNode
            cases isNode

end Loads

end TorchArchive
