import TorchArchive.Proofs.Package.Library

/-!
# Lookups in any order

In a library of definitions the file of a package is asked for once, when the package is
first needed, and every lookup gives what the source says, whatever was looked up before.
-/

namespace TorchArchive

/-- A call for a package, or for a qualified name. -/
inductive Lookup where
  | package (name : String)
  | resolve (name : String)

namespace Lookup

def name : Lookup → String
  | .package name => name
  | .resolve name => name

def run (sources : Sources) : Lookup → Run Value
  | .package name => Value.package <$> (Calls.of sources).package name none
  | .resolve name => TorchArchive.resolve (Calls.of sources) name

/-- The machine after some lookups, whether they succeed or fail. -/
def runAll (sources : Sources) (lookups : List Lookup) (machine : Machine) : Machine :=
  lookups.foldl (fun machine lookup => stateAfter (lookup.run sources) machine) machine

/-- A lookup needs a package that is called for, or in which a name has to be found that
leads nowhere yet. -/
def Needs (machine : Machine) : Lookup → String → Prop
  | .package other, name => other = name
  | .resolve qualified, name =>
      (machine.heap.lookupQualified machine.root qualified).isMissing = true ∧
        (splitLast qualified).1 = name ∧ name ≠ ""

/-- One of some lookups needs a package when its turn comes. -/
def Needed (sources : Sources) : Machine → List Lookup → String → Prop
  | _, [], _ => False
  | machine, lookup :: rest, name =>
      lookup.Needs machine name ∨
        Needed sources (stateAfter (lookup.run sources) machine) rest name

end Lookup

/-! ## What a lookup changes -/

theorem stateAfter_map {σ ε α β : Type} (change : α → β) (step : EStateM ε σ α) (state : σ) :
    stateAfter (change <$> step) state = stateAfter step state := by
  change stateAfter (EStateM.map change step) state = _
  rw [stateAfter, stateAfter, EStateM.map]
  cases step state <;> rfl

/-- A name that leads nowhere changes what the load of its package changes. -/
theorem stateAfter_resolve {calls : Calls} {machine : Machine} {name : String}
    (missing : (machine.heap.lookupQualified machine.root name).isMissing = true)
    (owned : (splitLast name).1 ≠ "") :
    stateAfter (resolve calls name) machine =
      stateAfter (calls.package (splitLast name).1 none) machine := by
  have resolves := resolve_of_missing calls missing
  rw [if_neg owned] at resolves
  cases loads : calls.package (splitLast name).1 none machine with
  | ok ref after =>
      rw [stateAfter_ok loads]
      exact stateAfter_ok
        (resolves.trans (EStateM.bind_eq_ok_iff.mpr ⟨ref, after, loads, rfl⟩))
  | error fault after =>
      rw [stateAfter_error loads]
      exact stateAfter_error (resolves.trans (EStateM.bind_eq_error_iff.mpr (Or.inl loads)))

/-- A class or a function is bound to a value. -/
theorem Heap.IsDefinition.isMissing {heap : Heap} {module : String} {statement : Stmt}
    {value : Value} (is : heap.IsDefinition module statement value) :
    value.isMissing = false := by
  cases statement with
  | functionDef name parameters body =>
      obtain ⟨ref, rfl, _⟩ := is
      rfl
  | classDef name bases body =>
      obtain ⟨ref, rfl, _⟩ := is
      rfl
  | _ => exact is.elim

namespace Library.Consistent

variable {library : Library} {sources : Sources} {machine : Machine} {root : Ref .table}
  {node : List String → Option (Ref .package)} {own : List String → String → Option Value}
  {name : String} {body : List Stmt}

/-- The request of a file that is no source. -/
theorem asked (lawful : library.Lawful sources)
    (consistent : library.Consistent machine root node own) (slashless : '/' ∉ name.toList)
    (unlisted : library name = none) :
    library.Consistent (machine.asked (packageFile name)) root node own where
  isRoot := consistent.isRoot
  tree := consistent.tree
  outermost := consistent.outermost
  known := consistent.known
  defined := consistent.defined
  empty := consistent.empty
  below := consistent.below
  requests := by
    intro other code listed
    have requests := consistent.requests other code listed
    have apart : ¬ (packageFile name == packageFile other) = true := by
      intro sameFile
      have same := packageFile_injective slashless (lawful.slashless other code listed)
        (beq_iff_eq.mp sameFile)
      rw [← same, unlisted] at listed
      cases listed
    change (machine.requests ++ [packageFile name]).count (packageFile other) =
      if (machine.packages.get? other).isSome then 1 else 0
    rw [List.count_append, requests, List.count_singleton, if_neg apart, Nat.add_zero]

/-- A call for a package gives it, and makes no other package known; or there is none, and
the call fails. -/
theorem package (lawful : library.Lawful sources)
    (consistent : library.Consistent machine root node own) (slashless : '/' ∉ name.toList) :
    (∃ ref after extended later,
      (Calls.of sources).package name none machine = .ok ref after ∧
        library.Consistent after root extended later ∧ Continues machine after own later ∧
          after.packages.get? name = some ref ∧
            ∀ other, name ≠ other → after.packages.get? other = machine.packages.get? other) ∨
      library name = none ∧
        (Calls.of sources).package name none machine =
          .error (.missingSource (packageFile name)) (machine.asked (packageFile name)) := by
  cases known : machine.packages.get? name with
  | some ref =>
      exact Or.inl ⟨ref, machine, node, own, Machine.package_of_known known, consistent,
        .refl machine own, known, fun _ _ => rfl⟩
  | none =>
      cases listed : library name with
      | none =>
          exact Or.inr ⟨rfl, Machine.package_of_noSource known
            (lawful.lacks name slashless listed)⟩
      | some body =>
          obtain ⟨ref, after, extended, later, loads, consistentAfter, packages, continues⟩ :=
            consistent.load lawful listed known (Calls.within sources 194)
          refine Or.inl ⟨ref, after, extended, later, loads, consistentAfter, continues, ?_, ?_⟩
          · rw [packages, Table.get?_insert_self]
          · intro other distinct
            rw [packages, Table.get?_insert_of_ne _ _ distinct]

/-- The machine after a call for a package. -/
theorem afterPackage (lawful : library.Lawful sources)
    (consistent : library.Consistent machine root node own) (slashless : '/' ∉ name.toList) :
    ∃ extended later,
      library.Consistent (stateAfter ((Calls.of sources).package name none) machine) root
          extended later ∧
        Continues machine (stateAfter ((Calls.of sources).package name none) machine) own later ∧
          ∀ other body, library other = some body →
            ((stateAfter ((Calls.of sources).package name none) machine).packages.get? other ≠
                none ↔
              machine.packages.get? other ≠ none ∨ name = other) := by
  rcases consistent.package lawful slashless with
    ⟨ref, after, extended, later, loads, consistentAfter, continues, known, others⟩ |
      ⟨unlisted, fails⟩
  · rw [stateAfter_ok loads]
    refine ⟨extended, later, consistentAfter, continues, fun other body _ => ?_⟩
    by_cases same : name = other
    · subst same
      rw [known]
      exact iff_of_true (Option.some_ne_none _) (Or.inr rfl)
    · rw [others other same]
      exact (or_iff_left same).symm
  · rw [stateAfter_error fails]
    refine ⟨node, own, consistent.asked lawful slashless unlisted, ⟨fun _ _ known => known,
      fun _ _ => rfl⟩, fun other body listed => ?_⟩
    have distinct : name ≠ other := by
      rintro rfl
      rw [unlisted] at listed
      cases listed
    exact (or_iff_left distinct).symm

/-- A lookup leaves a package known that it needs, and no other that was not known. -/
theorem lookup (lawful : library.Lawful sources)
    (consistent : library.Consistent machine root node own) (lookup : Lookup)
    (slashless : '/' ∉ lookup.name.toList) :
    ∃ extended later,
      library.Consistent (stateAfter (lookup.run sources) machine) root extended later ∧
        Continues machine (stateAfter (lookup.run sources) machine) own later ∧
          ∀ name body, library name = some body →
            ((stateAfter (lookup.run sources) machine).packages.get? name ≠ none ↔
              machine.packages.get? name ≠ none ∨ lookup.Needs machine name) := by
  cases lookup with
  | package called =>
      rw [Lookup.run, stateAfter_map]
      exact consistent.afterPackage lawful slashless
  | resolve qualified =>
      rw [Lookup.run]
      cases missing :
          (machine.heap.lookupQualified machine.root qualified).isMissing with
      | false =>
          rw [stateAfter_ok (resolve_of_found missing)]
          refine ⟨node, own, consistent, .refl machine own, fun name body _ => ?_⟩
          refine (or_iff_left fun needs => ?_).symm
          rw [needs.1] at missing
          cases missing
      | true =>
          by_cases owned : (splitLast qualified).1 = ""
          · have ends := resolve_of_missing (Calls.of sources) missing
            rw [if_pos owned] at ends
            rw [stateAfter_ok ends]
            refine ⟨node, own, consistent, .refl machine own, fun name body _ => ?_⟩
            exact (or_iff_left fun needs => needs.2.2 (needs.2.1.symm.trans owned)).symm
          · rw [stateAfter_resolve missing owned]
            have slashlessOwner : '/' ∉ (splitLast qualified).1.toList :=
              slashless_owner slashless
            obtain ⟨extended, later, consistentAfter, continues, loaded⟩ :=
              consistent.afterPackage lawful slashlessOwner
            refine ⟨extended, later, consistentAfter, continues, fun name body listed => ?_⟩
            rw [loaded name body listed]
            exact or_congr_right
              ⟨fun same => ⟨missing, same, same ▸ owned⟩, fun needs => needs.2.1⟩

/-- Lookups leave those packages known that one of them needs. -/
theorem lookups (lawful : library.Lawful sources) (lookups : List Lookup)
    (slashless : ∀ lookup ∈ lookups, '/' ∉ lookup.name.toList)
    (consistent : library.Consistent machine root node own) :
    ∃ extended later,
      library.Consistent (Lookup.runAll sources lookups machine) root extended later ∧
        Continues machine (Lookup.runAll sources lookups machine) own later ∧
          ∀ name body, library name = some body →
            ((Lookup.runAll sources lookups machine).packages.get? name ≠ none ↔
              machine.packages.get? name ≠ none ∨
                Lookup.Needed sources machine lookups name) := by
  induction lookups generalizing machine node own with
  | nil =>
      exact ⟨node, own, consistent, .refl machine own, fun name body _ =>
        (or_iff_left id).symm⟩
  | cons first rest inductionHypothesis =>
      obtain ⟨slashlessFirst, slashlessRest⟩ := List.forall_mem_cons.mp slashless
      obtain ⟨between, bound, consistentFirst, continuesFirst, knownFirst⟩ :=
        consistent.lookup lawful first slashlessFirst
      obtain ⟨extended, later, consistentRest, continuesRest, knownRest⟩ :=
        inductionHypothesis slashlessRest consistentFirst
      refine ⟨extended, later, consistentRest, continuesFirst.trans continuesRest,
        fun name body listed => ?_⟩
      rw [Lookup.Needed, ← or_assoc, ← knownFirst name body listed]
      exact knownRest name body listed

/-! ## What a lookup gives -/

/-- What the code of a known package defines is bound in it. -/
theorem definition (consistent : library.Consistent machine root node own)
    (listed : library name = some body) (known : machine.packages.get? name ≠ none)
    {member : String} {statement : Stmt}
    (binds : Stmt.lastBinding member body = some statement) :
    ∃ value, own (Heap.nameParts name) member = some value ∧
      machine.heap.IsDefinition name statement value := by
  have left := consistent.defined name body listed known member
  rw [LeftUnder, binds] at left
  exact left

/-- What is bound in a known package is found, and nothing happens. -/
theorem resolve_of_known (lawful : library.Lawful sources)
    (consistent : library.Consistent machine root node own)
    (listed : library name = some body) {member : String} {statement : Stmt} {value : Value}
    (known : machine.packages.get? name ≠ none)
    (binds : Stmt.lastBinding member body = some statement) (dotless : '.' ∉ member.toList)
    (bound : own (Heap.nameParts name) member = some value)
    (is : machine.heap.IsDefinition name statement value) :
    resolve (Calls.of sources) (name ++ "." ++ member) machine = .ok value machine := by
  obtain ⟨ref, isKnown⟩ := Option.ne_none_iff_exists'.mp known
  have stands := consistent.tree.tableAt_node (consistent.known name ref isKnown).1
  have bindsSome : Stmt.lastBinding member body ≠ none := by
    rw [binds]
    exact Option.some_ne_none _
  have noneBelow := consistent.noneBelow lawful listed (Or.inl bindsSome)
  have leads : machine.heap.lookupQualified machine.root (name ++ "." ++ member) = value := by
    have parts : Heap.nameParts (name ++ "." ++ member) = Heap.nameParts name ++ [member] := by
      rw [Heap.nameParts_append, Heap.nameParts_of_dotless dotless]
    rw [consistent.isRoot, Scope.outermost, consistent.tree.lookupQualified_leaf parts
      (by rw [stands]; exact Option.some_ne_none _) noneBelow, bound, Option.getD_some]
    rfl
  have found : (machine.heap.lookupQualified machine.root (name ++ "." ++ member)).isMissing =
      false := by
    rw [leads]
    exact is.isMissing
  rw [resolve_of_found found, leads]

/-- A name in a package that is not known leads nowhere. -/
theorem lookupQualified_of_unknown (lawful : library.Lawful sources)
    (consistent : library.Consistent machine root node own)
    (listed : library name = some body) (unknown : machine.packages.get? name = none)
    {member : String} (binds : Stmt.lastBinding member body ≠ none)
    (dotless : '.' ∉ member.toList) :
    machine.heap.lookupQualified machine.root (name ++ "." ++ member) = .missing := by
  have parts : Heap.nameParts (name ++ "." ++ member) = Heap.nameParts name ++ [member] := by
    rw [Heap.nameParts_append, Heap.nameParts_of_dotless dotless]
  have noneBelow := consistent.noneBelow lawful listed (Or.inl binds)
  rw [← parts] at noneBelow
  obtain ⟨front, part, rest, split, stands, leaves⟩ :=
    Heap.Tree.exists_leaf machine.heap root node [] _ (by simp [Heap.tableAt])
      (Heap.nameParts_ne_nil _) noneBelow
  rw [List.nil_append] at stands leaves
  have free : own front part = none := by
    rcases List.eq_nil_or_concat rest with rfl | ⟨behind, last, rfl⟩
    · rw [parts] at split
      obtain ⟨rfl, _⟩ := List.append_inj' split rfl
      rw [consistent.unbound unknown]
    · have inside : Heap.nameParts name = front ++ part :: behind := by
        rw [parts, List.concat_eq_append, ← List.cons_append, ← List.append_assoc] at split
        exact (List.append_inj' split rfl).1
      exact consistent.vacant lawful listed front part behind inside leaves
  rw [consistent.isRoot, Scope.outermost, consistent.tree.lookupQualified_leaf split stands
    leaves, free, Option.getD_none, Heap.follow_missing]

/-- A name in a package gives what the code of the package defines last under it. -/
theorem resolves (lawful : library.Lawful sources)
    (consistent : library.Consistent machine root node own)
    (listed : library name = some body) (named : name ≠ "") {member : String}
    {statement : Stmt} (binds : Stmt.lastBinding member body = some statement)
    (dotless : '.' ∉ member.toList) :
    ∃ value after extended later,
      resolve (Calls.of sources) (name ++ "." ++ member) machine = .ok value after ∧
        library.Consistent after root extended later ∧ after.packages.get? name ≠ none ∧
          later (Heap.nameParts name) member = some value ∧
            after.heap.IsDefinition name statement value := by
  have bindsSome : Stmt.lastBinding member body ≠ none := by
    rw [binds]
    exact Option.some_ne_none _
  by_cases known : machine.packages.get? name = none
  · rcases consistent.package lawful (lawful.slashless name body listed) with
      ⟨ref, after, extended, later, loads, consistentAfter, _, isKnown, _⟩ | ⟨unlisted, _⟩
    · have knownAfter : after.packages.get? name ≠ none := by
        rw [isKnown]
        exact Option.some_ne_none _
      obtain ⟨value, bound, is⟩ := consistentAfter.definition listed knownAfter binds
      refine ⟨value, after, extended, later, ?_, consistentAfter, knownAfter, bound, is⟩
      have missing := consistent.lookupQualified_of_unknown lawful listed known bindsSome dotless
      rw [resolve_of_missing _ (by rw [missing]; rfl), splitLast_append dotless, if_neg named]
      refine EStateM.bind_eq_ok_iff.mpr ⟨ref, after, loads, ?_⟩
      have isTable :=
        consistentAfter.tree.tableAt_node (consistentAfter.known name ref isKnown).1
      have content := consistentAfter.tree.content _ _ isTable member
      rw [consistentAfter.noneBelow lawful listed (Or.inl bindsSome), bound] at content
      change EStateM.Result.ok
        (((after.heap.table (after.heap.package ref).members).get? member).getD .missing)
          after = _
      rw [content, Option.getD_some]
    · rw [unlisted] at listed
      cases listed
  · obtain ⟨value, bound, is⟩ := consistent.definition listed known binds
    exact ⟨value, machine, node, own,
      consistent.resolve_of_known lawful listed known binds dotless bound is, consistent, known,
      bound, is⟩

/-! ## What a run of lookups gives -/

/-- The files that were asked for are those of the packages that are known. -/
theorem mem_requests_iff (consistent : library.Consistent machine root node own)
    (listed : library name = some body) :
    packageFile name ∈ machine.requests ↔ machine.packages.get? name ≠ none := by
  rw [← List.count_pos_iff, consistent.requests name body listed]
  cases machine.packages.get? name with
  | none => exact iff_of_false (Nat.lt_irrefl 0) fun known => known rfl
  | some ref => exact iff_of_true Nat.zero_lt_one (Option.some_ne_none ref)

/-- A call for a package gives it, and so does every later one. -/
theorem package_stays (lawful : library.Lawful sources)
    (consistent : library.Consistent machine root node own)
    (listed : library name = some body) :
    ∃ ref loaded,
      (Lookup.package name).run sources machine = .ok (.package ref) loaded ∧
        ∀ more : List Lookup, (∀ lookup ∈ more, '/' ∉ lookup.name.toList) →
          (Lookup.package name).run sources (Lookup.runAll sources more loaded) =
            .ok (.package ref) (Lookup.runAll sources more loaded) := by
  have gives {before after : Machine} {ref : Ref .package}
      (loads : (Calls.of sources).package name none before = .ok ref after) :
      (Lookup.package name).run sources before = .ok (.package ref) after :=
    EStateM.bind_eq_ok_iff.mpr ⟨ref, after, loads, rfl⟩
  rcases consistent.package lawful (lawful.slashless name body listed) with
    ⟨ref, loaded, extended, later, loads, consistentLoaded, _, known, _⟩ | ⟨unlisted, _⟩
  · refine ⟨ref, loaded, gives loads, fun more slashless => ?_⟩
    obtain ⟨_, _, _, continues, _⟩ := consistentLoaded.lookups lawful more slashless
    exact gives (Machine.package_of_known (continues.known name ref known))
  · rw [unlisted] at listed
    cases listed

/-- A name in a package gives what was defined last under it, and so does every later
lookup. -/
theorem resolves_stays (lawful : library.Lawful sources)
    (consistent : library.Consistent machine root node own)
    (listed : library name = some body) (named : name ≠ "") {member : String}
    {statement : Stmt} (binds : Stmt.lastBinding member body = some statement)
    (dotless : '.' ∉ member.toList) :
    ∃ value found,
      (Lookup.resolve (name ++ "." ++ member)).run sources machine = .ok value found ∧
        found.heap.IsDefinition name statement value ∧
        ∀ more : List Lookup, (∀ lookup ∈ more, '/' ∉ lookup.name.toList) →
          (Lookup.resolve (name ++ "." ++ member)).run sources
              (Lookup.runAll sources more found) =
              .ok value (Lookup.runAll sources more found) ∧
            (Lookup.runAll sources more found).heap.IsDefinition name statement value := by
  obtain ⟨value, found, between, bound, resolves, consistentFound, known, isBound, is⟩ :=
    consistent.resolves lawful listed named binds dotless
  refine ⟨value, found, resolves, is, fun more slashless => ?_⟩
  obtain ⟨extended, later, consistentLater, continues, _⟩ :=
    consistentFound.lookups lawful more slashless
  obtain ⟨ref, isKnown⟩ := Option.ne_none_iff_exists'.mp known
  have stays : (Lookup.runAll sources more found).packages.get? name ≠ none := by
    rw [continues.known name ref isKnown]
    exact Option.some_ne_none _
  have sameValue : later (Heap.nameParts name) member = some value := by
    rw [continues.bound name known, isBound]
  obtain ⟨last, isLast, isLater⟩ := consistentLater.definition listed stays binds
  rw [sameValue] at isLast
  cases isLast
  exact ⟨consistentLater.resolve_of_known lawful listed stays binds dotless sameValue isLater,
    isLater⟩

/-- A lookup that needs a package without source fails, and only its file was asked for. -/
theorem lookup_of_unlisted (lawful : library.Lawful sources)
    (consistent : library.Consistent machine root node own) {lookup : Lookup}
    (slashless : '/' ∉ lookup.name.toList) (needs : lookup.Needs machine name)
    (unlisted : library name = none) :
    lookup.run sources machine =
      .error (.missingSource (packageFile name)) (machine.asked (packageFile name)) := by
  have fails (slashlessName : '/' ∉ name.toList) :
      (Calls.of sources).package name none machine =
        .error (.missingSource (packageFile name)) (machine.asked (packageFile name)) := by
    rcases consistent.package lawful slashlessName with
      ⟨ref, after, extended, later, loads, consistentAfter, _, known, _⟩ | ⟨_, fails⟩
    · exact absurd unlisted (consistentAfter.known name ref known).2
    · exact fails
  cases lookup with
  | package called =>
      cases needs
      exact EStateM.bind_eq_error_iff.mpr (Or.inl (fails slashless))
  | resolve qualified =>
      obtain ⟨missing, rfl, owned⟩ := needs
      rw [Lookup.run, resolve_of_missing _ missing, if_neg owned]
      exact EStateM.bind_eq_error_iff.mpr (Or.inl (fails (slashless_owner slashless)))

end Library.Consistent

/-- What a machine says after some lookups in a library.  The file of a package was asked for
once if a lookup needed the package when its turn came, and else never; a call for a package
gives it, and gives the same package ever after; a name in a package gives the class or
function of the last definition with this name, and the same ever after; and a lookup that
needs a package without source fails and changes nothing, but that its file was asked for. -/
structure Library.Agrees (library : Library) (sources : Sources) (lookups : List Lookup)
    (machine : Machine) : Prop where
  once :
    ∀ name body, library name = some body →
      machine.requests.count (packageFile name) ≤ 1 ∧
        (packageFile name ∈ machine.requests ↔ Lookup.Needed sources .initial lookups name)
  package :
    ∀ name body, library name = some body →
      ∃ ref loaded,
        (Lookup.package name).run sources machine = .ok (.package ref) loaded ∧
          ∀ more : List Lookup, (∀ lookup ∈ more, '/' ∉ lookup.name.toList) →
            (Lookup.package name).run sources (Lookup.runAll sources more loaded) =
              .ok (.package ref) (Lookup.runAll sources more loaded)
  definition :
    ∀ name body member statement, library name = some body → name ≠ "" →
      '.' ∉ member.toList → Stmt.lastBinding member body = some statement →
        ∃ value found,
          (Lookup.resolve (name ++ "." ++ member)).run sources machine = .ok value found ∧
            found.heap.IsDefinition name statement value ∧
            ∀ more : List Lookup, (∀ lookup ∈ more, '/' ∉ lookup.name.toList) →
              (Lookup.resolve (name ++ "." ++ member)).run sources
                  (Lookup.runAll sources more found) =
                  .ok value (Lookup.runAll sources more found) ∧
                (Lookup.runAll sources more found).heap.IsDefinition name statement value
  missing :
    ∀ (lookup : Lookup) (name : String), '/' ∉ lookup.name.toList → library name = none →
      lookup.Needs machine name →
        lookup.run sources machine =
          .error (.missingSource (packageFile name)) (machine.asked (packageFile name))

/-- The order of lookups in a library of definitions does not matter. -/
theorem Library.lookups_agree {library : Library} {sources : Sources}
    (lawful : library.Lawful sources) (lookups : List Lookup)
    (slashless : ∀ lookup ∈ lookups, '/' ∉ lookup.name.toList) :
    library.Agrees sources lookups (Lookup.runAll sources lookups .initial) := by
  obtain ⟨node, own, consistent, _, known⟩ :=
    library.consistent_initial.lookups lawful lookups slashless
  constructor
  case once =>
    intro name body listed
    constructor
    · rw [consistent.requests name body listed]
      split <;> decide
    · rw [consistent.mem_requests_iff listed, known name body listed]
      exact or_iff_right fun never => never rfl
  case package => exact fun name body listed => consistent.package_stays lawful listed
  case definition =>
    exact fun name body member statement listed named dotless binds =>
      consistent.resolves_stays lawful listed named binds dotless
  case missing =>
    exact fun lookup name slashless unlisted needs =>
      consistent.lookup_of_unlisted lawful slashless needs unlisted

/-! ## Packages in a list -/

/-- The sources that hold some packages. -/
def Sources.holding (packages : List (String × List Stmt)) : Sources where
  program := fun file =>
    match (packages.map fun package => (packageFile package.1, package.2)).lookup file with
    | some body => .ok ⟨body, file⟩
    | none => .error (.missingSource file)
  constants := none
  constantStorages := .empty

/-- The file of a package holds its code. -/
theorem lookup_packageFile {packages : List (String × List Stmt)} {name : String}
    (slashless : ∀ package ∈ packages, '/' ∉ package.1.toList)
    (slashlessName : '/' ∉ name.toList) :
    (packages.map fun package => (packageFile package.1, package.2)).lookup (packageFile name) =
      packages.lookup name := by
  induction packages with
  | nil => rfl
  | cons first rest inductionHypothesis =>
      obtain ⟨other, body⟩ := first
      obtain ⟨slashlessOther, slashlessRest⟩ := List.forall_mem_cons.mp slashless
      rw [List.map_cons, List.lookup_cons, List.lookup_cons, inductionHypothesis slashlessRest]
      have sameFile : (packageFile name == packageFile other) = (name == other) := by
        rw [Bool.eq_iff_iff, beq_iff_eq, beq_iff_eq]
        exact ⟨packageFile_injective slashlessName slashlessOther, congrArg packageFile⟩
      rw [sameFile]

theorem program_holding {packages : List (String × List Stmt)} {name : String}
    (slashless : ∀ package ∈ packages, '/' ∉ package.1.toList)
    (slashlessName : '/' ∉ name.toList) :
    (Sources.holding packages).program (packageFile name) =
      match packages.lookup name with
      | some body => .ok ⟨body, packageFile name⟩
      | none => .error (.missingSource (packageFile name)) := by
  rw [← lookup_packageFile slashless slashlessName]
  rfl

/-- Every program of such sources is the code of a package. -/
theorem body_of_program_holding {packages : List (String × List Stmt)} {file : String}
    {program : Program} (reads : (Sources.holding packages).program file = .ok program) :
    ∃ package ∈ packages, program.body = package.2 := by
  rw [Sources.holding] at reads
  dsimp only at reads
  split at reads
  · rename_i body found
    cases reads
    induction packages with
    | nil => cases found
    | cons first rest inductionHypothesis =>
        rw [List.map_cons, List.lookup_cons] at found
        split at found
        · cases found
          exact ⟨first, List.mem_cons_self, rfl⟩
        · obtain ⟨package, inside, same⟩ := inductionHypothesis found
          exact ⟨package, List.mem_cons_of_mem _ inside, same⟩
  · cases reads

namespace Shadowed

/-- A function that does nothing. -/
def defining (name : String) : List Stmt := [.functionDef name [] [.pass]]

/-- A class that does nothing. -/
def declaring (name : String) : List Stmt := [.classDef name [] [.pass]]

/-- A package and one below it. -/
def nested : List (String × List Stmt) := [("a", defining "f"), ("a.b", declaring "C")]

/-- A package below what the load of another one binds, and one without a name. -/
def shadowed : List (String × List Stmt) :=
  [("a.__name__", defining "upper"), ("", defining "f")]

def isDefined : Value → Bool
  | .function _ => true
  | .moduleClass _ => true
  | _ => false

/-- Whether a name leads to something that is no class or function. -/
def leadsElsewhere (name : String) (machine : Machine) : Bool :=
  match (Lookup.resolve name).run (.holding (nested ++ shadowed)) machine with
  | .ok value _ => !isDefined value
  | .error _ _ => false

/-- Whether no builtin has a name, whether two names of packages lead elsewhere, and whether
a file is asked for by two names. -/
def misleads (machine : Machine) : Bool :=
  let sources := Sources.holding (nested ++ shadowed)
  ((machine.heap.table machine.root.inner.table).get? "a").isNone &&
    (leadsElsewhere "a.__name__.upper" (Lookup.runAll sources [.package "a"] machine) &&
      (leadsElsewhere ".f" machine &&
        (Lookup.runAll sources [.package "a.b", .package "a/b"] machine).requests ==
          ["code/a/b.py", "code/a/b.py"]))

set_option maxRecDepth 100000 in
private theorem misleads_initial : misleads .initial = true := by
  rw [Machine.initial_eq]
  decide +kernel

/-! ### A library of two packages -/

theorem nested_cases {name : String} {body : List Stmt} (listed : nested.lookup name = some body) :
    name = "a" ∧ body = defining "f" ∨ name = "a.b" ∧ body = declaring "C" := by
  rw [nested, List.lookup_cons] at listed
  split at listed
  · rename_i same
    cases listed
    exact Or.inl ⟨beq_iff_eq.mp same, rfl⟩
  · rw [List.lookup_cons] at listed
    split at listed
    · rename_i same
      cases listed
      exact Or.inr ⟨beq_iff_eq.mp same, rfl⟩
    · cases listed

theorem nested_slashless : ∀ package ∈ nested, '/' ∉ package.1.toList := by
  decide

theorem nameParts_nested : Heap.nameParts "a" = ["a"] ∧ Heap.nameParts "a.b" = ["a", "b"] := by
  have first : Heap.nameParts "a" = ["a"] := Heap.nameParts_of_dotless (by decide)
  have second : Heap.nameParts "b" = ["b"] := Heap.nameParts_of_dotless (by decide)
  refine ⟨first, ?_⟩
  rw [show "a.b" = "a" ++ "." ++ "b" from rfl, Heap.nameParts_append, first, second]
  rfl

theorem outermostValue_nested : outermostValue "a" = none := by
  have misled := misleads_initial
  rw [misleads, Bool.and_eq_true] at misled
  exact Option.isNone_iff_eq_none.mp misled.1

theorem lawful_nested : Library.Lawful (fun name => nested.lookup name) (.holding nested) where
  serves := by
    intro name body listed
    have slashless : '/' ∉ name.toList := by
      rcases nested_cases listed with ⟨rfl, _⟩ | ⟨rfl, _⟩ <;> decide
    rw [program_holding nested_slashless slashless, listed]
  lacks := by
    intro name slashless unlisted
    rw [program_holding nested_slashless slashless, unlisted]
  slashless := by
    intro name body listed
    rcases nested_cases listed with ⟨rfl, _⟩ | ⟨rfl, _⟩ <;> decide
  definitions := by
    intro name body listed
    rcases nested_cases listed with ⟨_, rfl⟩ | ⟨_, rfl⟩
    · exact List.forall_mem_singleton.mpr (by decide)
    · exact List.forall_mem_singleton.mpr (by decide)
  outer := by
    intro name body listed first rest split
    rcases nested_cases listed with ⟨rfl, _⟩ | ⟨rfl, _⟩
    · rw [nameParts_nested.1] at split
      cases split
      exact outermostValue_nested
    · rw [nameParts_nested.2] at split
      cases split
      exact outermostValue_nested
  apart := by
    intro above body below code next rest listedAbove listedBelow split
    obtain ⟨single, double⟩ := nameParts_nested
    rcases nested_cases listedAbove with ⟨rfl, rfl⟩ | ⟨rfl, rfl⟩ <;>
      rcases nested_cases listedBelow with ⟨rfl, rfl⟩ | ⟨rfl, rfl⟩ <;>
      simp only [single, double] at split <;> cases split
    exact ⟨rfl, by decide, by decide⟩

/-- Lookups of the lower package first, and of one that there is not. -/
theorem lookups_agree_nested :
    Library.Lawful (fun name => nested.lookup name) (.holding nested) ∧
      Library.Agrees (fun name => nested.lookup name) (.holding nested)
        [.resolve "a.b.C", .package "a", .package "c", .resolve "a.f", .package "a.b"]
        (Lookup.runAll (.holding nested)
          [.resolve "a.b.C", .package "a", .package "c", .resolve "a.f", .package "a.b"]
          .initial) :=
  ⟨lawful_nested, Library.lookups_agree lawful_nested _ (by decide)⟩

/-! ### Names that lead elsewhere -/

theorem exists_of_leadsElsewhere {name : String} {machine : Machine}
    (elsewhere : leadsElsewhere name machine = true) :
    ∃ value found,
      (Lookup.resolve name).run (.holding (nested ++ shadowed)) machine = .ok value found ∧
        ∀ heap : Heap, ∀ module statement, ¬ heap.IsDefinition module statement value := by
  rw [leadsElsewhere] at elsewhere
  split at elsewhere
  · rename_i value found ends
    refine ⟨value, found, ends, fun heap module statement is => ?_⟩
    have defined : isDefined value = true := by
      cases statement with
      | functionDef name parameters body =>
          obtain ⟨ref, rfl, _⟩ := is
          rfl
      | classDef name bases body =>
          obtain ⟨ref, rfl, _⟩ := is
          rfl
      | _ => exact is.elim
    rw [defined] at elsewhere
    cases elsewhere
  · cases elsewhere

/-- What a package defines is not found below a name that the load of another package binds,
nor in a package without a name; and a file is asked for again under a name with a slash. -/
theorem exists_lookups_misled :
    (∃ value found,
      (Lookup.resolve "a.__name__.upper").run (.holding (nested ++ shadowed))
          (Lookup.runAll (.holding (nested ++ shadowed)) [.package "a"] .initial) =
          .ok value found ∧
        ∀ heap : Heap, ∀ module statement, ¬ heap.IsDefinition module statement value) ∧
      (∃ value found,
        (Lookup.resolve ".f").run (.holding (nested ++ shadowed)) .initial = .ok value found ∧
          ∀ heap : Heap, ∀ module statement, ¬ heap.IsDefinition module statement value) ∧
      (Lookup.runAll (.holding (nested ++ shadowed)) [.package "a.b", .package "a/b"]
          .initial).requests = [packageFile "a.b", packageFile "a.b"] := by
  have misled := misleads_initial
  rw [misleads, Bool.and_eq_true, Bool.and_eq_true, Bool.and_eq_true] at misled
  obtain ⟨_, below, nameless, twice⟩ := misled
  exact ⟨exists_of_leadsElsewhere below, exists_of_leadsElsewhere nameless,
    (beq_iff_eq.mp twice).trans (by decide +kernel)⟩

end Shadowed

end TorchArchive
