import TorchArchive.Proofs.Package.Order
import TorchArchive.Proofs.Pickle.Course
import TorchArchive.Proofs.Pickle.Globals

/-!
# What names in a stream are read as

A name in a module of the archive is searched for, and where the search finds nothing it is
read as a new class.  A search is given up where a source is missing: if the package of the
name has none, but also if its code has begun and then asks for another source that is
missing.  The package is known from then on, so that later searches find what was bound in
it until then.
-/

namespace TorchArchive

/-! ## Faults of names that cannot be bound -/

namespace Heap

variable {heap : Heap} {value : Value} {fault : Fault}

theorem kind_of_setMember {target : Value} {name : String}
    (fails : heap.setMember target name value = .error fault) : fault.kind = .unknownSymbol := by
  unfold setMember at fails
  split at fails
  case h_5 =>
    cases fails
    rfl
  all_goals cases fails

theorem kind_of_setPath {parts : List String} {owner : Value} {done : String}
    (fails : heap.setPath owner done value parts = .error fault) :
    fault.kind = .unknownSymbol := by
  fun_induction Heap.setPath heap owner done value parts with
  | case1 => cases fails
  | case2 heap owner done last => exact kind_of_setMember fails
  | case3 heap owner done part rest more path child vacant ref made _ inductionHypothesis =>
      rcases Except.bind_eq_error_iff.mp fails with member | ⟨between, _, fails⟩
      · exact kind_of_setMember member
      · exact inductionHypothesis between fails
  | case4 heap owner done part rest more path child occupied inductionHypothesis =>
      exact inductionHypothesis fails

theorem kind_of_bindQualified {scope : Scope} {name : String}
    (fails : heap.bindQualified scope name value = .error fault) :
    fault.kind = .unknownSymbol := by
  rw [bindQualified] at fails
  split at fails
  · cases fails
  · cases fails
  · dsimp only at fails
    split at fails
    · exact kind_of_setPath fails
    · exact kind_of_setPath fails

end Heap

/-- A package that cannot be made known is none that lacks a source. -/
theorem kind_of_enterPackage {name file : String} {before after : Machine} {fault : Fault}
    (fails : enterPackage name file before = .error fault after) :
    fault.kind = .unknownSymbol := by
  rcases EStateM.bind_eq_error_iff.mp fails with claims | ⟨ref, claimed, _, never⟩
  · have claims :=
      ((EStateM.bind_of_ok rfl).trans (EStateM.bind_of_ok rfl)).symm.trans claims
    have bound (makes :
        (do
          let ref ← Run.allocate fun heap => heap.addPackage name
          Run.tryHeap fun heap => heap.bindQualified before.root name (.package ref)
          return ref : Run (Ref .package)) before = .error fault after) :
        fault.kind = .unknownSymbol := by
      obtain never | ⟨ref, made, _, binds⟩ := EStateM.bind_eq_error_iff.mp makes
      · cases never
      · obtain binds | ⟨_, _, _, never⟩ := EStateM.bind_eq_error_iff.mp binds
        · change EStateM.bind (ofExcept (made.heap.bindQualified before.root name (.package ref)))
            (fun heap => Run.modifyHeap fun _ => heap) made = _ at binds
          cases outcome : made.heap.bindQualified before.root name (.package ref) with
          | ok heap =>
              rw [outcome] at binds
              cases binds
          | error other =>
              rw [outcome] at binds
              cases binds
              exact Heap.kind_of_bindQualified outcome
        · cases never
    generalize before.heap.lookupQualified before.root name = found at claims
    cases found with
    | package ref => cases claims
    | _ => exact bound claims
  · -- Nothing behind the claim can fail.
    rcases EStateM.bind_eq_error_iff.mp never with never | ⟨_, _, _, never⟩
    · cases never
    · cases never

namespace Machine

variable {sources : Sources} {depth : Nat} {name : String} {before after : Machine}
  {fault : Fault}

/-- A load that a missing source ends has no source, or its code has begun. -/
theorem noSource_or_begins
    (fails : (Calls.within sources (depth + 1)).package name none before = .error fault after)
    (lacks : fault.kind = .sourceNotFound) :
    sources.program (packageFile name) = .error fault ∨ Begins sources name before := by
  rcases fails_cases fails with
    ⟨noSource, _⟩ | ⟨program, source, enters | ⟨ref, scope, started, enters, _⟩⟩
  · exact Or.inl noSource
  · rw [kind_of_enterPackage enters] at lacks
    cases lacks
  · exact Or.inr ⟨program, ref, scope, started, source, enters⟩

/-! ## What names stand for -/

/-- What is bound under a name in a package. -/
def memberOf (machine : Machine) (ref : Ref .package) (member : String) : Value :=
  ((machine.heap.table (machine.heap.package ref).members).get? member).getD .missing

/-- What a dotted name leads to while nothing is loaded: along its points, or else in the
package in front of the last of them, if this is known. -/
def stands (machine : Machine) (name : String) : Value :=
  let found := machine.heap.lookupQualified machine.root name
  if found.isMissing then
    match machine.packages.get? (splitLast name).1 with
    | some ref => machine.memberOf ref (splitLast name).2
    | none => .missing
  else found

/-- A dotted name leads somewhere along its points. -/
def Reaches (machine : Machine) (name : String) : Prop :=
  (machine.heap.lookupQualified machine.root name).isMissing = false

/-- The package that a dotted name belongs to is known, or there is no source for it. -/
def Visited (sources : Sources) (name : String) (machine : Machine) : Prop :=
  (∃ ref, machine.packages.get? (splitLast name).1 = some ref) ∨
    ∃ fault, sources.program (packageFile (splitLast name).1) = .error fault ∧
      fault.kind = .sourceNotFound

theorem stands_of_reaches (reaches : before.Reaches name) :
    before.stands name = before.heap.lookupQualified before.root name := by
  rw [stands, reaches]
  rfl

theorem missing_of_not_reaches (reachless : ¬ before.Reaches name) :
    (before.heap.lookupQualified before.root name).isMissing = true :=
  eq_true_of_ne_false reachless

theorem stands_of_known (reachless : ¬ before.Reaches name) {ref : Ref .package}
    (known : before.packages.get? (splitLast name).1 = some ref) :
    before.stands name = before.memberOf ref (splitLast name).2 := by
  rw [stands, missing_of_not_reaches reachless, known]
  rfl

theorem stands_of_unknown (reachless : ¬ before.Reaches name)
    (unknown : before.packages.get? (splitLast name).1 = none) :
    before.stands name = .missing := by
  rw [stands, missing_of_not_reaches reachless, unknown]
  rfl

/-- What was visited stays so. -/
theorem Visited.advancesOn (visited : Visited sources name before)
    (course : AdvancesOn sources before after) : Visited sources name after := by
  rcases visited with ⟨ref, known⟩ | noSource
  · exact Or.inl ⟨ref, (known_endures _ ref).advancesOn course known⟩
  · exact Or.inr noSource

end Machine

/-! ## Searches -/

namespace Pickle

open Machine

/-- The search for what a dotted name stands for, which is given up where a source is
missing. -/
def search (calls : Calls) (name : String) : Run Value :=
  tryCatch (resolve calls name) fun fault =>
    if fault.kind = .sourceNotFound then pure .missing else throw fault

/-- Why a dotted name that leads nowhere along its points is not found either in the package
that it belongs to. -/
inductive Unfound (sources : Sources) (depth : Nat) (name : String) (before : Machine) : Prop
  where
  /-- There is no source for the package. -/
  | noSource {fault : Fault}
      (unknown : before.packages.get? (splitLast name).1 = none)
      (source : sources.program (packageFile (splitLast name).1) = .error fault)
      (lacks : fault.kind = .sourceNotFound)
  /-- The package is loaded, and its code does not bind the name. -/
  | undeclared {ref : Ref .package} {loaded : Machine}
      (unknown : before.packages.get? (splitLast name).1 = none)
      (loads :
        (Calls.within sources (depth + 1)).package (splitLast name).1 none before =
          .ok ref loaded)
      (unbound : (loaded.memberOf ref (splitLast name).2).isMissing = true)
  /-- The code of the package began before, and has not bound the name until now. -/
  | unbound {ref : Ref .package}
      (known : before.packages.get? (splitLast name).1 = some ref)
      (unbound : (before.memberOf ref (splitLast name).2).isMissing = true)
  /-- The code of the package begins, and is cut off by a source that is missing. -/
  | cutOff {fault : Fault} {failed : Machine}
      (begins : Begins sources (splitLast name).1 before)
      (fails :
        (Calls.within sources (depth + 1)).package (splitLast name).1 none before =
          .error fault failed)
      (lacks : fault.kind = .sourceNotFound)

section Searches

variable {sources : Sources} {calls : Calls} {depth : Nat} {name : String} {value : Value}
  {before after later : Machine} {fault : Fault}

theorem eq_missing (missing : value.isMissing = true) : value = .missing := by
  rw [Value.isMissing.eq_def] at missing
  split at missing
  · rfl
  · cases missing

theorem search_of_reaches (reaches : before.Reaches name) :
    search calls name before = .ok (before.stands name) before := by
  rw [stands_of_reaches reaches]
  exact EStateM.tryCatch_eq_ok_iff.mpr (Or.inl (resolve_of_found reaches))

/-- Where a name leads nowhere along its points, its package is loaded. -/
theorem resolve_of_not_reaches (reachless : ¬ before.Reaches name)
    (owned : (splitLast name).1 ≠ "") :
    resolve calls name before =
      (do
        let ref ← calls.package (splitLast name).1 none
        return (← get).memberOf ref (splitLast name).2 : Run Value) before := by
  rw [resolve_of_missing calls (missing_of_not_reaches reachless), if_neg owned]
  rfl

/-- A package that is loaded is searched. -/
theorem search_of_loads (reachless : ¬ before.Reaches name) (owned : (splitLast name).1 ≠ "")
    {ref : Ref .package} (loads : calls.package (splitLast name).1 none before = .ok ref after) :
    search calls name before = .ok (after.memberOf ref (splitLast name).2) after := by
  refine EStateM.tryCatch_eq_ok_iff.mpr (Or.inl ?_)
  rw [resolve_of_not_reaches reachless owned]
  exact EStateM.bind_eq_ok_iff.mpr ⟨ref, after, loads, rfl⟩

/-- Where a source is missing, the search is given up. -/
theorem search_of_lacks (reachless : ¬ before.Reaches name) (owned : (splitLast name).1 ≠ "")
    (fails : calls.package (splitLast name).1 none before = .error fault after)
    (lacks : fault.kind = .sourceNotFound) :
    search calls name before = .ok .missing after := by
  refine EStateM.tryCatch_eq_ok_iff.mpr (Or.inr ⟨fault, after, ?_, ?_⟩)
  · rw [resolve_of_not_reaches reachless owned]
    exact EStateM.bind_eq_error_iff.mpr (Or.inl fails)
  · rw [if_pos lacks]
    rfl

/-- A search that ends behind the load of a package gives what is bound there, or was given
up. -/
theorem search_cases (reachless : ¬ before.Reaches name) (owned : (splitLast name).1 ≠ "")
    (searches : search calls name before = .ok value after) :
    (∃ ref, calls.package (splitLast name).1 none before = .ok ref after ∧
        value = after.memberOf ref (splitLast name).2) ∨
      ∃ fault, calls.package (splitLast name).1 none before = .error fault after ∧
        fault.kind = .sourceNotFound ∧ value = .missing := by
  cases loads : calls.package (splitLast name).1 none before with
  | ok ref loaded =>
      have ends := search_of_loads reachless owned loads
      rw [searches] at ends
      cases ends
      exact Or.inl ⟨ref, rfl, rfl⟩
  | error fault failed =>
      by_cases lacks : fault.kind = .sourceNotFound
      · have ends := search_of_lacks reachless owned loads lacks
        rw [searches] at ends
        cases ends
        exact Or.inr ⟨fault, rfl, lacks, rfl⟩
      · exfalso
        rcases EStateM.tryCatch_eq_ok_iff.mp searches with ends | ⟨other, between, ends, gives⟩
        · rw [resolve_of_not_reaches reachless owned] at ends
          obtain ⟨ref, loaded, never, _⟩ := EStateM.bind_eq_ok_iff.mp ends
          rw [loads] at never
          cases never
        · rw [resolve_of_not_reaches reachless owned] at ends
          rcases EStateM.bind_eq_error_iff.mp ends with same | ⟨ref, loaded, never, _⟩
          · rw [loads] at same
            cases same
            rw [if_neg lacks] at gives
            cases gives
          · rw [loads] at never
            cases never

/-- A name that stands for something is found, and nothing is loaded. -/
theorem search_of_stands (owned : (splitLast name).1 ≠ "")
    (present : (before.stands name).isMissing = false) :
    search (Calls.within sources (depth + 1)) name before =
      .ok (before.stands name) before := by
  by_cases reaches : before.Reaches name
  · exact search_of_reaches reaches
  · cases known : before.packages.get? (splitLast name).1 with
    | some ref =>
        rw [stands_of_known reaches known]
        exact search_of_loads reaches owned (package_of_known known)
    | none =>
        rw [stands_of_unknown reaches known] at present
        cases present

/-- In a package that was visited a search finds what a name stands for. -/
theorem search_of_visited (owned : (splitLast name).1 ≠ "")
    (visited : Visited sources name before) :
    ∃ after, search (Calls.within sources (depth + 1)) name before =
      .ok (before.stands name) after := by
  by_cases reaches : before.Reaches name
  · exact ⟨before, search_of_reaches reaches⟩
  · cases known : before.packages.get? (splitLast name).1 with
    | some ref =>
        rw [stands_of_known reaches known]
        exact ⟨before, search_of_loads reaches owned (package_of_known known)⟩
    | none =>
        rw [stands_of_unknown reaches known]
        rcases visited with ⟨ref, isKnown⟩ | ⟨fault, noSource, lacks⟩
        · rw [known] at isKnown
          cases isKnown
        · exact ⟨_, search_of_lacks reaches owned (fails_of_noSource known noSource) lacks⟩

/-- A search that ends visits the package of a name that led nowhere along its points. -/
theorem visited_of_search (reachless : ¬ before.Reaches name)
    (owned : (splitLast name).1 ≠ "")
    (searches : search (Calls.within sources (depth + 1)) name before = .ok value after) :
    Visited sources name after := by
  rcases search_cases reachless owned searches with ⟨ref, loads, _⟩ | ⟨fault, fails, lacks, _⟩
  · exact Or.inl ⟨ref, known_of_package loads⟩
  · rcases noSource_or_begins fails lacks with noSource | begins
    · exact Or.inr ⟨fault, noSource, lacks⟩
    · exact Or.inl ((known_iff_begins fails).mpr begins)

/-- A search that ends finds nothing if and only if there is a reason for that. -/
theorem search_missing_iff (owned : (splitLast name).1 ≠ "")
    (searches : search (Calls.within sources (depth + 1)) name before = .ok value after) :
    value.isMissing = true ↔ ¬ before.Reaches name ∧ Unfound sources depth name before := by
  by_cases reaches : before.Reaches name
  · rw [search_of_reaches reaches, stands_of_reaches reaches] at searches
    cases searches
    refine iff_of_false ?_ fun unfound => unfound.1 reaches
    exact Bool.not_eq_true _ ▸ reaches
  · have gives {found : Value} {last : Machine}
        (ends : search (Calls.within sources (depth + 1)) name before = .ok found last) :
        value = found := by
      rw [searches] at ends
      cases ends
      rfl
    constructor
    · intro missing
      refine ⟨reaches, ?_⟩
      rcases search_cases reaches owned searches with
        ⟨ref, loads, same⟩ | ⟨fault, fails, lacks, _⟩
      · rw [same] at missing
        cases known : before.packages.get? (splitLast name).1 with
        | some found =>
            rw [package_of_known known] at loads
            cases loads
            exact .unbound known missing
        | none => exact .undeclared known loads missing
      · rcases noSource_or_begins fails lacks with noSource | begins
        · exact .noSource (unknown_of_fails fails) noSource lacks
        · exact .cutOff begins fails lacks
    · rintro ⟨_, unfound⟩
      cases unfound with
      | noSource unknown source lacks =>
          rw [gives (search_of_lacks reaches owned (fails_of_noSource unknown source) lacks)]
          rfl
      | undeclared unknown loads unbound =>
          rw [gives (search_of_loads reaches owned loads)]
          exact unbound
      | unbound known unbound =>
          rw [gives (search_of_loads reaches owned (package_of_known known))]
          exact unbound
      | cutOff begins fails lacks =>
          rw [gives (search_of_lacks reaches owned fails lacks)]
          rfl

end Searches

/-! ## Names of an archive -/

/-- What a search has found, if anything. -/
def found? (value : Value) : Option Value := if value.isMissing then none else some value

/-- How a name in a module of the archive is read: as what is found, or as a new class of
which nothing is known. -/
inductive ReadAs (calls : Calls) (module name : String) (before : Machine) :
    Option Value → Value → Machine → Prop where
  | found {value : Value} {after : Machine}
      (searches : search calls (module ++ "." ++ name) before = .ok value after)
      (present : value.isMissing = false) :
      ReadAs calls module name before (some value) value after
  | unknown {between : Machine}
      (searches : search calls (module ++ "." ++ name) before = .ok .missing between) :
      ReadAs calls module name before none
        (.moduleClass (between.heap.addModuleClass module name).1)
        (between.withHeap (between.heap.addModuleClass module name).2)

/-- What a name is read as, and why. -/
structure Explained (sources : Sources) (depth : Nat) (name : String) (before : Machine)
    (read : Option Value) (after : Machine) : Prop where
  /-- What is found is bound along the points of the name, or in its package behind a load
  that succeeds. -/
  found :
    ∀ value, read = some value →
      before.Reaches name ∧ value = before.stands name ∨
        ∃ ref, (Calls.within sources (depth + 1)).package (splitLast name).1 none before =
            .ok ref after ∧
          value = after.memberOf ref (splitLast name).2
  /-- A name is unknown only for a reason. -/
  unknown : read = none ↔ ¬ before.Reaches name ∧ Unfound sources depth name before

/-- When two readings of a name are the same, the first of which began `before` and the
other one `later`. -/
structure Agreement (name : String) (before later : Machine) (one two : Option Value) :
    Prop where
  /-- They are if the name stands for what the first has found. -/
  alike : found? (later.stands name) = one → two = one
  /-- If the first has searched the package of the name, they are only then. -/
  only : ¬ before.Reaches name → two = one → found? (later.stands name) = one

section Names

variable {sources : Sources} {calls : Calls} {depth : Nat} {module name : String}
  {value other : Value} {before middle later last after : Machine} {one two : Option Value}

/-- A name in a module of the archive that is read is either found or unknown. -/
theorem exists_readAs (archive : isArchiveModule module = true)
    (finds : findGlobal calls module name before = .ok value after) :
    ∃ read, ReadAs calls module name before read value after := by
  obtain ⟨found, between, searches, names⟩ := EStateM.bind_eq_ok_iff.mp finds
  cases missing : found.isMissing with
  | false =>
      rw [missing] at names
      cases names
      exact ⟨_, .found searches missing⟩
  | true =>
      cases eq_missing missing
      change (if isArchiveModule module then
          if name.toList.contains '\x00' then
            throw (.value "a class name holds no null character")
          else .moduleClass <$> Run.allocate fun heap => heap.addModuleClass module name
        else _ : Run Value) between = _ at names
      rw [if_pos archive] at names
      by_cases plain : name.toList.contains '\x00'
      · rw [if_pos plain] at names
        cases names
      · rw [if_neg plain] at names
        cases names
        exact ⟨none, .unknown searches⟩

/-- The names of archives have a package in front of their last point. -/
theorem owned_of_archive (archive : isArchiveModule module = true) (name : String) :
    (splitLast (module ++ "." ++ name)).1 ≠ "" := by
  obtain ⟨rest, parts⟩ := exists_parts archive name
  obtain ⟨next, others, more⟩ : ∃ next others, rest = next :: others := by
    refine List.exists_cons_of_ne_nil fun single => ?_
    have lengths := congrArg List.length parts
    rw [Heap.nameParts_append, List.length_append, single] at lengths
    have module_ := List.length_pos_of_ne_nil (Heap.nameParts_ne_nil module)
    have name_ := List.length_pos_of_ne_nil (Heap.nameParts_ne_nil name)
    simp only [List.length_cons, List.length_nil] at lengths
    omega
  rw [splitLast, parts, more]
  intro empty
  have letters := congrArg String.toList empty
  rw [List.dropLast_cons_of_ne_nil (List.cons_ne_nil next others), String.toList_intercalate,
    List.map_cons] at letters
  cases others with
  | nil => simp at letters
  | cons other more => simp at letters

/-- A name is read as what the search for it has found, and the load of a new class knows
the same packages. -/
theorem ReadAs.searches (reads : ReadAs calls module name before one value after) :
    ∃ found between, search calls (module ++ "." ++ name) before = .ok found between ∧
      one = found? found ∧ after.packages = between.packages := by
  cases reads with
  | found searches present =>
      refine ⟨_, _, searches, ?_, rfl⟩
      rw [found?, present]
      rfl
  | unknown searches => exact ⟨_, _, searches, rfl, rfl⟩

theorem ReadAs.explained (archive : isArchiveModule module = true)
    (reads : ReadAs (Calls.within sources (depth + 1)) module name before one value after) :
    Explained sources depth (module ++ "." ++ name) before one after := by
  have owned := owned_of_archive archive name
  cases reads with
  | found searches present =>
      constructor
      case unknown =>
        rw [← search_missing_iff owned searches, present]
        exact iff_of_false (Option.some_ne_none _) Bool.false_ne_true
      case found =>
        intro found same
        cases same
        by_cases reaches : before.Reaches (module ++ "." ++ name)
        · rw [search_of_reaches reaches] at searches
          cases searches
          exact Or.inl ⟨reaches, rfl⟩
        · rcases search_cases reaches owned searches with loaded | ⟨_, _, _, missing⟩
          · exact Or.inr loaded
          · rw [missing] at present
            cases present
  | unknown searches =>
      constructor
      case unknown =>
        rw [← search_missing_iff owned searches]
        exact iff_of_true rfl rfl
      case found =>
        intro found never
        cases never

/-- Where the package of a name was visited, the name is read as what it stands for. -/
theorem ReadAs.eq_of_visited (archive : isArchiveModule module = true)
    (reads : ReadAs (Calls.within sources (depth + 1)) module name before one value after)
    (visited : Visited sources (module ++ "." ++ name) before) :
    one = found? (before.stands (module ++ "." ++ name)) := by
  obtain ⟨found, between, searches, same, _⟩ := reads.searches
  obtain ⟨last, ends⟩ := search_of_visited (owned_of_archive archive name) visited
  rw [searches] at ends
  cases ends
  exact same

/-- A name that stands for something is read as that. -/
theorem ReadAs.eq_of_stands (archive : isArchiveModule module = true)
    (reads : ReadAs (Calls.within sources (depth + 1)) module name before one value after)
    (present : (before.stands (module ++ "." ++ name)).isMissing = false) :
    one = found? (before.stands (module ++ "." ++ name)) := by
  obtain ⟨found, between, searches, same, _⟩ := reads.searches
  rw [search_of_stands (owned_of_archive archive name) present] at searches
  cases searches
  exact same

/-- A name that led nowhere along its points has its package visited when it is read. -/
theorem ReadAs.visited (archive : isArchiveModule module = true)
    (reads : ReadAs (Calls.within sources (depth + 1)) module name before one value after)
    (reachless : ¬ before.Reaches (module ++ "." ++ name)) :
    Visited sources (module ++ "." ++ name) after := by
  obtain ⟨found, between, searches, _, same⟩ := reads.searches
  have visited := visited_of_search reachless (owned_of_archive archive name) searches
  rw [Visited, same]
  exact visited

/-- A name that is read twice is read the same if and only if it stands for the same then. -/
theorem readings_agree (archive : isArchiveModule module = true)
    (first :
      findGlobal (Calls.within sources (depth + 1)) module name before = .ok value middle)
    (course : AdvancesOn sources middle later)
    (second :
      findGlobal (Calls.within sources (depth + 1)) module name later = .ok other last) :
    ∃ one two,
      (ReadAs (Calls.within sources (depth + 1)) module name before one value middle ∧
        Explained sources depth (module ++ "." ++ name) before one middle) ∧
      (ReadAs (Calls.within sources (depth + 1)) module name later two other last ∧
        Explained sources depth (module ++ "." ++ name) later two last) ∧
      Agreement (module ++ "." ++ name) before later one two := by
  obtain ⟨one, readsFirst⟩ := exists_readAs archive first
  obtain ⟨two, readsSecond⟩ := exists_readAs archive second
  have explained := readsFirst.explained archive
  have searched (reachless : ¬ before.Reaches (module ++ "." ++ name)) :
      two = found? (later.stands (module ++ "." ++ name)) :=
    readsSecond.eq_of_visited archive
      ((readsFirst.visited archive reachless).advancesOn course)
  refine ⟨one, two, ⟨readsFirst, explained⟩, ⟨readsSecond, readsSecond.explained archive⟩,
    fun same => ?_, fun reachless same => ?_⟩
  · by_cases reaches : before.Reaches (module ++ "." ++ name)
    · have present : (later.stands (module ++ "." ++ name)).isMissing = false := by
        by_contra missing
        rw [found?, if_pos (eq_true_of_ne_false missing)] at same
        exact (explained.unknown.mp same.symm).1 reaches
      rw [readsSecond.eq_of_stands archive present, same]
    · rw [searched reaches, same]
  · rw [← searched reachless, same]

end Names

/-! ## A class that is read twice -/

namespace TwiceRead

/-- An archive with one package. -/
def holding (body : List Stmt) : Sources := .holding [("__torch__.a", body)]

theorem isArchive : isArchiveModule "__torch__.a" = true := by
  decide +kernel

/-- Whether the class is found by a first reading, and by one right behind it. -/
def finds (sources : Sources) (machine : Machine) : Option (Bool × Bool) :=
  match findGlobal (Calls.of sources) "__torch__.a" "C" machine with
  | .ok _ middle =>
      match findGlobal (Calls.of sources) "__torch__.a" "C" middle with
      | .ok _ _ =>
          match search (Calls.of sources) "__torch__.a.C" machine,
              search (Calls.of sources) "__torch__.a.C" middle with
          | .ok one _, .ok two _ => some (!one.isMissing, !two.isMissing)
          | _, _ => none
      | .error _ _ => none
  | .error _ _ => none

theorem isSome_of_searches {calls : Calls} {before after between : Machine} {read : Option Value}
    {value found : Value} (reads : ReadAs calls "__torch__.a" "C" before read value after)
    (searches : search calls "__torch__.a.C" before = .ok found between) :
    read.isSome = !found.isMissing := by
  obtain ⟨other, middle, ends, same, _⟩ := reads.searches
  cases searches.symm.trans ends
  rw [same, found?]
  cases found.isMissing <;> rfl

/-- Both readings end, and tell whether they have found the class. -/
theorem exists_readings {sources : Sources} {machine : Machine} {first second : Bool}
    (finds_ : finds sources machine = some (first, second)) :
    ∃ value middle other last one two,
      findGlobal (Calls.of sources) "__torch__.a" "C" machine = .ok value middle ∧
        findGlobal (Calls.of sources) "__torch__.a" "C" middle = .ok other last ∧
        ReadAs (Calls.of sources) "__torch__.a" "C" machine one value middle ∧
        ReadAs (Calls.of sources) "__torch__.a" "C" middle two other last ∧
        one.isSome = first ∧ two.isSome = second := by
  rw [finds] at finds_
  split at finds_
  · rename_i value middle reads
    split at finds_
    · rename_i other last readsAgain
      split at finds_
      · rename_i found between foundAgain behind searches searchesAgain
        cases finds_
        obtain ⟨one, readAs⟩ := exists_readAs isArchive reads
        obtain ⟨two, readAgainAs⟩ := exists_readAs isArchive readsAgain
        exact ⟨value, middle, other, last, one, two, reads, readsAgain, readAs, readAgainAs,
          isSome_of_searches readAs searches, isSome_of_searches readAgainAs searchesAgain⟩
      · cases finds_
    · cases finds_
  · cases finds_

/-! ### A package that is loaded -/

def declaring : List Stmt := [.classDef "C" [] [.pass]]

set_option maxRecDepth 100000 in
private theorem finds_declared : finds (holding declaring) .initial = some (true, true) := by
  rw [Machine.initial_eq]
  decide +kernel

/-- Both readings of a class that is declared are explained, and they agree. -/
theorem readings_agree_declared :
    ∃ value middle other last one two,
      isArchiveModule "__torch__.a" = true ∧
        findGlobal (Calls.of (holding declaring)) "__torch__.a" "C" .initial =
          .ok value middle ∧
        AdvancesOn (holding declaring) middle middle ∧
        findGlobal (Calls.of (holding declaring)) "__torch__.a" "C" middle = .ok other last ∧
        (ReadAs (Calls.of (holding declaring)) "__torch__.a" "C" .initial one value middle ∧
          Explained (holding declaring) 194 ("__torch__.a" ++ "." ++ "C") .initial one middle) ∧
        (ReadAs (Calls.of (holding declaring)) "__torch__.a" "C" middle two other last ∧
          Explained (holding declaring) 194 ("__torch__.a" ++ "." ++ "C") middle two last) ∧
        Agreement ("__torch__.a" ++ "." ++ "C") .initial middle one two := by
  obtain ⟨value, middle, other, last, _, _, first, second, _⟩ := exists_readings finds_declared
  obtain ⟨one, two, readings⟩ := readings_agree isArchive first .refl second
  exact ⟨value, middle, other, last, one, two, isArchive, first, .refl, second, readings⟩

/-! ### A package that is cut off -/

/-- Behind the class a package is asked for that there is not. -/
def interrupted : List Stmt := declaring ++ [.imports [("missing", none)]]

set_option maxRecDepth 100000 in
private theorem finds_interrupted : finds (holding interrupted) .initial = some (false, true) := by
  rw [Machine.initial_eq]
  decide +kernel

set_option maxRecDepth 100000 in
private theorem program_interrupted :
    (holding interrupted).program (packageFile "__torch__.a") =
      .ok ⟨interrupted, packageFile "__torch__.a"⟩ := by
  rw [holding, program_holding (by decide) (by decide)]
  rfl

/-- A class that is declared is unknown when it is read first, and is found when it is read
again. -/
theorem exists_readings_differ :
    ∃ program value middle other last declared,
      (holding interrupted).program (packageFile "__torch__.a") = .ok program ∧
        .classDef "C" [] [.pass] ∈ program.body ∧
        findGlobal (Calls.of (holding interrupted)) "__torch__.a" "C" .initial =
          .ok value middle ∧
        findGlobal (Calls.of (holding interrupted)) "__torch__.a" "C" middle = .ok other last ∧
        ReadAs (Calls.of (holding interrupted)) "__torch__.a" "C" .initial none value middle ∧
        ReadAs (Calls.of (holding interrupted)) "__torch__.a" "C" middle (some declared) other
          last := by
  obtain ⟨value, middle, other, last, one, two, first, second, reads, readsAgain, lost, found⟩ :=
    exists_readings finds_interrupted
  obtain rfl := Option.not_isSome_iff_eq_none.mp (Bool.not_eq_true _ ▸ lost)
  obtain ⟨declared, rfl⟩ := Option.isSome_iff_exists.mp found
  exact ⟨_, value, middle, other, last, declared, program_interrupted, List.mem_cons_self, first,
    second, reads, readsAgain⟩

end TwiceRead

end Pickle

end TorchArchive
