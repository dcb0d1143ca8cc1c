import TorchArchive.Proofs.Evaluation.Containers
import TorchArchive.Proofs.Package.Names

/-!
# Loads that fail

A package is known from the moment on in which its code begins.  So a load that fails
before that leaves no trace but the request of the file, and the next one fails again; but
what fails later leaves a package behind that the next load takes for loaded, with the
names that were bound so far.
-/

namespace TorchArchive

namespace Machine

/-- The machine after a file was asked for. -/
def asked (machine : Machine) (file : String) : Machine :=
  { machine with requests := machine.requests ++ [file] }

/-! ## What may come later -/

/-- What others may do with an interpreter, whether it succeeds or fails. -/
inductive Leads (sources : Sources) (before : Machine) : Machine → Prop where
  | package (name : String) (file : Option String) :
      Leads sources before (stateAfter ((Calls.of sources).package name file) before)
  | resolve (name : String) :
      Leads sources before (stateAfter (TorchArchive.resolve (Calls.of sources) name) before)
  | invoke (name : String) (arguments : List Value) :
      Leads sources before
        (stateAfter (TorchArchive.invoke (Calls.of sources) name arguments) before)
  | call (target : Value) (receiver : Option Value) (positional : List Value)
      (keywords : List (String × Value)) :
      Leads sources before
        (stateAfter (callValue (Calls.of sources) target receiver positional keywords) before)
  | run (scope : Scope) (body : List Stmt) :
      Leads sources before (stateAfter (runBlock (Calls.of sources) scope body) before)
  | trace (receiver : Option Value) (function : Value) :
      Leads sources before
        (stateAfter (traceFunction (Calls.of sources) receiver function) before)
  | constants : Leads sources before (stateAfter (Calls.of sources).constants before)
  | unpickle (contents : Table String ByteArray) (data : ByteArray) :
      Leads sources before
        (stateAfter (Pickle.load (Calls.of sources) contents data) before)

/-- Any number of such steps. -/
abbrev LeadsOn (sources : Sources) : Machine → Machine → Prop :=
  Relation.ReflTransGen (Leads sources)

variable {sources : Sources} {before after : Machine} {property : Machine → Prop}

theorem Endures.leads (endures : Endures sources property)
    (leads : before.Leads sources after) (holds : property before) : property after := by
  have keep := endures.callsOf sources
  cases leads with
  | package name file => exact keep.package name file before holds
  | resolve name => exact resolve_keeps keep name before holds
  | invoke name arguments => exact endures.invoke keep name arguments before holds
  | call target receiver positional keywords =>
      exact endures.callValue keep target receiver positional keywords before holds
  | run scope body => exact endures.runBlock keep (fun _ _ => trivial) before holds
  | trace receiver function => exact endures.traceFunction keep receiver function before holds
  | constants => exact keep.constants before holds
  | unpickle contents data => exact endures.pickle keep contents data before holds

theorem Endures.leadsOn (endures : Endures sources property)
    (leads : LeadsOn sources before after) (holds : property before) : property after := by
  induction leads with
  | refl => exact holds
  | tail _ step inductionHypothesis => exact endures.leads step inductionHypothesis

/-- Packages that are known stay known. -/
theorem known_endures (name : String) (ref : Ref .package) :
    Endures sources fun machine => machine.packages.get? name = some ref where
  toPersists := rest_persists fun _ packages _ => packages.get? name = some ref
  load := fun {machine other} made unknown known => by
    have distinct : other ≠ name := by
      rintro rfl
      rw [unknown] at known
      cases known
    rw [Table.get?_insert_of_ne _ _ distinct, known]
  constants := fun _ keep =>
    (rest_persists fun _ packages _ => packages.get? name = some ref).loadConstants
      (fun _ known => known) sources keep
  reset := fun known => known
  rollback := fun known => known

end Machine

/-! ## Where a load fails -/

section Failures

variable {sources : Sources} {calls : Calls} {name : String} {file : Option String}
  {before after : Machine} {fault : Fault}

theorem loadPackage_of_known {ref : Ref .package}
    (known : before.packages.get? name = some ref) :
    loadPackage sources calls name file before = .ok ref before := by
  rw [loadPackage]
  refine (EStateM.bind_of_ok rfl).trans ?_
  rw [known]
  rfl

theorem loadPackage_of_unknown (unknown : before.packages.get? name = none) :
    loadPackage sources calls name file before =
      (do
        let program ← requestProgram sources (sourceFile name file)
        let entered ← enterPackage name (sourceFile name file)
        let _ ← runBlock calls entered.2 program.body
        return entered.1 : Run (Ref .package)) before := by
  rw [loadPackage]
  refine (EStateM.bind_of_ok rfl).trans ?_
  rw [unknown]

/-- A package that its name leads to is taken as it is. -/
theorem claimPackage_of_package {ref : Ref .package}
    (found : before.heap.lookupQualified before.root name = .package ref) :
    claimPackage name before = .ok ref before := by
  refine (EStateM.bind_of_ok rfl).trans ((EStateM.bind_of_ok rfl).trans ?_)
  rw [found]
  rfl

/-- Where a name does not lead to a package, a new one is made for it. -/
theorem claimPackage_of_other
    (other : ∀ ref, before.heap.lookupQualified before.root name ≠ .package ref) :
    claimPackage name before =
      (do
        let ref ← Run.allocate fun heap => heap.addPackage name
        Run.tryHeap fun heap => heap.bindQualified before.root name (.package ref)
        return ref : Run (Ref .package)) before := by
  refine (EStateM.bind_of_ok rfl).trans ((EStateM.bind_of_ok rfl).trans ?_)
  generalize before.heap.lookupQualified before.root name = found at other
  cases found with
  | package ref => exact (other ref rfl).elim
  | _ => rfl

/-- Where a name does not lead to a package, a new one is bound to it. -/
theorem claimPackage_of_ne_package {heap : Heap}
    (other : ∀ ref, before.heap.lookupQualified before.root name ≠ .package ref)
    (binds :
      (before.heap.addPackage name).2.bindQualified before.root name
        (.package (before.heap.addPackage name).1) = .ok heap) :
    claimPackage name before =
      .ok (before.heap.addPackage name).1
        { before with recording := { before.recording with heap } } := by
  rw [claimPackage_of_other other]
  refine EStateM.bind_eq_ok_iff.mpr ⟨_, _, rfl, ?_⟩
  refine EStateM.bind_eq_ok_iff.mpr ⟨(), _, ?_, rfl⟩
  refine EStateM.bind_eq_ok_iff.mpr ⟨_, _, rfl, ?_⟩
  exact EStateM.bind_eq_ok_iff.mpr
    ⟨heap, _, EStateM.ofExcept_eq_ok_iff.mpr ⟨binds, rfl⟩, rfl⟩

/-- A new package that cannot be bound stays behind. -/
theorem claimPackage_of_unbound
    (other : ∀ ref, before.heap.lookupQualified before.root name ≠ .package ref)
    (fails :
      (before.heap.addPackage name).2.bindQualified before.root name
        (.package (before.heap.addPackage name).1) = .error fault) :
    claimPackage name before =
      .error fault
        { before with
          recording := { before.recording with heap := (before.heap.addPackage name).2 } } := by
  rw [claimPackage_of_other other]
  refine EStateM.bind_eq_error_iff.mpr (.inr ⟨_, _, rfl, ?_⟩)
  refine EStateM.bind_eq_error_iff.mpr (.inl ?_)
  refine EStateM.bind_eq_error_iff.mpr (.inr ⟨_, _, rfl, ?_⟩)
  refine EStateM.bind_eq_error_iff.mpr (.inl ?_)
  change (ofExcept ((before.heap.addPackage name).2.bindQualified before.root name
    (.package (before.heap.addPackage name).1)) : Run Heap) _ = _
  rw [fails]
  rfl

theorem requestProgram_eq (file : String) :
    requestProgram sources file before =
      match sources.program file with
      | .ok program => .ok program (before.asked file)
      | .error fault => .error fault (before.asked file) := by
  change (ofExcept (sources.program file) : Run Program) (before.asked file) = _
  cases sources.program file with
  | ok program => rfl
  | error fault => rfl

/-- A name that leads somewhere is looked up, and nothing happens. -/
theorem resolve_of_found
    (found : (before.heap.lookupQualified before.root name).isMissing = false) :
    resolve calls name before = .ok (before.heap.lookupQualified before.root name) before := by
  change (if !(before.heap.lookupQualified before.root name).isMissing then
      pure (before.heap.lookupQualified before.root name)
    else _ : Run Value) before = _
  rw [found]
  rfl

/-- A name that leads nowhere is looked up in the package in front of its last point. -/
theorem resolve_of_missing (calls : Calls)
    (missing : (before.heap.lookupQualified before.root name).isMissing = true) :
    resolve calls name before =
      if (splitLast name).1 = "" then .ok .missing before
      else
        (do
          let ref ← calls.package (splitLast name).1 none
          let heap ← Run.heap
          return ((heap.table (heap.package ref).members).get? (splitLast name).2).getD
            .missing : Run Value) before := by
  change (if !(before.heap.lookupQualified before.root name).isMissing then
      pure (before.heap.lookupQualified before.root name)
    else
      if (splitLast name).1.isEmpty then pure .missing else _ : Run Value) before = _
  rw [missing, Bool.not_true, if_neg Bool.false_ne_true]
  by_cases ownerless : (splitLast name).1 = ""
  · rw [if_pos ownerless, ownerless]
    rfl
  · rw [if_neg ownerless, String.isEmpty_eq_false_iff.mpr ownerless,
      if_neg Bool.false_ne_true]
    rfl

/-- A package is known once its code begins. -/
theorem known_of_enterPackage {file : String} {ref : Ref .package} {scope : Scope}
    (enters : enterPackage name file before = .ok (ref, scope) after) :
    after.packages.get? name = some ref := by
  obtain ⟨made, claimed, _, enters⟩ := EStateM.bind_eq_ok_iff.mp enters
  obtain ⟨_, filed, _, enters⟩ := EStateM.bind_eq_ok_iff.mp enters
  obtain ⟨_, known, knows, enters⟩ := EStateM.bind_eq_ok_iff.mp enters
  obtain ⟨heap, _, reads, enters⟩ := EStateM.bind_eq_ok_iff.mp enters
  obtain ⟨_, named, names, enters⟩ := EStateM.bind_eq_ok_iff.mp enters
  obtain ⟨root, _, looks, enters⟩ := EStateM.bind_eq_ok_iff.mp enters
  cases knows
  cases reads
  cases names
  cases looks
  cases enters
  exact Table.get?_insert_self _ name _

/-- A package that cannot be bound to its name stays unknown. -/
theorem unknown_of_enterPackage {file : String}
    (unknown : before.packages.get? name = none)
    (fails : enterPackage name file before = .error fault after) :
    after.packages.get? name = none := by
  have anything : Machine.Persists fun _ => True := Machine.rest_persists fun _ _ _ => True
  rcases EStateM.bind_eq_error_iff.mp fails with fails | ⟨made, claimed, _, fails⟩
  · exact (((anything.unloaded name).claimPackage name).error fails ⟨trivial, unknown⟩).2
  · -- Nothing behind the claim can fail.
    rcases EStateM.bind_eq_error_iff.mp fails with never | ⟨_, _, _, fails⟩
    · cases never
    · cases fails

end Failures

namespace Machine

variable {sources : Sources} {depth : Nat} {name : String} {before after : Machine}
  {fault : Fault}

/-- The load of a package reaches its code. -/
def Begins (sources : Sources) (name : String) (before : Machine) : Prop :=
  ∃ program ref scope started,
    sources.program (packageFile name) = .ok program ∧
      enterPackage name (packageFile name) (before.asked (packageFile name)) =
        .ok (ref, scope) started

/-- What a member of a loaded package stands for: what its dotted name leads to, and else
what is bound in the package. -/
def memberValue (machine : Machine) (ref : Ref .package) (name member : String) : Value :=
  let found := machine.heap.lookupQualified machine.root (name ++ "." ++ member)
  if found.isMissing then
    ((machine.heap.table (machine.heap.package ref).members).get? member).getD .missing
  else found

theorem package_of_known {ref : Ref .package}
    (known : before.packages.get? name = some ref) :
    (Calls.within sources (depth + 1)).package name none before = .ok ref before :=
  loadPackage_of_known known

/-- The names of a package that is known are looked up, and nothing happens. -/
theorem resolve_of_known {ref : Ref .package} {member : String}
    (known : before.packages.get? name = some ref) (named : name ≠ "")
    (dotless : '.' ∉ member.toList) :
    resolve (Calls.of sources) (name ++ "." ++ member) before =
      .ok (before.memberValue ref name member) before := by
  rw [memberValue]
  cases missing :
      (before.heap.lookupQualified before.root (name ++ "." ++ member)).isMissing with
  | false => exact resolve_of_found missing
  | true =>
      rw [resolve_of_missing _ missing, splitLast_append dotless, if_neg named, if_pos rfl]
      exact EStateM.bind_eq_ok_iff.mpr ⟨ref, before, package_of_known known, rfl⟩

theorem unknown_of_fails
    (fails :
      (Calls.within sources (depth + 1)).package name none before = .error fault after) :
    before.packages.get? name = none := by
  cases known : before.packages.get? name with
  | none => rfl
  | some ref =>
      rw [package_of_known known] at fails
      cases fails

/-- Without a source a load ends with the request of the file. -/
theorem fails_of_noSource {other : Fault} (unknown : before.packages.get? name = none)
    (noSource : sources.program (packageFile name) = .error other) :
    (Calls.within sources (depth + 1)).package name none before =
      .error other (before.asked (packageFile name)) := by
  refine (loadPackage_of_unknown unknown).trans (EStateM.bind_eq_error_iff.mpr (Or.inl ?_))
  rw [sourceFile, requestProgram_eq, noSource]

theorem package_of_noSource {other : Fault} (unknown : before.packages.get? name = none)
    (noSource : sources.program (packageFile name) = .error other) :
    (Calls.of sources).package name none before =
      .error other (before.asked (packageFile name)) :=
  fails_of_noSource unknown noSource

/-- The body of a package keeps what is known. -/
theorem runBlock_known (sources : Sources) (depth : Nat) (scope : Scope) (body : List Stmt)
    {ref : Ref .package} (known : before.packages.get? name = some ref) :
    (stateAfter (runBlock (Calls.within sources depth) scope body) before).packages.get? name =
      some ref :=
  have endures : Endures sources fun machine => machine.packages.get? name = some ref :=
    known_endures name ref
  endures.runBlock (endures.callsWithin sources depth) (fun _ _ => trivial) before known

/-- A load that succeeds makes its package known. -/
theorem known_of_package {ref : Ref .package}
    (loads : (Calls.within sources (depth + 1)).package name none before = .ok ref after) :
    after.packages.get? name = some ref := by
  cases known : before.packages.get? name with
  | some found =>
      rw [package_of_known known] at loads
      cases loads
      exact known
  | none =>
      obtain ⟨program, asked, _, loads⟩ :=
        EStateM.bind_eq_ok_iff.mp ((loadPackage_of_unknown known).symm.trans loads)
      obtain ⟨⟨made, scope⟩, started, enters, loads⟩ := EStateM.bind_eq_ok_iff.mp loads
      obtain ⟨_, ended, runs, same⟩ := EStateM.bind_eq_ok_iff.mp loads
      have body := runBlock_known sources depth scope program.body (known_of_enterPackage enters)
      rw [stateAfter_ok runs] at body
      cases same
      exact body

/-- Where a load can fail: at its source, on the way to its code, or in its code. -/
theorem fails_cases
    (fails :
      (Calls.within sources (depth + 1)).package name none before = .error fault after) :
    sources.program (packageFile name) = .error fault ∧ after = before.asked (packageFile name) ∨
      ∃ program, sources.program (packageFile name) = .ok program ∧
        (enterPackage name (packageFile name) (before.asked (packageFile name)) =
            .error fault after ∨
          ∃ ref scope started,
            enterPackage name (packageFile name) (before.asked (packageFile name)) =
                .ok (ref, scope) started ∧
              runBlock (Calls.within sources depth) scope program.body started =
                .error fault after) := by
  have unfolded := (loadPackage_of_unknown (unknown_of_fails fails)).symm.trans fails
  rw [sourceFile] at unfolded
  rcases EStateM.bind_eq_error_iff.mp unfolded with asks | ⟨program, asked, asks, fails⟩
  · rw [requestProgram_eq] at asks
    cases found : sources.program (packageFile name) with
    | ok program =>
        rw [found] at asks
        cases asks
    | error other =>
        rw [found] at asks
        cases asks
        exact Or.inl ⟨rfl, rfl⟩
  · rw [requestProgram_eq] at asks
    cases found : sources.program (packageFile name) with
    | error other =>
        rw [found] at asks
        cases asks
    | ok read =>
        rw [found] at asks
        cases asks
        refine Or.inr ⟨program, rfl, ?_⟩
        rcases EStateM.bind_eq_error_iff.mp fails with
          enters | ⟨⟨ref, scope⟩, started, enters, fails⟩
        · exact Or.inl enters
        · rcases EStateM.bind_eq_error_iff.mp fails with runs | ⟨_, _, _, never⟩
          · exact Or.inr ⟨ref, scope, started, enters, runs⟩
          · cases never

/-- A load that fails leaves its package known if and only if its code had begun. -/
theorem known_iff_begins
    (fails :
      (Calls.within sources (depth + 1)).package name none before = .error fault after) :
    (∃ ref, after.packages.get? name = some ref) ↔ Begins sources name before := by
  have unknown : (before.asked (packageFile name)).packages.get? name = none :=
    show before.packages.get? name = none from unknown_of_fails fails
  rcases fails_cases fails with
    ⟨noSource, rfl⟩ | ⟨program, source, enters | ⟨ref, scope, started, enters, runs⟩⟩
  · refine iff_of_false ?_ ?_
    · rintro ⟨ref, known⟩
      rw [unknown] at known
      cases known
    · rintro ⟨program, ref, scope, started, source, _⟩
      rw [noSource] at source
      cases source
  · refine iff_of_false ?_ ?_
    · rintro ⟨ref, known⟩
      rw [unknown_of_enterPackage unknown enters] at known
      cases known
    · rintro ⟨program, ref, scope, started, _, begins⟩
      rw [enters] at begins
      cases begins
  · refine iff_of_true ?_ ⟨program, ref, scope, started, source, enters⟩
    have body := runBlock_known sources depth scope program.body (known_of_enterPackage enters)
    rw [stateAfter_error runs] at body
    exact ⟨ref, body⟩

/-- What remains of a load that failed is a package that every later load gives, with what
was bound until the failure, if and only if the failure came when its code had begun.  A
file that is no source is asked for again, and fails again. -/
theorem package_failed
    (fails : (Calls.of sources).package name none before = .error fault after) :
    ((∃ ref, ∀ later, LeadsOn sources after later →
        (Calls.of sources).package name none later = .ok ref later ∧
          ∀ member, name ≠ "" → '.' ∉ member.toList →
            resolve (Calls.of sources) (name ++ "." ++ member) later =
              .ok (later.memberValue ref name member) later) ↔
      Begins sources name before) ∧
      ∀ other, sources.program (packageFile name) = .error other →
        fault = other ∧ ∀ later, LeadsOn sources after later →
          later.packages.get? name = none →
            (Calls.of sources).package name none later =
              .error other (later.asked (packageFile name)) := by
  refine ⟨?_, ?_⟩
  · rw [← known_iff_begins fails]
    constructor
    · rintro ⟨ref, always⟩
      exact ⟨ref, known_of_package (always after .refl).1⟩
    · rintro ⟨ref, known⟩
      refine ⟨ref, fun later leads => ?_⟩
      have stays := (known_endures name ref).leadsOn leads known
      exact ⟨package_of_known stays, fun member named dotless =>
        resolve_of_known stays named dotless⟩
  · intro other noSource
    rw [package_of_noSource (unknown_of_fails fails) noSource] at fails
    cases fails
    exact ⟨rfl, fun later _ unknown => package_of_noSource unknown noSource⟩

end Machine

/-! ## A package that is left half loaded -/

namespace HalfLoaded

/-- A name is bound, and then a condition is no truth value. -/
def body : List Stmt :=
  [.assign (.identifier "x") (.literal (.int 1)), .branch (.literal (.int 1)) [.pass] []]

def sources : Sources where
  program := fun file => .ok ⟨body, file⟩
  constants := none
  constantStorages := .empty

theorem body_fails (calls : Calls) (scope : Scope) (machine : Machine) :
    ∃ after, runBlock calls scope body machine = .error .unknownCondition after := by
  rw [runBlock_eq]
  exact ⟨_, rfl⟩

theorem claims (machine : Machine) :
    ∃ ref after, claimPackage "p" machine = .ok ref after := by
  have parts : Heap.nameParts "p" = ["p"] := Heap.nameParts_of_dotless (by decide)
  by_cases found : ∃ ref, machine.heap.lookupQualified machine.root "p" = .package ref
  · obtain ⟨ref, found⟩ := found
    exact ⟨ref, machine, claimPackage_of_package found⟩
  · obtain ⟨heap, binds⟩ :
        ∃ heap,
          (machine.heap.addPackage "p").2.bindQualified machine.root "p"
            (.package (machine.heap.addPackage "p").1) = .ok heap := by
      rw [Heap.bindQualified, parts]
      exact ⟨_, rfl⟩
    exact ⟨_, _, claimPackage_of_ne_package (not_exists.mp found) binds⟩

theorem begins (machine : Machine) : Machine.Begins sources "p" machine := by
  obtain ⟨ref, claimed, claims⟩ := claims (machine.asked (packageFile "p"))
  obtain ⟨⟨ref, scope⟩, started, enters⟩ :
      ∃ entered started,
        enterPackage "p" (packageFile "p") (machine.asked (packageFile "p")) =
          .ok entered started :=
    ⟨_, _, EStateM.bind_eq_ok_iff.mpr ⟨ref, claimed, claims, rfl⟩⟩
  exact ⟨⟨body, packageFile "p"⟩, ref, scope, started, rfl, enters⟩

theorem fails :
    ∃ after, (Calls.of sources).package "p" none .initial =
      .error .unknownCondition after := by
  obtain ⟨program, ref, scope, started, source, enters⟩ := begins .initial
  cases source
  obtain ⟨after, runs⟩ := body_fails (Calls.within sources 194) scope started
  refine ⟨after, (loadPackage_of_unknown rfl).trans ?_⟩
  refine EStateM.bind_eq_error_iff.mpr
    (Or.inr ⟨⟨body, packageFile "p"⟩, _, requestProgram_eq _, ?_⟩)
  refine EStateM.bind_eq_error_iff.mpr (Or.inr ⟨(ref, scope), started, enters, ?_⟩)
  exact EStateM.bind_eq_error_iff.mpr (Or.inl runs)

/-- Everything that is known of failed loads holds of this one. -/
theorem package_failed_begun :
    ∃ fault after,
      (Calls.of sources).package "p" none .initial = .error fault after ∧
        ((∃ ref, ∀ later, Machine.LeadsOn sources after later →
            (Calls.of sources).package "p" none later = .ok ref later ∧
              ∀ member, "p" ≠ "" → '.' ∉ member.toList →
                resolve (Calls.of sources) ("p" ++ "." ++ member) later =
                  .ok (later.memberValue ref "p" member) later) ↔
          Machine.Begins sources "p" .initial) ∧
        ∀ other, sources.program (packageFile "p") = .error other →
          fault = other ∧ ∀ later, Machine.LeadsOn sources after later →
            later.packages.get? "p" = none →
              (Calls.of sources).package "p" none later =
                .error other (later.asked (packageFile "p")) := by
  obtain ⟨after, fails⟩ := fails
  exact ⟨_, after, fails, Machine.package_failed fails⟩

/-- Whether a value is the one that was bound before the load failed. -/
def isBound : Value → Bool
  | .atom (.int 1) => true
  | _ => false

/-- Whether a failed load is followed by one that succeeds, and by a name that is found. -/
def staysHalf (machine : Machine) : Bool :=
  match (Calls.of sources).package "p" none machine with
  | .ok _ _ => false
  | .error _ after =>
      match (Calls.of sources).package "p" none after, resolve (Calls.of sources) "p.x" after with
      | .ok _ _, .ok value _ => isBound value
      | _, _ => false

set_option maxRecDepth 100000 in
private theorem stays : staysHalf .initial = true := by
  rw [Machine.initial_eq]
  decide +kernel

/-- After a load that failed, a load of the same package succeeds, and a name from in front
of the failure is found in it. -/
theorem exists_loaded_after_failure :
    ∃ fault after ref last found,
      (Calls.of sources).package "p" none .initial = .error fault after ∧
        (Calls.of sources).package "p" none after = .ok ref last ∧
        resolve (Calls.of sources) "p.x" after = .ok (.int 1) found := by
  have half := stays
  rw [staysHalf] at half
  split at half
  · cases half
  · rename_i fault after fails
    split at half
    · rename_i ref last value found loads finds
      rw [isBound.eq_def] at half
      split at half
      · exact ⟨fault, after, ref, last, found, fails, loads, finds⟩
      · cases half
    · cases half

end HalfLoaded

end TorchArchive
