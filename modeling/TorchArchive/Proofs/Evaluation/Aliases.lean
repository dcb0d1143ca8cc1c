import TorchArchive.Proofs.Evaluation.Qualified
import TorchArchive.Proofs.Package.Definitions

/-!
# Aliases of packages

`import p as n` binds `n` to the package `p`.  A chain of members of `n` is evaluated like the
same chain of `p` as far as the members are there.  Where they are not, a package is loaded
whose name is spelled like the chain, so that `n.q` does not load `p.q`; and in the frame of
a package above `p` the alias gives way to a binding of the same name around it, be it a
builtin.
-/

namespace TorchArchive

/-! ## Bindings that give way -/

namespace Heap

variable {heap : Heap} {scope : Scope} {name : String} {value : Value}

/-- The innermost binding of a name that is no sub-package of its frame. -/
def outright (heap : Heap) (name : String) : List Frame → Option Value
  | [] => none
  | frame :: rest =>
      match (heap.table frame.table).get? name with
      | none => heap.outright name rest
      | some value => if heap.isSubpackage frame value then heap.outright name rest else some value

/-- A sub-package that was met is only taken if there is no other binding. -/
theorem search_of_present {fallback : Value} (present : fallback.isMissing = false)
    (frames : List Frame) :
    heap.search name fallback frames = (heap.outright name frames).getD fallback := by
  induction frames with
  | nil => rfl
  | cons frame rest inductionHypothesis =>
      rw [search, outright]
      cases bound : (heap.table frame.table).get? name with
      | none => exact inductionHypothesis
      | some value =>
          by_cases below : heap.isSubpackage frame value = true
          · simp [below, present, inductionHypothesis]
          · simp [below]

/-- What the innermost frame binds is seen, unless it is a sub-package and there is another
binding. -/
theorem lookup_of_bound (bound : (heap.table scope.inner.table).get? name = some value)
    (present : value.isMissing = false) :
    heap.lookup scope name =
      if heap.isSubpackage scope.inner value then (heap.outright name scope.outer).getD value
      else value := by
  rw [lookup, Scope.frames, search, bound]
  by_cases below : heap.isSubpackage scope.inner value = true
  · have unmet : Value.missing.isMissing = true := rfl
    simp [below, unmet, search_of_present present]
  · simp [below]

end Heap

/-! ## Chains whose owner is there, and chains whose owner is not -/

/-- The member of a package that is loaded for it. -/
def loadedMember (calls : Calls) (name member : String) : Run Value := do
  let ref ← calls.package name none
  ofExcept ((← Run.heap).getMember (.package ref) member)

/-- The chain that spells a dotted name and members behind it. -/
def Expr.spelled (name : String) (path : List String) : Expr :=
  match Heap.nameParts name with
  | [] => .blank
  | first :: rest => .chain first (rest ++ path)

theorem Expr.spelled_of_parts {name first : String} {rest : List String}
    (parts : Heap.nameParts name = first :: rest) (path : List String) :
    Expr.spelled name path = .chain first (rest ++ path) := by
  rw [Expr.spelled, parts]

section Chains

variable {calls : Calls} {scope : Scope} {machine : Machine} {first last : String}
  {front : List String}

/-- The member that ends a chain is asked of what the chain in front of it leads to. -/
theorem evaluate_snoc_of_found (plain : first ∉ literalNames)
    (dotless : Heap.Dotless (first :: front))
    (found : (machine.heap.reach scope (first :: front)).isMissing = false) :
    evaluate calls scope (.chain first (front ++ [last])) machine =
      (ofExcept (machine.heap.getMember (machine.heap.reach scope (first :: front)) last) :
        Run Value) machine := by
  have named := Heap.reach_eq_lookupQualified dotless machine.heap scope
  have evaluates : evaluate calls scope (.chain first front) machine =
      .ok (machine.heap.reach scope (first :: front)) machine :=
    evaluate_chain plain dotless found
  rw [Expr.chain_snoc, evaluate, Expr.dottedName?_chain]
  rw [named] at found evaluates ⊢
  refine (EStateM.bind_of_ok (ownerValue_of_found found evaluates)).trans ?_
  exact EStateM.bind_of_ok rfl

/-- Where the chain in front leads nowhere, the package that it spells is loaded. -/
theorem evaluate_snoc_of_missing (dotless : Heap.Dotless (first :: front))
    (begins : beginsWithPackage machine.heap scope (".".intercalate (first :: front)) = true)
    (missing : (machine.heap.reach scope (first :: front)).isMissing = true) :
    evaluate calls scope (.chain first (front ++ [last])) machine =
      loadedMember calls (".".intercalate (first :: front)) last machine := by
  have named := Heap.reach_eq_lookupQualified dotless machine.heap scope
  rw [named] at missing
  have owner (evaluated : Run Value) :
      ownerValue calls scope (some (".".intercalate (first :: front))) evaluated machine =
        (calls.package (".".intercalate (first :: front)) none >>= fun ref =>
          pure (.package ref)) machine := by
    rw [ownerValue, ← map_eq_pure_bind]
    refine (EStateM.bind_of_ok rfl).trans ?_
    rw [begins]
    simp only [Bool.not_true, Bool.false_eq_true, if_false, missing, if_true]
  rw [Expr.chain_snoc, evaluate, Expr.dottedName?_chain, loadedMember]
  cases loads : calls.package (".".intercalate (first :: front)) none machine with
  | ok ref after =>
      have owned := (owner (evaluate calls scope (.chain first front))).trans
        (EStateM.bind_of_ok loads)
      rw [EStateM.bind_of_ok owned, EStateM.bind_of_ok loads]
  | error fault after =>
      have fails := (owner (evaluate calls scope (.chain first front))).trans
        (EStateM.bind_eq_error_iff.mpr (.inl loads))
      exact (EStateM.bind_eq_error_iff.mpr (.inl fails)).trans
        (EStateM.bind_eq_error_iff.mpr (.inl loads)).symm

variable {name : String}

theorem reach_nameParts_append (heap : Heap) (scope : Scope) (name : String)
    (front : List String) :
    heap.reach scope (Heap.nameParts name ++ front) =
      heap.follow (heap.lookupQualified scope name) front := by
  rw [Heap.reach_append (Heap.nameParts_ne_nil name), ← Heap.lookupQualified_eq_reach]

theorem dotless_nameParts_append (dotless : Heap.Dotless front) :
    Heap.Dotless (Heap.nameParts name ++ front) :=
  List.forall_mem_append.mpr ⟨Heap.dotless_nameParts name, dotless⟩

/-- A name that leads somewhere is evaluated to what it leads to. -/
theorem evaluate_spelled_nil (plain : (Heap.nameParts name).headD "" ∉ literalNames)
    (found : (machine.heap.lookupQualified scope name).isMissing = false) :
    evaluate calls scope (.spelled name []) machine =
      .ok (machine.heap.lookupQualified scope name) machine := by
  have dotless : Heap.Dotless (Heap.nameParts name) := Heap.dotless_nameParts name
  obtain ⟨first, rest, parts⟩ := List.exists_cons_of_ne_nil (Heap.nameParts_ne_nil name)
  rw [Heap.lookupQualified_eq_reach, parts] at found ⊢
  rw [parts] at plain dotless
  rw [Expr.spelled_of_parts parts, List.append_nil]
  exact evaluate_chain plain dotless found

theorem evaluate_spelled_of_found (plain : (Heap.nameParts name).headD "" ∉ literalNames)
    (dotless : Heap.Dotless front)
    (found : (machine.heap.follow (machine.heap.lookupQualified scope name) front).isMissing =
      false) :
    evaluate calls scope (.spelled name (front ++ [last])) machine =
      (ofExcept (machine.heap.getMember
        (machine.heap.follow (machine.heap.lookupQualified scope name) front) last) :
          Run Value) machine := by
  have whole : Heap.Dotless (Heap.nameParts name ++ front) := dotless_nameParts_append dotless
  obtain ⟨first, rest, parts⟩ := List.exists_cons_of_ne_nil (Heap.nameParts_ne_nil name)
  rw [← reach_nameParts_append, parts] at found ⊢
  rw [parts] at plain whole
  rw [Expr.spelled_of_parts parts, ← List.append_assoc]
  exact evaluate_snoc_of_found plain whole found

theorem beginsWithPackage_append (heap : Heap) (scope : Scope) (dotless : Heap.Dotless front) :
    beginsWithPackage heap scope (".".intercalate (Heap.nameParts name ++ front)) =
      beginsWithPackage heap scope name := by
  have some : Heap.nameParts name ≠ [] := Heap.nameParts_ne_nil name
  have parts : Heap.nameParts (".".intercalate (Heap.nameParts name ++ front)) =
      Heap.nameParts name ++ front :=
    Heap.nameParts_intercalate_of_dotless (List.append_ne_nil_of_left_ne_nil some front)
      (dotless_nameParts_append dotless)
  have same : (Heap.nameParts name ++ front).headD "" = (Heap.nameParts name).headD "" := by
    cases shape : Heap.nameParts name with
    | nil => exact absurd shape some
    | cons first rest => rfl
  rw [beginsWithPackage, beginsWithPackage, parts, same]

theorem evaluate_spelled_of_missing (begins : beginsWithPackage machine.heap scope name = true)
    (dotless : Heap.Dotless front)
    (missing : (machine.heap.follow (machine.heap.lookupQualified scope name) front).isMissing =
      true) :
    evaluate calls scope (.spelled name (front ++ [last])) machine =
      loadedMember calls (".".intercalate (Heap.nameParts name ++ front)) last machine := by
  have whole : Heap.Dotless (Heap.nameParts name ++ front) := dotless_nameParts_append dotless
  rw [← beginsWithPackage_append machine.heap scope dotless] at begins
  obtain ⟨first, rest, parts⟩ := List.exists_cons_of_ne_nil (Heap.nameParts_ne_nil name)
  rw [← reach_nameParts_append, parts] at missing
  rw [parts] at begins whole ⊢
  rw [Expr.spelled_of_parts parts, ← List.append_assoc]
  exact evaluate_snoc_of_missing whole begins missing

end Chains

/-! ## Aliases -/

/-- An alias for a sub-package, in the frame of the package, gives way to a binding around
it. -/
def Heap.GivesWay (heap : Heap) (scope : Scope) (short : String) (ref : Ref .package)
    (value : Value) : Prop :=
  heap.isSubpackage scope.inner (.package ref) = true ∧
    heap.outright short scope.outer = some value

namespace Machine

variable {sources : Sources} {depth : Nat} {scope : Scope} {name short : String}
  {ref : Ref .package} {middle : List Stmt} {before imported later : Machine}

/-- An import makes its package known and binds the alias to it. -/
theorem bound_of_importPackage (aliased : short ≠ "")
    (imports : importPackage (Calls.within sources depth) scope name (some short) before =
      .ok () imported) :
    ∃ ref, imported.packages.get? name = some ref ∧
      (imported.heap.table scope.inner.table).get? short = some (.package ref) := by
  cases depth with
  | zero => cases imports
  | succ depth =>
      obtain ⟨ref, loaded, loads, binds⟩ := EStateM.bind_eq_ok_iff.mp imports
      have known := known_of_package loads
      dsimp only at binds
      rw [String.isEmpty_eq_false_iff.mpr aliased, if_neg Bool.false_ne_true] at binds
      cases binds
      refine ⟨ref, known, ?_⟩
      change (((loaded.heap.bind scope.inner.table short (.package ref)).table
        scope.inner.table).get? short) = _
      rw [Heap.table_bind, if_pos rfl, Table.get?_insert_self]

/-- What is known stays known while statements run. -/
theorem known_of_executeAll {ended : Option Value}
    (known : imported.packages.get? name = some ref)
    (runs : executeAll (Calls.within sources depth) scope middle imported = .ok ended later) :
    later.packages.get? name = some ref := by
  have endures : Endures sources fun machine => machine.packages.get? name = some ref :=
    known_endures name ref
  have keeps := endures.toPersists.executeAll (endures.callsWithin sources depth) scope middle
    fun _ _ => trivial
  exact keeps.ok runs known

theorem lookupQualified_of_dotless (heap : Heap) (scope : Scope) (dotless : '.' ∉ short.toList) :
    heap.lookupQualified scope short = heap.lookup scope short := by
  rw [Heap.lookupQualified, Heap.nameParts_of_dotless dotless]
  rfl

/-- A plain name that leads to a package begins with one. -/
theorem beginsWithPackage_of_package (dotless : '.' ∉ short.toList)
    (plain : short ∉ literalNames) (variable_ : short ≠ constantsName)
    (leads : later.heap.lookup scope short = .package ref) :
    beginsWithPackage later.heap scope short = true := by
  have ordinary : ["None", "True", "False", constantsName].contains short = false := by
    rw [List.contains_eq_mem, decide_eq_false_iff_not]
    intro member
    rcases List.mem_append.mp (show short ∈ literalNames ++ [constantsName] from member) with
      literal | constants
    · exact plain literal
    · exact variable_ (List.mem_singleton.mp constants)
  rw [beginsWithPackage, Heap.nameParts_of_dotless dotless, List.headD_cons, ordinary, leads]
  rfl

/-- Where packages can be imported, one without a source fails. -/
theorem package_of_import_depth {other : String} {fault : Fault}
    (imports : importPackage (Calls.within sources depth) scope name (some short) before =
      .ok () imported)
    (unknown : later.packages.get? other = none)
    (noSource : sources.program (packageFile other) = .error fault) :
    (Calls.within sources depth).package other none later =
      .error fault (later.asked (packageFile other)) := by
  cases depth with
  | zero => cases imports
  | succ depth => exact fails_of_noSource unknown noSource

/-- An alias that gives way to nothing leads to its package. -/
theorem lookup_alias (bound : (later.heap.table scope.inner.table).get? short =
      some (.package ref))
    (stays : ∀ value, ¬ later.heap.GivesWay scope short ref value) :
    later.heap.lookup scope short = .package ref := by
  rw [Heap.lookup_of_bound bound rfl]
  by_cases below : later.heap.isSubpackage scope.inner (.package ref) = true
  · have alone : later.heap.outright short scope.outer = none := by
      rw [Option.eq_none_iff_forall_ne_some]
      exact fun value seen => stays value ⟨below, seen⟩
    rw [if_pos below, alone, Option.getD_none]
  · rw [if_neg below]

/-- An alias that gives way leads to what it gives way to. -/
theorem lookup_alias_of_givesWay {value : Value}
    (bound : (later.heap.table scope.inner.table).get? short = some (.package ref))
    (givesWay : later.heap.GivesWay scope short ref value) :
    later.heap.lookup scope short = value := by
  rw [Heap.lookup_of_bound bound rfl, if_pos givesWay.1, givesWay.2, Option.getD_some]

/-- From two names for one package the same path is evaluated alike, as far as it leads
somewhere. -/
theorem evaluate_spelled_congr {calls : Calls} {path : List String}
    (plain : (Heap.nameParts short).headD "" ∉ literalNames)
    (plainName : (Heap.nameParts name).headD "" ∉ literalNames)
    (leads : later.heap.lookupQualified scope short = .package ref)
    (leadsName : later.heap.lookupQualified scope name = .package ref)
    (dotless : Heap.Dotless path)
    (found : (later.heap.follow (.package ref) path.dropLast).isMissing = false) :
    evaluate calls scope (.spelled short path) later =
      evaluate calls scope (.spelled name path) later := by
  cases path using List.reverseRecOn with
  | nil =>
      have present : Value.isMissing (.package ref) = false := rfl
      rw [evaluate_spelled_nil plain (leads ▸ present),
        evaluate_spelled_nil plainName (leadsName ▸ present), leads, leadsName]
  | append_singleton front last =>
      rw [List.dropLast_concat] at found
      have frontDotless : Heap.Dotless front := dotless.of_append
      rw [evaluate_spelled_of_found plain frontDotless (leads ▸ found),
        evaluate_spelled_of_found plainName frontDotless (leadsName ▸ found), leads, leadsName]

/-- Behind `import p as n`, as long as `n` is not bound again, `n` is the package, or what it
gives way to.  Where `n` gives way to nothing and `p` leads to the package too, a path of
members is evaluated alike from both as far as its owner is there.  Where the owner is not
there, each loads the package that it spells itself, so that without a source of that name
the alias fails. -/
theorem alias_denotes
    (imports : importPackage (Calls.within sources depth) scope name (some short) before =
      .ok () imported)
    (runs : executeAll (Calls.within sources depth) scope middle imported = .ok none later)
    (kept : (later.heap.table scope.inner.table).get? short =
      (imported.heap.table scope.inner.table).get? short)
    (aliased : short ≠ "") (dotless : '.' ∉ short.toList) (plain : short ∉ literalNames)
    (plainName : (Heap.nameParts name).headD "" ∉ literalNames) :
    let calls := Calls.within sources depth
    ∃ ref, later.packages.get? name = some ref ∧
      ((∀ value, ¬ later.heap.GivesWay scope short ref value) →
        evaluate calls scope (.identifier short) later = .ok (.package ref) later) ∧
      (∀ value, later.heap.GivesWay scope short ref value → value.isMissing = false →
        evaluate calls scope (.identifier short) later = .ok value later) ∧
      ((∀ value, ¬ later.heap.GivesWay scope short ref value) →
        later.heap.lookupQualified scope name = .package ref →
        (∀ path, Heap.Dotless path →
          (later.heap.follow (.package ref) path.dropLast).isMissing = false →
            evaluate calls scope (.spelled short path) later =
              evaluate calls scope (.spelled name path) later) ∧
        ∀ front last, Heap.Dotless front →
          (later.heap.follow (.package ref) front).isMissing = true →
          (short ≠ constantsName →
            evaluate calls scope (.spelled short (front ++ [last])) later =
                loadedMember calls (".".intercalate (short :: front)) last later ∧
              ∀ fault, later.packages.get? (".".intercalate (short :: front)) = none →
                sources.program (packageFile (".".intercalate (short :: front))) =
                    .error fault →
                  evaluate calls scope (.spelled short (front ++ [last])) later =
                    .error fault
                      (later.asked (packageFile (".".intercalate (short :: front))))) ∧
          (beginsWithPackage later.heap scope name = true →
            evaluate calls scope (.spelled name (front ++ [last])) later =
              loadedMember calls (".".intercalate (Heap.nameParts name ++ front)) last
                later)) := by
  intro calls
  obtain ⟨ref, known, bound⟩ := bound_of_importPackage aliased imports
  rw [← kept] at bound
  have knownLater := known_of_executeAll known runs
  have parts : Heap.nameParts short = [short] := Heap.nameParts_of_dotless dotless
  have plainShort : (Heap.nameParts short).headD "" ∉ literalNames := by
    rw [parts]
    exact plain
  have leads (stays : ∀ value, ¬ later.heap.GivesWay scope short ref value) :
      later.heap.lookupQualified scope short = .package ref := by
    rw [lookupQualified_of_dotless _ _ dotless, lookup_alias bound stays]
  refine ⟨ref, knownLater, ?_, ?_, ?_⟩
  · intro stays
    have seen := lookup_alias bound stays
    rw [evaluate, nameValue_of_found plain (by rw [seen]; rfl), seen]
  · intro value givesWay present
    have seen := lookup_alias_of_givesWay bound givesWay
    rw [evaluate, nameValue_of_found plain (by rw [seen]; exact present), seen]
  · intro stays leadsName
    refine ⟨fun path dotlessPath found => evaluate_spelled_congr plainShort plainName
      (leads stays) leadsName dotlessPath found, ?_⟩
    intro front last dotlessFront missing
    refine ⟨?_, ?_⟩
    · intro variable_
      have begins : beginsWithPackage later.heap scope short = true :=
        beginsWithPackage_of_package dotless plain variable_ (lookup_alias bound stays)
      have loads : evaluate calls scope (.spelled short (front ++ [last])) later =
          loadedMember calls (".".intercalate (Heap.nameParts short ++ front)) last later :=
        evaluate_spelled_of_missing begins dotlessFront ((leads stays).symm ▸ missing)
      rw [parts] at loads
      refine ⟨loads, ?_⟩
      intro fault unknown noSource
      rw [loads]
      exact EStateM.bind_eq_error_iff.mpr (.inl (package_of_import_depth imports unknown noSource))
    · intro begins
      exact evaluate_spelled_of_missing begins dotlessFront (leadsName.symm ▸ missing)

end Machine

namespace SpelledAlias

/-- `z = 1` -/
def body : List Stmt := [.assign (.identifier "z") (.literal (.int 1))]

/-- A package without code, and one below it. -/
def sources : Sources where
  program file :=
    if file = "code/p.py" then .ok ⟨[], file⟩
    else if file = "code/p/q.py" then .ok ⟨body, file⟩
    else .error (.missingSource file)
  constants := none
  constantStorages := .empty

/-- An interpreter with a frame for some code. -/
def begun (machine : Machine) : Machine := machine.withHeap (machine.heap.addTable .empty).2

def scope (machine : Machine) : Scope := machine.root.push (machine.heap.addTable .empty).1

/-- Whether a package is known and its name leads to it. -/
def isSeen (scope : Scope) (machine : Machine) : Bool :=
  match machine.packages.get? "p", machine.heap.lookupQualified scope "p" with
  | some known, .package ref => known == ref
  | _, _ => false

def importsSeen (machine : Machine) : Bool :=
  match importPackage (Calls.of sources) (scope machine) "p" (some "n") (begun machine) with
  | .ok _ imported => isSeen (scope machine) imported
  | .error _ _ => false

set_option maxRecDepth 100000 in
private theorem sees : importsSeen .initial = true := by
  rw [Machine.initial_eq]
  decide +kernel

theorem imports :
    ∃ imported ref, importPackage (Calls.of sources) (scope .initial) "p" (some "n")
        (begun .initial) = .ok () imported ∧
      imported.packages.get? "p" = some ref ∧
        imported.heap.lookupQualified (scope .initial) "p" = .package ref := by
  have seen := sees
  rw [importsSeen] at seen
  split at seen
  · rename_i imported imports
    rw [isSeen] at seen
    split at seen
    · rename_i known ref isKnown leads
      exact ⟨imported, ref, imports, eq_of_beq seen ▸ isKnown, leads⟩
    · cases seen
  · cases seen

/-- The members of the package are found under its other name. -/
theorem alias_denotes_found :
    ∃ imported ref, importPackage (Calls.of sources) (scope .initial) "p" (some "n")
        (begun .initial) = .ok () imported ∧
      evaluate (Calls.of sources) (scope .initial) (.identifier "n") imported =
        .ok (.package ref) imported ∧
      ∀ path, Heap.Dotless path →
        (imported.heap.follow (.package ref) path.dropLast).isMissing = false →
          evaluate (Calls.of sources) (scope .initial) (.spelled "n" path) imported =
            evaluate (Calls.of sources) (scope .initial) (.spelled "p" path) imported := by
  obtain ⟨imported, ref, imports, known, leads⟩ := imports
  have runs : executeAll (Calls.within sources Calls.depthLimit) (scope .initial) [] imported =
      .ok none imported := by
    rw [executeAll]
    rfl
  have single : Heap.nameParts "p" = ["p"] := Heap.nameParts_of_dotless (by decide)
  have plain : (Heap.nameParts "p").headD "" ∉ literalNames := by
    rw [single]
    decide
  obtain ⟨other, knownToo, denotes, _, same⟩ :=
    Machine.alias_denotes imports runs rfl (by decide) (by decide) (by decide) plain
  obtain rfl : ref = other := Option.some.inj (known.symm.trans knownToo)
  have stays (value : Value) : ¬ imported.heap.GivesWay (scope .initial) "n" ref value := by
    intro givesWay
    cases givesWay.1
  exact ⟨imported, ref, imports, denotes stays, (same stays leads).1⟩

/-- Whether a chain from the alias fails for want of a source, while the one from the name of
the package gives an integer. -/
def areApart (scope : Scope) (machine : Machine) : Bool :=
  match evaluate (Calls.of sources) scope (.chain "n" ["q", "z"]) machine,
      evaluate (Calls.of sources) scope (.chain "p" ["q", "z"]) machine with
  | .error (.missingSource file) _, .ok (.atom (.int n)) _ => file == "code/n/q.py" && n == 1
  | _, _ => false

def importsApart (machine : Machine) : Bool :=
  match importPackage (Calls.of sources) (scope machine) "p" (some "n") (begun machine) with
  | .ok _ imported => areApart (scope machine) imported
  | .error _ _ => false

set_option maxRecDepth 100000 in
private theorem parts : importsApart .initial = true := by
  rw [Machine.initial_eq]
  decide +kernel

/-- Right behind the import a package below is loaded under the name of the one above, and
not under its alias. -/
theorem exists_chains_apart :
    ∃ imported failed loaded,
      importPackage (Calls.of sources) (scope .initial) "p" (some "n") (begun .initial) =
          .ok () imported ∧
        evaluate (Calls.of sources) (scope .initial) (.chain "n" ["q", "z"]) imported =
          .error (.missingSource "code/n/q.py") failed ∧
        evaluate (Calls.of sources) (scope .initial) (.chain "p" ["q", "z"]) imported =
          .ok (.int 1) loaded := by
  have apart := parts
  rw [importsApart] at apart
  split at apart
  · rename_i imported imports
    rw [areApart] at apart
    split at apart
    · rename_i file failed n loaded fails ends
      rw [Bool.and_eq_true, beq_iff_eq, beq_iff_eq] at apart
      obtain ⟨rfl, rfl⟩ := apart
      exact ⟨imported, failed, loaded, imports, fails, ends⟩
    · cases apart
  · cases apart

end SpelledAlias

namespace HiddenAlias

/-- `import P.q as int` and `x = int` -/
def body : List Stmt :=
  [.imports [("P.q", some "int")], .assign (.identifier "x") (.identifier "int")]

def sources : Sources where
  program file :=
    if file = "code/P.py" then .ok ⟨body, file⟩
    else if file = "code/P/q.py" then .ok ⟨[], file⟩
    else .error (.missingSource file)
  constants := none
  constantStorages := .empty

/-- Whether a name is bound to a package, and another one that was assigned its value to a
builtin. -/
def isHidden (heap : Heap) (package : Value) : Bool :=
  match heap.member? package "int", heap.member? package "x" with
  | some (.package _), some (.builtin _) => true
  | _, _ => false

def loadsHidden (machine : Machine) : Bool :=
  match (Calls.of sources).package "P" none machine with
  | .ok ref after => isHidden after.heap (.package ref)
  | .error _ _ => false

set_option maxRecDepth 100000 in
private theorem hides : loadsHidden .initial = true := by
  rw [Machine.initial_eq]
  decide +kernel

/-- In the code of the package above, the alias of a package below gives way to a builtin. -/
theorem exists_alias_hidden :
    ∃ package after below builtin,
      (Calls.of sources).package "P" none .initial = .ok package after ∧
        after.heap.member? (.package package) "int" = some (.package below) ∧
          after.heap.member? (.package package) "x" = some (.builtin builtin) := by
  have hidden := hides
  rw [loadsHidden] at hidden
  split at hidden
  · rename_i package after loads
    rw [isHidden] at hidden
    split at hidden
    · rename_i below builtin isBelow isBuiltin
      exact ⟨package, after, below, builtin, loads, isBelow, isBuiltin⟩
    · cases hidden
  · cases hidden

end HiddenAlias

end TorchArchive
