import TorchArchive.Proofs.Pickle.Resolution
import TorchArchive.Proofs.Scope.Paths

/-!
# Qualified names in code

Code spells a qualified name as a chain of members of a name.  Where the names in sight lead
along the chain, it is evaluated to what is found there, and nothing is loaded.  The call of
a chain does what a call of the qualified name from outside does where both find the same
value, or both load the package in front of the last point and this load does not lack a
source.
-/

namespace TorchArchive

/-! ## Chains of members -/

namespace Expr

/-- A chain of members of a name. -/
def chain (first : String) (rest : List String) : Expr := rest.foldl member (identifier first)

theorem chain_snoc (first : String) (rest : List String) (last : String) :
    chain first (rest ++ [last]) = member (chain first rest) last := by
  rw [chain, List.foldl_append]
  rfl

theorem dottedName?_chain (first : String) (rest : List String) :
    (chain first rest).dottedName? = some (".".intercalate (first :: rest)) := by
  have longer (rest : List String) : ∀ (front : Expr) (name : String),
      front.dottedName? = some name →
        (rest.foldl member front).dottedName? = some (".".intercalate (name :: rest)) := by
    induction rest with
    | nil => exact fun front name spells => spells
    | cons part rest inductionHypothesis =>
        intro front name spells
        refine inductionHypothesis (front.member part) (name ++ "." ++ part) ?_
        rw [dottedName?, spells]
        rfl
  exact longer rest (identifier first) first rfl

end Expr

section Chains

variable {calls : Calls} {scope : Scope} {machine : Machine} {first : String}
  {rest : List String}

/-- The names that are no variables. -/
def literalNames : List String := ["None", "True", "False"]

theorem nameValue_of_found {name : String} (plain : name ∉ literalNames)
    (found : (machine.heap.lookup scope name).isMissing = false) :
    nameValue calls scope name machine = .ok (machine.heap.lookup scope name) machine := by
  have looked :
      nameValue calls scope name machine =
        (if !(machine.heap.lookup scope name).isMissing then
            pure (machine.heap.lookup scope name)
          else if typeNames.contains name then return .atom (.typeRef name)
          else if name = constantsName then do bindConstants (← calls.constants)
          else throw (.unknownIdentifier name) : Run Value) machine := by
    rw [nameValue]
    · rfl
    all_goals
      rintro rfl
      exact plain (by decide)
  rw [looked, found]
  rfl

theorem Heap.getMember_of_found {heap : Heap} {target : Value} {name : String}
    (found : (heap.findMember target name).isMissing = false) :
    heap.getMember target name = .ok (heap.findMember target name) := by
  rw [findMember] at found ⊢
  rw [getMember]
  cases shown : heap.member? target name with
  | none =>
      rw [shown] at found
      cases found
  | some value => rfl

/-- An owner that a dotted name leads to is taken as it is. -/
theorem ownerValue_of_found {name : String} {evaluated : Run Value}
    (found : (machine.heap.lookupQualified scope name).isMissing = false)
    (evaluates : evaluated machine = .ok (machine.heap.lookupQualified scope name) machine) :
    ownerValue calls scope (some name) evaluated machine =
      .ok (machine.heap.lookupQualified scope name) machine := by
  rw [ownerValue]
  refine (EStateM.bind_of_ok rfl).trans ?_
  by_cases package : beginsWithPackage machine.heap scope name = true
  · rw [package]
    simp only [Bool.not_true, Bool.false_eq_true, if_false, found]
    rfl
  · rw [if_pos (by simp [package]), evaluates]

/-- A chain of members is evaluated to what its parts lead to, if they lead anywhere, and
nothing is loaded. -/
theorem evaluate_chain (plain : first ∉ literalNames) (dotless : Heap.Dotless (first :: rest))
    (found : (machine.heap.reach scope (first :: rest)).isMissing = false) :
    evaluate calls scope (Expr.chain first rest) machine =
      .ok (machine.heap.reach scope (first :: rest)) machine := by
  induction rest using List.reverseRecOn with
  | nil =>
      rw [Expr.chain, List.foldl_nil, evaluate]
      exact nameValue_of_found plain found
  | append_singleton front last inductionHypothesis =>
      have reached : machine.heap.reach scope (first :: (front ++ [last])) =
          machine.heap.findMember (machine.heap.reach scope (first :: front)) last := by
        rw [← List.cons_append, Heap.reach_snoc, Heap.owner?_of_ne_nil (List.cons_ne_nil _ _)]
        rfl
      have split : Heap.Dotless ((first :: front) ++ [last]) := dotless
      have frontDotless := split.of_append
      have named := Heap.reach_eq_lookupQualified frontDotless machine.heap scope
      rw [reached] at found ⊢
      have owned : (machine.heap.reach scope (first :: front)).isMissing = false := by
        by_contra missing
        rw [Bool.not_eq_false] at missing
        rw [Pickle.eq_missing missing, Heap.findMember_of_isVacant _ rfl] at found
        cases found
      rw [Expr.chain_snoc, evaluate, Expr.dottedName?_chain]
      rw [named] at owned inductionHypothesis ⊢
      refine (EStateM.bind_of_ok
        (ownerValue_of_found owned (inductionHypothesis frontDotless owned))).trans ?_
      rw [named] at found
      refine (EStateM.bind_of_ok rfl).trans ?_
      rw [Heap.getMember_of_found found]
      rfl

end Chains

/-! ## Frames of arguments -/

namespace Heap

variable {heap : Heap} {scope : Scope} {frame : Ref .table} {name first : String}

theorem lookup_push_of_bound {value : Value}
    (bound : (heap.table frame).get? name = some value) :
    heap.lookup (scope.push frame) name = value := by
  change heap.search name .missing (⟨frame, none⟩ :: scope.frames) = value
  rw [search, bound]
  rfl

theorem lookup_push_of_fresh (fresh : (heap.table frame).get? name = none) :
    heap.lookup (scope.push frame) name = heap.lookup scope name := by
  change heap.search name .missing (⟨frame, none⟩ :: scope.frames) = _
  rw [search, fresh]
  rfl

theorem reach_push_of_fresh (fresh : (heap.table frame).get? first = none)
    (rest : List String) :
    heap.reach (scope.push frame) (first :: rest) = heap.reach scope (first :: rest) := by
  rw [reach, reach, lookup_push_of_fresh fresh]

end Heap

/-- A frame binds names to arguments, and does not hide a qualified name. -/
structure Machine.Passes (machine : Machine) (frame : Ref .table) (first : String)
    (names : List String) (arguments : List Value) : Prop where
  bound :
    List.Forall₂ (fun name value => (machine.heap.table frame).get? name = some value)
      names arguments
  fresh : (machine.heap.table frame).get? first = none
  plain : ∀ name ∈ names, name ∉ literalNames
  present : ∀ value ∈ arguments, value.isMissing = false

/-- The call of a chain in code, with names for the arguments. -/
def Expr.chainCall (first : String) (rest : List String) (member : String)
    (names : List String) : Expr :=
  .call (.member (.chain first rest) member) (names.map .identifier) []

section Calls

variable {sources : Sources} {calls : Calls} {machine after : Machine} {frame : Ref .table}
  {name first member : String} {rest names : List String} {arguments : List Value}
  {owner : Run Value} {target value : Value} {fault : Fault}

theorem evaluateAll_identifiers {scope : Scope}
    (bound : List.Forall₂ (fun name value => machine.heap.lookup scope name = value)
      names arguments)
    (plain : ∀ name ∈ names, name ∉ literalNames)
    (present : ∀ value ∈ arguments, value.isMissing = false) :
    evaluateAll calls scope (names.map .identifier) machine = .ok arguments machine := by
  induction bound with
  | nil => rfl
  | @cons name value names arguments found _ inductionHypothesis =>
      obtain ⟨plainFirst, plainRest⟩ := List.forall_mem_cons.mp plain
      obtain ⟨presentFirst, presentRest⟩ := List.forall_mem_cons.mp present
      rw [← found] at presentFirst ⊢
      rw [List.map_cons, evaluateAll, evaluate]
      refine (EStateM.bind_of_ok (nameValue_of_found plainFirst presentFirst)).trans ?_
      refine (EStateM.bind_of_ok (inductionHypothesis plainRest presentRest)).trans ?_
      rfl

theorem evaluate_chainCall (passes : machine.Passes frame first names arguments) :
    evaluate calls (machine.root.push frame) (.chainCall first rest member names) machine =
      callMember calls ((Expr.member (.chain first rest) member).dottedName?)
        (ownerValue calls (machine.root.push frame) (Expr.chain first rest).dottedName?
          (evaluate calls (machine.root.push frame) (.chain first rest)))
        member arguments [] machine := by
  have bound : List.Forall₂
      (fun name value => machine.heap.lookup (machine.root.push frame) name = value)
      names arguments := passes.bound.imp fun _ _ => Heap.lookup_push_of_bound
  rw [Expr.chainCall, evaluate]
  refine (EStateM.bind_of_ok
    (evaluateAll_identifiers bound passes.plain passes.present)).trans ?_
  rfl

/-! ## Calls of members -/

theorem callMember_of_owner : owner machine = .ok target after →
    callMember calls (some name) owner member arguments [] machine =
      (match target, after.heap.getMember target member with
      | .module ref, .ok function => callValue calls function (some (.module ref)) arguments []
      | .module _, .error fault => throw fault
      | _, .ok function => callValue calls function none arguments []
      | _, .error _ => callStub name : Run Value) after := by
  intro owns
  have wrapped : (some <$> owner) machine = .ok (some target) after := by
    change EStateM.map some owner machine = _
    rw [EStateM.map, owns]
  rw [callMember]
  refine (EStateM.bind_of_ok (EStateM.tryCatch_eq_ok_iff.mpr (Or.inl wrapped))).trans ?_
  refine (EStateM.bind_of_ok rfl).trans ?_
  rfl

/-- Where the owner is no module, its member is called without a receiver. -/
theorem callMember_of_found (owns : owner machine = .ok target after)
    (plain : ∀ ref, target ≠ .module ref)
    (shown : after.heap.member? target member = some value) :
    callMember calls (some name) owner member arguments [] machine =
      callValue calls value none arguments [] after := by
  rw [callMember_of_owner owns, Heap.getMember, shown]
  cases target with
  | module ref => exact (plain ref rfl).elim
  | _ => rfl

theorem callMember_of_module {ref : Ref .module}
    (owns : owner machine = .ok (.module ref) after)
    (shown : after.heap.member? (.module ref) member = some value) :
    callMember calls (some name) owner member arguments [] machine =
      callValue calls value (some (.module ref)) arguments [] after := by
  rw [callMember_of_owner owns, Heap.getMember, shown]

/-- Where the owner is no module and lacks the member, a stand-in is called. -/
theorem callMember_of_lacking (owns : owner machine = .ok target after)
    (plain : ∀ ref, target ≠ .module ref)
    (lacks : after.heap.member? target member = none) :
    callMember calls (some name) owner member arguments [] machine = callStub name after := by
  rw [callMember_of_owner owns, Heap.getMember, lacks]
  cases target with
  | module ref => exact (plain ref rfl).elim
  | _ => rfl

/-- Where a source is missing that the owner is loaded from, a stand-in is called. -/
theorem callMember_of_sourceless (fails : owner machine = .error fault after)
    (sourceless : fault.kind = .sourceNotFound) :
    callMember calls (some name) owner member arguments [] machine = callStub name after := by
  have wrapped : (some <$> owner) machine = .error fault after := by
    change EStateM.map some owner machine = _
    rw [EStateM.map, fails]
  have caught :
      (tryCatch (some <$> owner) fun fault =>
        if fault.kind == .sourceNotFound && (some name).isSome then return none
        else throw fault : Run (Option Value)) machine = .ok none after := by
    refine EStateM.tryCatch_eq_ok_iff.mpr (Or.inr ⟨fault, after, wrapped, ?_⟩)
    rw [sourceless]
    rfl
  rw [callMember]
  exact EStateM.bind_of_ok caught

theorem callMember_of_fault (fails : owner machine = .error fault after)
    (other : fault.kind ≠ .sourceNotFound) :
    callMember calls (some name) owner member arguments [] machine = .error fault after := by
  have wrapped : (some <$> owner) machine = .error fault after := by
    change EStateM.map some owner machine = _
    rw [EStateM.map, fails]
  rw [callMember]
  refine EStateM.bind_eq_error_iff.mpr
    (Or.inl (EStateM.tryCatch_eq_error_iff.mpr ⟨fault, after, wrapped, ?_⟩))
  rw [beq_eq_false_iff_ne.mpr other]
  rfl

/-! ## Calls from outside -/

theorem invoke_of_resolve (resolves : resolve calls name machine = .ok value after) :
    invoke calls name arguments machine =
      if value.isMissing then callStub name after
      else callValue calls value none arguments [] after := by
  rw [invoke]
  refine (EStateM.bind_of_ok resolves).trans ?_
  cases value.isMissing <;> rfl

theorem invoke_of_fault (fails : resolve calls name machine = .error fault after) :
    invoke calls name arguments machine = .error fault after :=
  EStateM.bind_eq_error_iff.mpr (Or.inl fails)

/-- A function whose first parameter is not `self` takes no notice of a receiver. -/
theorem applyFunction_of_plain {ref : Ref .function} (receiver : Option Value)
    (plain : (machine.heap.list (machine.heap.function ref).parameters).head? ≠
      some (.str "self")) :
    applyFunction calls ref receiver arguments machine =
      applyFunction calls ref none arguments machine := by
  have same (parameters : List Value) (plain : parameters.head? ≠ some (.str "self")) :
      bindParameters receiver parameters arguments =
        bindParameters none parameters arguments := by
    rw [bindParameters.eq_def, bindParameters.eq_def]
    split
    · rename_i receiver rest
      exact (plain rfl).elim
    · rfl
  rw [applyFunction, applyFunction]
  refine (EStateM.bind_of_ok rfl).trans (Eq.trans ?_ (EStateM.bind_of_ok rfl).symm)
  rw [same _ plain]

/-- A value that is no function with a parameter `self` is called alike with a receiver and
without one. -/
theorem callValue_of_plain (receiver : Option Value)
    (plain : ∀ ref, value = .function ref →
      (machine.heap.list (machine.heap.function ref).parameters).head? ≠ some (.str "self")) :
    callValue (Calls.of sources) value receiver arguments [] machine =
      callValue (Calls.of sources) value none arguments [] machine := by
  cases value with
  | function ref => exact applyFunction_of_plain receiver (plain ref rfl)
  | _ => rfl

end Calls

/-! ## Both ways to call -/

namespace Machine

/-- What a qualified name is called as, in code and from outside: a member `member` of what
`owner` leads to. -/
inductive CalledAlike (sources : Sources) (machine : Machine) (owner member : String) : Prop
  /-- The names in sight lead to the value, which takes no receiver. -/
  | found {value : Value}
      (shown : machine.heap.member? (machine.heap.lookupQualified machine.root owner) member =
        some value)
      (present : value.isMissing = false)
      (plain : ∀ module, machine.heap.lookupQualified machine.root owner = .module module →
        ∀ function, value = .function function →
          (machine.heap.list (machine.heap.function function).parameters).head? ≠
            some (.str "self"))
  /-- The package is loaded, and what its name leads to lacks the member as it does. -/
  | lacking {ref : Ref .package}
      (owned : (machine.heap.lookupQualified machine.root owner).isMissing = false)
      (plain : ∀ module, machine.heap.lookupQualified machine.root owner ≠ .module module)
      (lacks : machine.heap.member? (machine.heap.lookupQualified machine.root owner) member =
        none)
      (known : machine.packages.get? owner = some ref)
      (unbound : (machine.memberOf ref member).isMissing = true)
  /-- The name leads nowhere, and its package is loaded. -/
  | loaded {ref : Ref .package} {after : Machine}
      (unowned : (machine.heap.lookupQualified machine.root owner).isMissing = true)
      (package : beginsWithPackage machine.heap machine.root owner = true)
      (loads : (Calls.of sources).package owner none machine = .ok ref after)
      (present : (after.heap.table (after.heap.package ref).members).get? member ≠
        some .missing)
  /-- The name leads nowhere, and the load of its package fails, though not for the lack of a
  source. -/
  | failed {fault : Fault} {after : Machine}
      (unowned : (machine.heap.lookupQualified machine.root owner).isMissing = true)
      (package : beginsWithPackage machine.heap machine.root owner = true)
      (fails : (Calls.of sources).package owner none machine = .error fault after)
      (other : fault.kind ≠ .sourceNotFound)

/-- A qualified name leads nowhere, and there is no source for what the load of its package
asks for. -/
structure Sourceless (sources : Sources) (machine : Machine) (owner member : String)
    (fault : Fault) (after : Machine) : Prop where
  /-- What the package's name leads to lacks the member, or it leads nowhere as well. -/
  nowhere :
    (machine.heap.lookupQualified machine.root owner).isMissing = false ∧
        (∀ module, machine.heap.lookupQualified machine.root owner ≠ .module module) ∧
        machine.heap.member? (machine.heap.lookupQualified machine.root owner) member = none ∨
      (machine.heap.lookupQualified machine.root owner).isMissing = true ∧
        beginsWithPackage machine.heap machine.root owner = true
  fails : (Calls.of sources).package owner none machine = .error fault after
  lacks : fault.kind = .sourceNotFound

section Ways

variable {sources : Sources} {machine after : Machine} {frame : Ref .table}
  {name first member : String} {rest names : List String} {arguments : List Value}
  {fault : Fault}

theorem splitLast_of_parts (parts : Heap.nameParts name = first :: (rest ++ [member])) :
    splitLast name = (".".intercalate (first :: rest), member) := by
  rw [splitLast, parts, ← List.cons_append, List.dropLast_concat, List.getLast?_concat]
  rfl

theorem dotless_owner (parts : Heap.nameParts name = first :: (rest ++ [member])) :
    Heap.Dotless (first :: rest) := by
  have whole := Heap.dotless_nameParts name
  rw [parts, ← List.cons_append] at whole
  exact whole.of_append

/-- What the name in front of the last point leads to. -/
theorem lookupQualified_owner (parts : Heap.nameParts name = first :: (rest ++ [member]))
    (scope : Scope) :
    machine.heap.lookupQualified scope (splitLast name).1 =
      machine.heap.reach scope (first :: rest) := by
  rw [splitLast_of_parts parts, Heap.reach_eq_lookupQualified (dotless_owner parts)]

theorem lookupQualified_member (parts : Heap.nameParts name = first :: (rest ++ [member])) :
    machine.heap.lookupQualified machine.root name =
      machine.heap.findMember (machine.heap.lookupQualified machine.root (splitLast name).1)
        member := by
  rw [lookupQualified_owner parts, Heap.lookupQualified_eq_reach, parts, ← List.cons_append,
    Heap.reach_snoc, Heap.owner?_of_ne_nil (List.cons_ne_nil _ _)]
  rfl

theorem dottedName?_call (parts : Heap.nameParts name = first :: (rest ++ [member])) :
    (Expr.member (.chain first rest) member).dottedName? = some name := by
  rw [← Expr.chain_snoc, Expr.dottedName?_chain, ← parts, Heap.intercalate_nameParts]

theorem dottedName?_owner (parts : Heap.nameParts name = first :: (rest ++ [member])) :
    (Expr.chain first rest).dottedName? = some (splitLast name).1 := by
  rw [Expr.dottedName?_chain, splitLast_of_parts parts]

/-- In code the owner is what its name leads to from outside. -/
theorem ownerValue_found (parts : Heap.nameParts name = first :: (rest ++ [member]))
    (plain : first ∉ literalNames) (passes : machine.Passes frame first names arguments)
    (owned : (machine.heap.lookupQualified machine.root (splitLast name).1).isMissing = false) :
    ownerValue (Calls.of sources) (machine.root.push frame) (Expr.chain first rest).dottedName?
        (evaluate (Calls.of sources) (machine.root.push frame) (.chain first rest)) machine =
      .ok (machine.heap.lookupQualified machine.root (splitLast name).1) machine := by
  have same : machine.heap.lookupQualified (machine.root.push frame) (splitLast name).1 =
      machine.heap.lookupQualified machine.root (splitLast name).1 := by
    rw [lookupQualified_owner parts, lookupQualified_owner parts,
      Heap.reach_push_of_fresh passes.fresh]
  rw [← same] at owned ⊢
  rw [dottedName?_owner parts]
  refine ownerValue_of_found owned ?_
  rw [lookupQualified_owner parts] at owned ⊢
  exact evaluate_chain plain (dotless_owner parts) owned

/-- Where the name of the owner leads nowhere, its package is loaded. -/
theorem ownerValue_missing (parts : Heap.nameParts name = first :: (rest ++ [member]))
    (passes : machine.Passes frame first names arguments)
    (unowned : (machine.heap.lookupQualified machine.root (splitLast name).1).isMissing = true)
    (package : beginsWithPackage machine.heap machine.root (splitLast name).1 = true)
    (evaluated : Run Value) :
    ownerValue (Calls.of sources) (machine.root.push frame) (Expr.chain first rest).dottedName?
        evaluated machine =
      (.package <$> (Calls.of sources).package (splitLast name).1 none : Run Value) machine := by
  have same : machine.heap.lookupQualified (machine.root.push frame) (splitLast name).1 =
      machine.heap.lookupQualified machine.root (splitLast name).1 := by
    rw [lookupQualified_owner parts, lookupQualified_owner parts,
      Heap.reach_push_of_fresh passes.fresh]
  have begins : beginsWithPackage machine.heap (machine.root.push frame) (splitLast name).1 =
      true := by
    rw [← package, splitLast_of_parts parts, beginsWithPackage, beginsWithPackage,
      Heap.nameParts_intercalate_of_dotless (List.cons_ne_nil _ _) (dotless_owner parts),
      List.headD_cons, Heap.lookup_push_of_fresh passes.fresh]
  rw [dottedName?_owner parts, ownerValue]
  refine (EStateM.bind_of_ok rfl).trans ?_
  rw [← same] at unowned
  rw [begins]
  simp only [Bool.not_true, Bool.false_eq_true, if_false, unowned, if_true]

theorem ownerValue_loaded (parts : Heap.nameParts name = first :: (rest ++ [member]))
    (passes : machine.Passes frame first names arguments)
    (unowned : (machine.heap.lookupQualified machine.root (splitLast name).1).isMissing = true)
    (package : beginsWithPackage machine.heap machine.root (splitLast name).1 = true)
    {ref : Ref .package}
    (loads : (Calls.of sources).package (splitLast name).1 none machine = .ok ref after)
    (evaluated : Run Value) :
    ownerValue (Calls.of sources) (machine.root.push frame) (Expr.chain first rest).dottedName?
        evaluated machine =
      .ok (.package ref) after := by
  rw [ownerValue_missing parts passes unowned package]
  change EStateM.map Value.package _ machine = _
  rw [EStateM.map, loads]

theorem ownerValue_unloaded (parts : Heap.nameParts name = first :: (rest ++ [member]))
    (passes : machine.Passes frame first names arguments)
    (unowned : (machine.heap.lookupQualified machine.root (splitLast name).1).isMissing = true)
    (package : beginsWithPackage machine.heap machine.root (splitLast name).1 = true)
    (fails : (Calls.of sources).package (splitLast name).1 none machine = .error fault after)
    (evaluated : Run Value) :
    ownerValue (Calls.of sources) (machine.root.push frame) (Expr.chain first rest).dottedName?
        evaluated machine =
      .error fault after := by
  rw [ownerValue_missing parts passes unowned package]
  change EStateM.map Value.package _ machine = _
  rw [EStateM.map, fails]

theorem evaluate_chainCall_eq (parts : Heap.nameParts name = first :: (rest ++ [member]))
    (passes : machine.Passes frame first names arguments) :
    evaluate (Calls.of sources) (machine.root.push frame) (.chainCall first rest member names)
        machine =
      callMember (Calls.of sources) (some name)
        (ownerValue (Calls.of sources) (machine.root.push frame)
          (Expr.chain first rest).dottedName?
          (evaluate (Calls.of sources) (machine.root.push frame) (.chain first rest)))
        member arguments [] machine := by
  rw [evaluate_chainCall passes, dottedName?_call parts]

theorem resolve_of_load (owned : (splitLast name).1 ≠ "") {ref : Ref .package}
    (unfound : (machine.heap.lookupQualified machine.root name).isMissing = true)
    (loads : (Calls.of sources).package (splitLast name).1 none machine = .ok ref after) :
    resolve (Calls.of sources) name machine =
      .ok (after.memberOf ref (splitLast name).2) after := by
  rw [resolve_of_missing _ unfound, if_neg owned]
  exact EStateM.bind_eq_ok_iff.mpr ⟨ref, after, loads, rfl⟩

theorem resolve_of_failure (owned : (splitLast name).1 ≠ "")
    (unfound : (machine.heap.lookupQualified machine.root name).isMissing = true)
    (fails : (Calls.of sources).package (splitLast name).1 none machine = .error fault after) :
    resolve (Calls.of sources) name machine = .error fault after := by
  rw [resolve_of_missing _ unfound, if_neg owned]
  exact EStateM.bind_eq_error_iff.mpr (Or.inl fails)

theorem unfound_of_unowned (parts : Heap.nameParts name = first :: (rest ++ [member]))
    (unowned : (machine.heap.lookupQualified machine.root (splitLast name).1).isMissing = true) :
    (machine.heap.lookupQualified machine.root name).isMissing = true := by
  rw [lookupQualified_member parts, Pickle.eq_missing unowned,
    Heap.findMember_of_isVacant _ rfl]
  rfl

theorem unfound_of_lacking (parts : Heap.nameParts name = first :: (rest ++ [member]))
    (lacks : machine.heap.member?
      (machine.heap.lookupQualified machine.root (splitLast name).1) member = none) :
    (machine.heap.lookupQualified machine.root name).isMissing = true := by
  rw [lookupQualified_member parts, Heap.findMember, lacks]
  rfl

/-- What is called alike is called alike: with the same value or fault, and in the same
state. -/
theorem CalledAlike.agree (parts : Heap.nameParts name = first :: (rest ++ [member]))
    (owned : (splitLast name).1 ≠ "") (plain : first ∉ literalNames)
    (passes : machine.Passes frame first names arguments)
    (alike : machine.CalledAlike sources (splitLast name).1 member) :
    evaluate (Calls.of sources) (machine.root.push frame) (.chainCall first rest member names)
        machine =
      invoke (Calls.of sources) name arguments machine := by
  rw [evaluate_chainCall_eq parts passes]
  have behind : (splitLast name).2 = member := by
    rw [splitLast_of_parts parts]
  have owner (owned :
      (machine.heap.lookupQualified machine.root (splitLast name).1).isMissing = false) :
      ownerValue (Calls.of sources) (machine.root.push frame)
          (Expr.chain first rest).dottedName?
          (evaluate (Calls.of sources) (machine.root.push frame) (.chain first rest)) machine =
        .ok (machine.heap.lookupQualified machine.root (splitLast name).1) machine :=
    ownerValue_found parts plain passes owned
  cases alike with
  | @found value shown present receiverless =>
      have isOwned :
          (machine.heap.lookupQualified machine.root (splitLast name).1).isMissing = false := by
        by_contra missing
        rw [Bool.not_eq_false] at missing
        have bare : machine.heap.member? .missing member = none := ite_self _
        rw [Pickle.eq_missing missing, bare] at shown
        cases shown
      have found : machine.heap.lookupQualified machine.root name = value := by
        rw [lookupQualified_member parts, Heap.findMember, shown]
        rfl
      have resolves : resolve (Calls.of sources) name machine = .ok value machine := by
        rw [resolve_of_found (found ▸ present), found]
      have invoked :
          invoke (Calls.of sources) name arguments machine =
            if value.isMissing then callStub name machine
            else callValue (Calls.of sources) value none arguments [] machine :=
        invoke_of_resolve resolves
      rw [present] at invoked
      refine Eq.trans ?_ invoked.symm
      by_cases isModule :
          ∃ ref, machine.heap.lookupQualified machine.root (splitLast name).1 = .module ref
      · obtain ⟨ref, isModule⟩ := isModule
        have owns := owner isOwned
        rw [isModule] at owns shown
        rw [callMember_of_module owns shown]
        exact callValue_of_plain _ (receiverless ref isModule)
      · exact callMember_of_found (owner isOwned) (fun ref same => isModule ⟨ref, same⟩) shown
  | @lacking ref isOwned receiverless lacks known unbound =>
      have resolves : resolve (Calls.of sources) name machine =
          .ok (machine.memberOf ref (splitLast name).2) machine :=
        resolve_of_load owned (unfound_of_lacking parts lacks) (package_of_known known)
      rw [behind] at resolves
      rw [callMember_of_lacking (owner isOwned) receiverless lacks, invoke_of_resolve resolves,
        if_pos unbound]
  | @loaded ref after unowned package loads present =>
      have resolves := resolve_of_load owned (unfound_of_unowned parts unowned) loads
      rw [behind, memberOf] at resolves
      have owns := ownerValue_loaded parts passes unowned package loads
        (evaluate (Calls.of sources) (machine.root.push frame) (.chain first rest))
      rw [invoke_of_resolve resolves]
      cases shown : (after.heap.table (after.heap.package ref).members).get? member with
      | none => exact callMember_of_lacking owns (fun _ => Value.noConfusion) shown
      | some value =>
          have isPresent : value.isMissing = false := by
            by_contra missing
            rw [Bool.not_eq_false] at missing
            exact present (shown.trans (congrArg some (Pickle.eq_missing missing)))
          rw [Option.getD_some, isPresent]
          exact callMember_of_found owns (fun _ => Value.noConfusion) shown
  | @failed fault after unowned package fails other =>
      rw [callMember_of_fault (ownerValue_unloaded parts passes unowned package fails _) other,
        invoke_of_fault (resolve_of_failure owned (unfound_of_unowned parts unowned) fails)]

/-- A stand-in yields a value if there is one, and is an unknown symbol otherwise. -/
theorem callStub_cases (name : String) (machine : Machine) :
    (Builtin.hasStub name = true → ∃ value after, callStub name machine = .ok value after) ∧
      (Builtin.hasStub name = false →
        callStub name machine = .error (.unknownSymbol name) machine) := by
  constructor
  · intro known
    rw [Builtin.hasStub, List.contains_iff_mem] at known
    simp only [Builtin.stubNames, List.mem_cons, List.not_mem_nil, or_false] at known
    rcases known with rfl | rfl | rfl | rfl
    · exact ⟨_, _, rfl⟩
    · exact ⟨_, _, rfl⟩
    · exact ⟨_, _, rfl⟩
    · exact ⟨_, _, rfl⟩
  · intro unknown
    have refused : Builtin.callStub name machine.recording =
        .error (.unknownSymbol name) machine.recording := by
      rw [Builtin.callStub.eq_def]
      split
      · cases unknown
      · cases unknown
      · cases unknown
      · cases unknown
      · rfl
    rw [callStub, Run.recorded, refused]

/-- Without a source, a call from outside fails for the lack of it, and one in code calls a
stand-in. -/
theorem Sourceless.differ (parts : Heap.nameParts name = first :: (rest ++ [member]))
    (owned : (splitLast name).1 ≠ "") (plain : first ∉ literalNames)
    (passes : machine.Passes frame first names arguments)
    (sourceless : machine.Sourceless sources (splitLast name).1 member fault after) :
    invoke (Calls.of sources) name arguments machine = .error fault after ∧
      ∃ between,
        evaluate (Calls.of sources) (machine.root.push frame)
            (.chainCall first rest member names) machine = callStub name between := by
  rw [evaluate_chainCall_eq parts passes]
  rcases sourceless.nowhere with ⟨isOwned, receiverless, lacks⟩ | ⟨unowned, package⟩
  · have unfound := unfound_of_lacking parts lacks
    refine ⟨invoke_of_fault (resolve_of_failure owned unfound sourceless.fails), machine, ?_⟩
    exact callMember_of_lacking (ownerValue_found parts plain passes isOwned) receiverless lacks
  · have unfound := unfound_of_unowned parts unowned
    refine ⟨invoke_of_fault (resolve_of_failure owned unfound sourceless.fails), after, ?_⟩
    exact callMember_of_sourceless
      (ownerValue_unloaded parts passes unowned package sourceless.fails _) sourceless.lacks

/-- The call of a qualified name in code, in a frame that binds names to the arguments, does
what its call from outside does where the name is called alike.  Where it leads nowhere and
its package has no source they never agree: the call from outside fails for the lack of the
source, while the one in code yields what the stand-in yields, or fails with an unknown
symbol if there is none. -/
theorem evaluate_eq_invoke (parts : Heap.nameParts name = first :: (rest ++ [member]))
    (owned : (splitLast name).1 ≠ "") (plain : first ∉ literalNames)
    (passes : machine.Passes frame first names arguments) :
    (machine.CalledAlike sources (splitLast name).1 member →
      evaluate (Calls.of sources) (machine.root.push frame)
          (.chainCall first rest member names) machine =
        invoke (Calls.of sources) name arguments machine) ∧
      ∀ fault after, machine.Sourceless sources (splitLast name).1 member fault after →
        invoke (Calls.of sources) name arguments machine = .error fault after ∧
          (Builtin.hasStub name = true → ∃ value last,
            evaluate (Calls.of sources) (machine.root.push frame)
              (.chainCall first rest member names) machine = .ok value last) ∧
          (Builtin.hasStub name = false → ∃ last,
            evaluate (Calls.of sources) (machine.root.push frame)
              (.chainCall first rest member names) machine =
                .error (.unknownSymbol name) last) := by
  refine ⟨fun alike => alike.agree parts owned plain passes, ?_⟩
  intro fault after sourceless
  obtain ⟨invoked, between, evaluated⟩ := sourceless.differ parts owned plain passes
  rw [evaluated]
  have stub := callStub_cases name between
  exact ⟨invoked, stub.1, fun unknown => ⟨between, stub.2 unknown⟩⟩

end Ways

end Machine

namespace UnreachedStub

/-- No source files at all. -/
def sources : Sources where
  program file := .error (.missingSource file)
  constants := none
  constantStorages := .empty

/-- An interpreter that has run no code, with a frame for the call. -/
def machine : Machine :=
  Machine.initial.withHeap (Machine.initial.heap.addTable .empty).2

def frame : Ref .table := (Machine.initial.heap.addTable .empty).1

theorem parts : Heap.nameParts "torch.size" = "torch" :: ([] ++ ["size"]) := by
  decide +kernel

theorem owner : (splitLast "torch.size").1 = "torch" := by
  rw [Machine.splitLast_of_parts parts]
  rfl

theorem passes : machine.Passes frame "torch" [] [] where
  bound := .nil
  fresh := congrArg (Table.get? · "torch") (Store.get_add_next _ Table.empty)
  plain := fun _ member => (List.not_mem_nil member).elim
  present := fun _ member => (List.not_mem_nil member).elim

/-- Whether a value is a package without a member. -/
def isPackageLacking (heap : Heap) (member : String) : Value → Bool
  | .package ref => (heap.member? (.package ref) member).isNone
  | _ => false

set_option maxRecDepth 100000 in
private theorem lacks :
    isPackageLacking machine.heap "size" (machine.heap.lookupQualified machine.root "torch") =
      true := by
  rw [machine, Machine.initial_eq]
  decide +kernel

theorem sourceless :
    machine.Sourceless sources (splitLast "torch.size").1 "size"
      (.missingSource (packageFile "torch")) (machine.asked (packageFile "torch")) := by
  have lacking := lacks
  rw [owner]
  cases leads : machine.heap.lookupQualified machine.root "torch" with
  | package ref =>
      rw [leads, isPackageLacking, Option.isNone_iff_eq_none] at lacking
      refine ⟨Or.inl ⟨?_, fun _ => ?_, ?_⟩, ?_, rfl⟩
      · rw [leads]
        rfl
      · rw [leads]
        exact Value.noConfusion
      · rw [leads]
        exact lacking
      · exact Machine.package_of_noSource rfl rfl
  | _ =>
      rw [leads] at lacking
      cases lacking

theorem evaluate_eq_invoke_torch :
    Heap.nameParts "torch.size" = "torch" :: ([] ++ ["size"]) ∧
      (splitLast "torch.size").1 ≠ "" ∧ "torch" ∉ literalNames ∧
      machine.Passes frame "torch" [] [] ∧
      invoke (Calls.of sources) "torch.size" [] machine =
        .error (.missingSource (packageFile "torch")) (machine.asked (packageFile "torch")) ∧
      ∃ value last,
        evaluate (Calls.of sources) (machine.root.push frame) (.chainCall "torch" [] "size" [])
          machine = .ok value last := by
  have owned : (splitLast "torch.size").1 ≠ "" := by
    rw [owner]
    decide
  have plain : "torch" ∉ literalNames := by decide
  have differs :=
    (Machine.evaluate_eq_invoke parts owned plain passes).2 _ _ sourceless
  exact ⟨parts, owned, plain, passes, differs.1, differs.2.1 rfl⟩

/-- The stand-in is there, but a call from outside does not reach it. -/
theorem exists_calls_differ :
    (∃ after, invoke (Calls.of sources) "torch.size" [] machine =
        .error (.missingSource (packageFile "torch")) after) ∧
      ∃ after,
        evaluate (Calls.of sources) (machine.root.push frame) (.chainCall "torch" [] "size" [])
          machine = .ok (.int 0) after := by
  have owned : (splitLast "torch.size").1 ≠ "" := by
    rw [owner]
    decide
  obtain ⟨invoked, between, evaluated⟩ :=
    sourceless.differ parts owned (by decide) passes
  refine ⟨⟨_, invoked⟩, between, evaluated.trans ?_⟩
  rfl

end UnreachedStub

end TorchArchive
