import TorchArchive.Proofs.Escape.Loading

/-!
# Faults of what an archive holds

An archive that holds no model has no version, or no payload beside it.  No code that
is run, no package that is loaded and no constant that is read fails with such a fault:
each fault of theirs is about what an entry holds.
-/

namespace TorchArchive

/-- Whether a fault is about what the entries of an archive hold, and not about which
entries there are. -/
def Fault.isInternal : Fault → Bool
  | missingVersion | missingPayload _ => false
  | _ => true

theorem Fault.isInternal_of_kind {fault : Fault} (kind : fault.kind ≠ .format) :
    fault.isInternal = true := by
  cases fault with
  | missingVersion => exact absurd rfl kind
  | missingPayload folder => exact absurd rfl kind
  | _ => rfl

theorem Fault.isInternal_of_script {fault : Fault} (script : fault.isScriptFault = true) :
    fault.isInternal = true := by
  refine isInternal_of_kind fun format => ?_
  rw [isScriptFault, format] at script
  cases script

/-! ## Results -/

/-- A result whose fault, if it is one, is about what entries hold. -/
def Internal {α : Type} (result : Except Fault α) : Prop :=
  ∀ fault, result = .error fault → fault.isInternal = true

namespace Internal

variable {α β : Type}

theorem ok (value : α) : Internal (.ok value) := fun _ same => by cases same

theorem error {fault : Fault} (internal : fault.isInternal = true) :
    Internal (.error fault : Except Fault α) := fun _ same => by
  cases same
  exact internal

theorem of_blames {result : Except Fault α} (blames : Blames result) : Internal result :=
  fun fault same => Fault.isInternal_of_script (blames fault same)

theorem bind {first : Except Fault α} {second : α → Except Fault β}
    (internalFirst : Internal first) (internalSecond : ∀ value, Internal (second value)) :
    Internal (first >>= second) := by
  intro fault same
  rcases Except.bind_eq_error_iff.mp same with fails | ⟨value, _, fails⟩
  · exact internalFirst fault fails
  · exact internalSecond value fault fails

theorem map {result : Except Fault α} (internal : Internal result) (change : α → β) :
    Internal (result.map change) := by
  cases result with
  | ok value => exact ok _
  | error fault => exact error (internal fault rfl)

theorem mapM {step : α → Except Fault β} (internal : ∀ item, Internal (step item))
    (items : List α) : Internal (items.mapM step) := by
  intro fault fails
  obtain ⟨item, _, failsItem⟩ := Except.exists_of_mapM_eq_error fails
  exact internal item fault failsItem

theorem foldlM {step : β → α → Except Fault β}
    (internal : ∀ done item, Internal (step done item)) (items : List α) (start : β) :
    Internal (items.foldlM step start) := by
  induction items generalizing start with
  | nil => exact ok start
  | cons first rest inductionHypothesis =>
      rw [List.foldlM_cons]
      exact (internal start first).bind inductionHypothesis

end Internal

theorem Heap.iterate_internal (heap : Heap) (value : Value) : Internal (heap.iterate value) := by
  rw [iterate]
  split
  · exact .ok _
  · exact .error rfl

/-! ## Steps -/

section Steps

variable {σ α β : Type}

/-- A step whose faults are about what entries hold. -/
def Confined (step : EStateM Fault σ α) : Prop :=
  ∀ state fault after, step state = .error fault after → fault.isInternal = true

namespace Confined

theorem pure (value : α) : Confined (Pure.pure value : EStateM Fault σ α) := by
  intro _ _ _ fails
  cases fails

theorem throw {fault : Fault} (internal : fault.isInternal = true) :
    Confined (MonadExcept.throw fault : EStateM Fault σ α) := by
  intro _ _ _ fails
  cases fails
  exact internal

theorem get : Confined (MonadState.get : EStateM Fault σ σ) := by
  intro _ _ _ fails
  cases fails

theorem modifyGet (change : σ → α × σ) :
    Confined (MonadStateOf.modifyGet change : EStateM Fault σ α) := by
  intro _ _ _ fails
  cases fails

theorem ofExcept {result : Except Fault α} (internal : Internal result) :
    Confined (ofExcept result : EStateM Fault σ α) := by
  cases result with
  | ok value => exact pure value
  | error fault => exact throw (internal fault rfl)

theorem bind {first : EStateM Fault σ α} {second : α → EStateM Fault σ β}
    (confinedFirst : Confined first) (confinedSecond : ∀ value, Confined (second value)) :
    Confined (first >>= second) := by
  intro state fault after fails
  rcases EStateM.bind_eq_error_iff.mp fails with here | ⟨value, between, _, later⟩
  · exact confinedFirst state fault after here
  · exact confinedSecond value between fault after later

theorem map {step : EStateM Fault σ α} (confined : Confined step) (change : α → β) :
    Confined (change <$> step) := by
  rw [map_eq_pure_bind]
  exact confined.bind fun value => pure (change value)

/-- A handler is asked for the faults of what it handles only. -/
theorem tryCatch {step : EStateM Fault σ α} {handler : Fault → EStateM Fault σ α}
    (confined : Confined step)
    (handles : ∀ fault, fault.isInternal = true → Confined (handler fault)) :
    Confined (MonadExcept.tryCatch step handler) := by
  intro state fault after fails
  obtain ⟨other, between, here, later⟩ := EStateM.tryCatch_eq_error_iff.mp fails
  exact handles other (confined state other between here) between fault after later

theorem listMapM {step : α → EStateM Fault σ β} (confined : ∀ item, Confined (step item))
    (items : List α) : Confined (items.mapM step) := by
  induction items with
  | nil => exact pure []
  | cons first rest inductionHypothesis =>
      rw [List.mapM_cons]
      exact (confined first).bind fun value =>
        inductionHypothesis.bind fun values => pure (value :: values)

theorem listForM {step : α → EStateM Fault σ PUnit} {items : List α}
    (confined : ∀ item ∈ items, Confined (step item)) : Confined (items.forM step) := by
  induction items with
  | nil => exact pure PUnit.unit
  | cons first rest inductionHypothesis =>
      obtain ⟨confinedFirst, confinedRest⟩ := List.forall_mem_cons.mp confined
      change Confined (step first >>= fun _ => rest.forM step)
      exact confinedFirst.bind fun _ => inductionHypothesis confinedRest

end Confined

end Steps

/-! ## Builtins -/

namespace Builtin

theorem toInteger_internal (value : Value) : Internal (toInteger value) := by
  rw [toInteger]
  split
  · exact .ok _
  · exact .ok _
  · split
    · exact .ok _
    · split
      · exact .error rfl
      · exact .error rfl

theorem toFloat_internal (value : Value) : Internal (toFloat value) := by
  rw [toFloat]
  split
  · exact .ok _
  · split
    · exact .ok _
    · exact .error rfl

theorem areEqual_internal (left right : Value) : Internal (areEqual left right) := by
  unfold areEqual
  split
  · exact .ok _
  · split
    · exact .ok _
    · exact .error rfl

theorem isLess_internal (left right : Value) : Internal (isLess left right) := by
  rw [isLess]
  split
  · exact .ok _
  · exact .error rfl

theorem areSame_internal (left right : Value) : Internal (areSame left right) := by
  rw [areSame]
  split
  · exact .ok _
  · split
    · exact .ok _
    · exact .error rfl

theorem negated_internal (value : Value) : Internal (negated value) := by
  unfold negated
  split
  · exact .ok _
  · exact .error rfl

theorem entriesOf_internal (heap : Heap) (value : Value) : Internal (entriesOf heap value) := by
  have entry (entry : Value) : Internal (entryOf heap entry) := by
    refine (heap.iterate_internal entry).bind fun parts => ?_
    split
    · exact .ok _
    · exact .error rfl
  have added (entries : Entries) (item : Value) : Internal (addEntry heap entries item) := by
    refine (entry item).bind fun parts => ?_
    split
    · exact .ok _
    · exact .error rfl
  unfold entriesOf
  split
  · exact .ok _
  · exact (heap.iterate_internal _).bind fun items => .foldlM added items _

theorem memberOf_internal (heap : Heap) (target name : Value) :
    Internal (memberOf heap target name) := by
  unfold memberOf
  split
  · exact .ok _
  · split
    case h_10 =>
      split
      · exact .error rfl
      · exact .error rfl
      · exact .error rfl
    all_goals first | exact .ok _ | exact .error rfl

theorem dimensions_internal (heap : Heap) (value : Value) :
    Internal (dimensions heap value) := by
  unfold dimensions
  split
  · dsimp only
    split
    · exact (heap.iterate_internal _).bind fun _ => .ok _
    · exact .ok _
  · exact .ok _

theorem heap_confined : Confined Recorded.heap :=
  Confined.get.bind fun _ => .pure _

theorem newDict_confined (value : Value) : Confined (newDict value) := by
  refine heap_confined.bind fun heap => ?_
  have made (entries : Entries) :
      Confined (do
        let ref ← Recorded.allocate fun heap => heap.addDict ⟨true, entries⟩
        return Value.dict ref) :=
    (Confined.modifyGet _).bind fun _ => .pure _
  dsimp only
  split
  · exact (Confined.ofExcept (entriesOf_internal heap value)).bind made
  · exact made .empty

theorem sequence_confined (value : Value) : Confined (sequence? value) := by
  rw [sequence?]
  split
  · exact .pure _
  · exact heap_confined.bind fun heap =>
      (Confined.ofExcept (heap.iterate_internal value)).bind fun _ =>
        (Confined.modifyGet _).bind fun _ => .pure _

theorem rebuild_confined (storage offset size stride requiresGrad quantizer : Value) :
    Confined (rebuild storage offset size stride requiresGrad quantizer) :=
  heap_confined.bind fun _ => (sequence_confined size).bind fun _ =>
    (sequence_confined stride).bind fun _ => (Confined.modifyGet _).bind fun _ =>
      (Confined.modifyGet _).bind fun _ => .pure _

theorem product_confined (left right : Value) : Confined (product left right) := by
  rw [product]
  split
  · split
    · exact .pure _
    · exact .throw rfl
  · split
    · exact (Confined.modifyGet _).map _
    · exact .throw rfl

theorem callStub_confined (name : String) : Confined (callStub name) := by
  intro recording fault after fails
  have spared :
      ¬ Fails (fun fault => ¬ fault.isInternal = true) (callStub name) recording :=
    not_callStub fun outer => outer rfl
  by_contra outer
  exact spared ⟨fault, after, fails, outer⟩

theorem run_confined (builtin : Builtin) (values : List Value) :
    Confined (builtin.run values) := by
  refine heap_confined.bind fun heap => ?_
  split
  case h_3 => exact newDict_confined _
  case h_4 => exact .ofExcept (toInteger_internal _)
  case h_5 => exact .ofExcept (toFloat_internal _)
  case h_6 => exact (Confined.ofExcept (memberOf_internal _ _ _)).bind fun _ => .pure _
  case h_7 | h_11 => exact (Confined.modifyGet _).map _
  case h_13 => exact (Confined.ofExcept (areSame_internal _ _)).map _
  case h_14 => exact (Confined.ofExcept (areSame_internal _ _)).bind fun _ => .pure _
  case h_15 => exact .ofExcept (negated_internal _)
  case h_16 | h_17 => exact rebuild_confined _ _ _ _ _ _
  case h_19 => exact .ofExcept (dimensions_internal _ _)
  case h_20 => exact (Confined.ofExcept (areEqual_internal _ _)).map _
  case h_21 => exact (Confined.ofExcept (areEqual_internal _ _)).bind fun _ => .pure _
  case h_22 | h_23 => exact (Confined.ofExcept (isLess_internal _ _)).map _
  case h_24 => exact product_confined _ _
  all_goals first | exact .pure _ | exact .throw rfl

theorem call_confined (builtin : Builtin) (positional : List Value)
    (keywords : List (String × Value)) : Confined (builtin.call positional keywords) := by
  unfold call
  split
  · exact (Confined.modifyGet _).map _
  · split
    · exact .pure _
    · exact .throw rfl
  · split
    · exact callStub_confined _
    · exact .throw rfl
  · split
    · exact run_confined _ _
    · exact .throw rfl

end Builtin

theorem StorageType.call_confined (type : StorageType) (positional : List Value)
    (keywords : List (String × Value)) : Confined (type.call positional keywords) := by
  rw [StorageType.call]
  split
  · exact (Confined.modifyGet _).map _
  · exact .throw rfl

namespace Method

theorem sizeOf_internal (value : Value) : Internal (Method.sizeOf value) := by
  unfold Method.sizeOf
  split
  · split
    · split
      · exact .ok _
      · exact .error rfl
    · exact .error rfl
  · exact .error rfl

theorem parts_internal (text : String) (separator : Value) (limit : Int) :
    Internal (parts text separator limit) := by
  unfold parts
  dsimp only
  split
  · exact .ok _
  · split
    · exact .error rfl
    · exact .ok _
  · exact .error rfl

theorem pop_confined (ref : Ref .list) (index : Int) : Confined (pop ref index) := by
  refine Builtin.heap_confined.bind fun heap => ?_
  dsimp only
  split
  · exact .throw rfl
  · split
    · exact .throw rfl
    · exact (Confined.modifyGet _).bind fun _ => .pure _

theorem call_confined (method : Method) (positional : List Value)
    (keywords : List (String × Value)) : Confined (method.call positional keywords) := by
  unfold call
  split
  · exact (Confined.modifyGet _).bind fun _ => .pure _
  · exact Builtin.heap_confined.bind fun heap =>
      (Confined.ofExcept (heap.iterate_internal _)).bind fun _ =>
        (Confined.modifyGet _).bind fun _ => .pure _
  · exact pop_confined _ _
  · exact (Confined.ofExcept (sizeOf_internal _)).bind fun index => pop_confined _ index
  · exact (Confined.modifyGet _).bind fun _ => .pure _
  · exact .pure _
  · split
    · refine (Confined.ofExcept ?_).bind fun _ =>
        (Confined.modifyGet _).bind fun _ => .pure _
      exact (sizeOf_internal _).bind fun limit => parts_internal _ _ limit
    · exact .throw rfl
  · exact .pure _
  · exact .throw rfl

end Method

/-! ## Single steps of code -/

namespace Run

variable {α : Type}

theorem heap_confined : Confined Run.heap := Confined.get.bind fun _ => .pure _

theorem root_confined : Confined Run.root := Confined.get.bind fun _ => .pure _

theorem lookup_confined (scope : Scope) (name : String) : Confined (Run.lookup scope name) :=
  heap_confined.bind fun _ => .pure _

theorem allocate_confined (step : Heap → α × Heap) : Confined (Run.allocate step) :=
  .modifyGet _

theorem modifyHeap_confined (step : Heap → Heap) : Confined (Run.modifyHeap step) :=
  allocate_confined _

theorem tryHeap_confined {step : Heap → Except Fault Heap}
    (internal : ∀ heap, Internal (step heap)) : Confined (Run.tryHeap step) :=
  heap_confined.bind fun heap =>
    (Confined.ofExcept (internal heap)).bind fun _ => modifyHeap_confined _

theorem bind_confined (scope : Scope) (name : String) (value : Value) :
    Confined (Run.bind scope name value) := modifyHeap_confined _

theorem newList_confined (items : List Value) : Confined (Run.newList items) :=
  (allocate_confined _).map _

theorem recorded_confined {step : Recorded α} (confined : Confined step) :
    Confined (Run.recorded step) := by
  intro machine fault after fails
  rw [Run.recorded] at fails
  cases ends : step machine.recording with
  | ok value recording =>
      rw [ends] at fails
      cases fails
  | error other recording =>
      rw [ends] at fails
      cases fails
      exact confined _ _ _ ends

end Run

open Run

theorem guardCall_confined {callee : String} {step : Recorded Value}
    (confined : Confined step) : Confined (guardCall callee step) := by
  refine (recorded_confined confined).tryCatch fun fault internal => ?_
  split
  · exact .throw rfl
  · exact .throw internal

theorem callStub_confined (name : String) : Confined (callStub name) :=
  recorded_confined (Builtin.callStub_confined name)

theorem newInstance_confined (ref : Ref .moduleClass) : Confined (newInstance ref) :=
  allocate_confined _

theorem bindConstants_confined (constants : List Value) :
    Confined (bindConstants constants) :=
  (allocate_confined _).bind fun _ => (modifyHeap_confined _).bind fun _ =>
    root_confined.bind fun _ => (bind_confined _ _ _).bind fun _ => .pure _

theorem itemValue_confined (target index : Value) : Confined (itemValue target index) := by
  refine heap_confined.bind fun heap => ?_
  split
  · exact .pure _
  · exact .throw rfl

theorem putItem_confined (name : String) (container index value : Value) :
    Confined (putItem name container index value) := by
  refine heap_confined.bind fun heap => ?_
  split
  · dsimp only
    split
    · exact modifyHeap_confined _
    · exact .throw rfl
  · split
    · split
      · exact .throw rfl
      · dsimp only
        split
        · exact modifyHeap_confined _
        · exact .throw rfl
    · exact .throw rfl
  · exact .throw rfl

theorem typesDict_confined (scope : Scope) (found : Value) :
    Confined (typesDict scope found) := by
  unfold typesDict
  split
  · exact .pure _
  · exact (allocate_confined _).bind fun _ => (bind_confined _ _ _).bind fun _ => .pure _

theorem bindTuple_confined (scope : Scope) (targets : List Expr) (value : Value) :
    Confined (bindTuple scope targets value) := by
  refine heap_confined.bind fun heap => ?_
  split
  · split
    · exact modifyHeap_confined _
    · exact .throw rfl
  · exact .throw rfl

theorem moduleNameOf_confined (scope : Scope) : Confined (moduleNameOf scope) :=
  (lookup_confined _ _).bind fun _ => .pure _

theorem declareFunction_confined (scope : Scope) (name : String) (parameters : List String)
    (body : List Stmt) : Confined (declareFunction scope name parameters body) :=
  (moduleNameOf_confined scope).bind fun _ => (allocate_confined _).bind fun _ =>
    (allocate_confined _).bind fun _ => bind_confined _ _ _

theorem declareClass_confined (scope : Scope) (name : String) :
    Confined (declareClass scope name) :=
  (moduleNameOf_confined scope).bind fun _ => (allocate_confined _).bind fun _ =>
    (bind_confined _ _ _).bind fun _ => heap_confined.bind fun _ => .pure _

theorem claimPackage_confined (name : String) : Confined (claimPackage name) := by
  refine root_confined.bind fun root => heap_confined.bind fun heap => ?_
  split
  · exact .pure _
  · exact (allocate_confined _).bind fun _ =>
      (tryHeap_confined fun heap => .of_blames (heap.bindQualified_blames _ _ _)).bind
        fun _ => .pure _

theorem enterPackage_confined (name file : String) : Confined (enterPackage name file) :=
  (claimPackage_confined name).bind fun _ => (modifyHeap_confined _).bind fun _ =>
    (Confined.modifyGet _).bind fun _ => heap_confined.bind fun _ =>
      (modifyHeap_confined _).bind fun _ => root_confined.bind fun _ => .pure _

/-! ## Expressions and statements -/

/-- Whatever is asked for beyond the code at hand has faults about what entries hold. -/
structure Calls.Confined (calls : Calls) : Prop where
  apply : ∀ ref receiver arguments, TorchArchive.Confined (calls.apply ref receiver arguments)
  package : ∀ name file, TorchArchive.Confined (calls.package name file)
  constants : TorchArchive.Confined calls.constants

namespace Calls.Confined

variable {calls : Calls}

section Values

variable (confined : calls.Confined)

include confined

theorem callValue (target : Value) (receiver : Option Value) (positional : List Value)
    (keywords : List (String × Value)) :
    TorchArchive.Confined
      (TorchArchive.callValue calls target receiver positional keywords) := by
  cases target with
  | function ref => exact confined.apply ref receiver positional
  | moduleClass ref =>
      refine (newInstance_confined ref).bind fun made => heap_confined.bind fun heap => ?_
      split
      · exact (confined.apply _ _ _).bind fun _ => .pure _
      · exact .pure _
  | builtin builtin => exact guardCall_confined (builtin.call_confined _ _)
  | method method => exact guardCall_confined (method.call_confined _ _)
  | storageType type => exact guardCall_confined (type.call_confined _ _)
  | _ => exact heap_confined.bind fun heap => .throw rfl

theorem nameValue (scope : Scope) (name : String) :
    TorchArchive.Confined (TorchArchive.nameValue calls scope name) := by
  unfold TorchArchive.nameValue
  split
  · exact .pure _
  · exact .pure _
  · exact .pure _
  · refine (lookup_confined scope name).bind fun value => ?_
    split
    · exact .pure _
    · split
      · exact .pure _
      · split
        · exact confined.constants.bind bindConstants_confined
        · exact .throw rfl

theorem ownerValue (scope : Scope) (name : Option String) {evaluated : Run Value}
    (confinedValue : TorchArchive.Confined evaluated) :
    TorchArchive.Confined (TorchArchive.ownerValue calls scope name evaluated) := by
  unfold TorchArchive.ownerValue
  split
  · exact confinedValue
  · refine heap_confined.bind fun heap => ?_
    split
    · exact confinedValue
    · dsimp only
      split
      · exact (confined.package _ _).map _
      · exact .pure _

theorem callMember (name : Option String) {owner : Run Value} (member : String)
    (positional : List Value) (keywords : List (String × Value))
    (confinedOwner : TorchArchive.Confined owner) :
    TorchArchive.Confined
      (TorchArchive.callMember calls name owner member positional keywords) := by
  have caught :
      TorchArchive.Confined
        (tryCatch (some <$> owner) fun fault =>
          if fault.kind == .sourceNotFound && name.isSome then return none
          else throw fault) := by
    refine (confinedOwner.map some).tryCatch fun fault internal => ?_
    split
    · exact .pure _
    · exact .throw internal
  refine caught.bind fun target? => ?_
  cases target? with
  | none => exact callStub_confined _
  | some target =>
      refine heap_confined.bind fun heap => ?_
      have found := heap.getMember_blames target member
      split
      · exact confined.callValue _ _ _ _
      · rename_i fails
        exact .throw (Fault.isInternal_of_script (found _ fails))
      · exact confined.callValue _ _ _ _
      · rename_i fails
        split
        · exact callStub_confined _
        · exact .throw (Fault.isInternal_of_script (found _ fails))

end Values

mutual

/-- The faults of expressions are about what entries hold. -/
theorem evaluate (confined : calls.Confined) (scope : Scope) :
    ∀ expr : Expr, TorchArchive.Confined (TorchArchive.evaluate calls scope expr)
  | .literal value => by
      rw [TorchArchive.evaluate]
      exact .pure value
  | .list items => by
      rw [TorchArchive.evaluate]
      exact (confined.evaluateAll scope items).bind newList_confined
  | .tuple items => by
      rw [TorchArchive.evaluate]
      exact (confined.evaluateAll scope items).map _
  | .identifier name => by
      rw [TorchArchive.evaluate]
      exact confined.nameValue scope name
  | .member target name => by
      rw [TorchArchive.evaluate]
      exact (confined.ownerValue scope _ (confined.evaluate scope target)).bind fun owner =>
        heap_confined.bind fun heap => .ofExcept (.of_blames (heap.getMember_blames _ _))
  | .item target index => by
      rw [TorchArchive.evaluate]
      refine heap_confined.bind fun heap => ?_
      split
      · exact .pure _
      · exact (confined.evaluate scope target).bind fun target =>
          (confined.evaluate scope index).bind fun index => itemValue_confined target index
  | .call callee arguments keywords => by
      have positional := confined.evaluateAll scope arguments
      have named := confined.evaluateKeywords scope [] keywords
      have target := confined.evaluate scope callee
      -- A member is called through its owner.
      cases callee with
      | member owner name =>
          rw [TorchArchive.evaluate]
          exact positional.bind fun positional => named.bind fun keywords =>
            confined.callMember _ name positional keywords
              (confined.ownerValue scope _ (confined.evaluate scope owner))
      | _ =>
          rw [TorchArchive.evaluate]
          · exact positional.bind fun positional => named.bind fun keywords =>
              target.bind fun callee => confined.callValue callee none positional keywords
          · intro _ _ same
            cases same
  | .blank => by
      rw [TorchArchive.evaluate]
      exact .throw rfl

theorem evaluateAll (confined : calls.Confined) (scope : Scope) :
    ∀ exprs : List Expr, TorchArchive.Confined (TorchArchive.evaluateAll calls scope exprs)
  | [] => by
      rw [TorchArchive.evaluateAll]
      exact .pure []
  | first :: rest => by
      rw [TorchArchive.evaluateAll]
      exact (confined.evaluate scope first).bind fun value =>
        (confined.evaluateAll scope rest).bind fun values => .pure (value :: values)

theorem evaluateKeywords (confined : calls.Confined) (scope : Scope) :
    ∀ (done : List (String × Value)) (keywords : List (String × Expr)),
      TorchArchive.Confined (TorchArchive.evaluateKeywords calls scope done keywords)
  | done, [] => by
      rw [TorchArchive.evaluateKeywords]
      exact .pure done
  | done, (name, first) :: rest => by
      rw [TorchArchive.evaluateKeywords]
      exact (confined.evaluate scope first).bind fun value =>
        confined.evaluateKeywords scope _ rest

end

section Blocks

variable (confined : calls.Confined)

include confined

theorem assign (scope : Scope) (target : Expr) (value : Value) :
    TorchArchive.Confined (TorchArchive.assign calls scope target value) := by
  unfold TorchArchive.assign
  split
  · exact bind_confined _ _ _
  · refine (confined.evaluate scope _).bind fun index => ?_
    refine (lookup_confined scope _).bind fun found => ?_
    dsimp only
    split
    · exact (typesDict_confined scope found).bind fun container =>
        putItem_confined _ container index value
    · exact putItem_confined _ found index value
  · exact (confined.evaluate scope _).bind fun owner =>
      tryHeap_confined fun heap => .of_blames (heap.setMember_blames _ _ _)
  · exact bindTuple_confined _ _ _
  · exact .throw rfl

theorem importPackage (scope : Scope) (name : String) (otherName : Option String) :
    TorchArchive.Confined (TorchArchive.importPackage calls scope name otherName) := by
  refine (confined.package name none).bind fun ref => ?_
  split
  · exact .pure _
  · split
    · exact .pure _
    · exact bind_confined _ _ _

theorem importAll (scope : Scope) :
    ∀ packages : List (String × Option String),
      TorchArchive.Confined (TorchArchive.importAll calls scope packages)
  | [] => .pure _
  | (name, otherName) :: rest =>
      (confined.importPackage scope name otherName).bind fun _ => importAll scope rest

end Blocks

mutual

/-- The faults of statements are about what entries hold. -/
theorem execute (confined : calls.Confined) (scope : Scope) :
    ∀ statement : Stmt, TorchArchive.Confined (TorchArchive.execute calls scope statement)
  | .pass => by
      rw [TorchArchive.execute]
      exact .pure none
  | .returns result => by
      rw [TorchArchive.execute]
      exact (confined.evaluate scope result).map some
  | .functionDef name parameters body => by
      rw [TorchArchive.execute]
      exact (declareFunction_confined scope name parameters body).bind fun _ => .pure none
  | .classDef name bases body => by
      rw [TorchArchive.execute]
      exact (declareClass_confined scope name).bind fun inner =>
        (confined.executeAll inner body).bind fun _ => .pure none
  | .declare name => by
      rw [TorchArchive.execute]
      exact (bind_confined scope name .none).bind fun _ => .pure none
  | .assign target value => by
      rw [TorchArchive.execute]
      exact (confined.evaluate scope value).bind fun value =>
        (confined.assign scope target value).bind fun _ => .pure none
  | .branch condition taken otherwise => by
      rw [TorchArchive.execute]
      refine (confined.evaluate scope condition).bind fun condition => ?_
      split
      · exact confined.executeAll scope taken
      · exact confined.executeAll scope otherwise
      · exact .throw rfl
  | .call call => by
      rw [TorchArchive.execute]
      exact (confined.evaluate scope call).bind fun _ => .pure none
  | .imports packages => by
      rw [TorchArchive.execute]
      exact (confined.importAll scope packages).bind fun _ => .pure none
  | .blank => by
      rw [TorchArchive.execute]
      exact .throw rfl

theorem executeAll (confined : calls.Confined) (scope : Scope) :
    ∀ body : List Stmt, TorchArchive.Confined (TorchArchive.executeAll calls scope body)
  | [] => by
      rw [TorchArchive.executeAll]
      exact .pure none
  | first :: rest => by
      rw [TorchArchive.executeAll]
      refine (confined.execute scope first).bind fun ended => ?_
      split
      · exact .pure _
      · exact confined.executeAll scope rest

end

/-! ## Functions, packages and names -/

section Loads

variable (confined : calls.Confined)

include confined

theorem runBlock (scope : Scope) (body : List Stmt) :
    TorchArchive.Confined (TorchArchive.runBlock calls scope body) := by
  rw [runBlock_eq]
  exact (confined.executeAll scope body).bind fun _ => .pure _

theorem applyFunction (ref : Ref .function) (receiver : Option Value)
    (arguments : List Value) :
    TorchArchive.Confined (TorchArchive.applyFunction calls ref receiver arguments) :=
  heap_confined.bind fun _ => (allocate_confined _).bind fun _ => confined.runBlock _ _

theorem loadPackage {sources : Sources} (programs : ∀ file, Internal (sources.program file))
    (name : String) (file : Option String) :
    TorchArchive.Confined (TorchArchive.loadPackage sources calls name file) := by
  refine Confined.get.bind fun machine => ?_
  split
  · exact .pure _
  · have requests (file : String) :
        TorchArchive.Confined (requestProgram sources file) :=
      (Confined.modifyGet _).bind fun _ => .ofExcept (programs file)
    exact (requests _).bind fun program => (enterPackage_confined _ _).bind fun entered =>
      (confined.runBlock _ _).bind fun _ => .pure _

theorem resolve (name : String) :
    TorchArchive.Confined (TorchArchive.resolve calls name) := by
  refine heap_confined.bind fun heap => root_confined.bind fun root => ?_
  dsimp only
  split
  · exact .pure _
  · split
    · exact .pure _
    · exact (confined.package _ none).bind fun ref => heap_confined.bind fun heap => .pure _

end Loads

end Calls.Confined

end TorchArchive
