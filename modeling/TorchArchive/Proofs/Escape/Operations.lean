import TorchArchive.Proofs.Escape.Laws
import TorchArchive.Registry.Builtins

/-!
# Operands that builtins and methods fail with

A call of a builtin or a method turns a wrong type into a fault of the code that called
it.  What is left are the numbers, indices, names and entries that an operation cannot
deal with.
-/

namespace TorchArchive

namespace Fault

@[simp] theorem unguarded_value (detail : String) : (value detail).Unguarded :=
  ⟨rfl, fun _ same => by cases same⟩

@[simp] theorem unguarded_member (detail : String) : (member detail).Unguarded :=
  ⟨rfl, fun _ same => by cases same⟩

@[simp] theorem unguarded_overflow : overflow.Unguarded :=
  ⟨rfl, fun _ same => by cases same⟩

@[simp] theorem unguarded_index : index.Unguarded :=
  ⟨rfl, fun _ same => by cases same⟩

@[simp] theorem not_unguarded_type (detail : String) : ¬ (type detail).Unguarded :=
  fun unguarded => unguarded.2 detail rfl

theorem not_unguarded_of_script {fault : Fault} (script : fault.isScriptFault = true) :
    ¬ fault.Unguarded :=
  fun unguarded => not_foreign script unguarded.1

end Fault

/-! ## Sequences -/

namespace Heap

variable {heap : Heap} {value : Value}

/-- Going through a value fails with a wrong type only. -/
theorem iterate_guarded {fault : Fault} (fails : heap.iterate value = .error fault) :
    ¬ fault.Unguarded := by
  rw [iterate] at fails
  split at fails
  · cases fails
  · cases fails
    exact Fault.not_unguarded_type _

theorem iterate_eq_ok_iff {items : List Value} :
    heap.iterate value = .ok items ↔ heap.iterate? value = some items := by
  rw [iterate]
  cases heap.iterate? value with
  | none => simp
  | some found => simp

end Heap

/-- The ways in which a step that yields a result or a fault gets past a call. -/
def Breaks {α : Type} (result : Except Fault α) : Prop :=
  ∃ fault, result = .error fault ∧ fault.Unguarded

namespace Breaks

variable {α β : Type}

@[simp] theorem ok_iff (value : α) : Breaks (.ok value) ↔ False := by
  simp [Breaks]

@[simp] theorem error_iff (fault : Fault) :
    Breaks (.error fault : Except Fault α) ↔ fault.Unguarded := by
  simp [Breaks]

theorem bind_iff {first : Except Fault α} {second : α → Except Fault β} :
    Breaks (first >>= second) ↔
      Breaks first ∨ ∃ value, first = .ok value ∧ Breaks (second value) := by
  cases first with
  | error fault => simp [bind, Except.bind]
  | ok value => simp [bind, Except.bind]

theorem iterate_iff {heap : Heap} {value : Value} :
    Breaks (heap.iterate value) ↔ False := by
  constructor
  · rintro ⟨fault, fails, unguarded⟩
    exact Heap.iterate_guarded fails unguarded
  · exact False.elim

end Breaks

namespace Builtin

/-! ## Numbers -/

theorem toInteger_breaks_iff {value : Value} :
    Breaks (toInteger value) ↔
      ∃ x, number? value = some (.float x) ∧ x.truncate? = none := by
  rw [toInteger]
  cases number? value with
  | none => simp
  | some number =>
      cases number with
      | int n => simp
      | float x =>
          cases truncated : x.truncate? with
          | some n => simp [truncated]
          | none =>
              by_cases unordered : x.isNaN = true
              · simp [truncated, unordered]
              · simp [truncated, unordered]

theorem toFloat_breaks_iff {value : Value} :
    Breaks (toFloat value) ↔
      ∃ number, number? value = some number ∧ number.toFloat? = none := by
  rw [toFloat]
  cases number? value with
  | none => simp
  | some number =>
      cases converted : number.toFloat? with
      | some x => simp [converted]
      | none => simp [converted]

theorem areEqual_breaks_iff {left right : Value} : Breaks (areEqual left right) ↔ False := by
  have script : ¬ Fault.comparisonOperands.Unguarded := Fault.not_unguarded_of_script rfl
  rw [areEqual.eq_def]
  split
  · simp
  · split
    · simp
    · simp [script]

theorem isLess_breaks_iff {left right : Value} : Breaks (isLess left right) ↔ False := by
  have script : ¬ Fault.comparisonOperands.Unguarded := Fault.not_unguarded_of_script rfl
  rw [isLess]
  split
  · simp
  · simp [script]

theorem areSame_breaks_iff {left right : Value} : Breaks (areSame left right) ↔ False := by
  have script : ¬ Fault.identityOperands.Unguarded := Fault.not_unguarded_of_script rfl
  rw [areSame]
  split
  · simp
  · split
    · simp
    · simp [script]

theorem negated_breaks_iff {value : Value} : Breaks (negated value) ↔ False := by
  have script : ¬ Fault.negationOperand.Unguarded := Fault.not_unguarded_of_script rfl
  rw [negated.eq_def]
  split
  · simp
  · simp [script]

theorem dimensions_breaks_iff {heap : Heap} {value : Value} :
    Breaks (dimensions heap value) ↔ False := by
  rw [dimensions.eq_def]
  split
  · dsimp only
    split
    · rw [Breaks.bind_iff, Breaks.iterate_iff]
      simp [pure, Except.pure]
    · simp
  · simp

theorem product_fails_iff {left right : Value} {recording : Recording} :
    Fails Fault.Unguarded (product left right) recording ↔
      ∃ a b, number? left = some a ∧ number? right = some b ∧ a.mul? b = none := by
  have script : ¬ Fault.productOperands.Unguarded := Fault.not_unguarded_of_script rfl
  rw [product]
  split
  · rename_i a b first second
    rw [first, second]
    cases multiplied : a.mul? b with
    | some number => simp [Fails.pure_iff, multiplied]
    | none => simp [Fails.throw_iff, multiplied]
  · rename_i never
    have noNumbers : ¬ ∃ a b, number? left = some a ∧ number? right = some b ∧
        a.mul? b = none := by
      rintro ⟨a, b, first, second, _⟩
      exact never a b first second
    refine (iff_false_right noNumbers).mpr ?_
    split
    · rw [Fails.map_iff]
      exact (Fails.modifyGet_iff _).mp
    · rw [Fails.throw_iff]
      exact script

/-! ## Entries and members -/

/-- An entry that a dictionary can be made of. -/
def IsEntry (heap : Heap) (entry : Value) : Prop :=
  ∃ key value, heap.iterate? entry = some [key, value] ∧ key.key?.isSome = true

/-- The first that is no entry can be gone through, but has not two parts. -/
def Misshapen (heap : Heap) (entries : List Value) : Prop :=
  ∃ before entry after parts, entries = before ++ entry :: after ∧
    (∀ earlier ∈ before, IsEntry heap earlier) ∧
      heap.iterate? entry = some parts ∧ parts.length ≠ 2

theorem entryOf_breaks_iff {heap : Heap} {entry : Value} :
    Breaks (entryOf heap entry) ↔
      ∃ parts, heap.iterate? entry = some parts ∧ parts.length ≠ 2 := by
  rw [entryOf, Breaks.bind_iff, Breaks.iterate_iff, false_or]
  refine exists_congr fun parts => ?_
  rw [Heap.iterate_eq_ok_iff]
  refine and_congr_right fun _ => ?_
  split
  · simp [pure, Except.pure]
  · rename_i never
    have length : parts.length ≠ 2 := by
      intro two
      obtain ⟨key, value, same⟩ := List.length_eq_two.mp two
      exact never key value same
    simp [throw, throwThe, MonadExceptOf.throw, length]

/-- What happens to an entry: it is added, or it is misshapen, or it has a wrong type. -/
theorem addEntry_cases (heap : Heap) (entries : Entries) (entry : Value) :
    (IsEntry heap entry ∧ ∃ more, addEntry heap entries entry = .ok more) ∨
      (¬ IsEntry heap entry ∧ ∃ fault, addEntry heap entries entry = .error fault ∧
        (fault.Unguarded ↔
          ∃ parts, heap.iterate? entry = some parts ∧ parts.length ≠ 2)) := by
  cases decides : entryOf heap entry with
  | error fault =>
      have breaks : Breaks (entryOf heap entry) ↔ _ := entryOf_breaks_iff
      rw [decides, Breaks.error_iff] at breaks
      refine Or.inr ⟨?_, fault, ?_, breaks⟩
      · rintro ⟨key, value, found, _⟩
        rw [entryOf, Heap.iterate_eq_ok_iff.mpr found] at decides
        cases decides
      · rw [addEntry, decides]
        rfl
  | ok parts =>
      obtain ⟨found, iterates, same⟩ := Except.bind_eq_ok_iff.mp decides
      have whole : heap.iterate? entry = some [parts.1, parts.2] := by
        rw [Heap.iterate_eq_ok_iff] at iterates
        split at same
        · cases same
          exact iterates
        · cases same
      cases hashed : parts.1.key? with
      | some key =>
          refine Or.inl ⟨⟨parts.1, parts.2, whole, by rw [hashed]; rfl⟩, ?_⟩
          refine ⟨entries.put key parts.1 parts.2, ?_⟩
          rw [addEntry, decides]
          simp [bind, Except.bind, Entries.put?, hashed, pure, Except.pure]
      | none =>
          refine Or.inr ⟨?_, .type s!"unhashable type: '{heap.typeName parts.1}'", ?_, ?_⟩
          · rintro ⟨key, value, other, hashable⟩
            rw [whole] at other
            cases other
            rw [hashed] at hashable
            cases hashable
          · rw [addEntry, decides]
            simp [bind, Except.bind, Entries.put?, hashed, throw, throwThe,
              MonadExceptOf.throw]
          · simp [whole]

theorem foldlM_breaks_iff {heap : Heap} {items : List Value} (entries : Entries) :
    Breaks (items.foldlM (addEntry heap) entries) ↔ Misshapen heap items := by
  induction items generalizing entries with
  | nil =>
      refine (Breaks.ok_iff _).trans ⟨False.elim, ?_⟩
      rintro ⟨before, entry, after, _, same, _⟩
      cases before with
      | nil => cases same
      | cons _ _ => cases same
  | cons first rest inductionHypothesis =>
      rw [List.foldlM_cons]
      rcases addEntry_cases heap entries first with
        ⟨isEntry, more, adds⟩ | ⟨noEntry, fault, fails, unguarded⟩
      · rw [adds]
        refine (inductionHypothesis more).trans ?_
        constructor
        · rintro ⟨before, entry, after, parts, same, good, found, length⟩
          refine ⟨first :: before, entry, after, parts, by rw [same]; rfl, ?_, found, length⟩
          exact List.forall_mem_cons.mpr ⟨isEntry, good⟩
        · rintro ⟨before, entry, after, parts, same, good, found, length⟩
          cases before with
          | nil =>
              cases same
              obtain ⟨key, value, whole, _⟩ := isEntry
              rw [whole] at found
              cases found
              exact absurd rfl length
          | cons other before =>
              cases same
              exact ⟨before, entry, after, parts, rfl, (List.forall_mem_cons.mp good).2,
                found, length⟩
      · rw [fails]
        refine (Breaks.error_iff fault).trans (unguarded.trans ?_)
        constructor
        · rintro ⟨parts, found, length⟩
          exact ⟨[], first, rest, parts, rfl, fun _ member => (by cases member), found,
            length⟩
        · rintro ⟨before, entry, after, parts, same, good, found, length⟩
          cases before with
          | nil =>
              cases same
              exact ⟨parts, found, length⟩
          | cons other before =>
              cases same
              exact absurd (List.forall_mem_cons.mp good).1 noEntry

theorem entriesOf_breaks_iff {heap : Heap} {value : Value} :
    Breaks (entriesOf heap value) ↔
      (∀ ref, value ≠ .dict ref) ∧
        ∃ items, heap.iterate? value = some items ∧ Misshapen heap items := by
  rw [entriesOf.eq_def]
  split
  · simp
  · rename_i notDict
    rw [Breaks.bind_iff, Breaks.iterate_iff, false_or, and_iff_right notDict]
    refine exists_congr fun items => ?_
    rw [Heap.iterate_eq_ok_iff, foldlM_breaks_iff]

/-- Whether a value is asked for members of any name. -/
def takesAnyName : Value → Bool
  | .package _ | .module _ | .moduleClass _ | .dict _ | .atom .none => true
  | _ => false

/-- Whether a value is a name, or a text that counts as a wrong type. -/
def isText : Value → Bool
  | .atom (.str _) | .atom (.bytes _) | .atom (.byteArray _) => true
  | _ => false

theorem memberOf_breaks_iff {heap : Heap} {target name : Value} :
    Breaks (memberOf heap target name) ↔
      takesAnyName target = false ∧ isText name = false := by
  rw [memberOf.eq_def]
  split
  · simp [isText]
  · rename_i notName
    split
    case h_10 =>
      rename_i asked _ _ notNone package module moduleClass dict packageKey
        moduleClassKey moduleKey dictKey
      have free : takesAnyName asked = false := by
        cases asked with
        | package ref =>
            cases hashed : name.key? with
            | none => exact (package ref rfl hashed).elim
            | some key => exact (packageKey ref key rfl hashed).elim
        | module ref =>
            cases hashed : name.key? with
            | none => exact (module ref rfl hashed).elim
            | some key => exact (moduleKey ref key rfl hashed).elim
        | moduleClass ref =>
            cases hashed : name.key? with
            | none => exact (moduleClass ref rfl hashed).elim
            | some key => exact (moduleClassKey ref key rfl hashed).elim
        | dict ref =>
            cases hashed : name.key? with
            | none => exact (dict ref rfl hashed).elim
            | some key => exact (dictKey ref key rfl hashed).elim
        | atom a =>
            cases a with
            | none => exact (notNone rfl).elim
            | _ => rfl
        | _ => rfl
      rw [free]
      split
      · simp [isText]
      · simp [isText]
      · rename_i notBytes notByteArray
        have notText : isText name = false := by
          rw [isText.eq_def]
          split
          · exact (notName _ rfl).elim
          · exact (notBytes _ rfl).elim
          · exact (notByteArray _ rfl).elim
          · rfl
        simp [notText]
    all_goals simp [takesAnyName]

/-! ## Builtins -/

/-- The operands that a builtin fails with beyond a wrong type. -/
def Misused (heap : Heap) (builtin : Builtin) (values : List Value) : Prop :=
  match builtin, values with
  | .int, [value] => ∃ x, number? value = some (.float x) ∧ x.truncate? = none
  | .float, [value] => ∃ number, number? value = some number ∧ number.toFloat? = none
  | .multiply, [left, right] =>
      ∃ a b, number? left = some a ∧ number? right = some b ∧ a.mul? b = none
  | .orderedDict, [value] =>
      heap.truthy value = true ∧ (∀ ref, value ≠ .dict ref) ∧
        ∃ items, heap.iterate? value = some items ∧ Misshapen heap items
  | .getMember, [target, name, _] => takesAnyName target = false ∧ isText name = false
  | _, _ => False

variable {recording : Recording}

theorem heap_bind_iff {α : Type} {kind : Fault → Prop} {next : Heap → Recorded α} :
    Fails kind (Recorded.heap >>= next) recording ↔
      Fails kind (next recording.heap) recording :=
  Fails.bind_of_ok (rfl : Recorded.heap recording = .ok recording.heap recording)

theorem ofExcept_iff {α : Type} {result : Except Fault α} :
    Fails Fault.Unguarded (ofExcept result : Recorded α) recording ↔ Breaks result :=
  Fails.ofExcept_iff result

theorem newDict_fails_iff {value : Value} :
    Fails Fault.Unguarded (newDict value) recording ↔
      Misused recording.heap .orderedDict [value] := by
  have allocates (entries : Entries) (after : Recording) :
      ¬ Fails Fault.Unguarded
        (Recorded.allocate (fun heap => heap.addDict ⟨true, entries⟩) >>= fun ref =>
          pure (Value.dict ref)) after :=
    Fails.not_bind (Fails.not_modifyGet _) fun _ _ => Fails.not_pure _
  rw [newDict, heap_bind_iff, Misused]
  split
  · rename_i truthy
    refine (Fails.bind_iff_first allocates).trans ?_
    rw [ofExcept_iff, entriesOf_breaks_iff, and_iff_right truthy]
  · rename_i empty
    refine (iff_false_right fun both => empty both.1).mpr ?_
    exact Fails.not_bind (Fails.not_pure _) allocates

theorem sequence?_guarded {value : Value} :
    ¬ Fails Fault.Unguarded (sequence? value) recording := by
  rw [sequence?]
  split
  · exact Fails.not_pure _
  · rw [heap_bind_iff]
    refine Fails.not_bind ?_ fun _ _ =>
      Fails.not_bind (Fails.not_modifyGet _) fun _ _ => Fails.not_pure _
    rw [ofExcept_iff, Breaks.iterate_iff]
    exact id

theorem rebuild_guarded {storage offset size stride requiresGrad quantizer : Value} :
    ¬ Fails Fault.Unguarded
      (rebuild storage offset size stride requiresGrad quantizer) recording := by
  rw [rebuild, heap_bind_iff]
  refine Fails.not_bind sequence?_guarded fun _ _ => ?_
  refine Fails.not_bind sequence?_guarded fun _ _ => ?_
  refine Fails.not_bind (Fails.not_modifyGet _) fun _ _ => ?_
  exact Fails.not_bind (Fails.not_modifyGet _) fun _ _ => Fails.not_pure _

/-- A stand-in fails only where there is none. -/
theorem not_callStub {kind : Fault → Prop} {name : String}
    (harmless : ¬ kind (.unknownSymbol name)) :
    ¬ Fails kind (callStub name) recording := by
  have placeholder (size : Value) (after : Recording) :
      ¬ Fails kind
        (Value.tensor <$>
          Recorded.change fun recording => recording.placeholder none size) after := by
    rw [Fails.map_iff]
    exact Fails.not_modifyGet _
  unfold callStub
  split
  · exact Fails.not_bind (Fails.not_modifyGet _) fun _ _ => placeholder _ _
  · exact Fails.not_bind (placeholder _ _) fun _ _ =>
      Fails.not_bind (placeholder _ _) fun _ _ => Fails.not_pure _
  · exact Fails.not_bind (Fails.not_modifyGet _) fun _ _ => Fails.not_pure _
  · exact Fails.not_pure _
  · rw [Fails.throw_iff]
    exact harmless

theorem guarded_of_result {α : Type} {result : Except Fault α} (sound : ¬ Breaks result)
    (change : α → Value) :
    ¬ Fails Fault.Unguarded (change <$> ofExcept result : Recorded Value) recording := by
  rw [Fails.map_iff, ofExcept_iff]
  exact sound

theorem run_fails_iff {builtin : Builtin} {values : List Value} :
    Fails Fault.Unguarded (run builtin values) recording ↔
      Misused recording.heap builtin values := by
  rw [run, heap_bind_iff]
  split
  case h_3 => exact newDict_fails_iff
  case h_4 => exact ofExcept_iff.trans toInteger_breaks_iff
  case h_5 => exact ofExcept_iff.trans toFloat_breaks_iff
  case h_6 =>
    refine (Fails.bind_iff_first fun _ _ => Fails.not_pure _).trans ?_
    exact ofExcept_iff.trans memberOf_breaks_iff
  case h_24 => exact product_fails_iff
  case h_28 =>
    refine iff_of_false ((Fails.throw_iff _).not.mpr (Fault.not_unguarded_type _)) ?_
    rw [Misused]
    · exact id
    all_goals assumption
  -- The other builtins fail with wrong types or faults of the code only.
  all_goals refine iff_of_false ?_ id
  case h_7 | h_11 =>
    rw [Fails.map_iff]
    exact Fails.not_modifyGet _
  case h_12 =>
    rw [Fails.throw_iff]
    exact Fault.not_unguarded_of_script rfl
  case h_13 => exact guarded_of_result areSame_breaks_iff.mp _
  case h_14 =>
    refine Fails.not_bind ?_ fun _ _ => Fails.not_pure _
    exact ofExcept_iff.not.mpr areSame_breaks_iff.mp
  case h_15 => exact ofExcept_iff.not.mpr negated_breaks_iff.mp
  case h_16 | h_17 => exact rebuild_guarded
  case h_19 => exact ofExcept_iff.not.mpr dimensions_breaks_iff.mp
  case h_20 => exact guarded_of_result areEqual_breaks_iff.mp _
  case h_21 =>
    refine Fails.not_bind ?_ fun _ _ => Fails.not_pure _
    exact ofExcept_iff.not.mpr areEqual_breaks_iff.mp
  case h_22 | h_23 => exact guarded_of_result isLess_breaks_iff.mp _
  all_goals exact Fails.not_pure _

/-- The arguments that a call of a builtin fails with beyond a wrong type. -/
def CallMisused (heap : Heap) (builtin : Builtin) (positional : List Value)
    (keywords : List (String × Value)) : Prop :=
  ∃ values, (builtin.parameters.bind fun parameters =>
      Parameter.assign parameters positional keywords) = some values ∧
    Misused heap builtin values

theorem misfit_guarded : ¬ Fails Fault.Unguarded (throw misfit : Recorded Value) recording :=
  (Fails.throw_iff _).not.mpr (Fault.not_unguarded_type _)

theorem call_fails_iff {builtin : Builtin} {positional : List Value}
    {keywords : List (String × Value)} :
    Fails Fault.Unguarded (builtin.call positional keywords) recording ↔
      CallMisused recording.heap builtin positional keywords := by
  -- What takes arguments of any number has no parameters to misuse.
  have free (none : builtin.parameters = none) :
      ¬ CallMisused recording.heap builtin positional keywords := by
    rintro ⟨values, assigned, _⟩
    rw [none] at assigned
    cases assigned
  unfold Builtin.call
  split
  · refine iff_of_false ?_ (free rfl)
    rw [Fails.map_iff]
    exact Fails.not_modifyGet _
  · refine iff_of_false ?_ (free rfl)
    split
    · exact Fails.not_pure _
    · exact misfit_guarded
  · refine iff_of_false ?_ (free rfl)
    split
    · exact not_callStub (Fault.not_unguarded_of_script rfl)
    · exact misfit_guarded
  · split
    · rename_i values assigned
      rw [run_fails_iff, CallMisused, assigned]
      constructor
      · intro misused
        exact ⟨values, rfl, misused⟩
      · rintro ⟨other, same, misused⟩
        cases same
        exact misused
    · rename_i unassigned
      refine iff_of_false misfit_guarded ?_
      rintro ⟨values, assigned, _⟩
      rw [unassigned] at assigned
      cases assigned

end Builtin

theorem StorageType.call_guarded {type : StorageType} {positional : List Value}
    {keywords : List (String × Value)} {recording : Recording} :
    ¬ Fails Fault.Unguarded (type.call positional keywords) recording := by
  rw [StorageType.call]
  split
  · rw [Fails.map_iff]
    exact Fails.not_modifyGet _
  · exact (Fails.throw_iff _).not.mpr (Fault.not_unguarded_type _)

/-! ## Methods -/

namespace Method

/-- The integer that a value is. -/
def integer? : Value → Option Int
  | .atom a => a.integer?
  | _ => none

/-- The arguments that a call of a method fails with beyond a wrong type. -/
def CallMisused (heap : Heap) (method : Method) (positional : List Value)
    (keywords : List (String × Value)) : Prop :=
  match method, positional, keywords with
  | listPop ref, [], [] => heap.list ref = []
  | listPop ref, [index], [] =>
      ∃ n, integer? index = some n ∧
        (isSize n = false ∨ Heap.position? (heap.list ref).length n = none)
  | strSplit _, positional, keywords =>
      ∃ separator limit n,
        Parameter.assign
            [.optional "sep" .none, .optional "maxsplit" (.int (-1))]
            positional keywords = some [separator, limit] ∧
          integer? limit = some n ∧ (isSize n = false ∨ separator = .atom (.str ""))
  | _, _, _ => False

variable {recording : Recording}

theorem sizeOf_breaks_iff {value : Value} :
    Breaks (sizeOf value) ↔ ∃ n, integer? value = some n ∧ isSize n = false := by
  cases value with
  | atom a =>
      rw [sizeOf, integer?]
      cases a.integer? with
      | none => simp
      | some n =>
          cases size : isSize n with
          | true => simp [size]
          | false => simp [size]
  | _ => simp [sizeOf, integer?]

theorem sizeOf_eq_ok_iff {value : Value} {n : Int} :
    sizeOf value = .ok n ↔ integer? value = some n ∧ isSize n = true := by
  cases value with
  | atom a =>
      rw [sizeOf, integer?]
      cases a.integer? with
      | none => simp
      | some m =>
          dsimp only
          split
          · rename_i size
            constructor
            · intro same
              cases same
              exact ⟨rfl, size⟩
            · rintro ⟨same, _⟩
              cases same
              rfl
          · rename_i large
            refine iff_of_false (fun same => by cases same) ?_
            rintro ⟨same, size⟩
            cases same
            exact large size
  | _ => simp [sizeOf, integer?]

/-- An index is that of no item in front of the first item or behind the last. -/
theorem position?_eq_none_iff {size : Nat} {index : Int} :
    Heap.position? size index = none ↔ index < -size ∨ size ≤ index := by
  rw [Heap.position?]
  by_cases forwards : 0 ≤ index
  · rw [if_pos forwards]
    by_cases inside : index < size
    · rw [if_pos inside]
      refine iff_of_false (fun same => by cases same) ?_
      omega
    · rw [if_neg inside]
      exact iff_of_true rfl (Or.inr (Int.not_lt.mp inside))
  · rw [if_neg forwards]
    by_cases inside : 0 ≤ index + size
    · rw [if_pos inside]
      refine iff_of_false (fun same => by cases same) ?_
      omega
    · rw [if_neg inside]
      refine iff_of_true rfl (Or.inl ?_)
      omega

theorem position?_lt {size position : Nat} {index : Int}
    (found : Heap.position? size index = some position) : position < size := by
  rw [Heap.position?] at found
  split at found
  · split at found
    · cases found
      omega
    · cases found
  · split at found
    · cases found
      omega
    · cases found

theorem pop_fails_iff {ref : Ref .list} {index : Int} :
    Fails Fault.Unguarded (pop ref index) recording ↔
      Heap.position? (recording.heap.list ref).length index = none := by
  rw [pop, Builtin.heap_bind_iff]
  dsimp only
  split
  · rename_i outside
    rw [outside, Fails.throw_iff]
    simp
  · rename_i position inside
    have short := position?_lt inside
    rw [inside, List.getElem?_eq_getElem short]
    refine iff_of_false ?_ (by simp)
    exact Fails.not_bind (Fails.not_modifyGet _) fun _ _ => Fails.not_pure _

theorem parts_breaks_iff {text : String} {separator : Value} {limit : Int} :
    Breaks (parts text separator limit) ↔
      separator = .atom (.str "") := by
  unfold parts
  dsimp only
  split
  · simp
  · rename_i separator
    by_cases empty : separator.isEmpty = true
    · simp [String.isEmpty_iff.mp empty]
    · have different : separator ≠ "" := fun same => empty (String.isEmpty_iff.mpr same)
      simp [empty, different]
  · rename_i notNone notText
    have different : separator ≠ .atom (.str "") := fun same => notText "" same
    simp [different]

theorem call_fails_iff {method : Method} {positional : List Value}
    {keywords : List (String × Value)} :
    Fails Fault.Unguarded (method.call positional keywords) recording ↔
      CallMisused recording.heap method positional keywords := by
  rw [call.eq_def]
  split
  case h_3 =>
    rename_i ref
    rw [pop_fails_iff, CallMisused, position?_eq_none_iff, ← List.length_eq_zero_iff]
    omega
  case h_4 =>
    rename_i ref index
    rw [Fails.bind_iff, Builtin.ofExcept_iff, sizeOf_breaks_iff, CallMisused]
    constructor
    · rintro (⟨n, integer, large⟩ | ⟨n, after, ends, fails⟩)
      · exact ⟨n, integer, Or.inl large⟩
      · obtain ⟨sizes, rfl⟩ := EStateM.ofExcept_eq_ok_iff.mp ends
        exact ⟨n, (sizeOf_eq_ok_iff.mp sizes).1, Or.inr (pop_fails_iff.mp fails)⟩
    · rintro ⟨n, integer, misused⟩
      cases size : isSize n with
      | false => exact Or.inl ⟨n, integer, size⟩
      | true =>
          have outside : Heap.position? (recording.heap.list ref).length n = none := by
            rcases misused with large | outside
            · rw [size] at large
              cases large
            · exact outside
          refine Or.inr ⟨n, recording, ?_, pop_fails_iff.mpr outside⟩
          exact EStateM.ofExcept_eq_ok_iff.mpr
            ⟨sizeOf_eq_ok_iff.mpr ⟨integer, size⟩, rfl⟩
  case h_7 =>
    rename_i text positional keywords
    rw [CallMisused]
    split
    · rename_i separator limit assigned
      refine (Fails.bind_iff_first fun _ _ => Fails.not_bind (Fails.not_modifyGet _)
        fun _ _ => Fails.not_pure _).trans ?_
      rw [Builtin.ofExcept_iff, Breaks.bind_iff, sizeOf_breaks_iff]
      constructor
      · rintro (⟨n, integer, large⟩ | ⟨n, sizes, breaks⟩)
        · exact ⟨separator, limit, n, assigned, integer, Or.inl large⟩
        · exact ⟨separator, limit, n, assigned, (sizeOf_eq_ok_iff.mp sizes).1,
            Or.inr (parts_breaks_iff.mp breaks)⟩
      · rintro ⟨_, _, n, same, integer, misused⟩
        rw [assigned] at same
        cases same
        cases size : isSize n with
        | false => exact Or.inl ⟨n, integer, size⟩
        | true =>
            have empty : separator = .atom (.str "") := by
              rcases misused with large | empty
              · rw [size] at large
                cases large
              · exact empty
            exact Or.inr ⟨n, sizeOf_eq_ok_iff.mpr ⟨integer, size⟩,
              parts_breaks_iff.mpr empty⟩
    · rename_i never
      refine iff_of_false
        ((Fails.throw_iff _).not.mpr (Fault.not_unguarded_type _)) ?_
      rintro ⟨separator, limit, _, assigned, _⟩
      exact never separator limit assigned
  case h_9 =>
    refine iff_of_false ((Fails.throw_iff _).not.mpr (Fault.not_unguarded_type _)) ?_
    rw [CallMisused]
    · exact id
    all_goals assumption
  all_goals refine iff_of_false ?_ id
  case h_1 | h_5 =>
    exact Fails.not_bind (Fails.not_modifyGet _) fun _ _ => Fails.not_pure _
  case h_2 =>
    rw [Builtin.heap_bind_iff]
    refine Fails.not_bind ?_ fun _ _ =>
      Fails.not_bind (Fails.not_modifyGet _) fun _ _ => Fails.not_pure _
    rw [Builtin.ofExcept_iff, Breaks.iterate_iff]
    exact id
  all_goals exact Fails.not_pure _

end Method

end TorchArchive
