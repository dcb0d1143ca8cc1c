import TorchArchive.Evaluation.Nesting
import TorchArchive.Proofs.Evaluation.Edits

/-!
# What expressions keep

A property of recordings that archive code cannot end is kept by the evaluation of
every expression, if the calls that leave the code at hand keep it.
-/

namespace TorchArchive

/-- A property of recordings, asked of the recording of a machine. -/
abbrev OfRecording (property : Recording → Prop) : Machine → Prop :=
  fun machine => property machine.recording

namespace Machine

/-- Where code binds names of its own accord: in the outermost frame, in frames that are
new, and in the bodies of packages and classes. -/
structure Permits (permitted : Permission) (machine : Machine) : Prop where
  root : ∀ name, permitted machine.root.inner.table name
  fresh : ∀ name, permitted machine.heap.tables.next name
  package : ∀ ref name, permitted (machine.heap.package ref).members name
  moduleClass : ∀ ref name, permitted (machine.heap.moduleClass ref).members name

theorem permits_everywhere (machine : Machine) : machine.Permits .everywhere :=
  ⟨fun _ => trivial, fun _ => trivial, fun _ _ => trivial, fun _ _ => trivial⟩

/-- A property of machines that archive code cannot end where it binds names as permitted,
apart from the packages that it loads. -/
structure Persists (property : Machine → Prop)
    (permitted : Permission := .everywhere) : Prop where
  recording :
    ∀ machine : Machine,
      Recording.Persists (fun recording => property { machine with recording }) permitted
  beside :
    ∀ {machine : Machine} (requests : List String) (events : List Event),
      property machine → property { machine with requests, events }
  permits : ∀ {machine : Machine}, property machine → machine.Permits permitted := by
    exact fun _ => Machine.permits_everywhere _

end Machine

/-- Whatever is asked for beyond the code at hand keeps a property. -/
structure Calls.Keep (property : Machine → Prop) (calls : Calls) : Prop where
  apply :
    ∀ ref receiver arguments, Keeps property (calls.apply ref receiver arguments)
  package : ∀ name file, Keeps property (calls.package name file)
  constants : Keeps property calls.constants

namespace Machine

/-- A property of machines that archive code cannot end, whatever it loads or reads. -/
structure Lasts (sources : Sources) (property : Machine → Prop)
    (permitted : Permission := .everywhere) : Prop extends Persists property permitted where
  load :
    ∀ {machine : Machine} {name : String} (ref : Ref .package),
      machine.packages.get? name = none → property machine →
        property { machine with packages := machine.packages.insert name ref }
  constants :
    ∀ depth, (Calls.within sources depth).Keep property →
      Keeps property (loadConstants sources (Calls.within sources depth))

/-- A property that neither archive code ends nor the start or the failure of a trace. -/
structure Endures (sources : Sources) (property : Machine → Prop)
    (permitted : Permission := .everywhere) : Prop
    extends Lasts sources property permitted where
  reset :
    ∀ {machine : Machine}, property machine →
      property { machine with recording := machine.recording.reset }
  rollback :
    ∀ {machine : Machine}, property machine →
      property { machine with recording := machine.recording.rollback }

end Machine

/-! ## Steps of builtins -/

namespace Recording.Persists

variable {property : Recording → Prop} {permitted : Permission}
  (persists : Persists property permitted)

include persists

theorem setList (ref : Ref .list) (items : Heap → List Value) :
    Keeps property (Recorded.allocate fun heap => ((), heap.setList ref (items heap))) :=
  Keeps.modifyGet fun _ before => persists.edit (.setList ref _) before

theorem recordedList (items : Heap → List Value) :
    Keeps property (Recorded.allocate fun heap => heap.addList (items heap)) :=
  Keeps.modifyGet fun _ before => persists.edit (.list _) before

theorem pop (ref : Ref .list) (index : Int) : Keeps property (Method.pop ref index) := by
  refine Recorded.heap_keeps.bind fun heap => ?_
  dsimp only
  split
  · exact Keeps.throw _
  · split
    · exact Keeps.throw _
    · exact (persists.setList ref _).bind fun _ => Keeps.pure _

theorem method (method : Method) (positional : List Value)
    (keywords : List (String × Value)) :
    Keeps property (method.call positional keywords) := by
  rw [Method.call.eq_def]
  split
  · exact (persists.setList _ _).bind fun _ => Keeps.pure _
  · exact Recorded.heap_keeps.bind fun heap =>
      (Keeps.ofExcept _).bind fun items =>
        (persists.setList _ _).bind fun _ => Keeps.pure _
  · exact persists.pop _ _
  · exact (Keeps.ofExcept _).bind fun index => persists.pop _ index
  · exact (persists.recordedList _).bind fun _ => Keeps.pure _
  · exact Keeps.pure _
  · split
    · exact (Keeps.ofExcept _).bind fun found =>
        (persists.recordedList _).bind fun _ => Keeps.pure _
    · exact Keeps.throw _
  · exact Keeps.pure _
  · exact Keeps.throw _

theorem storageType (type : StorageType) (positional : List Value)
    (keywords : List (String × Value)) :
    Keeps property (type.call positional keywords) := by
  rw [StorageType.call]
  split
  · exact Keeps.map (Keeps.modifyGet fun _ before =>
      persists.edit (.storage _) before) _
  · exact Keeps.throw _

theorem builtin (builtin : Builtin) (positional : List Value)
    (keywords : List (String × Value)) :
    Keeps property (builtin.call positional keywords) := by
  cases builtin with
  | operator name =>
      exact Keeps.map (Keeps.modifyGet fun _ before =>
        persists.call name positional keywords before) _
  | _ => exact persists.survives.call (fun _ same => by cases same) positional keywords

end Recording.Persists

variable {property : Machine → Prop} {permitted : Permission} {α : Type}

/-! ## Single steps -/

namespace Run

theorem heap_keeps : Keeps property Run.heap :=
  Keeps.get.bind fun _ => Keeps.pure _

theorem root_keeps : Keeps property Run.root :=
  Keeps.get.bind fun _ => Keeps.pure _

/-- What follows a look at the outermost scope may use that it is the one. -/
theorem root_bind_keeps {next : Scope → Run α}
    (keeps : ∀ {machine : Machine}, property machine → Keeps property (next machine.root)) :
    Keeps property (Run.root >>= next) := by
  refine root_keeps.bind_ok fun before ends => ?_
  cases ends
  exact keeps before

theorem lookup_keeps (scope : Scope) (name : String) :
    Keeps property (Run.lookup scope name) :=
  heap_keeps.bind fun _ => Keeps.pure _

theorem recorded_keeps {step : Recorded α}
    (keeps :
      ∀ machine : Machine, Keeps (fun recording => property { machine with recording }) step) :
    Keeps property (Run.recorded step) := by
  intro machine before
  have after := keeps machine machine.recording before
  rw [stateAfter] at after ⊢
  rw [Run.recorded]
  cases ends : step machine.recording with
  | ok value recording =>
      rw [ends] at after
      exact after
  | error fault recording =>
      rw [ends] at after
      exact after

theorem record_keeps {step : Recording → α × Recording}
    (kept :
      ∀ machine : Machine, property machine →
        property { machine with recording := (step machine.recording).2 }) :
    Keeps property (Run.record step) :=
  Keeps.modifyGet fun machine before => kept machine before

end Run

open Run

namespace Machine.Persists

section Steps

variable (persists : Persists property permitted)

include persists

theorem allocate {step : Heap → α × Heap}
    (edits : ∀ heap, Heap.Edits heap permitted (step heap).2) :
    Keeps property (Run.allocate step) :=
  Keeps.modifyGet fun machine before =>
    (persists.recording machine).edits (edits machine.recording.heap) before

theorem report (event : Event) : Keeps property (Run.report event) :=
  Keeps.modify fun machine before =>
    persists.beside machine.requests (machine.events ++ [event]) before

theorem modifyHeap {step : Heap → Heap}
    (edits : ∀ heap, Heap.Edits heap permitted (step heap)) :
    Keeps property (Run.modifyHeap step) :=
  persists.allocate edits

theorem tryHeap {step : Heap → Except Fault Heap}
    (edits : ∀ heap after, step heap = .ok after → heap.Edits permitted after) :
    Keeps property (Run.tryHeap step) := by
  intro machine before
  have unfolded :
      Run.tryHeap step machine =
        EStateM.bind (ofExcept (step machine.recording.heap))
          (fun heap => Run.modifyHeap fun _ => heap) machine := rfl
  cases ends : step machine.recording.heap with
  | error fault =>
      rw [ends] at unfolded
      rw [stateAfter, unfolded]
      exact before
  | ok heap =>
      rw [ends] at unfolded
      rw [stateAfter, unfolded]
      exact (persists.recording machine).edits (edits machine.recording.heap heap ends) before

theorem bind {scope : Scope} {name : String} (allowed : permitted scope.inner.table name)
    (value : Value) : Keeps property (Run.bind scope name value) :=
  persists.modifyHeap fun _ =>
    (Heap.Edit.bind scope.inner.table name value (.inl allowed)).once

theorem newList (items : List Value) :
    Keeps property (Run.newList items) :=
  (persists.allocate fun _ => (Heap.Edit.list items).once).map _

/-! ## Calls of values -/

omit persists in
theorem guardCall {callee : String} {step : Recorded Value}
    (keeps :
      ∀ machine : Machine,
        Keeps (fun recording => property { machine with recording }) step) :
    Keeps property (TorchArchive.guardCall callee step) := by
  refine (recorded_keeps keeps).tryCatch fun fault => ?_
  split
  · exact Keeps.throw _
  · exact Keeps.throw _

theorem callStub (name : String) :
    Keeps property (TorchArchive.callStub name) :=
  recorded_keeps fun machine => (persists.recording machine).survives.callStub name

theorem newInstance (ref : Ref .moduleClass) :
    Keeps property (TorchArchive.newInstance ref) :=
  persists.allocate fun _ => (Heap.Edit.module ref).once

end Steps

section Values

variable (persists : Persists property permitted) {calls : Calls} (keep : calls.Keep property)

include persists keep

theorem callValue (target : Value) (receiver : Option Value) (positional : List Value)
    (keywords : List (String × Value)) :
    Keeps property
      (TorchArchive.callValue calls target receiver positional keywords) := by
  cases target with
  | function ref => exact keep.apply ref receiver positional
  | moduleClass ref =>
      refine (persists.newInstance ref).bind fun made => heap_keeps.bind fun heap => ?_
      split
      · exact (keep.apply _ _ _).bind fun _ => Keeps.pure _
      · exact Keeps.pure _
  | builtin builtin => exact guardCall fun machine =>
      (persists.recording machine).builtin builtin positional keywords
  | method method => exact guardCall fun machine =>
      (persists.recording machine).method method positional keywords
  | storageType type => exact guardCall fun machine =>
      (persists.recording machine).storageType type positional keywords
  | _ => exact heap_keeps.bind fun heap => Keeps.throw _

/-! ## Names -/

omit keep in
theorem bindConstants (constants : List Value) :
    Keeps property (TorchArchive.bindConstants constants) := by
  have members (ref : Ref .package) (members : List (String × Value)) (heap : Heap) :
      heap.Edits permitted
        (members.foldl
          (fun heap member => heap.bind (heap.package ref).members member.1 member.2)
          heap) := by
    induction members generalizing heap with
    | nil => exact .refl
    | cons member rest inductionHypothesis =>
        have isMember : heap.HoldsMembers (heap.package ref).members := .inl ⟨ref, rfl⟩
        exact (Heap.Edit.bind _ member.1 member.2 (.inr isMember)).once.trans
          (inductionHypothesis _)
  refine (persists.allocate fun _ => (Heap.Edit.package _).once).bind fun ref => ?_
  refine (persists.modifyHeap (members ref _)).bind fun _ => ?_
  exact root_bind_keeps fun before =>
    (persists.bind ((persists.permits before).root _) _).bind fun _ => Keeps.pure _

theorem nameValue (scope : Scope) (name : String) :
    Keeps property (TorchArchive.nameValue calls scope name) := by
  unfold TorchArchive.nameValue
  split
  · exact Keeps.pure _
  · exact Keeps.pure _
  · exact Keeps.pure _
  · refine (lookup_keeps scope name).bind fun value => ?_
    split
    · exact Keeps.pure _
    · split
      · exact Keeps.pure _
      · split
        · exact keep.constants.bind fun constants => persists.bindConstants constants
        · exact Keeps.throw _

omit persists in
theorem ownerValue (scope : Scope) (name : Option String) {evaluated : Run Value}
    (keeps : Keeps property evaluated) :
    Keeps property
      (TorchArchive.ownerValue calls scope name evaluated) := by
  unfold TorchArchive.ownerValue
  split
  · exact keeps
  · refine heap_keeps.bind fun heap => ?_
    split
    · exact keeps
    · dsimp only
      split
      · exact (keep.package _ _).map _
      · exact Keeps.pure _

/-! ## Expressions -/

omit persists keep in
theorem itemValue (target index : Value) :
    Keeps property (TorchArchive.itemValue target index) := by
  refine heap_keeps.bind fun heap => ?_
  split
  · exact Keeps.pure _
  · exact Keeps.throw _

theorem callMember (name : Option String) {owner : Run Value} (member : String)
    (positional : List Value) (keywords : List (String × Value))
    (keeps : Keeps property owner) :
    Keeps property
      (TorchArchive.callMember calls name owner member positional keywords) := by
  have caught :
      Keeps property
        (tryCatch (some <$> owner) fun fault =>
          if fault.kind == .sourceNotFound && name.isSome then return none
          else throw fault) := by
    refine (keeps.map some).tryCatch fun fault => ?_
    split
    · exact Keeps.pure _
    · exact Keeps.throw _
  refine caught.bind fun target? => ?_
  cases target? with
  | none => exact persists.callStub _
  | some target =>
      refine heap_keeps.bind fun heap => ?_
      split
      · exact persists.callValue keep _ _ _ _
      · exact Keeps.throw _
      · exact persists.callValue keep _ _ _ _
      · split
        · exact persists.callStub _
        · exact Keeps.throw _

end Values

mutual

theorem evaluate (persists : Persists property permitted) {calls : Calls}
    (keep : calls.Keep property) (scope : Scope) :
    ∀ expr : Expr,
      Keeps property (TorchArchive.evaluate calls scope expr)
  | .literal value => by
      rw [TorchArchive.evaluate]
      exact Keeps.pure value
  | .list items => by
      rw [TorchArchive.evaluate]
      exact (persists.evaluateAll keep scope items).bind fun values => persists.newList values
  | .tuple items => by
      rw [TorchArchive.evaluate]
      exact (persists.evaluateAll keep scope items).map _
  | .identifier name => by
      rw [TorchArchive.evaluate]
      exact persists.nameValue keep scope name
  | .member target name => by
      rw [TorchArchive.evaluate]
      exact (ownerValue keep scope _ (persists.evaluate keep scope target)).bind fun owner =>
        heap_keeps.bind fun heap => Keeps.ofExcept _
  | .item target index => by
      rw [TorchArchive.evaluate]
      refine heap_keeps.bind fun heap => ?_
      split
      · exact Keeps.pure _
      · exact (persists.evaluate keep scope target).bind fun target =>
          (persists.evaluate keep scope index).bind fun index => itemValue target index
  | .call callee arguments keywords => by
      have target := persists.evaluate keep scope callee
      have called :
          Keeps property (do
            let positional ← TorchArchive.evaluateAll calls scope arguments
            let keywords ← TorchArchive.evaluateKeywords calls scope [] keywords
            TorchArchive.callValue calls (← TorchArchive.evaluate calls scope callee)
              none positional keywords) :=
        (persists.evaluateAll keep scope arguments).bind fun positional =>
          (persists.evaluateKeywords keep scope [] keywords).bind fun keywords =>
            target.bind fun callee =>
              persists.callValue keep callee none positional keywords
      -- A member is called through its owner.
      cases callee with
      | member owner name =>
          rw [TorchArchive.evaluate]
          exact (persists.evaluateAll keep scope arguments).bind fun positional =>
            (persists.evaluateKeywords keep scope [] keywords).bind fun keywords =>
              persists.callMember keep _ name positional keywords
                (ownerValue keep scope _ (persists.evaluate keep scope owner))
      | _ =>
          rw [TorchArchive.evaluate]
          · exact called
          · intro _ _ same
            cases same
  | .blank => by
      rw [TorchArchive.evaluate]
      exact Keeps.throw _

theorem evaluateAll (persists : Persists property permitted) {calls : Calls}
    (keep : calls.Keep property) (scope : Scope) :
    ∀ exprs : List Expr,
      Keeps property (TorchArchive.evaluateAll calls scope exprs)
  | [] => by
      rw [TorchArchive.evaluateAll]
      exact Keeps.pure []
  | first :: rest => by
      rw [TorchArchive.evaluateAll]
      exact (persists.evaluate keep scope first).bind fun value =>
        (persists.evaluateAll keep scope rest).bind fun values => Keeps.pure (value :: values)

theorem evaluateKeywords (persists : Persists property permitted) {calls : Calls}
    (keep : calls.Keep property) (scope : Scope) :
    ∀ (done : List (String × Value)) (keywords : List (String × Expr)),
      Keeps property
        (TorchArchive.evaluateKeywords calls scope done keywords)
  | done, [] => by
      rw [TorchArchive.evaluateKeywords]
      exact Keeps.pure done
  | done, (name, first) :: rest => by
      rw [TorchArchive.evaluateKeywords]
      exact (persists.evaluate keep scope first).bind fun value =>
        persists.evaluateKeywords keep scope _ rest

end

end Machine.Persists

end TorchArchive
