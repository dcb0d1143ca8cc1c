import TorchArchive.Proofs.Evaluation.Expressions
import TorchArchive.Proofs.Evaluation.Structured

/-!
# What statements keep

Every statement, every block and every function keeps a property of recordings that
archive code cannot end, if the names that it binds in the frame of its scope are
permitted.  Functions, packages and classes bind names in frames of their own.
-/

namespace TorchArchive

open Run

/-! ## Names that are bound -/

/-- The names that an assignment to a target may bind. -/
def Expr.boundNames : Expr → List String
  | identifier name => [name]
  | item (.identifier name) _ => if name = typesKey then [name] else []
  | tuple targets => targets.filterMap name?
  | _ => []

namespace Stmt

mutual

/-- The names that a statement may bind in the frame that it is executed in. -/
def boundNames : Stmt → List String
  | functionDef name _ _ | classDef name _ _ | declare name => [name]
  | assign target _ => target.boundNames
  | branch _ taken otherwise => boundNamesAll taken ++ boundNamesAll otherwise
  | imports packages => packages.filterMap (·.2)
  | _ => []

/-- The names that statements may bind in the frame that they are executed in. -/
def boundNamesAll : List Stmt → List String
  | [] => []
  | first :: rest => boundNames first ++ boundNamesAll rest

end

end Stmt

theorem Expr.mem_boundNames_tuple {targets : List Expr} {names : List String}
    (named : targets.mapM Expr.name? = some names) : names = (tuple targets).boundNames := by
  rw [boundNames]
  induction targets generalizing names with
  | nil =>
      cases named
      rfl
  | cons first rest inductionHypothesis =>
      rw [List.mapM_cons] at named
      obtain ⟨name, isName, named⟩ := Option.bind_eq_some_iff.mp named
      obtain ⟨others, isOthers, same⟩ := Option.bind_eq_some_iff.mp named
      cases same
      rw [List.filterMap_cons_some isName, ← inductionHypothesis isOthers]

variable {property : Machine → Prop} {permitted : Permission}

namespace Machine.Persists

/-! ## Assignments -/

section Steps

variable (persists : Persists property permitted)

include persists

theorem putItem (name : String) (container index value : Value) :
    Keeps property (TorchArchive.putItem name container index value) := by
  refine heap_keeps.bind fun heap => ?_
  split
  · dsimp only
    split
    · exact persists.modifyHeap fun _ => (Heap.Edit.setDict _ _).once
    · exact Keeps.throw _
  · split
    · split
      · exact Keeps.throw _
      · dsimp only
        split
        · exact persists.modifyHeap fun _ => (Heap.Edit.setList _ _).once
        · exact Keeps.throw _
    · exact Keeps.throw _
  · exact Keeps.throw _

theorem typesDict {scope : Scope} (allowed : permitted scope.inner.table typesKey)
    (found : Value) : Keeps property (TorchArchive.typesDict scope found) := by
  unfold TorchArchive.typesDict
  split
  · exact Keeps.pure _
  · exact (persists.allocate fun _ => (Heap.Edit.dict _).once).bind fun ref =>
      (persists.bind allowed _).bind fun _ => Keeps.pure _

theorem bindTuple {scope : Scope} {targets : List Expr}
    (allowed : ∀ name ∈ (Expr.tuple targets).boundNames, permitted scope.inner.table name)
    (value : Value) : Keeps property (TorchArchive.bindTuple scope targets value) := by
  have bindings (pairs : List (String × Value))
      (inside : ∀ pair ∈ pairs, permitted scope.inner.table pair.1) (heap : Heap) :
      heap.Edits permitted
        (pairs.foldl (fun heap pair => heap.bindIn scope pair.1 pair.2) heap) := by
    induction pairs generalizing heap with
    | nil => exact .refl
    | cons pair rest inductionHypothesis =>
        obtain ⟨first, others⟩ := List.forall_mem_cons.mp inside
        exact (Heap.Edit.bind _ pair.1 pair.2 (.inl first)).once.trans
          (inductionHypothesis others _)
  refine heap_keeps.bind fun heap => ?_
  split
  · rename_i items names _ named
    split
    · refine persists.modifyHeap (bindings _ ?_)
      rintro ⟨name, item⟩ member
      exact allowed name (Expr.mem_boundNames_tuple named ▸ (List.of_mem_zip member).1)
    · exact Keeps.throw _
  · exact Keeps.throw _

theorem declareFunction {scope : Scope} {name : String}
    (allowed : permitted scope.inner.table name) (parameters : List String)
    (body : List Stmt) :
    Keeps property
      (TorchArchive.declareFunction scope name parameters body) := by
  refine ((lookup_keeps scope _).bind fun _ => Keeps.pure _).bind fun module => ?_
  refine (persists.allocate fun _ => (Heap.Edit.list _).once).bind fun parameters => ?_
  refine (persists.allocate fun _ => (Heap.Edit.function _).once).bind fun ref => ?_
  exact persists.bind allowed _

/-- What follows the declaration of a class runs in a scope in which it may bind all
names. -/
theorem declareClass_bind {scope : Scope} {name : String}
    (allowed : permitted scope.inner.table name) {α : Type} {next : Scope → Run α}
    (keeps :
      ∀ inner : Scope, (∀ name, permitted inner.inner.table name) →
        Keeps property (next inner)) :
    Keeps property (TorchArchive.declareClass scope name >>= next) := by
  have declares : Keeps property (TorchArchive.declareClass scope name) := by
    refine ((lookup_keeps scope _).bind fun _ => Keeps.pure _).bind fun module => ?_
    refine (persists.allocate fun _ => (Heap.Edit.moduleClass _ _).once).bind fun ref => ?_
    exact (persists.bind allowed _).bind fun _ => heap_keeps.bind fun heap => Keeps.pure _
  intro before holds
  refine stateAfter_bind (fun _ _ fails => declares.error fails holds) ?_
  intro inner after ends
  have declared := declares.ok ends holds
  refine keeps inner ?_ after declared
  obtain ⟨_, _, _, ends⟩ := EStateM.bind_eq_ok_iff.mp ends
  obtain ⟨ref, _, _, ends⟩ := EStateM.bind_eq_ok_iff.mp ends
  obtain ⟨_, _, _, ends⟩ := EStateM.bind_eq_ok_iff.mp ends
  cases ends
  exact (persists.permits declared).moduleClass ref

end Steps

section Blocks

variable (persists : Persists property permitted) {calls : Calls} (keep : calls.Keep property)

include persists keep

theorem assign {scope : Scope} {target : Expr}
    (allowed : ∀ name ∈ target.boundNames, permitted scope.inner.table name)
    (value : Value) :
    Keeps property (TorchArchive.assign calls scope target value) := by
  unfold TorchArchive.assign
  split
  · exact persists.bind (allowed _ (List.mem_singleton.mpr rfl)) value
  · rename_i name _
    refine (persists.evaluate keep scope _).bind fun index => ?_
    refine (lookup_keeps scope _).bind fun found => ?_
    dsimp only
    split
    · rename_i isTypes
      have bound : typesKey ∈ (Expr.item (.identifier name) ‹Expr›).boundNames := by
        rw [Expr.boundNames, if_pos isTypes, isTypes]
        exact List.mem_singleton.mpr rfl
      exact (persists.typesDict (allowed _ bound) found).bind fun container =>
        persists.putItem _ container index value
    · exact persists.putItem _ found index value
  · exact (persists.evaluate keep scope _).bind fun owner =>
      persists.tryHeap fun _ _ sets => Heap.setMember_edits sets
  · exact persists.bindTuple allowed value
  · exact Keeps.throw _

theorem importPackage {scope : Scope} {otherName : Option String}
    (allowed : ∀ name ∈ otherName, permitted scope.inner.table name) (name : String) :
    Keeps property
      (TorchArchive.importPackage calls scope name otherName) := by
  refine (keep.package name none).bind fun ref => ?_
  split
  · exact Keeps.pure _
  · split
    · exact Keeps.pure _
    · exact persists.bind (allowed _ rfl) _

theorem importAll (scope : Scope) :
    ∀ packages : List (String × Option String),
      (∀ name ∈ packages.filterMap (·.2), permitted scope.inner.table name) →
        Keeps property (TorchArchive.importAll calls scope packages)
  | [], _ => Keeps.pure _
  | (name, otherName) :: rest, allowed => by
      have first : ∀ name ∈ otherName, permitted scope.inner.table name := fun name isName =>
        allowed name (List.mem_filterMap.mpr ⟨_, List.mem_cons_self, isName⟩)
      have others : ∀ name ∈ rest.filterMap (·.2), permitted scope.inner.table name :=
        fun name member => by
          obtain ⟨package, isPackage, isName⟩ := List.mem_filterMap.mp member
          exact allowed name
            (List.mem_filterMap.mpr ⟨package, List.mem_cons_of_mem _ isPackage, isName⟩)
      exact (persists.importPackage keep first name).bind fun _ => importAll scope rest others

end Blocks

mutual

theorem execute (persists : Persists property permitted) {calls : Calls}
    (keep : calls.Keep property) (scope : Scope) :
    ∀ statement : Stmt,
      (∀ name ∈ statement.boundNames, permitted scope.inner.table name) →
        Keeps property (TorchArchive.execute calls scope statement)
  | .pass, _ => by
      rw [TorchArchive.execute]
      exact Keeps.pure none
  | .returns result, _ => by
      rw [TorchArchive.execute]
      exact (persists.evaluate keep scope result).map some
  | .functionDef name parameters body, allowed => by
      rw [TorchArchive.execute]
      have named := allowed name (by rw [Stmt.boundNames]; exact List.mem_singleton.mpr rfl)
      exact (persists.declareFunction named parameters body).bind fun _ =>
        Keeps.pure none
  | .classDef name bases body, allowed => by
      rw [TorchArchive.execute]
      have named := allowed name (by rw [Stmt.boundNames]; exact List.mem_singleton.mpr rfl)
      exact persists.declareClass_bind named fun inner inside =>
        (persists.executeAll keep inner body fun name _ => inside name).bind fun _ =>
          Keeps.pure none
  | .declare name, allowed => by
      rw [TorchArchive.execute]
      have named := allowed name (by rw [Stmt.boundNames]; exact List.mem_singleton.mpr rfl)
      exact (persists.bind named .none).bind fun _ => Keeps.pure none
  | .assign target value, allowed => by
      rw [TorchArchive.execute]
      rw [Stmt.boundNames] at allowed
      exact (persists.evaluate keep scope value).bind fun value =>
        (persists.assign keep allowed value).bind fun _ => Keeps.pure none
  | .branch condition taken otherwise, allowed => by
      rw [TorchArchive.execute]
      rw [Stmt.boundNames] at allowed
      refine (persists.evaluate keep scope condition).bind fun condition => ?_
      split
      · exact persists.executeAll keep scope taken fun name member =>
          allowed name (List.mem_append_left _ member)
      · exact persists.executeAll keep scope otherwise fun name member =>
          allowed name (List.mem_append_right _ member)
      · exact Keeps.throw _
  | .call call, _ => by
      rw [TorchArchive.execute]
      exact (persists.evaluate keep scope call).bind fun _ => Keeps.pure none
  | .imports packages, allowed => by
      rw [TorchArchive.execute]
      rw [Stmt.boundNames] at allowed
      exact (persists.importAll keep scope packages allowed).bind fun _ => Keeps.pure none
  | .blank, _ => by
      rw [TorchArchive.execute]
      exact Keeps.throw _

theorem executeAll (persists : Persists property permitted) {calls : Calls}
    (keep : calls.Keep property) (scope : Scope) :
    ∀ body : List Stmt,
      (∀ name ∈ Stmt.boundNamesAll body, permitted scope.inner.table name) →
        Keeps property (TorchArchive.executeAll calls scope body)
  | [], _ => by
      rw [TorchArchive.executeAll]
      exact Keeps.pure none
  | first :: rest, allowed => by
      rw [TorchArchive.executeAll]
      rw [Stmt.boundNamesAll] at allowed
      refine (persists.execute keep scope first fun name member =>
        allowed name (List.mem_append_left _ member)).bind fun ended => ?_
      split
      · exact Keeps.pure _
      · exact persists.executeAll keep scope rest fun name member =>
          allowed name (List.mem_append_right _ member)

end

/-! ## Functions -/

variable (persists : Persists property permitted) {calls : Calls} (keep : calls.Keep property)

include persists keep

theorem runBlock {scope : Scope} {body : List Stmt}
    (allowed : ∀ name ∈ Stmt.boundNamesAll body, permitted scope.inner.table name) :
    Keeps property (TorchArchive.runBlock calls scope body) := by
  rw [runBlock_eq]
  exact (persists.executeAll keep scope body allowed).bind fun _ => Keeps.pure _

theorem applyFunction (ref : Ref .function) (receiver : Option Value)
    (arguments : List Value) :
    Keeps property
      (TorchArchive.applyFunction calls ref receiver arguments) := by
  refine heap_keeps.bind fun heap => ?_
  refine (persists.allocate fun _ => (Heap.Edit.table _).once).bind_ok fun before ends => ?_
  cases ends
  exact persists.runBlock keep fun name _ => (persists.permits before).fresh name

end Machine.Persists

end TorchArchive
