import TorchArchive.Evaluation.Nesting
import TorchArchive.Proofs.Steps

/-!
# Blocks run statement by statement

Running the queue of a block is the structured execution of its statements: each one runs
behind those in front of it, a branch runs its statements as a list of its own, and only
what falls through lets the next statement run.  A value that ends a block is kept apart
from falling through its last statement, although both may yield nothing.
-/

namespace TorchArchive

/-! ## Structured execution -/

mutual

/-- Executes a statement; a value ends the block. -/
def execute (calls : Calls) (scope : Scope) : Stmt → Run (Option Value)
  | .pass => pure none
  | .returns result => some <$> evaluate calls scope result
  | .functionDef name parameters body => do
      declareFunction scope name parameters body
      return none
  | .classDef name _ body => do
      let inner ← declareClass scope name
      let _ ← executeAll calls inner body
      return none
  | .declare name => do
      Run.bind scope name .none
      return none
  | .assign target value => do
      assign calls scope target (← evaluate calls scope value)
      return none
  | .branch condition taken otherwise => do
      match ← evaluate calls scope condition with
      | .atom (.bool true) => executeAll calls scope taken
      | .atom (.bool false) => executeAll calls scope otherwise
      | _ => throw .unknownCondition
  | .call call => do
      let _ ← evaluate calls scope call
      return none
  | .imports packages => do
      importAll calls scope packages
      return none
  | .blank => throw (.unknownStatement "Statement")

/-- Executes statements in order, up to the first that ends the block. -/
def executeAll (calls : Calls) (scope : Scope) : List Stmt → Run (Option Value)
  | [] => pure none
  | first :: rest => do
      match ← execute calls scope first with
      | some value => return some value
      | none => executeAll calls scope rest

end

/-- The value that the structured execution of a block ends with; nothing if it does not end
before its last statement. -/
def structuredBlock (calls : Calls) (scope : Scope) (body : List Stmt) : Run Value := do
  return (← executeAll calls scope body).getD .none

/-! ## Blocks -/

/-- What is left of a block behind a step: the rest of it, unless the step ended it. -/
def andThen (step : Run (Option Value)) (rest : Run α) (ending : Value → Run α) : Run α :=
  step >>= fun ended => ended.elim rest ending

section Blocks

variable {α β : Type} (calls : Calls)

theorem bind_andThen (first : Run β) (next : β → Run (Option Value)) (rest : Run α)
    (ending : Value → Run α) :
    andThen (first >>= next) rest ending =
      first >>= fun value => andThen (next value) rest ending :=
  bind_assoc first next _

theorem andThen_none (rest : Run α) (ending : Value → Run α) :
    andThen (pure none) rest ending = rest := rfl

/-- What falls through two parts of a block runs what is behind both. -/
theorem andThen_assoc (front back : Run (Option Value)) (rest : Run α) (ending : Value → Run α) :
    andThen (andThen front back fun value => pure (some value)) rest ending =
      andThen front (andThen back rest ending) ending := by
  refine (bind_andThen front _ rest ending).trans ?_
  rw [andThen]
  congr 1
  funext ended
  cases ended <;> rfl

theorem executeAll_cons (scope : Scope) (first : Stmt) (rest : List Stmt) :
    executeAll calls scope (first :: rest) =
      andThen (execute calls scope first) (executeAll calls scope rest)
        fun value => pure (some value) := by
  rw [executeAll, andThen]
  congr 1
  funext ended
  cases ended <;> rfl

/-- Two lists of statements run one behind the other, the second one only if the first one
falls through. -/
theorem executeAll_append (scope : Scope) (front back : List Stmt) :
    executeAll calls scope (front ++ back) =
      andThen (executeAll calls scope front) (executeAll calls scope back)
        fun value => pure (some value) := by
  induction front with
  | nil =>
      rw [List.nil_append, executeAll, andThen_none]
  | cons first rest inductionHypothesis =>
      rw [List.cons_append, executeAll_cons, inductionHypothesis, executeAll_cons, andThen_assoc]

mutual

/-- The first of the pending statements runs as a statement, and the others only if it falls
through: where it is a branch, what it takes runs in front of them. -/
theorem runBlock_cons (scope : Scope) :
    ∀ (statement : Stmt) (pending : List Stmt),
      runBlock calls scope (statement :: pending) =
        andThen (execute calls scope statement) (runBlock calls scope pending) pure
  | .pass, pending => by
      rw [runBlock, execute, andThen_none]
  | .returns result, pending => by
      rw [runBlock, execute, map_eq_pure_bind, bind_andThen]
      exact (bind_pure _).symm
  | .functionDef name parameters body, pending => by
      rw [runBlock, execute, bind_andThen]
      rfl
  | .classDef name bases body, pending => by
      rw [runBlock, execute, bind_andThen]
      congr 1
      funext inner
      have inside := runBlock_append inner body []
      rw [List.append_nil] at inside
      rw [inside, bind_andThen, andThen, bind_assoc, runBlock]
      congr 1
      funext ended
      cases ended <;> rfl
  | .declare name, pending => by
      rw [runBlock, execute, bind_andThen]
      rfl
  | .assign target value, pending => by
      rw [runBlock, execute, bind_andThen]
      congr 1
      funext value
      rw [bind_andThen]
      rfl
  | .branch condition taken otherwise, pending => by
      rw [runBlock, execute, bind_andThen]
      congr 1
      funext value
      cases value with
      | atom atom =>
          cases atom with
          | bool holds =>
              cases holds with
              | true => exact runBlock_append scope taken pending
              | false => exact runBlock_append scope otherwise pending
          | _ => rfl
      | _ => rfl
  | .call call, pending => by
      rw [runBlock, execute, bind_andThen]
      rfl
  | .imports packages, pending => by
      rw [runBlock, execute, bind_andThen]
      rfl
  | .blank, pending => by
      rw [runBlock, execute]
      rfl

theorem runBlock_append (scope : Scope) :
    ∀ front pending : List Stmt,
      runBlock calls scope (front ++ pending) =
        andThen (executeAll calls scope front) (runBlock calls scope pending) pure
  | [], pending => by
      rw [List.nil_append, executeAll, andThen_none]
  | first :: rest, pending => by
      rw [List.cons_append, runBlock_cons scope first (rest ++ pending),
        runBlock_append scope rest pending, executeAll_cons, andThen_assoc]

end

theorem runBlock_eq (scope : Scope) (body : List Stmt) :
    runBlock calls scope body = structuredBlock calls scope body := by
  have whole := runBlock_append calls scope body []
  rw [List.append_nil] at whole
  rw [whole, structuredBlock, andThen]
  congr 1
  funext ended
  cases ended with
  | none =>
      rw [runBlock]
      rfl
  | some value => rfl

end Blocks

/-! ## Calls -/

/-- Runs a function in a new frame, statement by statement. -/
def applyStructured (calls : Calls) (ref : Ref .function) (receiver : Option Value)
    (arguments : List Value) : Run Value := do
  let heap ← Run.heap
  let function := heap.function ref
  let parameters := heap.list function.parameters
  let frame := Table.ofList (bindParameters receiver parameters arguments)
  let table ← Run.allocate fun heap => heap.addTable frame
  structuredBlock calls (function.closure.push table) function.body

/-- Loads a package, statement by statement. -/
def loadStructured (sources : Sources) (calls : Calls) (name : String)
    (file : Option String) : Run (Ref .package) := do
  let known := (← get).packages.get? name
  let load : Run (Ref .package) := do
    let file := sourceFile name file
    let program ← requestProgram sources file
    let entered ← enterPackage name file
    let _ ← structuredBlock calls entered.2 program.body
    return entered.1
  known.elim load pure

/-- The calls in which all blocks run statement by statement. -/
def Calls.structured (sources : Sources) : Nat → Calls
  | 0 => .exhausted
  | depth + 1 =>
      let inner := structured sources depth
      { apply := applyStructured inner
        package := loadStructured sources inner
        constants := loadConstants sources inner }

theorem Calls.within_eq_structured (sources : Sources) (depth : Nat) :
    Calls.within sources depth = Calls.structured sources depth := by
  induction depth with
  | zero => rfl
  | succ depth inductionHypothesis =>
      have applies : applyFunction (Calls.within sources depth) =
          applyStructured (Calls.structured sources depth) := by
        funext ref receiver arguments
        simp only [applyFunction, applyStructured, runBlock_eq, inductionHypothesis]
      have loads : loadPackage sources (Calls.within sources depth) =
          loadStructured sources (Calls.structured sources depth) := by
        funext name file
        rw [loadPackage, loadStructured]
        refine bind_congr fun machine => ?_
        cases machine.packages.get? name with
        | none => simp only [Option.elim, runBlock_eq, inductionHypothesis]
        | some ref => rfl
      rw [Calls.within, Calls.structured, applies, loads, inductionHypothesis]

/-- Running a queue of statements is their structured execution, with all calls inside of it:
it yields the same value or fault and leaves the same machine.  Two parts of a block run one
behind the other, the second one only if the first one neither ended the block nor failed. -/
theorem runBlock_structured (sources : Sources) (depth : Nat) (scope : Scope) :
    (∀ body,
      runBlock (Calls.within sources depth) scope body =
        structuredBlock (Calls.structured sources depth) scope body) ∧
      ∀ front back,
        runBlock (Calls.within sources depth) scope (front ++ back) =
          andThen (executeAll (Calls.structured sources depth) scope front)
            (runBlock (Calls.within sources depth) scope back) pure := by
  rw [← Calls.within_eq_structured]
  exact ⟨runBlock_eq _ scope, runBlock_append _ scope⟩

end TorchArchive
