import Mathlib.Data.List.Nodup
import TorchArchive.Proofs.Evaluation.Edits
import TorchArchive.Proofs.Trace.Order

/-!
# Traces in single-assignment form

A session is a sequence of calls into the registry, in any order and with any values
between them.  Whatever is called, no two tensors share a name, no two recorded calls
have one output, and a call takes its inputs from calls that were recorded before.

The invariant relates the recorded calls to the tensors that they returned: these are
strictly newer with each call, and each is newer than the inputs of its own call.
-/

namespace TorchArchive

/-- A registry in use: its recording, what the recorded calls returned and the names
that placeholders were asked for with. -/
structure Session where
  recording : Recording
  returned : List (Ref .tensor)
  asked : List String

namespace Recording

/-- A recording before any call: nothing flows out of any tensor. -/
structure Blank (recording : Recording) : Prop where
  nodes : recording.trace.nodes = []
  identified : recording.trace.identified = []
  outputsHeld : recording.OutputsHeld
  outputs : ∀ ref, recording.heap.tensors.Holds ref → recording.outputs ref = []

/-- What others may do between two calls: anything that leaves what flows out of
tensors; out of new tensors nothing flows. -/
structure LeavesNames (before after : Recording) : Prop where
  trace : after.trace = before.trace
  outputsHeld : after.OutputsHeld
  old :
    ∀ ref, before.heap.tensors.Holds ref →
      after.heap.tensors.Holds ref ∧ after.outputs ref = before.outputs ref
  new :
    ∀ ref, after.heap.tensors.Holds ref → ¬ before.heap.tensors.Holds ref →
      after.outputs ref = []

variable {before after : Recording} {asked : List String}

theorem LeavesNames.keeps (leaves : before.LeavesNames after) {ref : Ref .tensor}
    {name : String} (has : before.HasName ref name) : after.HasName ref name := by
  obtain ⟨held, same⟩ := leaves.old ref has.1
  exact ⟨held, same.trans has.2⟩

theorem LeavesNames.named (leaves : before.LeavesNames after)
    (named : before.Named asked) : after.Named asked := by
  refine named.of_namesNone ?_ leaves.outputsHeld ?_
    (Nat.le_of_eq (by rw [leaves.trace]))
  · intro ref held
    by_cases heldBefore : before.heap.tensors.Holds ref
    · exact Or.inr ⟨heldBefore, (leaves.old ref heldBefore).2⟩
    · exact Or.inl (leaves.new ref held heldBefore)
  · intro ref member
    rw [leaves.trace] at member
    exact (leaves.old ref (named.identified ref member)).1

theorem leavesNames_addList (outputsHeld : before.OutputsHeld) (items : List Value) :
    before.LeavesNames { before with heap := (before.heap.addList items).2 } where
  trace := rfl
  outputsHeld := by
    intro ref held
    rw [Store.Holds]
    change _ < (before.heap.lists.add items).size
    rw [Store.size_add]
    exact Nat.lt_succ_of_lt (outputsHeld ref held)
  old := fun ref held =>
    ⟨held, Store.get_add_of_holds before.heap.lists items (outputsHeld ref held)⟩
  new := fun _ held new => absurd held new

theorem leavesNames_addDict (outputsHeld : before.OutputsHeld) (dict : Dict) :
    before.LeavesNames { before with heap := (before.heap.addDict dict).2 } where
  trace := rfl
  outputsHeld := outputsHeld
  old := fun _ held => ⟨held, rfl⟩
  new := fun _ held new => absurd held new

theorem leavesNames_addWith (outputsHeld : before.OutputsHeld)
    {tensor : Ref .list → Tensor}
    (kept : ∀ outputs, (tensor outputs).outputs = outputs) :
    before.LeavesNames (before.addWith [] tensor) where
  trace := rfl
  outputsHeld := outputsHeld_addWith outputsHeld [] kept
  old := by
    intro ref held
    refine ⟨?_, outputs_addWith_old outputsHeld [] tensor held⟩
    rw [Store.Holds, size_addWith]
    exact Nat.lt_succ_of_lt held
  new := by
    intro ref held new
    rw [Store.Holds, size_addWith] at held
    have last : ref = before.heap.tensors.next := by
      have size : ref.index = before.heap.tensors.size := by
        rw [Store.Holds] at new
        omega
      cases ref
      cases size
      rfl
    rw [last]
    exact outputs_addWith_next [] kept

/-- Archive code leaves what flows out of tensors where it changes no list of outputs. -/
theorem leavesNames_edit (outputsHeld : before.OutputsHeld) {heap : Heap}
    {permitted : Permission} (edit : before.heap.Edit permitted heap)
    (untouched :
      ∀ ref, before.heap.tensors.Holds ref →
        heap.list (before.heap.tensor ref).outputs = before.outputs ref) :
    before.LeavesNames { before with heap } := by
  have same : heap.tensors = before.heap.tensors := edit.tensors_eq
  have tensor (ref : Ref .tensor) : heap.tensor ref = before.heap.tensor ref := by
    rw [Heap.tensor, same, Heap.tensor]
  constructor
  case trace => rfl
  case outputsHeld =>
    intro ref held
    rw [same] at held
    rw [tensor]
    exact edit.holds_list (outputsHeld ref held)
  case old =>
    intro ref held
    refine ⟨same ▸ held, ?_⟩
    rw [outputs, tensor]
    exact untouched ref held
  case new =>
    intro ref held new
    exact absurd (same ▸ held) new

/-! ## Names that are taken back -/

theorem namesNone_putOutputs (outputsHeld : before.OutputsHeld) {ref : Ref .tensor}
    (held : before.heap.tensors.Holds ref) :
    before.NamesNone (before.putOutputs [] ref) := by
  intro other heldAfter
  by_cases same : other = ref
  · rw [same]
    exact Or.inl (outputs_putOutputs_self [] ref)
  · rw [Store.Holds, size_putOutputs [] held] at heldAfter
    exact Or.inr ⟨heldAfter, outputs_putOutputs_of_ne outputsHeld [] same heldAfter⟩

/-- Names are taken back from any number of tensors. -/
theorem named_takeBack :
    ∀ (refs : List (Ref .tensor)) {recording : Recording}, recording.Named asked →
      (∀ ref ∈ refs, recording.heap.tensors.Holds ref) →
        (refs.foldl (putOutputs · []) recording).Named asked
  | [], _, named, _ => named
  | ref :: rest, recording, named, held => by
      have heldFirst := held ref List.mem_cons_self
      have size := size_putOutputs [] heldFirst
      have holds (other : Ref .tensor) (heldBefore : recording.heap.tensors.Holds other) :
          (recording.putOutputs [] ref).heap.tensors.Holds other :=
        Nat.lt_of_lt_of_eq heldBefore size.symm
      have namedFirst : (recording.putOutputs [] ref).Named asked :=
        named.of_namesNone (namesNone_putOutputs named.outputsHeld heldFirst)
          (outputsHeld_putOutputs named.outputsHeld [] heldFirst)
          (fun other member => holds other (named.identified other member))
          (Nat.le_refl _)
      exact named_takeBack rest namedFirst fun other member =>
        holds other (held other (List.mem_cons_of_mem ref member))

/-- A trace without calls has no identified tensors either. -/
theorem Named.forget (named : before.Named asked) : before.reset.Named asked :=
  named.of_namesNone (fun _ held => Or.inr ⟨held, rfl⟩) named.outputsHeld
    (fun _ member => by cases member) (Nat.le_refl _)

theorem Named.rollback (named : before.Named asked) : before.rollback.Named asked := by
  rw [rollback_eq]
  exact (named_takeBack before.trace.identified named named.identified).forget

end Recording

namespace Session

/-! ## Steps -/

/-- A call into the registry, or what happens between two calls. -/
inductive Step : Session → Session → Prop where
  | operator {session : Session} {name : String} {positional : List Value}
      {keywords : List (String × Value)} {output : Ref .tensor} {after : Recording}
      (held :
        ∀ value ∈ positional,
          session.recording.TensorsBelow session.recording.heap.tensors.size value)
      (ends :
        (Builtin.operator name).call positional keywords session.recording =
          .ok (.tensor output) after) :
      Step session ⟨after, session.returned ++ [output], session.asked⟩
  | builtin {session : Session} {builtin : Builtin} (positional : List Value)
      (keywords : List (String × Value)) (plain : ∀ name, builtin ≠ .operator name) :
      Step session
        { session with
          recording :=
            stateAfter (builtin.call positional keywords) session.recording }
  | placeholder {session : Session} (size : Value) :
      Step session
        { session with recording := (session.recording.placeholder none size).2 }
  | namedPlaceholder {session : Session} {name : String} (size : Value)
      (unasked : name ∉ session.asked)
      (noNumeral : ∀ number : Nat, name ≠ integerText number) :
      Step session
        { session with
          recording := (session.recording.placeholder (some name) size).2
          asked := name :: session.asked }
  | identify {session : Session} {ref : Ref .tensor}
      (held : session.recording.heap.tensors.Holds ref) :
      Step session { session with recording := (session.recording.identify ref).2 }
  | reset {session : Session} :
      Step session { session with recording := session.recording.reset, returned := [] }
  | rollback {session : Session} :
      Step session
        { session with recording := session.recording.rollback, returned := [] }
  | between {session : Session} {after : Recording}
      (leaves : session.recording.LeavesNames after) :
      Step session { session with recording := after }

/-- The sessions that begin with a blank recording. -/
inductive Reachable : Session → Prop where
  | start {recording : Recording} (blank : recording.Blank) :
      Reachable ⟨recording, [], []⟩
  | step {before after : Session} (earlier : Reachable before)
      (step : Step before after) : Reachable after

/-! ## The invariant -/

/-- Names are in order, and the recorded calls returned newer and newer tensors. -/
structure Ordered (session : Session) : Prop where
  noNumerals : ∀ name ∈ session.asked, ∀ number : Nat, name ≠ integerText number
  named : session.recording.Named session.asked
  records :
    List.Forall₂ session.recording.Records session.recording.trace.nodes
      session.returned
  newer : session.returned.Pairwise fun earlier later => earlier.index < later.index

theorem ordered_start {recording : Recording} (blank : recording.Blank) :
    Ordered ⟨recording, [], []⟩ where
  noNumerals := fun _ member => by cases member
  named :=
    { outputsHeld := blank.outputsHeld
      identified := fun _ member => by
        rw [blank.identified] at member
        cases member
      single := fun ref held => Or.inl (blank.outputs ref held)
      unique := fun left _ _ has _ => by
        have empty := blank.outputs left has.1
        rw [has.2] at empty
        cases empty
      known := fun ref _ has => by
        have empty := blank.outputs ref has.1
        rw [has.2] at empty
        cases empty }
  records := by
    rw [blank.nodes]
    exact .nil
  newer := .nil

/-- Names that are given, and calls that are not recorded, leave the order. -/
theorem Ordered.keep {session : Session} (ordered : session.Ordered)
    {after : Recording} (named : after.Named session.asked)
    (nodes : after.trace.nodes = session.recording.trace.nodes)
    (keeps :
      ∀ ref name, session.recording.HasName ref name → after.HasName ref name) :
    Ordered { session with recording := after } where
  noNumerals := ordered.noNumerals
  named := named
  records := by
    rw [nodes]
    exact ordered.records.imp fun _ _ records => records.mono keeps
  newer := ordered.newer

open Recording

/-- What calls that are not recorded may do to a recording. -/
def Continues (start : Recording) (asked : List String) (recording : Recording) :
    Prop :=
  recording.Named asked ∧ recording.trace.nodes = start.trace.nodes ∧
    ∀ ref name, start.HasName ref name → recording.HasName ref name

theorem continues_of_leavesNames {start before after : Recording} {asked : List String}
    (continues : Continues start asked before) (leaves : before.LeavesNames after) :
    Continues start asked after := by
  obtain ⟨named, nodes, keeps⟩ := continues
  refine ⟨leaves.named named, ?_, fun ref name has => leaves.keeps (keeps ref name has)⟩
  rw [leaves.trace, nodes]

theorem continues_survives {start : Recording} {asked : List String}
    (noNumerals : ∀ name ∈ asked, ∀ number : Nat, name ≠ integerText number) :
    Survives (Continues start asked) where
  list := fun items continues =>
    continues_of_leavesNames continues
      (leavesNames_addList continues.1.outputsHeld items)
  dict := fun dict continues =>
    continues_of_leavesNames continues
      (leavesNames_addDict continues.1.outputsHeld dict)
  unnamed := fun plain continues =>
    continues_of_leavesNames continues
      (leavesNames_addWith continues.1.outputsHeld fun outputs => (plain outputs).1)
  fresh := by
    rintro recording change kept ⟨named, nodes, keeps⟩
    obtain ⟨namedAfter, names⟩ :=
      freshTensor_spec noNumerals named change fun tensor => (kept tensor).1
    exact ⟨namedAfter, nodes, fun ref name has => names.keeps (keeps ref name has)⟩

theorem Ordered.continue {session : Session} (ordered : session.Ordered)
    {after : Recording} (continues : Continues session.recording session.asked after) :
    Ordered { session with recording := after } :=
  ordered.keep continues.1 continues.2.1 continues.2.2

theorem Ordered.continues {session : Session} (ordered : session.Ordered) :
    Continues session.recording session.asked session.recording :=
  ⟨ordered.named, rfl, fun _ _ has => has⟩

/-- A recorded call joins the others. -/
theorem Ordered.operator {session : Session} (ordered : session.Ordered)
    (name : String) {positional : List Value} (keywords : List (String × Value))
    (held :
      ∀ value ∈ positional,
        session.recording.TensorsBelow session.recording.heap.tensors.size value) :
    Ordered
      ⟨(session.recording.call name positional keywords).2,
        session.returned ++ [(session.recording.call name positional keywords).1],
        session.asked⟩ := by
  obtain ⟨named, keeps, newest, node, nodes, records⟩ :=
    call_spec ordered.noNumerals ordered.named name keywords held
  refine ⟨ordered.noNumerals, named, ?_, ?_⟩
  · rw [nodes]
    refine List.rel_append ?_ (.cons records .nil)
    exact ordered.records.imp fun _ _ records => records.mono keeps
  · rw [List.pairwise_append]
    refine ⟨ordered.newer, List.pairwise_singleton _ _, ?_⟩
    intro earlier member later last
    rw [List.mem_singleton.mp last]
    obtain ⟨place, inside, rfl⟩ := List.getElem_of_mem member
    have recorded :=
      (List.forall₂_iff_get.mp ordered.records).2 place
        (by rw [ordered.records.length_eq]; exact inside) inside
    obtain ⟨_, _, has⟩ := recorded.named
    exact newest _ has.1

/-- Every step keeps the order. -/
theorem ordered_step {before after : Session} (ordered : before.Ordered)
    (step : Step before after) : after.Ordered := by
  cases step with
  | operator held ends =>
      cases ends
      exact ordered.operator _ _ held
  | builtin positional keywords plain =>
      exact ordered.continue
        ((continues_survives ordered.noNumerals).call plain positional keywords _
          ordered.continues)
  | placeholder size =>
      exact ordered.continue
        ((continues_survives ordered.noNumerals).fresh ({ · with size := size })
          (fun _ => ⟨rfl, rfl, rfl⟩) ordered.continues)
  | @namedPlaceholder name size unasked noNumeral =>
      obtain ⟨named, names⟩ :=
        addTensor_spec ordered.named ({ · with size := size }) (fun _ => rfl)
          (ordered.named.unused_of_not_asked unasked noNumeral)
          (fun _ member => List.mem_cons_of_mem name member)
          (Or.inl List.mem_cons_self)
      refine ⟨?_, named, ?_, ordered.newer⟩
      · intro other member number
        rcases List.mem_cons.mp member with rfl | earlier
        · exact noNumeral number
        · exact ordered.noNumerals other earlier number
      · exact ordered.records.imp fun _ _ records =>
          records.mono fun _ _ => names.keeps
  | identify held =>
      obtain ⟨named, identifies, _⟩ :=
        identify_spec ordered.noNumerals ordered.named held
      exact ordered.keep named identifies.nodes identifies.keeps
  | reset => exact ⟨ordered.noNumerals, ordered.named.forget, .nil, .nil⟩
  | rollback => exact ⟨ordered.noNumerals, ordered.named.rollback, .nil, .nil⟩
  | between leaves =>
      exact ordered.continue (continues_of_leavesNames ordered.continues leaves)

theorem Reachable.ordered {session : Session} (reachable : session.Reachable) :
    session.Ordered := by
  induction reachable with
  | start blank => exact ordered_start blank
  | step _ step inductionHypothesis => exact ordered_step inductionHypothesis step

/-- Whatever archive code does between two calls, it stays in a session as long as it changes
no list of outputs. -/
theorem Reachable.edit {session : Session} (reachable : session.Reachable) {heap : Heap}
    {permitted : Permission} (edit : session.recording.heap.Edit permitted heap)
    (untouched :
      ∀ ref, session.recording.heap.tensors.Holds ref →
        heap.list (session.recording.heap.tensor ref).outputs = session.recording.outputs ref) :
    Reachable { session with recording := { session.recording with heap } } :=
  reachable.step
    (.between (leavesNames_edit reachable.ordered.named.outputsHeld edit untouched))

/-! ## Single assignment -/

/-- The form of a trace in which every value is assigned once, before it is used. -/
structure SingleAssignment (session : Session) : Prop where
  /-- A tensor has at most one name. -/
  atMostOne :
    ∀ ref, session.recording.heap.tensors.Holds ref →
      (session.recording.outputs ref).length ≤ 1
  /-- Different tensors have different names. -/
  apart :
    ∀ left right, session.recording.heap.tensors.Holds left →
      session.recording.heap.tensors.Holds right → left ≠ right →
        List.Disjoint (session.recording.outputs left) (session.recording.outputs right)
  /-- No value is assigned twice. -/
  assignedOnce :
    (session.recording.trace.nodes.flatMap fun node => node.outputs).Nodup
  /-- Every recorded call returned a tensor. -/
  returns : session.returned.length = session.recording.trace.nodes.length
  /-- What flows into a call was returned by an earlier one, if by any. -/
  assignedBefore :
    ∀ (use assignment : Nat) user assigner,
      session.recording.trace.nodes[use]? = some user →
      session.recording.trace.nodes[assignment]? = some assigner →
        ∀ arguments ∈ user.inputs, ∀ argument ∈ arguments,
          argument.id ∈ assigner.outputs →
            assignment < use ∧ session.returned[assignment]? = some argument.tensor

namespace Ordered

variable {session : Session} (ordered : session.Ordered)

include ordered

theorem length_returned :
    session.returned.length = session.recording.trace.nodes.length :=
  ordered.records.length_eq.symm

/-- Each recorded call has what it returned at its own place. -/
theorem exists_returned {place : Nat} {node : TraceNode}
    (found : session.recording.trace.nodes[place]? = some node) :
    ∃ output, session.returned[place]? = some output ∧
      session.recording.Records node output := by
  obtain ⟨inside, rfl⟩ := List.getElem?_eq_some_iff.mp found
  have insideReturned : place < session.returned.length := by
    rw [ordered.length_returned]
    exact inside
  exact ⟨session.returned[place], List.getElem?_eq_getElem insideReturned,
    (List.forall₂_iff_get.mp ordered.records).2 place inside insideReturned⟩

/-- What a later call returned is newer. -/
theorem place_lt_of_index_lt {left right : Nat} {older newer : Ref .tensor}
    (foundOlder : session.returned[left]? = some older)
    (foundNewer : session.returned[right]? = some newer)
    (order : older.index < newer.index) : left < right := by
  obtain ⟨insideLeft, rfl⟩ := List.getElem?_eq_some_iff.mp foundOlder
  obtain ⟨insideRight, rfl⟩ := List.getElem?_eq_some_iff.mp foundNewer
  have increasing := List.pairwise_iff_getElem.mp ordered.newer
  rcases Nat.lt_trichotomy left right with before | same | after
  · exact before
  · subst same
    exact absurd order (Nat.lt_irrefl _)
  · have reversed := increasing right left insideRight insideLeft after
    omega

theorem atMostOne (ref : Ref .tensor)
    (held : session.recording.heap.tensors.Holds ref) :
    (session.recording.outputs ref).length ≤ 1 := by
  rcases ordered.named.single ref held with empty | ⟨name, has⟩
  · rw [empty]
    exact Nat.zero_le 1
  · rw [has.2]
    exact Nat.le_refl 1

theorem apart (left right : Ref .tensor)
    (heldLeft : session.recording.heap.tensors.Holds left)
    (heldRight : session.recording.heap.tensors.Holds right) (different : left ≠ right) :
    List.Disjoint (session.recording.outputs left)
      (session.recording.outputs right) := by
  intro value first second
  rcases ordered.named.single left heldLeft with empty | ⟨name, has⟩
  · rw [empty] at first
    cases first
  · rcases ordered.named.single right heldRight with empty | ⟨other, hasOther⟩
    · rw [empty] at second
      cases second
    · rw [has.2, List.mem_singleton] at first
      rw [hasOther.2, List.mem_singleton] at second
      have same : name = other := by
        have equal : Value.str name = Value.str other := first.symm.trans second
        simpa [Value.str] using equal
      exact different (ordered.named.unique left right name has (same ▸ hasOther))

theorem assignedOnce :
    (session.recording.trace.nodes.flatMap fun node => node.outputs).Nodup := by
  rw [List.nodup_flatMap]
  refine ⟨?_, ?_⟩
  · intro node member
    obtain ⟨place, inside, rfl⟩ := List.getElem_of_mem member
    obtain ⟨output, _, records⟩ :=
      ordered.exists_returned (List.getElem?_eq_getElem inside)
    obtain ⟨name, outputs, _⟩ := records.named
    rw [outputs]
    exact List.nodup_singleton name
  · rw [List.pairwise_iff_getElem]
    intro left right insideLeft insideRight order name first second
    dsimp only at first second
    obtain ⟨older, foundOlder, recordsOlder⟩ :=
      ordered.exists_returned (List.getElem?_eq_getElem insideLeft)
    obtain ⟨newer, foundNewer, recordsNewer⟩ :=
      ordered.exists_returned (List.getElem?_eq_getElem insideRight)
    obtain ⟨nameOlder, outputsOlder, hasOlder⟩ := recordsOlder.named
    obtain ⟨nameNewer, outputsNewer, hasNewer⟩ := recordsNewer.named
    rw [outputsOlder, List.mem_singleton] at first
    rw [outputsNewer, List.mem_singleton] at second
    subst first
    subst second
    -- Two places with one tensor would break the growth of the returned tensors.
    have same := ordered.named.unique older newer _ hasOlder hasNewer
    subst same
    obtain ⟨insideOlder, equalOlder⟩ := List.getElem?_eq_some_iff.mp foundOlder
    obtain ⟨insideNewer, equalNewer⟩ := List.getElem?_eq_some_iff.mp foundNewer
    have growth :=
      List.pairwise_iff_getElem.mp ordered.newer left right insideOlder insideNewer order
    rw [equalOlder, equalNewer] at growth
    exact Nat.lt_irrefl _ growth

theorem assignedBefore {use assignment : Nat} {user assigner : TraceNode}
    (foundUser : session.recording.trace.nodes[use]? = some user)
    (foundAssigner : session.recording.trace.nodes[assignment]? = some assigner)
    {arguments : List TraceArgument} (group : arguments ∈ user.inputs)
    {argument : TraceArgument} (member : argument ∈ arguments)
    (assigned : argument.id ∈ assigner.outputs) :
    assignment < use ∧ session.returned[assignment]? = some argument.tensor := by
  obtain ⟨output, returnedUser, recordsUser⟩ := ordered.exists_returned foundUser
  obtain ⟨source, returnedSource, recordsSource⟩ :=
    ordered.exists_returned foundAssigner
  obtain ⟨has, older⟩ := recordsUser.inputs arguments group argument member
  obtain ⟨name, outputs, hasSource⟩ := recordsSource.named
  rw [outputs, List.mem_singleton] at assigned
  rw [assigned] at has
  have same := ordered.named.unique argument.tensor source name has hasSource
  rw [same] at older ⊢
  exact ⟨ordered.place_lt_of_index_lt returnedSource returnedUser older, returnedSource⟩

end Ordered

/-- Every trace of a session is in single-assignment form, and its calls are in an order
in which each comes after those that its inputs flow from. -/
theorem reachable_singleAssignment {session : Session} (reachable : session.Reachable) :
    session.SingleAssignment where
  atMostOne := reachable.ordered.atMostOne
  apart := reachable.ordered.apart
  assignedOnce := reachable.ordered.assignedOnce
  returns := reachable.ordered.length_returned
  assignedBefore := fun _ _ _ _ foundUser foundAssigner _ group _ member assigned =>
    reachable.ordered.assignedBefore foundUser foundAssigner group member assigned

/-- The session in which an operator is called on a placeholder, twice in a row. -/
def chain : Session :=
  let start : Recording := ⟨default, .empty⟩
  let (input, recording) := start.placeholder (some "x") .none
  let (middle, recording) := recording.call "torch.relu" [.tensor input] []
  let (output, recording) := recording.call "torch.relu" [.tensor middle] []
  ⟨recording, [middle, output], ["x"]⟩

theorem reachable_chain : chain.Reachable := by
  have below (recording : Recording) (ref : Ref .tensor)
      (held : recording.heap.tensors.Holds ref) (value : Value)
      (member : value ∈ [Value.tensor ref]) :
      recording.TensorsBelow recording.heap.tensors.size value := by
    intro refs found other listed
    rw [List.mem_singleton.mp member] at found
    cases found
    rw [List.mem_singleton.mp listed]
    exact held
  have blank : (⟨default, .empty⟩ : Recording).Blank :=
    ⟨rfl, rfl, fun _ held => absurd held (Nat.not_lt_zero _),
      fun _ held => absurd held (Nat.not_lt_zero _)⟩
  have noNumeral (number : Nat) : "x" ≠ integerText number := by
    intro same
    have digit := numeral_isDigit number 'x' (by rw [← same]; decide)
    exact absurd digit (by decide)
  refine .step (.step (.step (.start blank)
    (.namedPlaceholder .none (List.not_mem_nil) noNumeral))
    (.operator (below _ ⟨0⟩ ?_) rfl)) (.operator (below _ ⟨1⟩ ?_) rfl)
  · decide
  · decide

theorem chain_singleAssignment : chain.Reachable ∧ chain.SingleAssignment :=
  ⟨reachable_chain, reachable_singleAssignment reachable_chain⟩

example :
    (chain.recording.trace.nodes.map fun node =>
        (node.inputs.flatten.map fun argument => argument.id, node.outputs)) =
      [(["x"], ["1"]), (["1"], ["2"])] := by
  decide +kernel

end Session

end TorchArchive
