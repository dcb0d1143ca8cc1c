import TorchArchive.Proofs.Pickle.Runs
import TorchArchive.Proofs.Evaluation.Containers

/-!
# References to storages

Storages are remembered by their keys while a stream is loaded, and the keys of views are
remembered among them.  So a reference stands for the storage of its key, and for the same
one as every other reference of this key, unless a view of this key was met first: then it
stands for nothing.
-/

namespace TorchArchive

/-- Storages that were made stay as they are. -/
theorem Heap.Edit.storages_keep {heap after : Heap} (edit : heap.Edit .everywhere after) :
    heap.storages.Keeps after.storages := by
  cases edit with
  | storage storage => exact Store.keeps_add _ storage
  | _ => exact Store.Keeps.refl _

theorem Recording.storages_endure (start : Store .storage Storage) :
    Recording.Endures fun recording => start.Keeps recording.heap.storages :=
  @Recording.endures_of_edit .everywhere (fun heap => start.Keeps heap.storages)
    (fun edit keeps => keeps.trans edit.storages_keep) fun _ keeps => keeps

namespace Pickle

/-! ## What a stream mentions -/

/-- A reference that was met: the text of its key, the text of the key of its view if it is
one to a view, and what it stood for. -/
structure Reference where
  key : String
  view : Option String
  value : Value

namespace Reference

/-- The key that tells what a reference stands for. -/
def target (reference : Reference) : String := reference.view.getD reference.key

/-- The keys that a reference mentions, each with whether it is the key of a view. -/
def mentions (reference : Reference) : List (String × Bool) :=
  (reference.key, false) :: (reference.view.map fun key => (key, true)).toList

end Reference

def mentions (met : List Reference) : List (String × Bool) := met.flatMap Reference.mentions

/-- A key is claimed by a view that mentions it before it is the key of a storage. -/
def Claimed (met : List Reference) (key : String) : Prop :=
  (mentions met).lookup key = some true

theorem mentions_append (met : List Reference) (reference : Reference) :
    mentions (met ++ [reference]) = mentions met ++ reference.mentions := by
  rw [mentions, List.flatMap_append, List.flatMap_singleton]
  rfl

theorem lookup_append_of_mentioned {mentioned more : List (String × Bool)} {key : String}
    {asView : Bool} (found : mentioned.lookup key = some asView) :
    (mentioned ++ more).lookup key = some asView := by
  rw [List.lookup_append, found]
  rfl

theorem lookup_append_single {mentioned : List (String × Bool)} {key other : String}
    {asView : Bool} (unmet : mentioned.lookup other = none) :
    (mentioned ++ [(key, asView)]).lookup other = if other = key then some asView else none := by
  rw [List.lookup_append, unmet, Option.none_or, List.lookup_cons]
  by_cases same : other = key
  · rw [if_pos same, same, beq_self_eq_true]
  · rw [if_neg same, beq_eq_false_iff_ne.mpr same]
    rfl

/-! ## What is remembered -/

/-- The storages that are remembered are those of the keys that were mentioned: the keys of
storages lead to these, and those that views have claimed lead nowhere. -/
structure Remembers (contents : Table String ByteArray) (mentioned : List (String × Bool))
    (storages : Table String Value) (heap : Heap) : Prop where
  unmet : ∀ key, mentioned.lookup key = none → storages.get? key = none
  claimed : ∀ key, mentioned.lookup key = some true → storages.get? key = some .none
  made :
    ∀ key, mentioned.lookup key = some false →
      ∃ ref, storages.get? key = some (.storage ref) ∧ heap.storages.Holds ref ∧
        (heap.storage ref).key = some key ∧ (heap.storage ref).data = contents.get? key

namespace Remembers

variable {contents : Table String ByteArray} {mentioned : List (String × Bool)}
  {storages : Table String Value} {heap later : Heap} {key : String}

theorem initial (contents : Table String ByteArray) (heap : Heap) :
    Remembers contents [] .empty heap where
  unmet := fun _ _ => rfl
  claimed := fun _ never => by cases never
  made := fun _ never => by cases never

theorem keeps (remembers : Remembers contents mentioned storages heap)
    (kept : heap.storages.Keeps later.storages) :
    Remembers contents mentioned storages later where
  unmet := remembers.unmet
  claimed := remembers.claimed
  made := by
    intro key found
    obtain ⟨ref, stands, held, isKey, data⟩ := remembers.made key found
    obtain ⟨heldLater, same⟩ := kept ref held
    have sameStorage : later.storage ref = heap.storage ref := same
    rw [← sameStorage] at isKey data
    exact ⟨ref, stands, heldLater, isKey, data⟩

/-- A key that was mentioned before is mentioned again. -/
theorem again (remembers : Remembers contents mentioned storages heap) (asView : Bool)
    (met : mentioned.lookup key ≠ none) :
    Remembers contents (mentioned ++ [(key, asView)]) storages heap := by
  have same (other : String) :
      (mentioned ++ [(key, asView)]).lookup other = mentioned.lookup other := by
    cases found : mentioned.lookup other with
    | some first => exact lookup_append_of_mentioned found
    | none =>
        have distinct : other ≠ key := by
          rintro rfl
          exact met found
        rw [lookup_append_single found, if_neg distinct]
  constructor
  case unmet => exact fun other found => remembers.unmet other (same other ▸ found)
  case claimed => exact fun other found => remembers.claimed other (same other ▸ found)
  case made => exact fun other found => remembers.made other (same other ▸ found)

/-- A key that was never mentioned is remembered with what it is to stand for. -/
theorem insert (remembers : Remembers contents mentioned storages heap) {asView : Bool}
    {value : Value} (new : mentioned.lookup key = none)
    (claims : asView = true → value = .none)
    (makes :
      asView = false →
        ∃ ref, value = .storage ref ∧ heap.storages.Holds ref ∧
          (heap.storage ref).key = some key ∧ (heap.storage ref).data = contents.get? key) :
    Remembers contents (mentioned ++ [(key, asView)]) (storages.insert key value) heap := by
  have cases_ (other : String) :
      (other = key ∧ (mentioned ++ [(key, asView)]).lookup other = some asView ∧
          (storages.insert key value).get? other = some value) ∨
        ((mentioned ++ [(key, asView)]).lookup other = mentioned.lookup other ∧
          (storages.insert key value).get? other = storages.get? other) := by
    by_cases same : other = key
    · subst same
      rw [lookup_append_single new, if_pos rfl, Table.get?_insert_self]
      exact Or.inl ⟨rfl, rfl, rfl⟩
    · rw [Table.get?_insert_of_ne _ _ (Ne.symm same)]
      refine Or.inr ⟨?_, rfl⟩
      cases found : mentioned.lookup other with
      | some first => exact lookup_append_of_mentioned found
      | none => rw [lookup_append_single found, if_neg same]
  constructor
  case unmet =>
    intro other found
    rcases cases_ other with ⟨_, mentions, _⟩ | ⟨mentions, stands⟩
    · rw [mentions] at found
      cases found
    · rw [stands]
      exact remembers.unmet other (mentions ▸ found)
  case claimed =>
    intro other found
    rcases cases_ other with ⟨_, mentions, stands⟩ | ⟨mentions, stands⟩
    · rw [mentions, Option.some_inj] at found
      rw [stands, claims found]
    · rw [stands]
      exact remembers.claimed other (mentions ▸ found)
  case made =>
    intro other found
    rcases cases_ other with ⟨same, mentions, stands⟩ | ⟨mentions, stands⟩
    · rw [mentions, Option.some_inj] at found
      obtain ⟨ref, isStorage, made⟩ := makes found
      exact ⟨ref, by rw [stands, isStorage], same ▸ made⟩
    · rw [stands]
      exact remembers.made other (mentions ▸ found)

end Remembers

/-! ## Single references -/

section Steps

variable {calls : Calls} {contents : Table String ByteArray}
  {mentioned : List (String × Bool)} {loading after : Loading} {machine later : Machine}
  {value : Value}

/-- Nothing that is remembered is forgotten. -/
def Extends (before after : Table String Value) : Prop :=
  ∀ key value, before.get? key = some value → after.get? key = some value

theorem extends_insert {storages : Table String Value} {key : String}
    (new : storages.get? key = none) (value : Value) :
    Extends storages (storages.insert key value) := by
  intro other found isFound
  have distinct : key ≠ other := by
    rintro rfl
    rw [new] at isFound
    cases isFound
  rw [Table.get?_insert_of_ne _ _ distinct, isFound]

/-- A key is remembered if and only if it was mentioned. -/
theorem Remembers.known_iff (remembers : Remembers contents mentioned loading.storages
    machine.heap) (key : String) :
    loading.storages.get? key = none ↔ mentioned.lookup key = none := by
  refine ⟨fun unknown => ?_, remembers.unmet key⟩
  cases found : mentioned.lookup key with
  | none => rfl
  | some asView =>
      exfalso
      cases asView with
      | true =>
          rw [remembers.claimed key found] at unknown
          cases unknown
      | false =>
          obtain ⟨ref, stands, _⟩ := remembers.made key found
          rw [stands] at unknown
          cases unknown

/-- The storage of a key is looked up, or made if the key was not mentioned yet. -/
theorem storageOf_remembers
    (keep :
      ∀ start, calls.Keep
        (OfRecording fun recording => Store.Keeps start recording.heap.storages))
    (remembers : Remembers contents mentioned loading.storages machine.heap)
    {type size : Value} {key : String}
    (ends :
      storageOf calls contents type key size loading machine = .ok (value, after) later) :
    Remembers contents (mentioned ++ [(key, false)]) after.storages later.heap ∧
      Extends loading.storages after.storages ∧ after.storages.get? key = some value := by
  obtain ⟨_, _, _, gets, ends⟩ := Load.bind_eq_ok_iff.mp ends
  cases gets
  cases known : loading.storages.get? key with
  | some found =>
      rw [known] at ends
      cases ends
      have met : mentioned.lookup key ≠ none := by
        rw [ne_eq, ← remembers.known_iff, known]
        exact Option.some_ne_none _
      exact ⟨remembers.again false met, fun _ _ same => same, known⟩
  | none =>
      simp only [known] at ends
      obtain ⟨made, _, typed, lifts, rest⟩ := Load.bind_eq_ok_iff.mp ends
      obtain ⟨types, rfl⟩ := Load.lift_eq_ok_iff.mp lifts
      obtain ⟨ref, _, _, allocates, keepsRef⟩ := Load.bind_eq_ok_iff.mp rest
      cases allocates
      obtain ⟨_, _, _, modifies, same⟩ := Load.bind_eq_ok_iff.mp keepsRef
      cases modifies
      cases same
      have kept : machine.heap.storages.Keeps typed.heap.storages :=
        (Machine.Persists.namedStorageType (keep machine.heap.storages) type).ok types
          (Store.Keeps.refl _)
      have fresh := (remembers.known_iff key).mp known
      refine ⟨?_, extends_insert known _, Table.get?_insert_self _ key _⟩
      refine (remembers.keeps (kept.trans (Store.keeps_add typed.heap.storages _))).insert
        fresh (fun never => by cases never) fun _ => ?_
      have isMade := Store.get_add_next typed.heap.storages
        { made.make size with key := some key, data := contents.get? key }
      refine ⟨_, rfl, Store.holds_next typed.heap.storages _, ?_, ?_⟩
      · exact congrArg Storage.key isMade
      · exact congrArg Storage.data isMade

/-- The key of a view is looked up, or claimed if it was not mentioned yet. -/
theorem viewOf_remembers
    (remembers : Remembers contents mentioned loading.storages machine.heap) {view : Value}
    (ends : viewOf view loading machine = .ok (value, after) later) :
    later = machine ∧ ∃ key, viewKey machine.heap view = .ok key ∧
      Remembers contents (mentioned ++ [(key, true)]) after.storages machine.heap ∧
      Extends loading.storages after.storages ∧ after.storages.get? key = some value := by
  obtain ⟨heap, _, _, reads, asks⟩ := Load.bind_eq_ok_iff.mp ends
  cases reads
  obtain ⟨key, _, _, tells, looks⟩ := Load.bind_eq_ok_iff.mp asks
  obtain ⟨isKey, rfl, rfl⟩ := Load.ofExcept_eq_ok_iff.mp tells
  obtain ⟨_, _, _, gets, ends⟩ := Load.bind_eq_ok_iff.mp looks
  cases gets
  cases known : loading.storages.get? key with
  | some stands =>
      rw [known] at ends
      cases ends
      have met : mentioned.lookup key ≠ none := by
        rw [ne_eq, ← remembers.known_iff, known]
        exact Option.some_ne_none _
      exact ⟨rfl, key, isKey, remembers.again true met, fun _ _ same => same, known⟩
  | none =>
      simp only [known] at ends
      obtain ⟨_, _, _, modifies, ends⟩ := Load.bind_eq_ok_iff.mp ends
      cases modifies
      cases ends
      have fresh := (remembers.known_iff key).mp known
      exact ⟨rfl, key, isKey,
        remembers.insert fresh (fun _ => rfl) (fun never => by cases never),
        extends_insert known _, Table.get?_insert_self _ key _⟩

/-- The text of the key of the view that the parts of a persistent id tell behind its size. -/
def viewName (heap : Heap) (parts : List Value) : Option String :=
  match parts.tail with
  | view :: _ => if heap.truthy view then (viewKey heap view).toOption else none
  | [] => none

/-- A reference stands for what is remembered of its key, or of that of its view. -/
theorem referredStorage_remembers
    (keep :
      ∀ start, calls.Keep
        (OfRecording fun recording => Store.Keeps start recording.heap.storages))
    (remembers : Remembers contents mentioned loading.storages machine.heap)
    {type key place : Value} {parts : List Value}
    (ends :
      referredStorage calls contents (type :: key :: place :: parts) loading machine =
        .ok (value, after) later) :
    let reference : Reference := ⟨machine.heap.text key, viewName later.heap parts, value⟩
    Remembers contents (mentioned ++ reference.mentions) after.storages later.heap ∧
      Extends loading.storages after.storages ∧
      after.storages.get? reference.target = some value := by
  obtain ⟨taken, _, _, takes, typed⟩ := Load.bind_eq_ok_iff.mp ends
  cases takes
  obtain ⟨taken, _, _, takes, keyed⟩ := Load.bind_eq_ok_iff.mp typed
  cases takes
  obtain ⟨heap, _, _, reads, named⟩ := Load.bind_eq_ok_iff.mp keyed
  cases reads
  obtain ⟨taken, _, _, takes, placed⟩ := Load.bind_eq_ok_iff.mp named
  cases takes
  obtain ⟨storage, between, middle, stands, views⟩ := Load.bind_eq_ok_iff.mp placed
  obtain ⟨remembersKey, extendsKey, known⟩ := storageOf_remembers keep remembers stands
  -- Without a view, or with one that counts as false, the reference is to its own key.
  have plain (same : (pure storage : Load Value) between middle = .ok (value, after) later)
      (noView : viewName later.heap parts = none) :
      Remembers contents
          (mentioned ++ (Reference.mentions ⟨machine.heap.text key, viewName later.heap parts,
            value⟩)) after.storages later.heap ∧
        Extends loading.storages after.storages ∧
        after.storages.get?
            (Reference.target ⟨machine.heap.text key, viewName later.heap parts, value⟩) =
          some value := by
    rw [noView]
    cases same
    exact ⟨remembersKey, extendsKey, known⟩
  cases told : parts.tail with
  | nil =>
      rw [told] at views
      exact plain views (by rw [viewName, told])
  | cons view more =>
      rw [told] at views
      obtain ⟨heap, _, _, reads, views⟩ := Load.bind_eq_ok_iff.mp views
      cases reads
      by_cases truthy : middle.heap.truthy view = true
      · rw [if_pos truthy] at views
        obtain ⟨rfl, name, isName, remembersView, extendsView, stands⟩ :=
          viewOf_remembers remembersKey views
        have named : viewName later.heap parts = some name := by
          rw [viewName, told]
          change (if later.heap.truthy view = true then _ else _) = _
          rw [if_pos truthy, isName]
          rfl
        rw [named]
        rw [List.append_assoc] at remembersView
        exact ⟨remembersView, fun other found isFound =>
          extendsView other found (extendsKey other found isFound), stands⟩
      · rw [if_neg truthy] at views
        refine plain views ?_
        cases views
        rw [viewName, told]
        exact if_neg truthy

/-- A persistent id that stands for something refers to a storage. -/
theorem refers_of_loadPersistent {id : Value}
    (ends : loadPersistent calls contents id loading machine = .ok (value, after) later) :
    ∃ kind parts, machine.heap.iterate id = .ok (kind :: parts) ∧
      kind.str? = some "storage" ∧
      referredStorage calls contents parts loading machine = .ok (value, after) later := by
  obtain ⟨heap, _, _, reads, asks⟩ := Load.bind_eq_ok_iff.mp ends
  cases reads
  obtain ⟨found, _, _, iterates, refers⟩ := Load.bind_eq_ok_iff.mp asks
  obtain ⟨isFound, rfl, rfl⟩ := Load.ofExcept_eq_ok_iff.mp iterates
  change (if (found.headD .none).str? = some "storage" then
      referredStorage calls contents found.tail
    else do throw (.unknownPersistentType ((← Run.heap).text (found.headD .none))) : Load Value)
      loading machine = _ at refers
  by_cases isStorage : (found.headD .none).str? = some "storage"
  · rw [if_pos isStorage] at refers
    cases found with
    | nil => cases isStorage
    | cons kind parts => exact ⟨kind, parts, isFound, isStorage, refers⟩
  · rw [if_neg isStorage] at refers
    obtain ⟨_, _, _, _, never⟩ := Load.bind_eq_ok_iff.mp refers
    cases never

/-- A reference tells a type, a key and a place. -/
theorem parts_of_referredStorage {parts : List Value}
    (ends : referredStorage calls contents parts loading machine = .ok (value, after) later) :
    ∃ type key place rest, parts = type :: key :: place :: rest := by
  cases parts with
  | nil =>
      obtain ⟨_, _, _, never, _⟩ := Load.bind_eq_ok_iff.mp ends
      cases never
  | cons type parts =>
      obtain ⟨_, _, _, takes, ends⟩ := Load.bind_eq_ok_iff.mp ends
      cases takes
      cases parts with
      | nil =>
          obtain ⟨_, _, _, never, _⟩ := Load.bind_eq_ok_iff.mp ends
          cases never
      | cons key parts =>
          obtain ⟨_, _, _, takes, ends⟩ := Load.bind_eq_ok_iff.mp ends
          cases takes
          obtain ⟨heap, _, _, reads, ends⟩ := Load.bind_eq_ok_iff.mp ends
          cases reads
          cases parts with
          | nil =>
              obtain ⟨_, _, _, never, _⟩ := Load.bind_eq_ok_iff.mp ends
              cases never
          | cons place rest => exact ⟨type, key, place, rest, rfl⟩

end Steps

/-! ## Runs of instructions -/

/-- The references that a run of instructions met. -/
inductive Meets (calls : Calls) (contents : Table String ByteArray) (start : Loading)
    (before : Machine) : List Reference → Loading → Machine → Prop where
  | start : Meets calls contents start before [] start before
  | other {met : List Reference} {loading after : Loading} {machine later : Machine}
      {instruction : Instruction} :
      Meets calls contents start before met loading machine → ¬ instruction.Refers →
        execute calls contents instruction loading machine = .ok ((), after) later →
          Meets calls contents start before met after later
  | reference {met : List Reference} {loading popped after : Loading}
      {machine later : Machine} {id kind type key place value : Value} {parts : List Value} :
      Meets calls contents start before met loading machine →
        pop loading machine = .ok (id, popped) machine →
          machine.heap.iterate id = .ok (kind :: type :: key :: place :: parts) →
            loadPersistent calls contents id popped machine = .ok (value, after) later →
              Meets calls contents start before
                (met ++ [⟨machine.heap.text key, viewName later.heap parts, value⟩])
                { after with stack := after.stack.push value } later

/-- What is known of the references that were met. -/
structure Resolves (contents : Table String ByteArray) (met : List Reference)
    (machine : Machine) : Prop where
  /-- A key that a view has claimed stands for nothing. -/
  claimed :
    ∀ reference ∈ met, Claimed met reference.target → reference.value = .none
  /-- Every other key stands for a storage of this key, with the bytes of this key. -/
  resolved :
    ∀ reference ∈ met, ¬ Claimed met reference.target →
      ∃ ref, reference.value = .storage ref ∧
        (machine.heap.storage ref).key = some reference.target ∧
        (machine.heap.storage ref).data = contents.get? reference.target
  /-- Two of them stand for one storage if and only if their keys are equal. -/
  shared :
    ∀ first ∈ met, ∀ second ∈ met, ¬ Claimed met first.target → ¬ Claimed met second.target →
      (first.value = second.value ↔ first.target = second.target)

section Runs

variable {sources : Sources} {depth : Nat} {contents : Table String ByteArray}
  {stack : Stack} {before : Machine} {met : List Reference} {loading : Loading}
  {machine : Machine}

theorem storages_keep (sources : Sources) (depth : Nat) (start : Store .storage Storage) :
    (Calls.within sources depth).Keep
      (OfRecording fun recording => start.Keeps recording.heap.storages) :=
  (Recording.storages_endure start).toPersists.lasts.callsWithin sources depth

/-- What does not refer to a storage leaves those that are remembered as they are. -/
theorem storages_of_execute {instruction : Instruction} {after : Loading} {later : Machine}
    (plain : ¬ instruction.Refers)
    (ends :
      execute (Calls.within sources depth) contents instruction loading machine =
        .ok ((), after) later) :
    after.storages = loading.storages ∧
      machine.heap.storages.Keeps later.heap.storages := by
  have persists (start : Store .storage Storage) :=
    (Recording.storages_endure start).toPersists.ofMachine
  constructor
  · -- That the storages are the same is no property of the machine.
    have same (storages : Table String Value) :
        Machine.Lasts sources fun _ => storages = loading.storages :=
      Machine.fact_lasts (storages = loading.storages)
    have keeps := instruction_keeps (fun storages => (same storages).toPersists)
      (fun storages => (same storages).callsWithin sources depth) contents instruction
      (fun refers => absurd refers plain) loading machine rfl
    rw [ends] at keeps
    exact keeps
  · have keeps := keeps_of_loadKeeps
      ((persists machine.heap.storages).instruction
        (storages_keep sources depth machine.heap.storages) contents instruction)
    exact (keeps loading).ok ends (Store.Keeps.refl _)

/-- What is taken from the stack is all that changes. -/
theorem of_pop {popped : Loading} {id : Value} {later : Machine}
    (pops : pop loading machine = .ok (id, popped) later) :
    popped.storages = loading.storages ∧ later = machine := by
  obtain ⟨_, _, _, gets, pops⟩ := Load.bind_eq_ok_iff.mp pops
  cases gets
  cases top : loading.stack.pop? with
  | none =>
      simp only [top] at pops
      cases pops
  | some result =>
      simp only [top] at pops
      cases pops
      exact ⟨rfl, rfl⟩

/-- A text is gone through by its characters, and none of them is the kind of an id. -/
theorem kind_of_text {heap : Heap} {text : String} {kind : Value} {parts : List Value}
    (iterates : heap.iterate (.atom (.str text)) = .ok (kind :: parts)) :
    kind.str? ≠ some "storage" := by
  rw [Heap.iterate, Heap.iterate?] at iterates
  cases letters : text.toList with
  | nil =>
      rw [letters] at iterates
      cases iterates
  | cons letter rest =>
      rw [letters] at iterates
      cases iterates
      intro same
      have lengths := congrArg (fun text => text.toList.length) (Option.some_inj.mp same)
      simp at lengths

/-- What was met is remembered. -/
theorem Meets.remembered
    (meets :
      Meets (Calls.within sources depth) contents ⟨stack, .empty⟩ before met loading machine) :
    Remembers contents (mentions met) loading.storages machine.heap ∧
      ∀ reference ∈ met, loading.storages.get? reference.target = some reference.value := by
  induction meets with
  | start => exact ⟨.initial contents before.heap, fun _ never => by cases never⟩
  | other _ plain ends inductionHypothesis =>
      obtain ⟨remembers, stand⟩ := inductionHypothesis
      obtain ⟨same, kept⟩ := storages_of_execute plain ends
      rw [same]
      exact ⟨remembers.keeps kept, stand⟩
  | reference _ pops tells ends inductionHypothesis =>
      obtain ⟨remembers, stand⟩ := inductionHypothesis
      have same := (of_pop pops).1
      rw [← same] at remembers stand
      obtain ⟨_, _, isFound, _, refers⟩ := refers_of_loadPersistent ends
      cases tells.symm.trans isFound
      obtain ⟨remembersMore, extends_, stands⟩ :=
        referredStorage_remembers (storages_keep sources depth) remembers refers
      rw [mentions_append]
      refine ⟨remembersMore, fun reference member => ?_⟩
      rcases List.mem_append.mp member with earlier | last
      · exact extends_ _ _ (stand reference earlier)
      · rw [List.mem_singleton.mp last]
        exact stands

theorem resolves_of_remembers
    (remembers : Remembers contents (mentions met) loading.storages machine.heap)
    (stand : ∀ reference ∈ met,
      loading.storages.get? reference.target = some reference.value) :
    Resolves contents met machine := by
  have resolved (reference : Reference) (member : reference ∈ met)
      (free : ¬ Claimed met reference.target) :
      ∃ ref, reference.value = .storage ref ∧
        (machine.heap.storage ref).key = some reference.target ∧
        (machine.heap.storage ref).data = contents.get? reference.target := by
    have stands := stand reference member
    cases found : (mentions met).lookup reference.target with
    | none =>
        rw [remembers.unmet _ found] at stands
        cases stands
    | some asView =>
        cases asView with
        | true => exact absurd found free
        | false =>
            obtain ⟨ref, isStorage, _, made⟩ := remembers.made _ found
            rw [isStorage, Option.some_inj] at stands
            exact ⟨ref, stands.symm, made⟩
  constructor
  case claimed =>
    intro reference member isClaimed
    have stands := stand reference member
    rw [remembers.claimed _ isClaimed, Option.some_inj] at stands
    exact stands.symm
  case resolved => exact resolved
  case shared =>
    intro first firstMember second secondMember freeFirst freeSecond
    constructor
    · intro same
      obtain ⟨ref, isFirst, keyFirst, _⟩ := resolved first firstMember freeFirst
      obtain ⟨other, isSecond, keySecond, _⟩ := resolved second secondMember freeSecond
      rw [isFirst, isSecond] at same
      cases same
      exact Option.some_inj.mp (keyFirst.symm.trans keySecond)
    · intro same
      have stands := stand first firstMember
      rw [same, stand second secondMember, Option.some_inj] at stands
      exact stands.symm

/-- A reference without a view, whose type is one or names one, always stands for something. -/
theorem loadPersistent_returns {calls : Calls} {type key place size : Value}
    {made : StorageType} {typed : Machine}
    (types : storageType calls type machine = .ok made typed) :
    ∃ value after later,
      loadPersistent calls contents (.tuple [.str "storage", type, key, place, size]) loading
          machine = .ok (value, after) later := by
  have stands : ∃ value after later,
      storageOf calls contents type (machine.heap.text key) size loading machine =
        .ok (value, after) later := by
    cases known : loading.storages.get? (machine.heap.text key) with
    | some value =>
        refine ⟨value, loading, machine, (Load.get_bind _ loading machine).trans ?_⟩
        dsimp only
        rw [known]
        rfl
    | none =>
        refine ⟨?value, ?after, ?later, (Load.get_bind _ loading machine).trans ?ends⟩
        case ends =>
          dsimp only
          rw [known]
          exact Load.bind_eq (Load.lift_eq types)
  obtain ⟨value, after, later, stands⟩ := stands
  exact ⟨value, after, later, Load.bind_eq stands⟩

theorem Meets.continues {calls : Calls} {start middle : Loading} {between : Machine}
    {instructions : List Instruction}
    (meets : Meets calls contents start before met middle between)
    (runs :
      instructions.forM (execute calls contents) middle between = .ok ((), loading) machine) :
    ∃ met, Meets calls contents start before met loading machine := by
  induction instructions generalizing met middle between with
  | nil =>
      cases runs
      exact ⟨met, meets⟩
  | cons first rest inductionHypothesis =>
      obtain ⟨_, after, later, executes, runs⟩ := Load.bind_eq_ok_iff.mp runs
      by_cases refers : first.Refers
      · -- The id is taken from the stack, and what it stands for is put there.
        cases refers with
        | persistent id =>
            obtain ⟨_, _, _, stands, _⟩ := Load.bind_eq_ok_iff.mp executes
            obtain ⟨kind, parts, iterates, isStorage, _⟩ := refers_of_loadPersistent stands
            exact absurd isStorage (kind_of_text iterates)
        | persistentOnStack =>
            obtain ⟨id, popped, _, pops, loads⟩ := Load.bind_eq_ok_iff.mp executes
            obtain ⟨_, rfl⟩ := of_pop pops
            obtain ⟨value, resolved, _, stands, pushes⟩ := Load.bind_eq_ok_iff.mp loads
            cases pushes
            obtain ⟨kind, parts, iterates, _, refers⟩ := refers_of_loadPersistent stands
            obtain ⟨type, key, place, rest, rfl⟩ := parts_of_referredStorage refers
            exact inductionHypothesis (meets.reference pops iterates stands) runs
      · exact inductionHypothesis (meets.other refers executes) runs

/-- Every run of instructions meets some references. -/
theorem exists_meets {calls : Calls} {start : Loading} {instructions : List Instruction}
    (runs :
      instructions.forM (execute calls contents) start before = .ok ((), loading) machine) :
    ∃ met, Meets calls contents start before met loading machine :=
  Meets.start.continues runs

/-- A reference stands for the storage of its key, and references to equal keys stand for
one and the same storage, unless a view has claimed the key before. -/
theorem references_resolve
    (meets :
      Meets (Calls.within sources depth) contents ⟨stack, .empty⟩ before met loading machine) :
    Resolves contents met machine ∧
      ∀ type key place size made typed,
        storageType (Calls.within sources depth) type machine = .ok made typed →
          ∃ value after later,
            loadPersistent (Calls.within sources depth) contents
                (.tuple [.str "storage", type, key, place, size]) loading machine =
              .ok (value, after) later :=
  ⟨resolves_of_remembers meets.remembered.1 meets.remembered.2,
    fun _ _ _ _ _ _ types => loadPersistent_returns types⟩

end Runs

/-! ## A storage behind a view of it -/

namespace ViewedStorage

/-- A persistent id of a storage of one number, with what it tells behind its size. -/
def id (key : String) (view : List Value) : Value :=
  .tuple ([.str "storage", .storageType .float, .str key, .str "cpu", .int 1] ++ view)

/-- A view that has a key of its own. -/
def view : Value := .tuple [.str "1", .int 0, .int 1]

def sources : Sources := ⟨fun file => .error (.missingSource file), none, .empty⟩

def start : Stack := ⟨[id "0" [view], id "0" []], [], ∅⟩

/-- A view of a storage and then the storage itself. -/
theorem meets :
    ∃ first second loading machine,
      Meets (Calls.within sources 1) .empty ⟨start, .empty⟩ Machine.initial
        [⟨"0", some "1", first⟩, ⟨"0", none, second⟩] loading machine := by
  have viewed :
      Meets (Calls.within sources 1) .empty ⟨start, .empty⟩ Machine.initial
        [⟨"0", some "1", .none⟩] _ _ :=
    .reference .start (show pop ⟨start, .empty⟩ _ = .ok (id "0" [view], _) _ from rfl)
      (show Heap.iterate _ (id "0" [view]) = .ok [_, _, _, _, .int 1, view] from rfl) rfl
  have popped := viewed.other (fun refers => by cases refers)
    (show execute _ _ .pop _ _ = .ok ((), _) _ from rfl)
  exact ⟨_, _, _, _, popped.reference (show pop _ _ = .ok (id "0" [], _) _ from rfl)
    (show Heap.iterate _ (id "0" []) = .ok [_, _, _, _, .int 1] from rfl) rfl⟩

/-- The view stands for nothing, and the storage is found behind it. -/
theorem references_resolve_viewed :
    ∃ first second loading machine,
      Meets (Calls.within sources 1) .empty ⟨start, .empty⟩ Machine.initial
          [⟨"0", some "1", first⟩, ⟨"0", none, second⟩] loading machine ∧
        Resolves .empty [⟨"0", some "1", first⟩, ⟨"0", none, second⟩] machine ∧
        ∀ type key place size made typed,
          storageType (Calls.within sources 1) type machine = .ok made typed →
            ∃ value after later,
              loadPersistent (Calls.within sources 1) .empty
                  (.tuple [.str "storage", type, key, place, size]) loading machine =
                .ok (value, after) later := by
  obtain ⟨first, second, loading, machine, meets⟩ := meets
  obtain ⟨resolves, returns⟩ := references_resolve meets
  exact ⟨first, second, loading, machine, meets, resolves, returns⟩

end ViewedStorage

/-! ## A key that a view has claimed -/

namespace ClaimedKey

/-- A reference with a view of key 1, and then one to the storage of key 1. -/
def stream : ByteArray :=
  ("((Vstorage\nctorch\nFloatStorage\nV0\nVcpu\nI1\n(V1\nI0\nI1\nttQ" ++
    "(Vstorage\nctorch\nFloatStorage\nV1\nVcpu\nI1\ntQt.").toUTF8

def contents : Table String ByteArray := .ofList [("1", ⟨#[0, 0, 128, 63]⟩)]

/-- Whether both references of the stream stand for nothing. -/
def loses (start : Machine) : Bool :=
  match load (Calls.of ViewedStorage.sources) contents stream start with
  | .ok (.tuple [.atom .none, .atom .none]) _ => true
  | _ => false

set_option maxRecDepth 100000 in
private theorem loses_initial : loses .initial = true := by
  rw [Machine.initial_eq]
  decide +kernel

/-- A reference without a view stands for nothing, though there are bytes of its key. -/
theorem exists_reference_lost :
    ∃ after,
      load (Calls.of ViewedStorage.sources) contents stream Machine.initial =
          .ok (.tuple [.none, .none]) after ∧
        contents.get? "1" = some ⟨#[0, 0, 128, 63]⟩ := by
  have pass := loses_initial
  rw [loses] at pass
  split at pass
  · exact ⟨_, ‹_›, rfl⟩
  · cases pass

end ClaimedKey

end Pickle

end TorchArchive
