import TorchArchive.Proofs.Archive.Loading
import TorchArchive.Proofs.Graph.Building
import TorchArchive.Proofs.Package.Definitions
import TorchArchive.Proofs.Pickle.Course
import TorchArchive.Proofs.Trace.Names

/-!
# The constants of a container

The constants are read when they are first asked for.  From that moment on the table is
settled: first to nothing, which is what everybody sees who asks while it is read, and
once it was read to all that is stored.  A read that fails leaves the table at nothing, so
later reads see an empty table in place of the fault.
-/

namespace TorchArchive

/-! ## Tables that are filled in turn -/

namespace Table

variable {κ α : Type} [DecidableEq κ]

/-- New keys are bound at the end, in their order. -/
theorem entries_insertAll {table : Table κ α} {pairs : List (κ × α)}
    (distinct : (table.keys ++ pairs.map (·.1)).Nodup) :
    (table.insertAll pairs).entries = table.entries ++ pairs := by
  induction pairs generalizing table with
  | nil => exact (List.append_nil _).symm
  | cons pair rest inductionHypothesis =>
      have new : pair.1 ∉ table.keys := fun old =>
        List.disjoint_of_nodup_append distinct old List.mem_cons_self
      have entries := entries_insert_of_not_mem new pair.2
      have keys : (table.insert pair.1 pair.2).keys = table.keys ++ [pair.1] := by
        rw [keys_insert, if_neg new]
      have remaining : ((table.insert pair.1 pair.2).keys ++ rest.map (·.1)).Nodup := by
        rw [keys, List.append_assoc]
        exact distinct
      change ((table.insert pair.1 pair.2).insertAll rest).entries = _
      rw [inductionHypothesis remaining, entries, List.append_assoc]
      rfl

end Table

namespace Machine

/-! ## What a settled table gives -/

/-- The members that stand for constants. -/
def numbered (constants : List Value) : List (String × Value) :=
  constants.zipIdx.map fun (value, n) => ("c" ++ integerText n, value)

/-- A package is bound to the name of the constants, and its members are these. -/
structure Numbers (machine : Machine) (ref : Ref .package) (constants : List Value) :
    Prop where
  bound :
    (machine.heap.table machine.root.inner.table).get? constantsName = some (.package ref)
  members :
    (machine.heap.table (machine.heap.package ref).members).entries = numbered constants

/-- Who asks gets these constants: as a list, and by the name of the constants, where nothing
is bound to it, as the members of a package. -/
structure Gives (calls : Calls) (constants : List Value) (before after : Machine) : Prop where
  read : calls.constants before = .ok constants after
  named :
    ∀ scope, (before.heap.lookup scope constantsName).isMissing = true →
      ∃ ref bound,
        nameValue calls scope constantsName before = .ok (.package ref) bound ∧
          bound.Numbers ref constants

/-- The scope outside of all others is among the tables. -/
def Rooted (machine : Machine) : Prop := machine.heap.tables.Holds machine.root.inner.table

variable {sources : Sources} {calls : Calls} {before after : Machine}
  {constants : List Value} {fault : Fault}

theorem keys_numbered (constants : List Value) : ((numbered constants).map (·.1)).Nodup := by
  have keys :
      (numbered constants).map (·.1) =
        (List.range constants.length).map fun n : Nat => "c" ++ integerText n := by
    rw [numbered, List.map_map, List.zipIdx_eq_zip_range', ← List.range_eq_range']
    change ((constants.zip (List.range constants.length)).map
      ((fun n : Nat => "c" ++ integerText n) ∘ Prod.snd)) = _
    rw [← List.map_map, List.map_snd_zip (Nat.le_of_eq List.length_range)]
  rw [keys]
  refine List.nodup_range.map fun first second same => ?_
  exact integerText_injective (String.append_right_inj _ |>.mp same)

/-- A package whose members are bound in turn. -/
theorem fill_package {heap : Heap} {ref : Ref .package} {made : Package}
    (isMade : heap.package ref = made) (pairs : List (String × Value)) :
    let filled := pairs.foldl
      (fun heap pair => heap.bind (heap.package ref).members pair.1 pair.2) heap
    filled.package ref = made ∧
      filled.table made.members = (heap.table made.members).insertAll pairs := by
  induction pairs generalizing heap with
  | nil => exact ⟨isMade, rfl⟩
  | cons pair rest inductionHypothesis =>
      obtain ⟨package, table⟩ := inductionHypothesis
        (show (heap.bind (heap.package ref).members pair.1 pair.2).package ref = made from isMade)
      refine ⟨package, table.trans ?_⟩
      rw [Heap.table_bind, isMade, if_pos rfl]
      rfl

/-- The package of the constants has them as its members. -/
theorem bindConstants_numbers (rooted : before.Rooted) (constants : List Value) :
    ∃ ref after, bindConstants constants before = .ok (.package ref) after ∧
      after.Numbers ref constants := by
  let made := (before.heap.addPackage constantsName).2
  let ref := (before.heap.addPackage constantsName).1
  let filled := (numbered constants).foldl
    (fun heap pair => heap.bind (heap.package ref).members pair.1 pair.2) made
  have isMade : made.package ref = ⟨constantsName, none, before.heap.tables.next⟩ :=
    Store.get_add_next before.heap.packages _
  obtain ⟨package, table⟩ := fill_package isMade (numbered constants)
  have empty : made.table before.heap.tables.next = .empty :=
    Store.get_add_next before.heap.tables _
  have apart : before.root.inner.table ≠ before.heap.tables.next := by
    intro same
    rw [Rooted, same] at rooted
    exact Store.next_not_holds before.heap.tables rooted
  refine ⟨ref, before.withHeap (filled.bind before.root.inner.table constantsName
    (.package ref)), rfl, ?_, ?_⟩
  · rw [heap_withHeap, withHeap, Heap.table_bind, if_pos rfl, Table.get?_insert, if_pos rfl]
  · rw [heap_withHeap, Heap.package_bind, package, Heap.table_bind, if_neg apart, table, empty]
    exact Table.entries_insertAll (keys_numbered constants)

/-! ## Settled tables -/

theorem loadConstants_of_settled (sources : Sources) (calls : Calls)
    (settled : before.constants = some constants) :
    loadConstants sources calls before = .ok constants before := by
  rw [loadConstants]
  refine (EStateM.bind_of_ok rfl).trans ?_
  rw [settled]
  rfl

/-- Nothing is bound to the name of the constants, so they are asked for. -/
theorem nameValue_of_unbound {scope : Scope}
    (unbound : (before.heap.lookup scope constantsName).isMissing = true) :
    nameValue calls scope constantsName before =
      (do bindConstants (← calls.constants) : Run Value) before := by
  have looked :
      nameValue calls scope constantsName before =
        (if !(before.heap.lookup scope constantsName).isMissing then
            pure (before.heap.lookup scope constantsName)
          else do bindConstants (← calls.constants) : Run Value) before := by
    rw [nameValue]
    · rfl
    all_goals decide
  rw [looked, unbound]
  rfl

theorem gives_of_read (reads : calls.constants before = .ok constants after)
    (rooted : after.Rooted) : before.Gives calls constants after where
  read := reads
  named := by
    intro scope unbound
    obtain ⟨ref, bound, binds, numbers⟩ := bindConstants_numbers rooted constants
    refine ⟨ref, bound, ?_, numbers⟩
    rw [nameValue_of_unbound unbound]
    exact EStateM.bind_eq_ok_iff.mpr ⟨constants, after, reads, binds⟩

/-! ## Reads -/

/-- The machine while the constants are read: for now there are none. -/
def reading (machine : Machine) : Machine := { machine with constants := some [] }

/-- All constants that are stored: those of a table that was read to its end, or none where
no table is stored. -/
inductive Complete (sources : Sources) : List Value → Prop where
  | absent : sources.constants = none → Complete sources []
  | stored {depth : Nat} {data : ByteArray} {table : Value} {before after : Machine}
      {constants : List Value} :
      sources.constants = some data →
        Pickle.load (Calls.within sources depth) sources.constantStorages data before.reading =
            .ok table after →
          after.heap.iterate table = .ok constants → Complete sources constants

theorem loadConstants_of_unread (unread : before.constants = none) :
    loadConstants sources calls before =
      (match sources.constants with
        | none => return []
        | some data => do
            let table ← Pickle.load calls sources.constantStorages data
            let constants ← ofExcept ((← Run.heap).iterate table)
            modify fun machine => { machine with constants := some constants }
            return constants : Run (List Value)) before.reading := by
  rw [loadConstants]
  refine (EStateM.bind_of_ok rfl).trans ?_
  rw [unread]
  rfl

/-- What is settled stays so. -/
theorem constants_endure (constants : List Value) :
    Endures sources fun machine => machine.constants = some constants where
  toPersists := rest_persists fun _ _ settled => settled = some constants
  load := fun _ _ settled => settled
  constants := fun depth _ machine settled => by
    rw [stateAfter_ok (loadConstants_of_settled sources _ settled)]
    exact settled
  reset := fun settled => settled
  rollback := fun settled => settled

/-- A first read that ends gives all that is stored, and settles it. -/
theorem constants_of_read {depth : Nat} (unread : before.constants = none)
    (reads : loadConstants sources (Calls.within sources depth) before = .ok constants after) :
    Complete sources constants ∧ after.constants = some constants := by
  rw [loadConstants_of_unread unread] at reads
  cases stored : sources.constants with
  | none =>
      rw [stored] at reads
      cases reads
      exact ⟨.absent stored, rfl⟩
  | some data =>
      rw [stored] at reads
      obtain ⟨table, loaded, loads, reads⟩ := EStateM.bind_eq_ok_iff.mp reads
      obtain ⟨heap, _, looks, reads⟩ := EStateM.bind_eq_ok_iff.mp reads
      cases looks
      obtain ⟨items, _, iterates, reads⟩ := EStateM.bind_eq_ok_iff.mp reads
      obtain ⟨isTable, same⟩ := EStateM.ofExcept_eq_ok_iff.mp iterates
      cases same
      cases reads
      exact ⟨.stored stored loads isTable, rfl⟩

/-- A first read that fails settles that there are none. -/
theorem constants_of_failed_read {depth : Nat} (unread : before.constants = none)
    (fails :
      loadConstants sources (Calls.within sources depth) before = .error fault after) :
    after.constants = some [] := by
  rw [loadConstants_of_unread unread] at fails
  cases stored : sources.constants with
  | none =>
      rw [stored] at fails
      cases fails
  | some data =>
      rw [stored] at fails
      have endures : Endures sources fun machine => machine.constants = some [] :=
        constants_endure []
      have keeps := endures.pickle (endures.callsWithin sources depth)
        sources.constantStorages data
      rcases EStateM.bind_eq_error_iff.mp fails with fails | ⟨table, loaded, loads, fails⟩
      · exact keeps.error fails rfl
      · obtain ⟨_, _, never⟩ | ⟨heap, _, looks, fails⟩ := EStateM.bind_eq_error_iff.mp fails
        cases looks
        rcases EStateM.bind_eq_error_iff.mp fails with fails | ⟨items, _, _, never⟩
        · have same : loaded = after := by
            cases found : loaded.heap.iterate table with
            | ok items =>
                rw [found] at fails
                cases fails
            | error other =>
                rw [found] at fails
                cases fails
                rfl
          rw [← same]
          exact keeps.ok loads rfl
        · cases never

/-- The table holds nothing, or all that is stored. -/
def Whole (sources : Sources) (machine : Machine) : Prop :=
  ∀ constants, machine.constants = some constants → constants = [] ∨ Complete sources constants

theorem whole_endures : Endures sources (Whole sources) where
  toPersists := rest_persists fun _ _ settled =>
    ∀ constants, settled = some constants → constants = [] ∨ Complete sources constants
  load := fun _ _ whole => whole
  constants := by
    intro depth _ machine whole
    cases read : machine.constants with
    | some constants =>
        rw [stateAfter_ok (loadConstants_of_settled sources _ read)]
        exact whole
    | none =>
        rw [stateAfter]
        cases reads : loadConstants sources (Calls.within sources depth) machine with
        | ok constants after =>
            obtain ⟨complete, settled⟩ := constants_of_read read reads
            intro other same
            rw [settled] at same
            cases same
            exact Or.inr complete
        | error fault after =>
            intro other same
            rw [constants_of_failed_read read reads] at same
            cases same
            exact Or.inl rfl
  reset := fun whole => whole
  rollback := fun whole => whole

/-! ## The outermost scope -/

theorem root_endures (root : Scope) : Endures sources fun machine => machine.root = root where
  toPersists := rest_persists fun outermost _ _ => outermost = root
  load := fun _ _ same => same
  constants := fun _ keep =>
    (rest_persists fun outermost _ _ => outermost = root).loadConstants (fun _ same => same)
      sources keep
  reset := fun same => same
  rollback := fun same => same

end Machine

/-- A table that is held stays so. -/
theorem Recording.table_endures (ref : Ref .table) :
    Recording.Endures fun recording => recording.heap.tables.Holds ref :=
  Recording.endures_of_edit (fun edit held => edit.holds_table held) fun _ held => held

namespace Machine

variable {sources : Sources} {before after : Machine} {constants : List Value}

theorem initial_rooted : initial.Rooted := by
  have edits {heap after : Heap} (edits : heap.Edits .everywhere after) {ref : Ref .table}
      (held : heap.tables.Holds ref) : after.tables.Holds ref := by
    induction edits with
    | refl => exact held
    | tail _ edit inductionHypothesis => exact edit.holds_table inductionHypothesis
  have held : (Heap.initial.addTable .empty).2.tables.Holds initial.root.inner.table := by
    decide
  rw [Rooted, heap_initial]
  exact edits Registry.initial_edits held

theorem initial_unread : initial.constants = none := by
  rw [initial]

theorem Rooted.advancesOn (rooted : before.Rooted) (course : AdvancesOn sources before after) :
    after.Rooted := by
  have same : after.root = before.root := (root_endures before.root).advancesOn course rfl
  rw [Rooted, same]
  exact (Recording.table_endures before.root.inner.table).ofMachine.advancesOn course rooted

/-- From now on everybody sees these constants, at any depth, and nothing is read. -/
def Settled (sources : Sources) (constants : List Value) (machine : Machine) : Prop :=
  ∀ later, AdvancesOn sources machine later →
    ∀ depth, later.Gives (Calls.within sources (depth + 1)) constants later

theorem settled_of_constants (settled : before.constants = some constants)
    (rooted : before.Rooted) : before.Settled sources constants := fun _ course _ =>
  gives_of_read
    (loadConstants_of_settled sources _ ((constants_endure constants).advancesOn course settled))
    (rooted.advancesOn course)

end Machine

/-! ## Containers -/

namespace Container

variable {identifier : String} {entries : List Entry} {container : Container}
  {before loaded now : Machine}

/-- What a container's code is run from. -/
abbrev origin (container : Container) : Sources :=
  sources container.folder container.entries

theorem load_rooted (rooted : before.Rooted)
    (loads : Container.load identifier entries before = .ok container loaded) :
    loaded.Rooted := by
  have rootLasts (sources : Sources) :
      Machine.Lasts sources fun machine => machine.root = before.root :=
    (Machine.root_endures before.root).toLasts
  have tableLasts (sources : Sources) :
      Machine.Lasts sources (OfRecording fun recording =>
        recording.heap.tables.Holds before.root.inner.table) :=
    (Recording.table_endures before.root.inner.table).ofMachine.toLasts
  have same : loaded.root = before.root :=
    (Machine.Lasts.container rootLasts (fun _ same => same) identifier entries).ok loads rfl
  rw [Machine.Rooted, same]
  exact (Machine.Lasts.container tableLasts (fun _ held => held) identifier entries).ok loads
    rooted

/-- What may stand in the table of a container: nothing, all that is stored, or the tensors
that the container was loaded with, where it is described. -/
def Offers (container : Container) (loaded : Machine) (constants : List Value) : Prop :=
  constants = [] ∨ Machine.Complete container.origin constants ∨
    (contents? container.folder container.entries "data.pkl" = none ∧
      loaded.constants = some constants ∧
        ∃ tensors : List (Ref .tensor), constants = tensors.map .tensor)

theorem offers_of_advancesOn (unread : before.constants = none)
    (loads : Container.load identifier entries before = .ok container loaded)
    (course : Machine.AdvancesOn container.origin loaded now) {constants : List Value}
    (settled : now.constants = some constants) : container.Offers loaded constants := by
  obtain ⟨same, ⟨data, _, unpickles⟩ | ⟨unpickled, document, root, describes⟩⟩ :=
    load_cases loads
  · have whole : now.Whole container.origin := by
      refine Machine.whole_endures.advancesOn course ?_
      refine (Machine.whole_endures.pickle (Machine.whole_endures.callsOf container.origin)
        _ data).ok unpickles ?_
      intro constants never
      rw [show (stateAfter (Run.report _) before).constants = none from unread] at never
      cases never
    rcases whole constants settled with nothing | complete
    · exact Or.inl nothing
    · exact Or.inr (Or.inl complete)
  · obtain ⟨tensors, described⟩ := Description.load_constants describes
    have stays := (Machine.constants_endure (tensors.map .tensor)).advancesOn course described
    rw [settled] at stays
    cases stays
    rw [← same] at unpickled
    exact Or.inr (Or.inr ⟨unpickled, described, tensors, rfl⟩)

/-- What the constants of a container are from some point on. -/
structure Settles (container : Container) (loaded now : Machine) : Prop where
  /-- Once they were asked for, everybody sees the same ones. -/
  asked :
    ∀ constants, now.constants = some constants →
      container.Offers loaded constants ∧ now.Settled container.origin constants
  /-- Whoever asks while they are first read sees none. -/
  reading : now.constants = none → now.reading.Settled container.origin []
  /-- A first read that ends gives all that is stored, and so does every later one. -/
  read :
    now.constants = none → ∀ constants after, container.constants now = .ok constants after →
      Machine.Complete container.origin constants ∧
        now.Gives container.calls constants after ∧ after.Settled container.origin constants
  /-- Where the first read fails, every later one gives none. -/
  failed :
    now.constants = none → ∀ fault after, container.constants now = .error fault after →
      (∀ scope, (now.heap.lookup scope constantsName).isMissing = true →
        nameValue container.calls scope constantsName now = .error fault after) ∧
        after.Settled container.origin []

/-- The constants of a container are read once.  What everybody sees from then on is all
that is stored, or nothing if the read fails, and nothing while it is under way. -/
theorem constants_settle
    (loads : Container.load identifier entries .initial = .ok container loaded)
    (course : Machine.AdvancesOn container.origin loaded now) : container.Settles loaded now := by
  have rooted := (load_rooted Machine.initial_rooted loads).advancesOn course
  have rootedAfter : (stateAfter container.constants now).Rooted :=
    rooted.advancesOn (.single (.leads .constants))
  constructor
  case asked =>
    intro constants settled
    exact ⟨offers_of_advancesOn Machine.initial_unread loads course settled,
      Machine.settled_of_constants settled rooted⟩
  case reading => exact fun _ => Machine.settled_of_constants rfl rooted
  case read =>
    intro unread constants after reads
    obtain ⟨complete, settled⟩ := Machine.constants_of_read unread reads
    rw [stateAfter_ok reads] at rootedAfter
    exact ⟨complete, Machine.gives_of_read reads rootedAfter,
      Machine.settled_of_constants settled rootedAfter⟩
  case failed =>
    intro unread fault after fails
    rw [stateAfter_error fails] at rootedAfter
    refine ⟨fun scope unbound => ?_, Machine.settled_of_constants
      (Machine.constants_of_failed_read unread fails) rootedAfter⟩
    rw [Machine.nameValue_of_unbound unbound]
    exact EStateM.bind_eq_error_iff.mpr (Or.inl fails)

end Container

/-! ## A table of two numbers -/

namespace NumberTable

def entries : List Entry :=
  [⟨"version", "1".toUTF8⟩, ⟨"data.pkl", "N.".toUTF8⟩, ⟨"constants.pkl", "(I1\nI2\nl.".toUTF8⟩]

/-- Whether a read of the constants gives the two numbers. -/
def gives (container : Container) (loaded : Machine) : Bool :=
  match container.constants loaded with
  | .ok [.int 1, .int 2] _ => true
  | _ => false

set_option maxRecDepth 100000 in
private theorem reads : loadsTo gives entries Machine.initial = true := by
  rw [Machine.initial_eq]
  decide +kernel

/-- Both numbers are there from the first read on. -/
theorem constants_settle_numbers :
    ∃ container loaded after,
      Container.load "model" entries Machine.initial = .ok container loaded ∧
        Machine.AdvancesOn container.origin loaded loaded ∧
        container.Settles loaded loaded ∧
        container.constants loaded = .ok [.int 1, .int 2] after := by
  obtain ⟨container, loaded, loads, pass⟩ := exists_of_loadsTo reads
  rw [gives] at pass
  split at pass
  · rename_i after reads
    exact ⟨container, loaded, after, loads, .refl, Container.constants_settle loads .refl, reads⟩
  · cases pass

end NumberTable

/-! ## A table that cannot be read -/

namespace UnreadableTable

/-- The second constant is a name that leads nowhere. -/
def entries : List Entry :=
  [⟨"version", "1".toUTF8⟩, ⟨"data.pkl", "N.".toUTF8⟩,
    ⟨"constants.pkl", "(I1\ncno\nsuch\nl.".toUTF8⟩]

/-- Whether a first read of the constants fails and a second one gives none. -/
def empties (container : Container) (loaded : Machine) : Bool :=
  match container.constants loaded with
  | .ok _ _ => false
  | .error fault failed =>
      fault.message == "Unknown symbol 'no.such'." &&
        match container.constants failed with
        | .ok [] _ => true
        | _ => false

set_option maxRecDepth 100000 in
private theorem reads : loadsTo empties entries Machine.initial = true := by
  rw [Machine.initial_eq]
  decide +kernel

/-- A read behind the one that failed gives no constants, though some are stored. -/
theorem exists_constants_emptied :
    ∃ container loaded fault failed after,
      Container.load "model" entries Machine.initial = .ok container loaded ∧
        container.constants loaded = .error fault failed ∧
        fault.message = "Unknown symbol 'no.such'." ∧
        container.constants failed = .ok [] after := by
  obtain ⟨container, loaded, loads, pass⟩ := exists_of_loadsTo reads
  rw [empties] at pass
  split at pass
  · cases pass
  · rename_i fault failed fails
    obtain ⟨message, pass⟩ := Bool.and_eq_true_iff.mp pass
    split at pass
    · rename_i after again
      exact ⟨container, loaded, fault, failed, after, loads, fails, eq_of_beq message, again⟩
    · cases pass

end UnreadableTable

end TorchArchive
