import TorchArchive.Proofs.Archive.Loading
import TorchArchive.Proofs.Description.Loading
import TorchArchive.Proofs.Graph.Structure

/-!
# Opening described archives

An archive whose modules are described and that has no code comes to a graph of its modules
alone, and the graph is a function of the document: the nodes are those that the rows of the
document tell, with views of the bytes that the archive keeps.  If a parameter names a place
outside of the table, the archive is refused instead.
-/

namespace TorchArchive

namespace Container

/-! ## Tracing -/

variable {container : Container} {root : Ref .module} {machine : Machine}

/-- Where no script is named and the root has no function to run, nothing is traced. -/
theorem trace_eq_none (silent : container.header.script.truthy = false)
    (noFunction :
      ∀ ref, machine.heap.findMember container.data entryName ≠ .function ref) :
    ∃ after, container.trace machine = .ok none after ∧
      after.recording = machine.recording := by
  have finds : container.findEntry machine =
      .ok (machine.heap.findMember container.data entryName) machine := by
    rw [findEntry]
    simp only [silent]
    rfl
  have fails : container.entryPoint machine = .error .noForward machine := by
    rw [entryPoint]
    refine (EStateM.bind_of_ok finds).trans ?_
    revert noFunction
    cases machine.heap.findMember container.data entryName with
    | function ref => exact fun noFunction => absurd rfl (noFunction ref)
    | _ => exact fun _ => rfl
  refine ⟨stateAfter (Run.report (.tracingFailed (.loading .noForward container.identifier)))
    machine, ?_, rfl⟩
  refine EStateM.tryCatch_eq_ok_iff.mpr (Or.inr ⟨.noForward, machine, ?_, rfl⟩)
  exact EStateM.bind_eq_error_iff.mpr (Or.inl fails)

end Container

namespace Description

variable {folder : String} {entries : List Entry} {outline : Outline} {before heap : Heap}
  {root : Ref .module} {tensors : List (Ref .tensor)}

/-- Where nothing has run yet, there are no modules, and the class that the modules of a
description have has no function to run. -/
private theorem initial_bare_and_mute :
    (Machine.initial.heap.modules.size == 0 &&
      ((Machine.initial.heap.table
        (Machine.initial.heap.moduleClass Heap.baseClass).members).get?
          Container.entryName).isNone) = true := by
  rw [Machine.initial_eq]
  decide +kernel

/-- Where nothing has run yet, there are no modules, so none has fields. -/
theorem initial_bare (ref : Ref .module) :
    (Machine.initial.heap.module ref).fields = .empty := by
  have size := eq_of_beq (Bool.and_eq_true_iff.mp initial_bare_and_mute).1
  refine fields_of_not_holds fun held => ?_
  rw [Store.Holds, size] at held
  exact Nat.not_lt_zero _ held

theorem initial_bare_after (event : Event) (ref : Ref .module) :
    ((stateAfter (Run.report event) Machine.initial).heap.module ref).fields = .empty :=
  initial_bare ref

/-- The root of a description has no function to run: its fields are modules and tensors. -/
theorem Carries.noFunction
    (carries : Carries folder entries Machine.initial.heap outline heap root tensors)
    (ref : Ref .function) :
    heap.findMember (.module root) Container.entryName ≠ .function ref := by
  intro isFunction
  rw [Heap.findMember, Heap.member?] at isFunction
  cases bound : (heap.module root).fields.getName? Container.entryName with
  | some value =>
      rw [bound] at isFunction
      change value = .function ref at isFunction
      obtain ⟨entry, found, rfl⟩ := Option.map_eq_some_iff.mp bound
      have field : heap.HasField root entry.1 entry.2 :=
        List.mem_map_of_mem (f := Prod.snd) (Table.mem_of_get? found)
      have stands := carries.stands
      revert stands
      cases outline.root with
      | mk parameters submodules =>
          rintro ⟨children, own, _⟩
          rcases (hasField_iff_of_fields own).mp field with ⟨_, _, _, same⟩ | ⟨_, _, _, same⟩
          all_goals
            rw [isFunction] at same
            cases same
  | none =>
      rw [bound] at isFunction
      change ((heap.table (heap.classOf root).members).get? Container.entryName).getD .missing =
        .function ref at isFunction
      have unbound :=
        Option.isNone_iff_eq_none.mp (Bool.and_eq_true_iff.mp initial_bare_and_mute).2
      rw [Heap.table, Heap.moduleClass] at unbound
      rw [Heap.classOf, carries.moduleClass, Heap.moduleClass, carries.moduleClasses,
        Heap.table, carries.tables, unbound] at isFunction
      cases isFunction

/-! ## Registration -/

/-- From a heap that carries an outline, the modules come to the nodes of the outline. -/
theorem Carries.exists_nodes
    (carries : Carries folder entries before outline heap root tensors)
    (unmarked : heap.Unmarked) (lawful : outline.root.Lawful) (inRange : outline.InRange)
    (displayLimit : Datum) :
    ∃ registration,
      (Registration.begin heap).addRoot displayLimit root = .ok registration ∧
        moduleNodes registration.heap registration.tree root =
          .ok (outline.root.nodes (outline.views folder entries displayLimit) []) := by
  have inRangeHere : outline.root.InRange tensors.length := by
    rw [← carries.areTensors.length_eq]
    exact inRange
  have regular := carries.stands.regular lawful inRangeHere carries.areTensors
  obtain ⟨registration, adds⟩ := Registration.exists_addRoot unmarked regular displayLimit
  obtain ⟨sound, covered⟩ := Registration.addRoot_sound unmarked adds
  have marks := Registration.addRoot_marks unmarked adds
  have views := Registration.addRoot_views unmarked adds
  have registered : Registered heap root tensors
      (outline.views folder entries displayLimit) registration := by
    refine ⟨sound, covered, carries.tidy, fun place inside owned => ?_, fun place inside => ?_⟩
    · obtain ⟨row, listed, isTensor⟩ := isTensor_tensorAt carries.areTensors inside
      obtain ⟨view, makes, shown⟩ := views _ isTensor.isPlain owned
      rw [isTensor.initializer displayLimit] at makes
      cases makes
      rw [shown, Outline.views, List.getElem?_map, listed]
      rfl
    · obtain ⟨_, _, isTensor⟩ := isTensor_tensorAt carries.areTensors inside
      rw [marks.list, marks.outputs]
      exact isTensor.outputs.2
  refine ⟨registration, adds, ?_⟩
  exact registered.nodesBelow_eq (registration.tree.size + 1) carries.stands lawful
    inRangeHere registered.leadsTo_root (by omega)

/-! ## Archives -/

/-- What an archive tells whose modules are described. -/
structure Archive where
  folder : String
  version : Datum
  outline : Outline

namespace Archive

/-- The entries of an archive with a version and with a description, but without a pickled
tree and without code. -/
structure IsTold (entries : List Entry) (archive : Archive) : Prop where
  version :
    ∃ entry, Entry.findVersion? entries = some entry ∧ entry.folder = archive.folder ∧
      Container.decodeText entry.data >>= Json.read = .ok archive.version
  unpickled : Container.contents? archive.folder entries "data.pkl" = none
  described :
    ∃ data document, Entry.data? entries (archive.folder ++ "model.json") = some data ∧
      Container.decodeText data >>= Json.read = .ok document ∧
        Outlines document archive.outline
  silent : archive.outline.header.script.truthy = false

/-- The model of an archive: nothing flows in or out, and the nodes are those of the
modules. -/
def model (entries : List Entry) (settings : Settings) (archive : Archive) : Model where
  format := "TorchScript v" ++ archive.version.text
  producer := archive.outline.header.producer
  graph :=
    { name := archive.outline.header.name
      inputs := []
      outputs := []
      nodes :=
        archive.outline.root.nodes
          (archive.outline.views archive.folder entries settings.displayLimit) [] }

end Archive

variable {archive : Archive}

/-- The load of a described archive is the load of its description. -/
theorem container_load_eq (identifier : String) (told : archive.IsTold entries) :
    ∃ document, Outlines document archive.outline ∧
      ∀ machine, Container.load identifier entries machine =
        (do
          let (header, root) ← load archive.folder entries document
          return ⟨identifier, archive.folder, entries, archive.version, header,
            .module root⟩ : Run Container)
          (stateAfter
            (Run.report (.readingDescription (archive.folder ++ "model.json"))) machine) := by
  obtain ⟨entry, found, isFolder, isVersion⟩ := told.version
  obtain ⟨data, document, holds, reads, outlines⟩ := told.described
  exact ⟨document, outlines,
    Container.load_described found isFolder isVersion told.unpickled holds reads⟩

/-- The graph of a described archive whose load is over. -/
theorem buildGraph_described {container : Container} {loaded : Machine} (catalogue : Catalogue)
    (settings : Settings) (holds : container.data = .module root)
    (silent : container.header.script.truthy = false)
    (carries :
      Carries folder entries Machine.initial.heap outline loaded.heap root tensors)
    (unmarked : loaded.heap.Unmarked) (lawful : outline.root.Lawful)
    (inRange : outline.InRange) :
    ∃ after,
      buildGraph container catalogue settings loaded =
        .ok ⟨container.header.name, [], [],
          outline.root.nodes (outline.views folder entries settings.displayLimit) []⟩
          after := by
  have ends : ∃ between,
      (if settings.tracing then container.trace else pure none) loaded =
          .ok none between ∧
        between.recording = loaded.recording := by
    split
    · refine Container.trace_eq_none silent fun ref => ?_
      rw [holds]
      exact carries.noFunction ref
    · exact ⟨loaded, rfl, rfl⟩
  obtain ⟨between, ends, same⟩ := ends
  obtain ⟨registration, adds, walks⟩ :=
    carries.exists_nodes unmarked lawful inRange settings.displayLimit
  have addsHere :
      (Registration.begin between.recording.heap).addRoot settings.displayLimit root =
        .ok registration := by
    rw [same]
    exact adds
  exact buildGraph_eq_of_no_trace catalogue ends holds addsHere walks

/-- A described archive with all its tensors in the table is opened. -/
theorem openModel_eq (told : archive.IsTold entries) (lawful : archive.outline.root.Lawful)
    (inRange : archive.outline.InRange) (identifier : String) (catalogue : Catalogue)
    (settings : Settings) :
    ∃ after,
      openModel identifier entries catalogue settings .initial =
        .ok (archive.model entries settings) after := by
  obtain ⟨document, outlines, loads⟩ := container_load_eq identifier told
  obtain ⟨root, tensors, loaded, loadsModules, carries⟩ :=
    load_eq archive.folder entries outlines lawful (initial_bare_after _) inRange
  let container : Container :=
    ⟨identifier, archive.folder, entries, archive.version, archive.outline.header,
      .module root⟩
  have loadsHere : Container.load identifier entries .initial = .ok container loaded := by
    rw [loads]
    exact EStateM.bind_eq_ok_iff.mpr ⟨_, _, loadsModules, rfl⟩
  have unmarked := (Container.load_unmarked Machine.initial_unmarked loadsHere).heap
  obtain ⟨after, builds⟩ := buildGraph_described catalogue settings
    (show container.data = .module root from rfl) told.silent carries unmarked lawful inRange
  refine ⟨after, EStateM.tryCatch_eq_ok_iff.mpr (Or.inl ?_)⟩
  refine EStateM.bind_eq_ok_iff.mpr ⟨container, loaded, loadsHere, ?_⟩
  exact EStateM.bind_eq_ok_iff.mpr ⟨_, after, builds, rfl⟩

/-- A described archive with a tensor outside of the table is refused. -/
theorem openModel_fails (told : archive.IsTold entries)
    (lawful : archive.outline.root.Lawful) (outside : ¬ archive.outline.InRange)
    (identifier : String) (catalogue : Catalogue) (settings : Settings) :
    ∃ fault after,
      openModel identifier entries catalogue settings .initial = .error fault after ∧
        fault.kind = .format := by
  obtain ⟨document, outlines, loads⟩ := container_load_eq identifier told
  obtain ⟨fault, after, fails, isFormat⟩ :=
    load_fails archive.folder entries outlines lawful (initial_bare_after _) outside
  refine ⟨.loading fault identifier, after, EStateM.tryCatch_eq_error_iff.mpr
    ⟨fault, after, ?_, rfl⟩, ?_⟩
  · refine EStateM.bind_eq_error_iff.mpr (Or.inl ?_)
    rw [loads]
    exact EStateM.bind_eq_error_iff.mpr (Or.inl fails)
  · rw [Fault.kind, isFormat]

/-- A described archive comes to a graph without inputs and outputs, whose nodes are those
that the document tells, unless a parameter names a place outside of the table: then the
archive is refused with a fault of the format. -/
theorem openModel_described (told : archive.IsTold entries)
    (lawful : archive.outline.root.Lawful) (identifier : String) (catalogue : Catalogue)
    (settings : Settings) :
    (archive.outline.InRange →
      ∃ after,
        openModel identifier entries catalogue settings .initial =
          .ok (archive.model entries settings) after) ∧
      (¬ archive.outline.InRange →
        ∃ fault after,
          openModel identifier entries catalogue settings .initial = .error fault after ∧
            fault.kind = .format) :=
  ⟨fun inRange => openModel_eq told lawful inRange identifier catalogue settings,
    fun outside => openModel_fails told lawful outside identifier catalogue settings⟩

end Description

/-! ## A described layer -/

namespace DescribedLayer

/-- A layer for normalization, and a layer inside of it that has the same tensor. -/
def text : String :=
  "\x7b\"mainModule\":\x7b\"parameters\":[\x7b\"name\":\"weight\",\"tensorId\":0\x7d," ++
    "\x7b\"name\":\"num_batches_tracked\",\"tensorId\":0\x7d]," ++
    "\"submodules\":[\x7b\"name\":\"inner\"," ++
    "\"arguments\":[\x7b\"name\":\"bias\",\"tensorId\":0\x7d]\x7d]\x7d," ++
    "\"tensors\":[\x7b\"dataType\":\"FLOAT\",\"dims\":[1],\"data\":\x7b\"key\":\"w\"\x7d\x7d]\x7d"

def entries : List Entry :=
  [⟨"version", "1".toUTF8⟩, ⟨"model.json", text.toUTF8⟩, ⟨"w", "abcd".toUTF8⟩]

def parameter (name : String) : Datum := .fields [("name", .str name), ("tensorId", .int 0)]

def inner : Datum :=
  .fields [("name", .str "inner"), ("arguments", .list [parameter "bias"])]

def layer : Datum :=
  .fields [("parameters", .list [parameter "weight", parameter "num_batches_tracked"]),
    ("submodules", .list [inner])]

def tensors : List Datum :=
  [.fields [("dataType", .str "FLOAT"), ("dims", .list [.int 1]),
    ("data", .fields [("key", .str "w")])]]

def document : Datum := .fields [("mainModule", layer), ("tensors", .list tensors)]

/-- The parameters of the layer with the places of their tensors. -/
def parameters : List (String × Int) := [("weight", 0), ("num_batches_tracked", 0)]

def archive : Description.Archive where
  folder := ""
  version := .int 1
  outline :=
    { header := ⟨.str "", .str "", .none⟩
      table := [⟨.float, some [1], "w", 0⟩]
      root := .mk parameters [("inner", .mk [("bias", 0)] [])] }

set_option maxRecDepth 100000 in
private theorem reads_text : Json.reads text document = true := by
  have spelled : text.toList = _ :=
    Spells.append (.append (.append (.append .literal .literal) .literal) .literal) .literal
  rw [Json.reads, Json.read, spelled]
  decide +kernel

open Description in
theorem isTold : archive.IsTold entries where
  version :=
    ⟨⟨"version", "1".toUTF8⟩, rfl, Container.folder_version,
      Container.decodes_of_reads Container.reads_version⟩
  unpickled := rfl
  described := by
    refine ⟨text.toUTF8, document, rfl, Container.decodes_of_reads reads_text, ?_, ?_⟩
    · exact ⟨.str "", layer, rfl, rfl, rfl,
        .mk rfl rfl (.field rfl rfl rfl (.field rfl rfl rfl .nil))
        (.cons rfl (.mk rfl rfl (.field rfl rfl rfl .nil) .nil) .nil)⟩
    · exact ⟨tensors, rfl, rfl⟩
  silent := rfl

theorem lawful : archive.outline.root.Lawful :=
  ⟨by decide, ⟨by decide, by decide +kernel⟩, ⟨by decide, trivial⟩, trivial⟩

theorem inRange : archive.outline.InRange := by
  rw [Description.Outline.InRange, Description.ModuleRow.InRange]
  simp only [Description.ModuleRow.IsPlace]
  decide

/-- The name of a node and those of its inputs. -/
def names (node : Node) : String × List Datum := (node.name, node.inputs.map (·.name))

open Description in
/-- The layer and the one inside of it come to nodes. -/
theorem openModel_described_layer :
    archive.IsTold entries ∧ archive.outline.root.Lawful ∧ archive.outline.InRange ∧
      (∃ after,
        openModel "model" entries .empty .initial .initial =
          .ok (archive.model entries .initial) after) ∧
      (archive.model entries .initial).graph.nodes.map names =
        [("", [.str "weight", .str "num_batches_tracked"]), ("inner", [.str "bias"])] :=
  ⟨isTold, lawful, inRange,
    (openModel_described isTold lawful "model" .empty .initial).1 inRange, rfl⟩

open Description in
/-- The bookkeeping field is an input of a node too, when the module has another tensor. -/
theorem exists_bookkeeping_input :
    archive.IsTold entries ∧ archive.outline.root.Lawful ∧ archive.outline.InRange ∧
      ∃ model after node,
        openModel "model" entries .empty .initial .initial = .ok model after ∧
          node ∈ model.graph.nodes ∧ node.name = "" ∧
          node.inputs.length ≠
            (parameters.filter fun parameter =>
              parameter.1 != Heap.bookkeepingField).length := by
  obtain ⟨after, opens⟩ := openModel_eq isTold lawful inRange "model" .empty .initial
  exact ⟨isTold, lawful, inRange, _, after, _, opens, List.mem_cons_self, rfl, by decide⟩

end DescribedLayer

end TorchArchive
