import TorchArchive.Proofs.Evaluation.Containers
import TorchArchive.Proofs.Json

/-!
# How containers are loaded

A container that was loaded comes from one of two payloads: a pickled tree, or else a
description, whose tensors are the constants of the code.
-/

namespace TorchArchive

open Run

variable {identifier : String} {entries : List Entry} {before after : Machine}
  {container : Container}

/-! ## Payloads -/

/-- A container that was loaded was unpickled, or described where nothing is pickled. -/
theorem Container.load_cases
    (loads : Container.load identifier entries before = .ok container after) :
    container.entries = entries ∧
      ((∃ data, Container.contents? container.folder entries "data.pkl" = some data ∧
          Pickle.load container.calls (Container.storages container.folder entries "data") data
              (stateAfter
                (Run.report (.readingPickle (container.folder ++ "data.pkl"))) before) =
            .ok container.data after) ∨
        (Container.contents? container.folder entries "data.pkl" = none ∧
          ∃ document root,
            Description.load container.folder entries document
                (stateAfter
                  (Run.report (.readingDescription (container.folder ++ "model.json")))
                  before) =
              .ok (container.header, root) after)) := by
  unfold Container.load at loads
  cases found : Entry.findVersion? entries with
  | none =>
      rw [found] at loads
      cases loads
  | some versionEntry =>
      rw [found] at loads
      obtain ⟨version, _, reads, loads⟩ := EStateM.bind_eq_ok_iff.mp loads
      obtain ⟨_, same⟩ := EStateM.ofExcept_eq_ok_iff.mp reads
      cases same
      cases pickled : Container.contents? versionEntry.folder entries "data.pkl" with
      | some data =>
          simp only [pickled] at loads
          obtain ⟨_, reported, reports, loads⟩ := EStateM.bind_eq_ok_iff.mp loads
          obtain ⟨value, _, unpickles, same⟩ := EStateM.bind_eq_ok_iff.mp loads
          cases reports
          cases same
          exact ⟨rfl, Or.inl ⟨data, pickled, unpickles⟩⟩
      | none =>
          cases described : Entry.data? entries (versionEntry.folder ++ "model.json") with
          | none =>
              simp only [pickled, described] at loads
              cases loads
          | some text =>
              simp only [pickled, described] at loads
              obtain ⟨_, reported, reports, loads⟩ := EStateM.bind_eq_ok_iff.mp loads
              obtain ⟨document, _, reads, loads⟩ := EStateM.bind_eq_ok_iff.mp loads
              obtain ⟨_, same⟩ := EStateM.ofExcept_eq_ok_iff.mp reads
              cases same
              obtain ⟨⟨header, root⟩, _, describes, same⟩ := EStateM.bind_eq_ok_iff.mp loads
              cases reports
              cases same
              exact ⟨rfl, Or.inr ⟨pickled, document, root, describes⟩⟩

/-! ## Descriptions -/

namespace Container

/-- What a text is as bytes decodes to the text. -/
theorem decodeText_toUTF8 (text : String) : decodeText text.toUTF8 = .ok text := by
  have decodes : String.fromUTF8? text.toUTF8 = some text := dif_pos text.isValidUTF8
  rw [decodeText, decodes]

theorem decodes_of_reads {text : String} {datum : Datum} (same : Json.reads text datum = true) :
    decodeText text.toUTF8 >>= Json.read = .ok datum := by
  rw [decodeText_toUTF8]
  exact Json.read_of_reads same

/-- Where there is a description and no pickled tree, the load is that of the description. -/
theorem load_described {folder : String} {entry : Entry} {data : ByteArray}
    {version document : Datum} (found : Entry.findVersion? entries = some entry)
    (isFolder : entry.folder = folder)
    (isVersion : decodeText entry.data >>= Json.read = .ok version)
    (unpickled : contents? folder entries "data.pkl" = none)
    (described : Entry.data? entries (folder ++ "model.json") = some data)
    (reads : decodeText data >>= Json.read = .ok document) (machine : Machine) :
    load identifier entries machine =
      (do
        let (header, root) ← Description.load folder entries document
        return ⟨identifier, folder, entries, version, header, .module root⟩ : Run Container)
        (stateAfter (Run.report (.readingDescription (folder ++ "model.json"))) machine) := by
  rw [load]
  simp only [found, isFolder, unpickled, described]
  refine (EStateM.bind_of_ok (EStateM.ofExcept_eq_ok_iff.mpr ⟨isVersion, rfl⟩)).trans ?_
  refine (EStateM.bind_of_ok rfl).trans ?_
  exact EStateM.bind_of_ok (EStateM.ofExcept_eq_ok_iff.mpr ⟨reads, rfl⟩)

theorem reads_version : Json.reads "1" (.int 1) = true := by
  decide +kernel

theorem folder_version : Entry.folder ⟨"version", "1".toUTF8⟩ = "" := by
  decide +kernel

/-- The load of a description in an archive of the first version that has no folder. -/
theorem load_first_version {text : String} {document : Datum}
    (found : Entry.findVersion? entries = some ⟨"version", "1".toUTF8⟩)
    (unpickled : contents? "" entries "data.pkl" = none)
    (described : Entry.data? entries ("" ++ "model.json") = some text.toUTF8)
    (reads : Json.reads text document = true) (machine : Machine) :
    load identifier entries machine =
      (do
        let (header, root) ← Description.load "" entries document
        return ⟨identifier, "", entries, .int 1, header, .module root⟩ : Run Container)
        (stateAfter (Run.report (.readingDescription ("" ++ "model.json"))) machine) :=
  load_described found folder_version (decodes_of_reads reads_version) unpickled described
    (decodes_of_reads reads) machine

end Container

/-- The tensors of a description are the constants. -/
theorem Description.load_constants {folder : String} {document : Datum}
    {described : Description.Header × Ref .module}
    (loads : Description.load folder entries document before = .ok described after) :
    ∃ tensors : List (Ref .tensor), after.constants = some (tensors.map .tensor) := by
  obtain ⟨producer, _, reads, loads⟩ := EStateM.bind_eq_ok_iff.mp loads
  obtain ⟨main, _, reads, loads⟩ := EStateM.bind_eq_ok_iff.mp loads
  obtain ⟨header, _, reads, loads⟩ := EStateM.bind_eq_ok_iff.mp loads
  obtain ⟨definitions, _, reads, loads⟩ := EStateM.bind_eq_ok_iff.mp loads
  obtain ⟨tensors, made, makes, loads⟩ := EStateM.bind_eq_ok_iff.mp loads
  obtain ⟨_, kept, keeps, loads⟩ := EStateM.bind_eq_ok_iff.mp loads
  cases keeps
  have persists : Machine.Persists fun machine =>
      machine.constants = some (tensors.map Value.tensor) :=
    Machine.rest_persists fun _ _ constants => constants = some (tensors.map Value.tensor)
  have rest :
      Keeps (fun machine => machine.constants = some (tensors.map Value.tensor))
        (do
          let root ← Run.allocate fun heap => heap.addModule (.fresh Heap.baseClass)
          Description.fillModules tensors document.size [(root, main)]
          return (header, root)) :=
    (persists.allocate fun _ => (Heap.Edit.module _).once).bind fun root =>
      (persists.fillModules tensors _ _).bind fun _ => Keeps.pure _
  exact ⟨tensors, rest.ok loads rfl⟩

end TorchArchive
