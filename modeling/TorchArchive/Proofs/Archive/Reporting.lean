import Mathlib
import TorchArchive.Archive.Source
import TorchArchive.Proofs.Steps

/-!
# What the opening of an archive reports

Whatever fails while a model is assembled becomes a fault of the library: it keeps its class
if it is one already, counts as a format fault otherwise, and names the archive, once.  The
operator schemas are read before that.  A file of schemas that is missing or that is no
document is passed over, but a document which is no list of objects is not, and what the
reading of it fails with is no fault of the library.
-/

namespace TorchArchive

/-! ## Messages that name an archive -/

theorem endsWith_iff (text part : String) :
    text.endsWith part = true ↔ part.toList <:+ text.toList := by
  rw [← String.endsWith_toSlice, String.Slice.endsWith_string_iff, String.copy_toSlice]

/-- A message that names its archive is a text with the place and a full stop behind it. -/
theorem exists_withIdentifier (message identifier : String) :
    ∃ front, withIdentifier message identifier =
      front ++ s!" in '{identifier}'" ++ "." := by
  unfold withIdentifier
  generalize s!" in '{identifier}'" = place
  generalize (if message.endsWith "." then (message.dropEnd 1).toString else message) = body
  simp only
  split
  · rename_i ending
    obtain ⟨front, parts⟩ := (endsWith_iff _ _).mp ending
    refine ⟨String.ofList front, ?_⟩
    congr 1
    apply String.toList_inj.mp
    rw [String.toList_append, String.toList_ofList, parts]
  · exact ⟨body, rfl⟩

theorem withIdentifier_endsWith (message identifier : String) :
    (withIdentifier message identifier).endsWith s!" in '{identifier}'." = true := by
  obtain ⟨front, parts⟩ := exists_withIdentifier message identifier
  rw [endsWith_iff, parts]
  refine ⟨front.toList, ?_⟩
  simp [toString]

private theorem dropEnd_stop (text : String) :
    ((text ++ ".").dropEnd 1).toString = text := by
  apply String.toList_inj.mp
  change ((text ++ ".").dropEnd 1).copy.toList = _
  rw [String.toList_copy_dropEnd]
  simp

/-- The name of an archive is never added a second time. -/
theorem withIdentifier_withIdentifier (message identifier : String) :
    withIdentifier (withIdentifier message identifier) identifier =
      withIdentifier message identifier := by
  obtain ⟨front, parts⟩ := exists_withIdentifier message identifier
  rw [parts, withIdentifier]
  have stops : (front ++ s!" in '{identifier}'" ++ ".").endsWith "." = true :=
    (endsWith_iff _ _).mpr ⟨(front ++ s!" in '{identifier}'").toList, by simp⟩
  have placed : (front ++ s!" in '{identifier}'").endsWith s!" in '{identifier}'" = true :=
    (endsWith_iff _ _).mpr ⟨front.toList, by simp⟩
  simp only [stops, if_true, dropEnd_stop, placed]

/-! ## Documents of schemas -/

namespace Catalogue

/-- An item is taken or passed over if it is an object that does not give a schema to what
cannot be a name. -/
def IsEntry (item : Datum) : Prop :=
  ∃ ordered fields, item = .dict ordered fields ∧
    ∀ name schema, item.get? "name" = some name → item.get? "schema" = some schema →
      name.truthy = true → schema.truthy = true → isName name = true

/-- A document that can be taken holds nothing, or entries only. -/
def Listing (datum : Datum) : Prop :=
  datum.truthy = true → ∃ items, itemsOf datum = .ok items ∧ ∀ item ∈ items, IsEntry item

/-- What goes wrong with a document that is no listing is about types and members. -/
def Misshapen (fault : Fault) : Prop := fault.kind = .type ∨ fault.kind = .member

theorem operatorOf_ok_iff (item : Datum) :
    (∃ operator, operatorOf item = .ok operator) ↔ IsEntry item := by
  cases item with
  | dict ordered fields =>
      constructor
      · rintro ⟨operator, found⟩
        refine ⟨ordered, fields, rfl, fun name schema ofName ofSchema full fullSchema => ?_⟩
        by_contra unnamed
        rw [Bool.not_eq_true] at unnamed
        simp [operatorOf, ofName, ofSchema, full, fullSchema, unnamed] at found
      · rintro ⟨_, _, _, named⟩
        unfold operatorOf
        simp only
        split
        · rename_i name schema foundName foundSchema
          split
          · exact ⟨none, rfl⟩
          · rename_i full
            simp only [Bool.or_eq_true, Bool.not_eq_true', not_or, Bool.not_eq_false] at full
            have isName := named name schema foundName foundSchema full.1 full.2
            simp [isName]
        · exact ⟨none, rfl⟩
  | _ => simp [operatorOf, IsEntry]

theorem operatorOf_misshapen (item : Datum) (fault : Fault)
    (failed : operatorOf item = .error fault) : Misshapen fault := by
  unfold operatorOf at failed
  split at failed
  · split at failed
    · split at failed
      · cases failed
      · split at failed
        · cases failed
          exact .inl rfl
        · cases failed
    · cases failed
  · cases failed
    exact .inr rfl

theorem itemsOf_misshapen (datum : Datum) (fault : Fault) (failed : itemsOf datum = .error fault) :
    Misshapen fault := by
  unfold itemsOf at failed
  split at failed <;> cases failed
  exact .inl rfl

/-- A document gives a catalogue exactly when it is a listing. -/
theorem ofDatum_ok_iff (datum : Datum) :
    (∃ catalogue, ofDatum datum = .ok catalogue) ↔ Listing datum := by
  unfold ofDatum
  by_cases full : datum.truthy = true
  · simp only [full, Bool.not_true, Bool.false_eq_true, if_false]
    constructor
    · rintro ⟨catalogue, found⟩ _
      obtain ⟨items, listed, later⟩ := Except.bind_eq_ok_iff.mp found
      obtain ⟨operators, taken, _⟩ := Except.bind_eq_ok_iff.mp later
      refine ⟨items, listed, fun item member => (operatorOf_ok_iff item).mp ?_⟩
      exact Except.exists_of_mapM_eq_ok taken member
    · intro listing
      obtain ⟨items, listed, entries⟩ := listing full
      obtain ⟨operators, taken⟩ :=
        Except.exists_mapM fun item member => (operatorOf_ok_iff item).mpr (entries item member)
      simp [listed, taken, bind, Except.bind, pure, Except.pure]
  · simp [full, Listing, pure, Except.pure]

theorem ofDatum_misshapen (datum : Datum) (fault : Fault)
    (failed : ofDatum datum = .error fault) : Misshapen fault := by
  unfold ofDatum at failed
  split at failed
  · cases failed
  · rcases Except.bind_eq_error_iff.mp failed with unlisted | ⟨items, _, later⟩
    · exact itemsOf_misshapen datum fault unlisted
    · rcases Except.bind_eq_error_iff.mp later with untaken | ⟨operators, _, never⟩
      · obtain ⟨item, _, untaken⟩ := Except.exists_of_mapM_eq_error untaken
        exact operatorOf_misshapen item fault untaken
      · cases never

end Catalogue

/-! ## Files of schemas -/

/-- The schemas that settings name can be taken, or are passed over: the file with them
cannot be read, has no text or none of a document, or lists entries. -/
def Settings.SchemasTaken (settings : Settings) (files : Files) : Prop :=
  ∀ path text datum, settings.catalogueFile? = some path →
    files.readText (plainPath path) = .ok text → text.isEmpty = false →
    Json.read text = .ok datum → Catalogue.Listing datum

theorem readText_error (files : Files) (path : String) (fault : Fault)
    (failed : files.readText path = .error fault) : isDocumentFault fault = true := by
  unfold Files.readText at failed
  rcases Except.bind_eq_error_iff.mp failed with unread | ⟨data, _, undecoded⟩
  · unfold Files.read at unread
    split at unread <;> cases unread <;> rfl
  · split at undecoded <;> cases undecoded
    rfl

theorem isDocumentFault_of_unreadable (fault : Fault) (unreadable : Json.Unreadable fault) :
    isDocumentFault fault = true := by
  rcases unreadable with kind | kind <;> simp [isDocumentFault, kind]

theorem isDocumentFault_of_misshapen (fault : Fault) (misshapen : Catalogue.Misshapen fault) :
    isDocumentFault fault = false := by
  rcases misshapen with kind | kind <;> simp [isDocumentFault, isFileFault, kind]

/-- What a file of schemas comes to, if it is a document. -/
theorem readCatalogue_of_document (files : Files) (path text : String) (datum : Datum)
    (found : files.readText path = .ok text) (full : text.isEmpty = false)
    (read : Json.read text = .ok datum) :
    (files.readText path >>= Catalogue.read) = Catalogue.ofDatum datum := by
  simp [found, Catalogue.read, full, read, bind, Except.bind]

theorem readCatalogue_error (files : Files) (path : String) (fault : Fault)
    (failed : (files.readText path >>= Catalogue.read) = .error fault) :
    isDocumentFault fault = true ∨
      ∃ text datum, files.readText path = .ok text ∧ text.isEmpty = false ∧
        Json.read text = .ok datum ∧ Catalogue.ofDatum datum = .error fault := by
  rcases Except.bind_eq_error_iff.mp failed with unread | ⟨text, found, later⟩
  · exact .inl (readText_error files path fault unread)
  · unfold Catalogue.read at later
    split at later
    · cases later
    · rename_i full
      rcases Except.bind_eq_error_iff.mp later with garbled | ⟨datum, read, shaped⟩
      · exact .inl (isDocumentFault_of_unreadable fault (Json.read_unreadable text fault garbled))
      · exact .inr ⟨text, datum, found, by simpa using full, read, shaped⟩

/-- The schemas are at hand exactly when they can be taken or are passed over. -/
theorem openCatalogue_ok_iff (files : Files) (settings : Settings) (start : Machine) :
    (∃ catalogue after, openCatalogue files settings start = .ok catalogue after) ↔
      settings.SchemasTaken files := by
  unfold openCatalogue Settings.SchemasTaken
  cases settings.catalogueFile? with
  | none => simp [pure, EStateM.pure]
  | some path =>
      simp only [Option.some.injEq]
      constructor
      · rintro ⟨catalogue, after, opened⟩ _ text datum rfl found full read
        rw [readCatalogue_of_document files _ text datum found full read] at opened
        apply (Catalogue.ofDatum_ok_iff datum).mp
        cases shaped : Catalogue.ofDatum datum with
        | ok catalogue => exact ⟨catalogue, rfl⟩
        | error fault =>
            have misshapen := Catalogue.ofDatum_misshapen datum fault shaped
            simp only [shaped, isDocumentFault_of_misshapen fault misshapen] at opened
            cases opened
      · intro taken
        cases opened : files.readText (plainPath path) >>= Catalogue.read with
        | ok catalogue => exact ⟨catalogue, start, rfl⟩
        | error fault =>
            rcases readCatalogue_error files _ fault opened with passed | unlisted
            · simp only [passed, if_true]
              exact ⟨_, _, rfl⟩
            · obtain ⟨text, datum, found, full, read, shaped⟩ := unlisted
              have listing := taken path text datum rfl found full read
              obtain ⟨catalogue, taken⟩ := (Catalogue.ofDatum_ok_iff datum).mpr listing
              rw [taken] at shaped
              cases shaped

/-- What the search for the schemas fails with is no fault of the library. -/
theorem openCatalogue_error (files : Files) (settings : Settings) (start after : Machine)
    (fault : Fault) (failed : openCatalogue files settings start = .error fault after) :
    Catalogue.Misshapen fault := by
  unfold openCatalogue at failed
  cases named : settings.catalogueFile? with
  | none =>
      rw [named] at failed
      cases failed
  | some path =>
      simp only [named] at failed
      cases opened : files.readText (plainPath path) >>= Catalogue.read with
      | ok catalogue =>
          rw [opened] at failed
          cases failed
      | error cause =>
          simp only [opened] at failed
          rcases readCatalogue_error files _ cause opened with passed | unlisted
          · simp only [passed, if_true] at failed
            cases failed
          · obtain ⟨_, datum, _, _, _, shaped⟩ := unlisted
            have misshapen := Catalogue.ofDatum_misshapen datum cause shaped
            simp only [isDocumentFault_of_misshapen cause misshapen] at failed
            cases failed
            exact misshapen

/-! ## Faults of an opened archive -/

/-- The assembling of the model in an archive, before its faults are told of the archive. -/
def assembleModel (identifier : String) (entries : List Entry) (settings : Settings)
    (catalogue : Catalogue) : Run Model := do
  let container ← Container.load identifier entries
  let graph ← buildGraph container catalogue settings
  return {
    format := "TorchScript v" ++ container.version.text
    producer := container.header.producer
    graph }

/-- What those who open an archive rely on: they get the model that was assembled, or a
fault of the library.  The fault keeps the class of its cause if that is one of the library,
is a format fault otherwise, and its message ends in the name of the archive, which is not
added again. -/
inductive Honored (identifier : String) (assembled : Catalogue → Run Model) :
    EStateM.Result Fault Machine Model → Prop where
  | model {catalogue : Catalogue} {before after : Machine} {model : Model}
      (runs : assembled catalogue before = .ok model after) :
      Honored identifier assembled (.ok model after)
  | fault {catalogue : Catalogue} {before between after : Machine} {cause fault : Fault}
      (fails : assembled catalogue before = .error cause between)
      (library : fault.isArchiveFault = true)
      (kind : fault.kind = if cause.isArchiveFault then cause.kind else .format)
      (named : fault.message.endsWith s!" in '{identifier}'." = true)
      (settled : withIdentifier fault.message identifier = fault.message) :
      Honored identifier assembled (.error fault after)

/-- A fault of loading has the class of its cause, or counts as a format fault. -/
theorem kind_loading (cause : Fault) (identifier : String) :
    (Fault.loading cause identifier).kind =
      if cause.isArchiveFault then cause.kind else .format := by
  rw [Fault.kind, Fault.isArchiveFault, Fault.isScriptFault]
  cases cause.kind <;> rfl

theorem isArchiveFault_loading (cause : Fault) (identifier : String) :
    (Fault.loading cause identifier).isArchiveFault = true := by
  rw [Fault.isArchiveFault, Fault.isScriptFault, Fault.kind]
  cases cause.kind <;> rfl

theorem openModel_honored (identifier : String) (entries : List Entry) (catalogue : Catalogue)
    (settings : Settings) (before : Machine) :
    Honored identifier (assembleModel identifier entries settings)
      (openModel identifier entries catalogue settings before) := by
  have caught : openModel identifier entries catalogue settings =
      tryCatch (assembleModel identifier entries settings catalogue)
        fun fault => throw (.loading fault identifier) := rfl
  cases opened : openModel identifier entries catalogue settings before with
  | ok model after =>
      rw [caught] at opened
      rcases EStateM.tryCatch_eq_ok_iff.mp opened with runs | ⟨_, _, _, never⟩
      · exact .model runs
      · cases never
  | error fault after =>
      rw [caught] at opened
      obtain ⟨cause, between, fails, told⟩ := EStateM.tryCatch_eq_error_iff.mp opened
      cases told
      apply Honored.fault fails
      · exact isArchiveFault_loading cause identifier
      · exact kind_loading cause identifier
      · exact withIdentifier_endsWith cause.message identifier
      · exact withIdentifier_withIdentifier cause.message identifier

/-- Archives are opened as their users rely on exactly when the file of schemas is not a
document of another shape: everything else that can go wrong is reported, or passed over. -/
theorem openEntries_honored_iff (files : Files) (identifier : String) (entries : List Entry)
    (settings : Settings) (start : Machine) :
    Honored identifier (assembleModel identifier entries settings)
        (openEntries files identifier entries settings start) ↔
      settings.SchemasTaken files := by
  rw [← openCatalogue_ok_iff files settings start]
  unfold openEntries
  cases opened : openCatalogue files settings start with
  | ok catalogue between =>
      rw [EStateM.bind_of_ok opened]
      have honored := openModel_honored identifier entries catalogue settings between
      exact iff_of_true honored ⟨catalogue, between, rfl⟩
  | error fault between =>
      rw [EStateM.bind_eq_error_iff.mpr (.inl opened)]
      apply iff_of_false
      · intro honored
        cases honored with
        | fault _ library =>
            have misshapen := openCatalogue_error files settings start between fault opened
            rcases misshapen with kind | kind <;>
              simp [Fault.isArchiveFault, Fault.isScriptFault, kind] at library
      · rintro ⟨_, _, never⟩
        cases never

namespace NumberedSchemas

/-- A file of schemas that lists a number. -/
def files : Files := ⟨.ofList [("s", "[1]".toUTF8)]⟩

def settings : Settings := Settings.initial.set "metadata_path" (.str "s")

theorem readText_numbers : files.readText (plainPath "s") = .ok "[1]" := by
  have found : files.find (plainPath "s") = .file "[1]".toUTF8 := by cbv
  have decodes : String.fromUTF8? "[1]".toUTF8 = some "[1]" := dif_pos "[1]".isValidUTF8
  rw [Files.readText, Files.read, found]
  simp only [bind, Except.bind, decodes]
  rfl

theorem openCatalogue_numbers (start : Machine) :
    openCatalogue files settings start =
      .error (.member "'int' object has no attribute 'get'") start := by
  have named : settings.catalogueFile? = some "s" := by
    decide +kernel
  have refused : (Catalogue.read "[1]").map (fun _ => ()) =
      .error (.member "'int' object has no attribute 'get'") := rfl
  unfold openCatalogue
  simp only [named, readText_numbers, bind, Except.bind]
  cases read : Catalogue.read "[1]" with
  | ok catalogue =>
      rw [read] at refused
      cases refused
  | error fault =>
      rw [read] at refused
      cases refused
      rfl

/-- What the reading of such a file fails with is not told of the archive. -/
theorem exists_dishonored :
    ∃ fault after,
      openEntries files "model.pt" [] settings Machine.initial = .error fault after ∧
        fault.isArchiveFault = false ∧
        ¬ Honored "model.pt" (assembleModel "model.pt" [] settings)
          (openEntries files "model.pt" [] settings Machine.initial) := by
  have failed : openEntries files "model.pt" [] settings Machine.initial =
      .error (.member "'int' object has no attribute 'get'") Machine.initial := by
    unfold openEntries
    rw [EStateM.bind_eq_error_iff.mpr (.inl (openCatalogue_numbers Machine.initial))]
  refine ⟨_, _, failed, by decide, ?_⟩
  rw [failed]
  intro honored
  cases honored with
  | fault _ library => exact absurd library (by decide)

end NumberedSchemas

end TorchArchive
