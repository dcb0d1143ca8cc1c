import TorchArchive.Event
import TorchArchive.Files
import TorchArchive.Initializer.Basic
import TorchArchive.Yaml.Reader

/-!
Settings: what a user can choose about loading and reporting. Settings come from
files and from the command line, so their values are data of any kind until they
are used.
-/

namespace TorchArchive

/-- The values of all settings, by name. -/
structure Settings where
  values : Table String Datum

namespace Settings

/-- The settings that nobody changed. -/
def initial : Settings :=
  ⟨.ofList
    [("model", .str ""),
      ("config_file", .str ""),
      ("metadata_path", .str ""),
      ("display_limit", .int defaultDisplayLimit),
      ("trace", .bool true),
      ("report_dir", .str "out/default_run"),
      ("log_level", .str "INFO")]⟩

instance : Inhabited Settings := ⟨initial⟩

/-- The value of a setting; one that was taken away has its first value. -/
def get (settings : Settings) (name : String) : Datum :=
  ((settings.values.get? name).orElse fun _ => initial.values.get? name).getD .none

/-- Changes the value of a setting. -/
def set (settings : Settings) (name : String) (value : Datum) : Settings :=
  ⟨settings.values.insert name value⟩

/-! ## Names -/

/-- What stands between double underscores in names that all things have. -/
private def commonNames : List String :=
  ["annotations", "dataclass_fields", "dataclass_params", "delattr", "dir", "doc", "eq",
    "format", "ge", "getattribute", "getstate", "gt", "hash", "init", "init_subclass",
    "le", "lt", "match_args", "module", "ne", "new", "reduce", "reduce_ex", "repr",
    "setattr", "sizeof", "str", "subclasshook"]

/-- Names that are bound without being settings. A document may bind them anew, and
they are settings from then on. -/
private def boundNames : List String :=
  "update_from_yaml" :: "from_args" :: commonNames.map fun name => "__" ++ name ++ "__"

/-- Whether a name is one of a setting or bound otherwise. -/
def isBound (settings : Settings) (name : String) : Bool :=
  settings.values.contains name || initial.values.contains name ||
    boundNames.contains name

/-- Binds all settings anew. -/
private def rebind (value : Datum) : Except Fault Settings :=
  match value with
  | .dict _ entries =>
      .ok ⟨.ofList (entries.filterMap fun entry =>
        entry.1.str?.map fun name => (name, entry.2))⟩
  | value => .error (.type s!"settings cannot be a '{value.typeName}'")

/-- Changes what a name is bound to, if it is bound. -/
def change (settings : Settings) (name : String) (value : Datum) :
    Except Fault Settings :=
  match name with
  | "__dict__" => rebind value
  | "__class__" => .error (.type s!"a class cannot be a '{value.typeName}'")
  | "__weakref__" => .error (.member "references cannot be bound")
  | _ => .ok (if settings.isBound name then settings.set name value else settings)

/-! ## Documents -/

/-- Changes the settings that a document names. What it names besides is passed
over. -/
def update (settings : Settings) (document : Datum) : Except Fault Settings :=
  if !document.truthy then .ok settings
  else
    match document with
    | .dict _ entries =>
        entries.foldlM
          (fun settings entry =>
            match entry.1.str? with
            | some name => settings.change name entry.2
            | none => .error (.type "the name of a setting must be a text"))
          settings
    | document => .error (.member s!"a '{document.typeName}' has no items")

/-- Changes the settings that a file names. -/
def updateFromFile (settings : Settings) (files : Files) (path : String) :
    Except Fault Settings := do
  settings.update (← Yaml.read (← files.readText path))

/-- The settings that are given by name. The file that is given as `config` is read
before them, if it is there; a value of nothing changes nothing. -/
def ofArguments (files : Files) (arguments : List (String × Datum)) :
    Except Fault (Settings × List Event) := do
  let config := (arguments.lookup "config").getD .none
  let (settings, events) ←
    if !config.truthy then pure (initial, [])
    else do
      let settings := initial.set "config_file" config
      match config.str? with
      | none => throw (.type s!"a '{config.typeName}' is no path")
      | some path =>
          if files.contains (plainPath path) then
            pure (← settings.updateFromFile files path, [])
          else pure (settings, [.missingConfiguration path])
  let settings ← arguments.foldlM
    (fun settings argument =>
      if argument.2.isNone then .ok settings
      else settings.change argument.1 argument.2)
    settings
  return (settings, events)

/-- The settings as a document. -/
def document (settings : Settings) : Datum := .fields settings.values.entries

/-- The file of the operator schemas; none for those that are bundled. -/
def catalogueFile? (settings : Settings) : Option String :=
  let file := settings.get "metadata_path"
  if file.truthy then some file.text else none

/-- Whether the code of an archive is run to find its operators. -/
def tracing (settings : Settings) : Bool := (settings.get "trace").truthy

def displayLimit (settings : Settings) : Datum := settings.get "display_limit"

end Settings

end TorchArchive
