import TorchArchive.Fault
import TorchArchive.Text.Split

/-!
Entries of archives, and what tells an archive of a scripted model from others:
its extension, an entry named `version` and beside that one a model.
-/

namespace TorchArchive

/-- A file in an archive. -/
structure Entry where
  name : String
  data : ByteArray

namespace Entry

/-- The extensions of file names that models are kept under. -/
def extensions : List String :=
  ["pt", "pt1", "pth", "pkl", "h5", "t7", "dms", "model", "ckpt"]

/-- The name of the entry that tells the version of an archive. -/
def versionName : String := "version"

/-- Whether an entry tells a version, at the top or in some folder. -/
def isVersion (entry : Entry) : Bool :=
  entry.name == versionName || entry.name.endsWith ("/" ++ versionName)

/-- The first entry that tells a version. -/
def findVersion? (entries : List Entry) : Option Entry :=
  entries.find? isVersion

/-- The folder of a version entry, with its slash. -/
def folder (version : Entry) : String :=
  (version.name.dropEnd versionName.length).toString

/-- The data of the last entry with a name. -/
def data? (entries : List Entry) (name : String) : Option ByteArray :=
  (entries.reverse.find? fun entry => entry.name == name).map (·.data)

/-- The small form of a letter among those of the extensions; the sign for kelvin
counts as a letter. -/
private def smallLetter (c : Char) : Char :=
  if c = '\u212a' then 'k' else c.toLower

/-- What stands behind the last point of a file name, in small letters. -/
def extension (fileName : String) : String :=
  ((partsBetween '.' fileName).getLast?.getD fileName).map smallLetter

/-- Whether a file name is one that models are kept under. -/
def hasModelExtension (fileName : String) : Bool :=
  extensions.contains (extension fileName) || fileName.endsWith ".pth.tar"

/-- Whether the name and the entries of an archive look like those of a model. -/
def isModel (fileName : String) (entries : List Entry) : Bool :=
  hasModelExtension fileName &&
    match findVersion? entries with
    | none => false
    | some version =>
        entries.any fun entry =>
          entry.name == version.folder ++ "model.json" ||
            entry.name == version.folder ++ "data.pkl"

end Entry

end TorchArchive
