import TorchArchive.Fault
import TorchArchive.Table

/-!
Files: the tree of files that a run sees, and the paths that lead through it. A path is
taken from the working folder on.
-/

namespace TorchArchive

/-! ## Paths -/

/-- The steps of a path. -/
private def pathSteps (path : String) : List String := path.splitOn "/"

/-- Whether a step leads nowhere. -/
private def isIdleStep (step : String) : Bool := step.isEmpty || step == "."

private def isAbsolute (path : String) : Bool := path.startsWith "/"

/-- A path without its idle steps. -/
def plainPath (path : String) : String :=
  let steps := (pathSteps path).filter fun step => !isIdleStep step
  if isAbsolute path then "/" ++ "/".intercalate steps
  else if steps.isEmpty then "."
  else "/".intercalate steps

/-- The last step of a path; nothing for the root and the working folder. -/
def baseName (path : String) : String :=
  (((pathSteps path).filter fun step => !isIdleStep step).getLast?).getD ""

/-- What stands in a path in front of its last slash; other slashes in front of that
one do not count. -/
def folderName (path : String) : String :=
  let front := "/".intercalate (pathSteps path).dropLast
  let trimmed := (front.dropEndWhile (· == '/')).toString
  if !trimmed.isEmpty then trimmed
  else if isAbsolute path then "/" ++ front
  else ""

/-- A path from the root on, for a working folder. -/
def absolutePath (workingFolder path : String) : String :=
  let path := plainPath path
  if isAbsolute path then path
  else if path == "." then workingFolder
  else workingFolder ++ "/" ++ path

/-- The place that a step back leads to: it undoes the last step, if that was none back,
and does nothing at the root. -/
private def stepBack (here : List String) : List String :=
  match here.getLast? with
  | some "" => here
  | some ".." | none => here ++ [".."]
  | some _ => here.dropLast

/-- The place that a path begins at. -/
private def firstPlace (path : String) : List String := if isAbsolute path then [""] else []

private def settledSteps (here : List String) : List String → List String
  | [] => here
  | step :: rest =>
      if isIdleStep step then settledSteps here rest
      else if step == ".." then settledSteps (stepBack here) rest
      else settledSteps (here ++ [step]) rest

/-- The path that tells a file in a tree: it has no idle steps, and steps back at its
front only. -/
def settledPath (path : String) : String :=
  "/".intercalate (settledSteps (firstPlace path) (pathSteps path))

/-- Whether a settled path stays in the working folder. -/
private def isInside (path : String) : Bool :=
  !isAbsolute path && !path.startsWith "../"

/-! ## Trees -/

/-- The files of a tree, by path. -/
structure Files where
  files : Table String ByteArray

namespace Files

instance : Inhabited Files := ⟨⟨.empty⟩⟩

/-- What a path leads to. -/
inductive Place where
  | file (data : ByteArray)
  | folder
  | missing
  /-- The path goes on behind a file. -/
  | blocked

private def isFolder (files : Files) (path : String) : Bool :=
  files.files.keys.any fun name => name.startsWith (path ++ "/")

private def walk (files : Files) (here : List String) : List String → Place
  | [] => .folder
  | step :: rest =>
      if isIdleStep step then walk files here rest
      else if step == ".." then walk files (stepBack here) rest
      else
        let place := here ++ [step]
        let path := "/".intercalate place
        match files.files.get? path with
        | some data => if rest.isEmpty then .file data else .blocked
        | none => if files.isFolder path then walk files place rest else .missing

/-- What a path leads to. -/
def find (files : Files) (path : String) : Place :=
  if path.isEmpty then .missing else walk files (firstPlace path) (pathSteps path)

/-- Whether a path leads to a file or a folder. -/
def contains (files : Files) (path : String) : Bool :=
  match files.find path with
  | .file _ | .folder => true
  | .missing | .blocked => false

/-! ## Reading -/

/-- The bytes of a file. -/
def read (files : Files) (path : String) : Except Fault ByteArray :=
  match files.find path with
  | .file data => .ok data
  | .folder => .error (.isFolder path)
  | .missing => .error (.missingFile path)
  | .blocked => .error (.notFolder path)

/-- One form for all breaks between lines. -/
private def plainBreaks : List Char → List Char
  | '\r' :: '\n' :: rest => '\n' :: plainBreaks rest
  | c :: rest => (if c = '\r' then '\n' else c) :: plainBreaks rest
  | [] => []

/-- The text of a file, with line feeds for all breaks. -/
def readText (files : Files) (path : String) : Except Fault String := do
  match String.fromUTF8? (← files.read path) with
  | some text => return String.ofList (plainBreaks text.toList)
  | none => throw .encoding

/-! ## Writing -/

/-- Demands that a folder is there or can be made. -/
def demandFolder (files : Files) (path : String) : Except Fault Unit :=
  match files.find path with
  | .folder | .missing => .ok ()
  | .file _ => .error (.fileExists path)
  | .blocked => .error (.notFolder path)

/-- Writes a file into a folder that is there or can be made. -/
def write (files : Files) (path text : String) : Except Fault Files :=
  match files.find path with
  | .folder => .error (.isFolder path)
  | .blocked => .error (.notFolder path)
  | .file _ | .missing =>
      if path.endsWith "/" then .error (.isFolder path)
      else .ok ⟨files.files.insert (settledPath path) text.toUTF8⟩

/-- The files in the working folder that another tree does not have. -/
def madeSince (files before : Files) : List (String × ByteArray) :=
  files.files.entries.filter fun file =>
    isInside file.1 && !before.files.contains file.1

end Files

end TorchArchive
