import TorchArchive.Fault

/-!
Events that are reported while an archive is loaded.
-/

namespace TorchArchive

/-- What is reported. -/
inductive Event where
  | inspecting (path : String)
  | loading (path : String)
  | unlikelyModel (path : String)
  | readingPickle (file : String)
  | readingDescription (file : String)
  | tracingFailed (fault : Fault)
  | folding (module operator : String)
  | traced (operators folded : Nat)
  | unreadableCatalogue (path detail : String)
  | missingConfiguration (path : String)
  deriving DecidableEq

namespace Event

/-- Whether an event is reported as a warning. -/
def isWarning : Event → Bool
  | unlikelyModel _ | tracingFailed _ | unreadableCatalogue _ _
  | missingConfiguration _ => true
  | _ => false

/-- The wording of an event. -/
def text : Event → String
  | inspecting path => s!"Inspecting model: {path}"
  | loading path => s!"Loading TorchScript archive '{path}'"
  | unlikelyModel path => s!"'{path}' does not look like a TorchScript archive"
  | readingPickle file => s!"Reading pickled module tree from '{file}'"
  | readingDescription file => s!"Reading module description from '{file}'"
  | tracingFailed fault => fault.message
  | folding module operator => s!"Folding module '{module}' into {operator}"
  | traced operators folded => s!"Traced {operators} operators, folded {folded} modules"
  | unreadableCatalogue path detail =>
      s!"Cannot read operator metadata '{path}': {detail}"
  | missingConfiguration path => s!"Config file {path} not found."

/-- The same event with an asterisk for every wording that is not fixed. -/
def abridge : Event → Event
  | tracingFailed fault => tracingFailed fault.abridge
  | unreadableCatalogue path _ => unreadableCatalogue path "*"
  | event => event

/-- A line for the event, with its level. -/
def line (event : Event) : String :=
  (if event.isWarning then "WARNING " else "INFO ") ++ event.text

end Event

end TorchArchive
