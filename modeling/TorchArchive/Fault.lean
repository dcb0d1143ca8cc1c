import TorchArchive.Text.Quoted

/-!
What can go wrong. A fault names its cause; `Fault.message` is the only place
that words it, and `Fault.kind` sorts faults for those who handle them.
-/

namespace TorchArchive

/-- Names the archive at the end of a message, once, with one full stop. -/
def withIdentifier (message identifier : String) : String :=
  let place := s!" in '{identifier}'"
  let body := if message.endsWith "." then (message.dropEnd 1).toString else message
  if body.endsWith place then body ++ "." else body ++ place ++ "."

/-- The kinds of faults. The first five are about archives and their code; the
others come from the formats and values underneath. -/
inductive FaultKind where
  | format
  | unknownSymbol
  | sourceNotFound
  | unsupported
  | raised
  | type
  | value
  | index
  | member
  | overflow
  | key
  | missingFile
  | isFolder
  | notFolder
  | fileExists
  | invalidPlace
  | notArchive
  | unsupportedArchive
  | encrypted
  | compression
  | json
  | encoding
  | pickle
  | yaml
  | depth
  deriving DecidableEq

/-- A failure and its cause. -/
inductive Fault where
  -- the archive
  | missingVersion
  | missingPayload (folder : String)
  | unknownTensorType (text : String)
  | tensorIndex (position : Int) (parameter : String)
  | unknownPersistentType (text : String)
  | unknownStorageType (text : String)
  | noArchive
  -- names in archive code
  | noForward
  | entryPointNotFunction
  | unknownIdentifier (name : String)
  | unknownMember (name owner : String)
  | fixedMember (name owner : String)
  | unknownSymbol (name : String)
  | missingSource (file : String)
  -- archive code that cannot be read
  | unparsable (file detail : String)
  | variableDeclaration
  | chainedAssignment
  | keywordUnpacking
  | statementForm (form : String) (line : Nat)
  | expressionForm (form : String)
  -- archive code that cannot be run
  | invalidCall (callee detail : String)
  | notCallable (typeName : String)
  | unknownCondition
  | unknownStatement (form : String)
  | unknownExpression (form : String)
  | itemAssignment (name : String)
  | tupleArity
  | assignmentTarget (form : String)
  | subscript (typeName position : String)
  | identityOperands
  | negationOperand
  | comparisonOperands
  | productOperands
  | raised (message : String)
  -- values and formats
  | type (detail : String)
  | value (detail : String)
  | index
  | member (detail : String)
  | overflow
  | key (text : String)
  | missingFile (path : String)
  | isFolder (path : String)
  | notFolder (path : String)
  | fileExists (path : String)
  /-- A place in front of a file. -/
  | invalidPlace
  | notArchive (message : String)
  | unsupportedArchive (detail : String)
  | encrypted (detail : String)
  | compression (detail : String)
  | json (detail : String)
  | encoding
  | pickle (detail : String)
  | yaml (detail : String)
  | depth
  /-- A fault met while the named archive was loaded. -/
  | loading (cause : Fault) (identifier : String)
  deriving DecidableEq

namespace Fault

/-- The kind of a fault. A fault met while loading keeps its kind if it is about
archives or their code, and counts as a format fault otherwise. -/
def kind : Fault → FaultKind
  | missingVersion | missingPayload _ | unknownTensorType _ | tensorIndex _ _
  | unknownPersistentType _ | unknownStorageType _ | noArchive => .format
  | noForward | entryPointNotFunction | unknownIdentifier _ | unknownMember _ _
  | fixedMember _ _ | unknownSymbol _ => .unknownSymbol
  | missingSource _ => .sourceNotFound
  | unparsable _ _ | variableDeclaration | chainedAssignment | keywordUnpacking
  | statementForm _ _ | expressionForm _ | invalidCall _ _ | notCallable _
  | unknownCondition | unknownStatement _ | unknownExpression _
  | itemAssignment _ | tupleArity | assignmentTarget _ | subscript _ _
  | identityOperands | negationOperand | comparisonOperands
  | productOperands => .unsupported
  | raised _ => .raised
  | type _ => .type
  | value _ => .value
  | index => .index
  | member _ => .member
  | overflow => .overflow
  | key _ => .key
  | missingFile _ => .missingFile
  | isFolder _ => .isFolder
  | notFolder _ => .notFolder
  | fileExists _ => .fileExists
  | invalidPlace => .invalidPlace
  | notArchive _ => .notArchive
  | unsupportedArchive _ => .unsupportedArchive
  | encrypted _ => .encrypted
  | compression _ => .compression
  | json _ => .json
  | encoding => .encoding
  | pickle _ => .pickle
  | yaml _ => .yaml
  | depth => .depth
  | loading cause _ =>
      match kind cause with
      | .format => .format
      | .unknownSymbol => .unknownSymbol
      | .sourceNotFound => .sourceNotFound
      | .unsupported => .unsupported
      | .raised => .raised
      | _ => .format

/-- Whether a fault arises in archive code: names it cannot resolve, forms it
must not use, errors it raises. -/
def isScriptFault (fault : Fault) : Bool :=
  match fault.kind with
  | .unknownSymbol | .sourceNotFound | .unsupported | .raised => true
  | _ => false

/-- Whether a fault is one of the library: about an archive or its code. -/
def isArchiveFault (fault : Fault) : Bool :=
  fault.isScriptFault || fault.kind == .format

/-- The wording of a fault. -/
def message : Fault → String
  | missingVersion => "TorchScript container does not contain version signature."
  | missingPayload folder =>
      s!"TorchScript container does not contain '{folder}data.pkl' or " ++
        s!"'{folder}model.json'."
  | unknownTensorType text => s!"Unknown tensor data type '{text}'."
  | tensorIndex position parameter =>
      s!"Invalid tensor index '{position}' for parameter '{parameter}'."
  | unknownPersistentType text => s!"Unknown persistent load type '{text}'."
  | unknownStorageType text => s!"Unknown storage type '{text}'."
  | noArchive => "No TorchScript archive given."
  | noForward => "Module has no 'forward' method."
  | entryPointNotFunction => "Entry point is not a script function."
  | unknownIdentifier name => s!"Unknown identifier '{name}'."
  | unknownMember name owner => s!"Unknown member '{name}' of '{owner}'."
  | fixedMember name owner => s!"Cannot set member '{name}' of '{owner}'."
  | unknownSymbol name => s!"Unknown symbol '{name}'."
  | missingSource file => s!"Python source '{file}' not found."
  | unparsable file detail => s!"Cannot parse Python source '{file}': {detail}."
  | variableDeclaration => "Unsupported variable declaration."
  | chainedAssignment => "Chained assignment is not supported."
  | keywordUnpacking => "Keyword argument unpacking is not supported."
  | statementForm form line => s!"Unsupported statement '{form}' at line {line}."
  | expressionForm form => s!"Unsupported expression '{form}'."
  | invalidCall callee detail => s!"Invalid call to '{callee}': {detail}."
  | notCallable typeName => s!"'{typeName}' object is not callable."
  | unknownCondition => "Unknown condition."
  | unknownStatement form => s!"Unknown statement '{form}'."
  | unknownExpression form => s!"Unknown expression '{form}'."
  | itemAssignment name => s!"Cannot assign item of '{name}'."
  | tupleArity => "Tuple assignment arity mismatch."
  | assignmentTarget form => s!"Unsupported assignment target '{form}'."
  | subscript typeName position => s!"Cannot index '{typeName}' with '{position}'."
  | identityOperands => "Unsupported operands for 'torch.__is__'."
  | negationOperand => "Unsupported operand for 'torch.__not__'."
  | comparisonOperands => "Unsupported operands for comparison."
  | productOperands => "Unsupported operands for 'torch.mul'."
  | raised message => message
  | type detail => detail
  | value detail => detail
  | index => "index out of range"
  | member detail => detail
  | overflow => "number too large"
  | key text => text
  | missingFile path => "[Errno 2] No such file or directory: " ++ quotedText path
  | isFolder path => "[Errno 21] Is a directory: " ++ quotedText path
  | notFolder path => "[Errno 20] Not a directory: " ++ quotedText path
  | fileExists path => "[Errno 17] File exists: " ++ quotedText path
  | invalidPlace => "[Errno 22] Invalid argument"
  | notArchive message => message
  | unsupportedArchive detail => detail
  | encrypted detail => detail
  | compression detail => detail
  | json detail => detail
  | encoding => "invalid encoding of text"
  | pickle detail => detail
  | yaml detail => detail
  | depth => "calls are nested too deeply"
  | loading cause identifier => withIdentifier (message cause) identifier

/-- The same fault with an asterisk for every wording that is not fixed: what a
reader of source text, numbers or formats found wrong in detail. The asterisk for
what is wrong with source text or a call stands for the archive's name, too. -/
def abridge : Fault → Fault
  | unparsable file _ => unparsable file "*"
  | invalidCall callee _ => invalidCall callee "*"
  | loading (unparsable file _) _ => unparsable file "*"
  | loading (invalidCall callee _) _ => invalidCall callee "*"
  | loading cause identifier =>
      match cause.kind with
      | .type | .value | .index | .member | .overflow | .json | .encoding
      | .pickle | .yaml | .depth => loading (type "*") identifier
      | _ => loading (abridge cause) identifier
  | fault => fault

/-- The fault that a loading fault wraps, if it is not about archives or their
code. -/
def foreignCause? : Fault → Option Fault
  | loading cause _ => if cause.isArchiveFault then none else some cause
  | _ => none

end Fault

end TorchArchive
