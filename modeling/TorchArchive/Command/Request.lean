import TorchArchive.Datum
import TorchArchive.Number.Reading

/-!
Requests: what a line of words asks for. The first word names a command; switches, which
begin with hyphens, may stand anywhere behind it. A long switch may be cut short as long
as it is no other one's beginning.
-/

namespace TorchArchive

/-- What is to be done with a model. -/
inductive CommandKind where
  | inspect
  | report
  deriving DecidableEq

/-- A command with what was given to it. -/
structure Command where
  kind : CommandKind
  model : Option String
  config : Option String
  /-- Whether the code of the model is left alone. -/
  untraced : Bool
  displayLimit : Option Int
  /-- The file that the graph is written to. -/
  graphFile : Option String
  reportFolder : Option String

/-- What a line of words asks for. -/
inductive Request where
  | run (command : Command)
  | help
  /-- The words make no sense. -/
  | refused

namespace Command

/-- A command to which nothing was given. -/
def ofKind (kind : CommandKind) : Command := ⟨kind, none, none, false, none, none, none⟩

/-- What is given, under the names of the settings that it changes; nothing for what is
not given. -/
def arguments (command : Command) : List (String × Datum) :=
  let text (given : Option String) : Datum := given.elim .none .str
  [("model", text command.model), ("config", text command.config),
    ("trace", if command.untraced then .bool false else .none)] ++
    match command.kind with
    | .inspect =>
        [("display_limit", command.displayLimit.elim .none .int),
          ("json", text command.graphFile)]
    | .report => [("report_dir", text command.reportFolder)]

end Command

/-! ## Words -/

/-- The switches. -/
private inductive Switch where
  | help
  | config
  | untraced
  | displayLimit
  | graphFile
  | reportFolder
  deriving DecidableEq

private def Switch.takesValue : Switch → Bool
  | .help | .untraced => false
  | _ => true

private abbrev Switches := List (String × Switch)

private def helpSwitches : Switches := [("-h", .help), ("--help", .help)]

/-- The switches of a command. -/
private def switchesOf (kind : CommandKind) : Switches :=
  helpSwitches ++ [("-c", .config), ("--config", .config), ("--no-trace", .untraced)] ++
    match kind with
    | .inspect => [("--display-limit", .displayLimit), ("--json", .graphFile)]
    | .report => [("--report", .reportFolder)]

private def kind? (name : String) : Option CommandKind :=
  match name with
  | "inspect" => some .inspect
  | "report" => some .report
  | _ => none

/-- A value that is written in one word with its switch, and whether an equals sign
stands between them. -/
private structure Attached where
  text : String
  behindEquals : Bool

/-- What a word is. -/
private inductive Piece where
  | word (text : String)
  /-- Two hyphens, behind which all are words. -/
  | divider
  /-- A known switch, with how many hyphens it has, or an unknown one. -/
  | switch (known : Option Switch) (isLong : Bool) (value : Option Attached)

/-- Whether a text is a negative number, which is no switch. -/
private def isNegativeNumber (text : List Char) : Bool :=
  let isDigit (c : Char) : Bool := (digitValue? c).isSome
  match text with
  | '-' :: rest =>
      let whole := rest.takeWhile isDigit
      match rest.drop whole.length with
      | [] | ['\n'] => !whole.isEmpty
      | '.' :: fraction =>
          let digits := fraction.takeWhile isDigit
          let behind := fraction.drop digits.length
          !digits.isEmpty && (behind.isEmpty || behind == ['\n'])
      | _ => false
  | _ => false

/-- Splits a word at its first equals sign. -/
private def splitEquals (text : String) : String × Option Attached :=
  let name := text.toList.takeWhile (· != '=')
  match text.toList.drop name.length with
  | [] => (text, none)
  | _ :: value => (String.ofList name, some ⟨String.ofList value, true⟩)

/-- The switches that a word may mean, as one with a long name cut short or as one with
a short name and its value. -/
private def meanings (switches : Switches) (text : String) :
    List (Switch × Option Attached) :=
  if text.startsWith "--" then
    let (start, value) := splitEquals text
    (switches.filter fun entry => entry.1.startsWith start).map fun entry =>
      (entry.2, value)
  else
    let name := (text.take 2).toString
    (switches.filter fun entry => entry.1 == name).map fun entry =>
      (entry.2, some ⟨(text.drop 2).toString, false⟩)

/-- What a word is; none if it may mean several switches. -/
private def piece? (switches : Switches) (text : String) : Option Piece :=
  if !text.startsWith "-" || text == "-" then some (.word text)
  else
    let isLong := text.startsWith "--"
    let (name, value) := splitEquals text
    match switches.lookup text, switches.lookup name with
    | some switch, _ => some (.switch (some switch) isLong none)
    | none, some switch => some (.switch (some switch) isLong value)
    | none, none =>
        match meanings switches text with
        | [(switch, value)] => some (.switch (some switch) isLong value)
        | _ :: _ => none
        | [] =>
            if isNegativeNumber text.toList || text.contains ' ' then some (.word text)
            else some (.switch none isLong none)

private def pieces? (switches : Switches) : List String → Option (List Piece)
  | [] => some []
  | text :: rest =>
      if text == "--" then some (.divider :: rest.map .word)
      else do
        let piece ← piece? switches text
        return piece :: (← pieces? switches rest)

/-! ## Requests -/

/-- Whether letters behind the short switch for help are switches, too. The last of them
may need the next word as its value. -/
private def asksForHelp (switches : Switches) (wordFollows : Bool) : List Char → Bool
  | [] => true
  | '-' :: _ => false
  | c :: rest =>
      match switches.lookup ("-" ++ c.toString) with
      | none => true
      | some switch =>
          if switch.takesValue then !rest.isEmpty || wordFollows
          else
            match rest with
            | '=' :: _ => false
            | rest => asksForHelp switches wordFollows rest

/-- What the switch for help leads to. -/
private def helpRequest (switches : Switches) (isLong : Bool) (value : Option Attached)
    (wordFollows : Bool) : Request :=
  match value with
  | none => .help
  | some value =>
      if isLong || value.behindEquals || value.text.isEmpty ||
          !asksForHelp switches wordFollows value.text.toList then
        .refused
      else .help

private def beginsWithWord : List Piece → Bool
  | .word _ :: _ => true
  | _ => false

/-- Gives a value to a switch; none if it is not of the right form. -/
private def give? (command : Command) (switch : Switch) (value : String) :
    Option Command :=
  match switch with
  | .config => some { command with config := some value }
  | .displayLimit => do
      let limit ← readInteger? value
      return { command with displayLimit := some limit }
  | .graphFile => some { command with graphFile := some value }
  | .reportFolder => some { command with reportFolder := some value }
  | .help | .untraced => none

/-- Goes through the pieces behind the name of a command. `hasModel` tells whether the place
of the model is taken, `surplus` whether there was a piece that has no place. -/
private def commandRequest (switches : Switches) (hasModel surplus : Bool)
    (command : Command) : List Piece → Request
  | [] => if surplus then .refused else .run command
  | .switch none _ _ :: rest => commandRequest switches hasModel true command rest
  | .switch (some .help) isLong value :: rest =>
      helpRequest switches isLong value (beginsWithWord rest)
  | .switch (some .untraced) _ value :: rest =>
      if value.isSome then .refused
      else
        commandRequest switches hasModel surplus { command with untraced := true } rest
  | .switch (some switch) _ (some value) :: rest =>
      match give? command switch value.text with
      | some command => commandRequest switches hasModel surplus command rest
      | none => .refused
  | .switch (some switch) _ none :: .word value :: rest =>
      match give? command switch value with
      | some command => commandRequest switches hasModel surplus command rest
      | none => .refused
  | .switch (some _) _ none :: _ => .refused
  | .word text :: .divider :: rest =>
      if hasModel then commandRequest switches true true command rest
      else commandRequest switches true surplus { command with model := some text } rest
  | .word text :: rest =>
      if hasModel then commandRequest switches true true command rest
      else commandRequest switches true surplus { command with model := some text } rest
  | .divider :: .word text :: rest =>
      if hasModel then commandRequest switches true true command rest
      else commandRequest switches true surplus { command with model := some text } rest
  | .divider :: rest => commandRequest switches true (surplus || hasModel) command rest

/-- What is asked of a command. -/
private def commandRequestOf (kind : CommandKind) (words : List String) : Request :=
  let switches := switchesOf kind
  match pieces? switches words with
  | some pieces => commandRequest switches false false (.ofKind kind) pieces
  | none => .refused

/-- Goes through the words in front of the name of a command. -/
private def requestWithin (surplus : Bool) : List String → Request
  | [] => .refused
  | text :: rest =>
      if text == "--" then .refused
      else
        match piece? helpSwitches text with
        | some (.word name) =>
            match kind? name with
            | none => .refused
            | some kind =>
                match commandRequestOf kind rest with
                | .run command => if surplus then .refused else .run command
                | other => other
        | some (.switch (some _) isLong value) =>
            helpRequest helpSwitches isLong value false
        | some (.switch none _ _) => requestWithin true rest
        | _ => .refused

/-- What a line of words asks for. -/
def Request.ofWords (words : List String) : Request := requestWithin false words

end TorchArchive
