import TorchArchive.Proofs.Script.Levels
import TorchArchive.Script.Grammar.Statement
import TorchArchive.Script.Reader

/-!
# Rules of statements

What the rules of statements make of a line, and of a line with a block below it.  A rule that
is told apart by its first word fails in front of every other word, so the alternatives in front
of the one that applies are passed over one by one.
-/

namespace TorchArchive.Script

open TorchArchive.Script.Parser

variable {inner : Grammar} {before between after rest : List Token} {term : Term}

/-! ## What is no expression -/

/-- Tokens that can stand where no expression begins. -/
def blockers : List Token := [.symbol "=", .symbol ":", .dedent]

def Barren (tokens : List Token) : Prop := ∀ token, tokens.head? = some token → token ∈ blockers

theorem Barren.ne (barren : Barren before) {token : Token} (other : token ∉ blockers) :
    before.head? ≠ some token := fun first => other (barren token first)

theorem Barren.fails_keyword (barren : Barren before) (word : String) :
    (keyword word).Fails before :=
  fails_token (barren.ne (by simp [blockers]))

theorem Barren.fails_take {α : Type} {choose : Token → Option α} (barren : Barren before)
    (refused : ∀ token ∈ blockers, choose token = none) : (take choose).Fails before :=
  Parser.fails_take fun token first => refused token (barren token first)

theorem Barren.fails_atom (barren : Barren before) : (Rule.atom inner).Fails before := by
  have word : Rule.wordConstant.Fails before := by
    apply barren.fails_take
    simp [blockers]
  have number : Rule.numeral.Fails before := by
    apply barren.fails_take
    simp [blockers]
  have text : (Rule.literals inner).Fails before := by
    apply Fails.bind
    apply Fails.bind
    apply barren.fails_take
    simp [blockers]
  apply (fails_name_map fun id => barren.ne (by simp [blockers])).orElse_fails
  apply word.orElse_fails
  apply number.orElse_fails
  apply text.orElse_fails
  apply ((fails_token (barren.ne (by decide))).bind _).orElse_fails
  apply ((fails_token (barren.ne (by decide))).bind _).orElse_fails
  exact (fails_token (barren.ne (by decide))).bind _

theorem Barren.fails_factor (barren : Barren before) (depth : Nat) :
    (Grammar.upTo depth).factor.Fails before := by
  cases depth with
  | zero => exact fails_failure before
  | succ depth =>
      have unsigned : (oneOf ["+", "-", "~"]).Fails before := by
        apply fails_oneOf
        intro spelling member
        apply barren.ne
        simp only [List.mem_cons, List.not_mem_nil, or_false] at member
        rcases member with rfl | rfl | rfl <;> decide
      have primary : (Rule.primary (Grammar.upTo depth)).Fails before :=
        barren.fails_atom.bind _
      apply Reads.bind_fails unsigned.perhaps
      apply Reads.bind_fails (reads_isNext_of_ne (barren.ne (by decide)))
      exact primary.bind _

theorem Barren.fails_expression (barren : Barren before) (depth : Nat) :
    (Grammar.upTo depth).expression.Fails before := by
  cases depth with
  | zero => exact fails_failure before
  | succ depth =>
      have comparison : (Rule.comparison (Grammar.upTo depth)).Fails before := by
        apply Fails.bind
        apply Fails.bind
        apply Fails.bind
        apply Fails.bind
        apply Fails.bind
        apply Fails.bind
        exact (barren.fails_factor depth).bind _
      have inversion : (Rule.inversion (Grammar.upTo depth)).Fails before :=
        Reads.bind_fails (reads_isNext_of_ne (barren.ne (by decide))) comparison
      have disjunction : (Rule.disjunction (Grammar.upTo depth)).Fails before :=
        (inversion.bind _).bind _
      have conditional : (Rule.conditional (Grammar.upTo depth)).Fails before :=
        disjunction.bind _
      exact Reads.bind_fails (reads_isNext_of_ne (barren.ne (by decide))) conditional

/-! ## Statements in one line -/

theorem reads_starExpressions (taken : inner.expression.Reads before term after)
    (begins : BeginsTerm before) (single : after.head? ≠ some (.symbol ",")) :
    (Rule.starExpressions inner).Reads before term after := by
  have plain : (Rule.starredOr inner inner.expression).Reads before term after :=
    (reads_perhapsSymbol_of_ne (begins.ne (by decide))).bind_false taken
  exact (reads_commaList_single plain single).bind (reads_pure term after)

theorem reads_assigned (taken : inner.expression.Reads before term after)
    (begins : BeginsTerm before) (single : after.head? ≠ some (.symbol ",")) :
    (Rule.assigned inner).Reads before term after := by
  have notYield : (Rule.yielding inner).Fails before :=
    (fails_token (begins.ne (by decide))).bind _
  exact notYield.orElse (reads_starExpressions taken begins single)

theorem reads_assignment {value : Term}
    (taken : inner.expression.Reads before term (.symbol "=" :: between))
    (begins : BeginsTerm before) (target : term.isTarget = true)
    (takenValue : inner.expression.Reads between value (.newline :: rest))
    (beginsValue : BeginsTerm between) :
    (Rule.assignment inner).Reads before (.assign [term] value) (.newline :: rest) := by
  have notColon : (Token.symbol "=" :: between).head? ≠ some (.symbol ":") := by simp
  have notComma : (Token.symbol "=" :: between).head? ≠ some (.symbol ",") := by simp
  have side : (do symbol "="; Rule.assigned inner).Reads (.symbol "=" :: between) value
      (.newline :: rest) :=
    (reads_symbol "=" between).bind (reads_assigned takenValue beginsValue (by simp))
  have last : (do symbol "="; Rule.assigned inner).Fails (.newline :: rest) :=
    (fails_token (by simp)).bind _
  apply (parses_line before).bind
  intro line _
  apply (reads_assigned taken begins notComma).bind
  apply (reads_perhapsSymbol_of_ne notColon).bind_false
  apply Reads.bind_true (reads_isNext_self _ between)
  have sides : (Rule.furtherSides inner).Reads (.symbol "=" :: between) [value]
      (.newline :: rest) :=
    side.bind ((reads_many_of_fails last).bind (reads_pure [value] _))
  apply sides.bind
  have targets : ([term, value].dropLast.all Term.isTarget) = true := by
    simp [target]
  change Parser.Parses (if _ then _ else _) _ _ _
  rw [if_pos targets]
  exact reads_pure _ _

theorem reads_declaration (id : String)
    (note : inner.expression.Reads before term (.newline :: rest))
    (takenName : inner.expression.Reads (.name id :: .symbol ":" :: before) (.name id)
      (.symbol ":" :: before)) :
    (Rule.assignment inner).Reads (.name id :: .symbol ":" :: before)
      (.annotated (.name id) none) (.newline :: rest) := by
  apply (parses_line _).bind
  intro line _
  apply (reads_assigned takenName ⟨_, rfl, rfl⟩ (by simp)).bind
  apply (reads_perhapsSymbol ":" before).bind_true
  apply note.bind
  exact (reads_perhapsSymbol_of_ne (by simp)).bind_false (reads_pure _ _)

theorem parses_expression_line (taken : inner.expression.Reads before term (.newline :: rest))
    (begins : BeginsTerm before) :
    (Rule.assignment inner).Parses before (fun phrase => ∃ line, phrase = .expression term line)
      (.newline :: rest) := by
  have unchanged : (oneOf Rule.changes).Fails (.newline :: rest) := by
    apply fails_oneOf
    simp
  apply (parses_line before).bind
  intro line _
  apply (reads_assigned taken begins (by simp)).bind
  apply (reads_perhapsSymbol_of_ne (by simp)).bind_false
  apply Reads.bind_false (reads_isNext_of_ne (by simp))
  exact unchanged.perhaps.bind (Parses.pure _ ⟨line, rfl⟩)

/-! ### The alternatives of a line -/

theorem fails_other {form : String} {parser : Parser Unit} (fails : parser.Fails before) :
    (Rule.other form parser).Fails before :=
  Parses.bind_fails (parses_line before) fun _ _ => fails.bind _

/-- A line that begins with no word of its own is an assignment or an expression. -/
theorem simple_eq_assignment
    (words : ∀ word, isOpener (.keyword word) = false → (keyword word).Fails before)
    {left : Tokens} (shown : left.tokens = before) :
    Rule.simple inner left = Rule.assignment inner left := by
  have imports : Rule.importFrom.Fails before := (words "from" (by decide)).bind _
  have raises : (Rule.raising inner).Fails before := (words "raise" (by decide)).bind _
  have deletes : (Rule.deletion inner).Fails before := (words "del" (by decide)).bind _
  have asserts : (Rule.assertion inner).Fails before := (words "assert" (by decide)).bind _
  have names : ∀ word, isOpener (.keyword word) = false → (Rule.names word).Fails before :=
    fun word other => (words word other).bind _
  rw [Rule.simple, ((words "return" (by decide)).bind _).orElse_eq shown,
    ((words "import" (by decide)).bind _).orElse_eq shown,
    ((words "pass" (by decide)).bind _).orElse_eq shown,
    (fails_other imports).orElse_eq shown, (fails_other raises).orElse_eq shown,
    (fails_other deletes).orElse_eq shown, (fails_other asserts).orElse_eq shown,
    (fails_other (words "break" (by decide))).orElse_eq shown,
    (fails_other (words "continue" (by decide))).orElse_eq shown,
    (fails_other (names "global" (by decide))).orElse_eq shown,
    (fails_other (names "nonlocal" (by decide))).orElse_eq shown]

theorem parses_simple_assignment {result : Phrase → Prop} (begins : BeginsTerm before)
    (taken : (Rule.assignment inner).Parses before result after) :
    (Rule.simple inner).Parses before result after := by
  intro left shown
  have words : ∀ word, isOpener (.keyword word) = false → (keyword word).Fails before :=
    fun word other => fails_token (begins.ne other)
  rw [simple_eq_assignment words shown]
  exact taken left shown

theorem Barren.fails_simple (barren : Barren before) (depth : Nat) :
    (Rule.simple (Grammar.upTo depth)).Fails before := by
  intro left shown
  have starred : (Rule.starExpressions (Grammar.upTo depth)).Fails before := by
    apply Fails.bind
    apply Fails.bind
    apply Fails.bind
    exact Reads.bind_fails (reads_perhapsSymbol_of_ne (barren.ne (by decide)))
      (barren.fails_expression depth)
  have assigned : (Rule.assigned (Grammar.upTo depth)).Fails before :=
    ((barren.fails_keyword "yield").bind _).orElse_fails starred
  have assignment : (Rule.assignment (Grammar.upTo depth)).Fails before :=
    Parses.bind_fails (parses_line before) fun _ _ => assigned.bind _
  rw [simple_eq_assignment (fun word _ => barren.fails_keyword word) shown]
  exact assignment left shown

theorem reads_simple_pass (rest : List Token) :
    (Rule.simple inner).Reads (.keyword "pass" :: rest) .pass rest := by
  have notReturn : (keyword "return").Fails (.keyword "pass" :: rest) := fails_token (by simp)
  have notImport : (keyword "import").Fails (.keyword "pass" :: rest) := fails_token (by simp)
  apply (notReturn.bind _).orElse
  apply (notImport.bind _).orElse
  apply Parses.orElse
  exact (reads_keyword "pass" rest).bind (reads_pure _ rest)

theorem reads_simple_return (taken : inner.expression.Reads before term (.newline :: rest))
    (begins : BeginsTerm before) :
    (Rule.simple inner).Reads (.keyword "return" :: before) (.returns (some term))
      (.newline :: rest) := by
  apply Parses.orElse
  apply (reads_keyword "return" before).bind
  exact (reads_starExpressions taken begins (by simp)).perhaps.bind (reads_pure _ _)

theorem reads_simple_import {packages : List (String × Option String)}
    (taken : (separated "," Rule.imported).Reads before packages after) :
    (Rule.simple inner).Reads (.keyword "import" :: before) (.imports packages) after := by
  have notReturn : (keyword "return").Fails (.keyword "import" :: before) :=
    fails_token (by simp)
  apply (notReturn.bind _).orElse
  apply Parses.orElse
  exact (reads_keyword "import" before).bind (taken.bind (reads_pure _ after))

theorem parses_simples {result : Phrase → Prop}
    (taken : (Rule.simple inner).Parses before result (.newline :: rest)) :
    (Rule.simples inner).Parses before (fun found => ∃ phrase, result phrase ∧ found = [phrase])
      rest := by
  apply (taken.separated_single (by simp)).bind
  rintro _ ⟨phrase, holds, rfl⟩
  apply (reads_perhapsSymbol_of_ne (by simp)).bind
  apply (reads_token .newline rest).bind
  exact Parses.pure rest ⟨phrase, holds, rfl⟩

/-! ## Statements over several lines -/

/-- The words that statements over several lines begin with. -/
def headWords : List String := ["if", "def", "class", "for", "while", "with", "try", "async"]

theorem fails_compound (words : ∀ word ∈ headWords, before.head? ≠ some (.keyword word))
    (undecorated : before.head? ≠ some (.symbol "@"))
    (undistinguished : (Rule.distinction inner).Fails before) :
    (Rule.compound inner).Fails before := by
  apply Parses.bind_fails (parses_peek before)
  intro next same
  simp only [same]
  split
  · exact absurd ‹_› (words "if" (by decide))
  · exact absurd ‹_› (words "def" (by decide))
  · exact absurd ‹_› (words "class" (by decide))
  · exact absurd ‹_› (words "for" (by decide))
  · exact absurd ‹_› (words "while" (by decide))
  · exact absurd ‹_› (words "with" (by decide))
  · exact absurd ‹_› (words "try" (by decide))
  · exact absurd ‹_› (words "async" (by decide))
  · exact absurd ‹_› undecorated
  · exact undistinguished
  · exact fails_failure before

/-- A name in front of what is no expression does not begin a case distinction. -/
theorem Barren.fails_distinction (barren : Barren rest) (id : String) (depth : Nat) :
    (Rule.distinction (Grammar.upTo depth)).Fails (.name id :: rest) := by
  apply Parses.bind_fails (parses_line _)
  intro line _
  apply Fails.bind
  by_cases same : id = "match"
  · subst same
    have named : (Rule.named (Grammar.upTo depth)).Fails rest := by
      have unnamed : beginsNaming ":=" rest = false := by
        cases rest with
        | nil => rfl
        | cons token rest =>
            have member := barren token rfl
            simp only [blockers, List.mem_cons, List.not_mem_nil, or_false] at member
            rcases member with rfl | rfl | rfl <;> rfl
      have looked := reads_isNameBefore ":=" rest
      rw [unnamed] at looked
      exact Reads.bind_fails looked ((barren.fails_expression depth).bind _)
    have starNamed : (Rule.starNamed (Grammar.upTo depth)).Fails rest :=
      Reads.bind_fails (reads_perhapsSymbol_of_ne (barren.ne (by decide))) named
    have subject : (Rule.subject (Grammar.upTo depth)).Fails rest := by
      apply Reads.bind_fails (reads_isNext_of_ne (barren.ne (by decide)))
      exact ((starNamed.bind _).bind _).bind _
    apply Reads.bind_fails (reads_token (.name "match") rest)
    exact subject.bind _
  · apply Fails.bind
    apply fails_token
    simpa using same

theorem fails_distinction_of_ne (unnamed : ∀ id, before.head? ≠ some (.name id)) :
    (Rule.distinction inner).Fails before := by
  apply Parses.bind_fails (parses_line before)
  intro line _
  exact ((fails_token (unnamed "match")).bind _).bind _

theorem parses_statement_line {result : Phrase → Prop}
    (fails : (Rule.compound inner).Fails before)
    (taken : (Rule.simple inner).Parses before result (.newline :: rest)) :
    (Rule.statement inner).Parses before
      (fun found => ∃ phrase, result phrase ∧ found = [phrase]) rest :=
  (fails.map _).orElse (parses_simples taken)

theorem Barren.fails_statement (barren : Barren before) (depth : Nat) :
    (Grammar.upTo depth).statement.Fails before := by
  cases depth with
  | zero => exact fails_failure before
  | succ depth =>
      have distinction : (Rule.distinction (Grammar.upTo depth)).Fails before :=
        fails_distinction_of_ne fun id => barren.ne (by simp [blockers])
      have compound : (Rule.compound (Grammar.upTo depth)).Fails before :=
        fails_compound (fun word _ => barren.ne (by simp [blockers])) (barren.ne (by decide))
          distinction
      have simples : (Rule.simples (Grammar.upTo depth)).Fails before :=
        ((barren.fails_simple depth).bind _).bind _
      exact (compound.map _).orElse_fails simples

/-- A block of statements below the line that it belongs to. -/
theorem parses_block {β : Type} {result : List Phrase → β → Prop} {b : β} {bs : List β}
    (repeats : Repeats inner.statement result before (b :: bs) (.dedent :: after)) :
    (Rule.block inner).Parses (.symbol ":" :: .newline :: .indent :: before)
      (fun found => ∃ phrases, List.Forall₂ result phrases (b :: bs) ∧ found = phrases.flatten)
      after := by
  apply (reads_symbol ":" _).bind
  apply (reads_token .newline _).perhaps.bind
  rw [if_pos Option.isSome_some]
  apply (reads_token .indent before).bind
  apply repeats.parses_some1.bind
  intro phrases holds
  apply (reads_token .dedent after).bind
  exact Parses.pure after ⟨phrases, holds, rfl⟩

theorem reads_otherwise_none (single : before.head? ≠ some (.keyword "else")) :
    (Rule.otherwise inner).Reads before [] before := by
  apply (fails_token single).perhaps.bind
  exact reads_pure [] before

theorem parses_otherwise {result : List Phrase → Prop}
    (taken : (Rule.block inner).Parses before result after) :
    (Rule.otherwise inner).Parses (.keyword "else" :: before) result after := by
  apply (reads_keyword "else" before).perhaps.bind
  rw [if_pos Option.isSome_some]
  exact taken

theorem parses_branch {first second : List Phrase → Prop}
    (condition : (Rule.named inner).Reads before term between) (begins : BeginsTerm before)
    (taken : (Rule.block inner).Parses between first after)
    (last : after.head? ≠ some (.keyword "elif"))
    (other : (Rule.otherwise inner).Parses after second rest) :
    (Rule.branch inner).Parses (.keyword "if" :: before)
      (fun phrase => ∃ block rest, first block ∧ second rest ∧ phrase = .branch term block rest)
      rest := by
  apply (reads_keyword "if" before).bind
  apply (parses_tokenBound before).bind
  intro bound enough
  obtain ⟨opener, _, first⟩ := begins
  cases bound with
  | zero =>
      rw [List.eq_nil_of_length_eq_zero (Nat.le_zero.mp enough)] at first
      cases first
  | succ fuel =>
      apply condition.bind
      apply taken.bind
      intro block holds
      apply (fails_token last).perhaps.bind
      rw [if_neg (by simp)]
      apply other.bind
      intro others holdOthers
      exact Parses.pure rest ⟨block, others, holds, holdOthers, rfl⟩

/-! ### Functions -/

/-- The parameters of a function whose names are given and nothing else. -/
theorem inOrder_plain (names : List String) :
    Rule.ParameterForm.inOrder (names.map (.plain · none)) = true := by
  have steps : ∀ (names : List String) (count : Nat),
      ∃ reached, (names.map (Rule.ParameterForm.plain · none)).foldlM
        Rule.ParameterForm.advance ⟨count, false, false, false, false, false⟩ =
          some ⟨reached, false, false, false, false, false⟩ := by
    intro names
    induction names with
    | nil => exact fun count => ⟨count, rfl⟩
    | cons name names inductionHypothesis => exact fun count => inductionHypothesis (count + 1)
  obtain ⟨reached, ran⟩ := steps names 0
  rw [Rule.ParameterForm.inOrder, ran]
  rfl

theorem positional_plain (names : List String) :
    Rule.ParameterForm.positional (names.map (.plain · none)) = names := by
  induction names with
  | nil => rfl
  | cons name names inductionHypothesis => exact congrArg (name :: ·) inductionHypothesis

theorem reads_parameters {note starNote : Parser Unit}
    (unnoted : ∀ tokens, closesArgument tokens → note.Reads tokens () tokens)
    (names : List String) (rest : List Token) :
    (Rule.parameters inner note starNote).Reads
      ([.symbol ","].intercalate (names.map fun name => [.name name]) ++ .symbol ")" :: rest)
      (names.map (.plain · none)) (.symbol ")" :: rest) := by
  unfold Rule.parameters
  extract_lets parameter
  have notComma : (Token.symbol ")" :: rest).head? ≠ some (.symbol ",") := by simp
  have each : ReadsEach parameter closesArgument (names.map fun name => [.name name])
      (names.map (.plain · none)) := by
    apply List.forall₂_map_left_iff.mpr
    apply List.forall₂_map_right_iff.mpr
    apply List.forall₂_same.mpr
    intro name _ rest closes
    have notSlash : (symbol "/").Fails (.name name :: rest) := fails_token (by simp)
    have notDouble : (symbol "**").Fails (.name name :: rest) := fails_token (by simp)
    have notStar : (symbol "*").Fails (.name name :: rest) := fails_token (by simp)
    have notEquals : rest.head? ≠ some (.symbol "=") := by
      rcases closes with first | first <;> simp [first]
    apply (notSlash.bind _).orElse
    apply (notDouble.bind _).orElse
    apply (notStar.bind _).orElse
    apply (reads_name name rest).bind
    apply (unnoted rest closes).bind
    exact (reads_perhapsSymbol_of_ne notEquals).bind_false (reads_pure _ rest)
  cases names with
  | nil =>
      have fails : parameter.Fails (.symbol ")" :: rest) := by
        apply ((fails_token (by simp)).bind _).orElse_fails
        apply ((fails_token (by simp)).bind _).orElse_fails
        apply ((fails_token (by simp)).bind _).orElse_fails
        exact (fails_name (by simp)).bind _
      have list : (commaList parameter).Fails (.symbol ")" :: rest) :=
        (fails_separated fails).bind _
      exact list.perhaps.bind (reads_pure [] _)
  | cons name names =>
      have list := ReadsEach.commaList each (List.cons_ne_nil _ _) (fun _ => .inl rfl) (.inr rfl)
        notComma
      apply list.perhaps.bind
      change Parser.Parses (if _ then _ else _) _ _ _
      rw [if_pos (inOrder_plain _)]
      exact reads_pure _ _

theorem parses_functionDef {result : List Phrase → Prop} (name : String) (names : List String)
    (taken : (Rule.block inner).Parses (.symbol ":" :: before) result after) :
    (Rule.functionDef inner).Parses
      (.keyword "def" :: .name name :: .symbol "(" ::
        ([.symbol ","].intercalate (names.map fun name => [.name name]) ++
          .symbol ")" :: .symbol ":" :: before))
      (fun phrase => ∃ block, result block ∧ phrase = .functionDef name names block) after := by
  apply (reads_keyword "def" _).bind
  apply (reads_name name _).bind
  apply (reads_symbol "(" _).bind
  extract_lets note starNote
  have unnoted : ∀ tokens, closesArgument tokens → note.Reads tokens () tokens := by
    intro tokens closes
    have notColon : tokens.head? ≠ some (.symbol ":") := by
      rcases closes with first | first <;> simp [first]
    exact (reads_perhapsSymbol_of_ne notColon).bind_false (reads_pure () tokens)
  apply (reads_parameters unnoted names _).bind
  apply (reads_symbol ")" _).bind
  apply (reads_perhapsSymbol_of_ne (by simp)).bind_false
  apply taken.bind
  intro block holds
  rw [positional_plain]
  exact Parses.pure after ⟨block, holds, rfl⟩

/-! ### Classes -/

theorem parses_classDef {result : List Phrase → Prop} (name : String)
    (taken : (Rule.block inner).Parses (.symbol ":" :: before) result after) :
    (Rule.classDef inner).Parses (.keyword "class" :: .name name :: .symbol ":" :: before)
      (fun phrase => ∃ block, result block ∧ phrase = .classDef name [] block) after := by
  apply (reads_keyword "class" _).bind
  apply (reads_name name _).bind
  apply (reads_perhapsSymbol_of_ne (by simp)).bind_false
  apply (reads_pure [] _).bind
  apply taken.bind
  intro block holds
  exact Parses.pure after ⟨block, holds, rfl⟩

theorem parses_classDef_bases {result : List Phrase → Prop} (name : String) {bases : List Term}
    (takenBases : (Rule.arguments inner failure).Reads before (bases, [])
      (.symbol ":" :: between))
    (taken : (Rule.block inner).Parses (.symbol ":" :: between) result after) :
    (Rule.classDef inner).Parses (.keyword "class" :: .name name :: .symbol "(" :: before)
      (fun phrase => ∃ block, result block ∧ phrase = .classDef name bases block) after := by
  apply (reads_keyword "class" _).bind
  apply (reads_name name _).bind
  apply (reads_perhapsSymbol "(" before).bind_true
  apply (takenBases.map (·.1)).bind
  apply taken.bind
  intro block holds
  exact Parses.pure after ⟨block, holds, rfl⟩

/-- A statement that begins with a word of its own and has a block below it. -/
theorem parses_statement_block {word : String} {parser : Parser Phrase} {result : Phrase → Prop}
    (leads : (word, parser) ∈ [("if", Rule.branch inner), ("def", Rule.functionDef inner),
      ("class", Rule.classDef inner)])
    (taken : parser.Parses (.keyword word :: before) result after) :
    (Rule.statement inner).Parses (.keyword word :: before)
      (fun found => ∃ phrase, result phrase ∧ found = [phrase]) after := by
  apply Parses.orElse
  apply Parses.map
  apply (parses_peek _).bind
  intro next same
  simp only [List.mem_cons, Prod.mk.injEq, List.not_mem_nil, or_false] at leads
  rcases leads with ⟨rfl, rfl⟩ | ⟨rfl, rfl⟩ | ⟨rfl, rfl⟩
  all_goals
    simp only [same]
    exact taken

/-! ## Imports -/

theorem reads_dottedName {parts : List String} (nonempty : parts ≠ [])
    (ends : after.head? ≠ some (.symbol ".")) :
    Rule.dottedName.Reads
      ([.symbol "."].intercalate (parts.map fun part => [.name part]) ++ after)
      (".".intercalate parts) after := by
  have each : ReadsEach name (fun _ => True) (parts.map fun part => [Token.name part]) parts := by
    apply List.forall₂_map_left_iff.mpr
    apply List.forall₂_same.mpr
    exact fun part _ rest _ => reads_name part rest
  have rows : (parts.map fun part => [Token.name part]) ≠ [] := by simpa using nonempty
  apply (ReadsEach.separated each rows (fun _ => trivial) trivial ends).bind
  exact reads_pure _ after

theorem reads_imported {parts : List String} (nonempty : parts ≠ [])
    (ends : after.head? ≠ some (.symbol ".")) (single : after.head? ≠ some (.keyword "as")) :
    Rule.imported.Reads
      ([.symbol "."].intercalate (parts.map fun part => [.name part]) ++ after)
      (".".intercalate parts, none) after := by
  apply (reads_dottedName nonempty ends).bind
  have unnamed : Rule.otherName.Reads after none after :=
    (fails_token single).perhaps.bind (reads_pure none after)
  exact unnamed.bind (reads_pure _ after)

theorem reads_imported_as {parts : List String} (nonempty : parts ≠ []) (other : String)
    (rest : List Token) :
    Rule.imported.Reads
      ([.symbol "."].intercalate (parts.map fun part => [.name part]) ++
        .keyword "as" :: .name other :: rest)
      (".".intercalate parts, some other) rest := by
  apply (reads_dottedName nonempty (by simp)).bind
  have named : Rule.otherName.Reads (.keyword "as" :: .name other :: rest) (some other) rest :=
    (reads_keyword "as" _).perhaps.bind ((reads_name other rest).bind (reads_pure _ rest))
  exact named.bind (reads_pure _ rest)

end TorchArchive.Script
