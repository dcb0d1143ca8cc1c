import TorchArchive.Proofs.Script.Literals
import TorchArchive.Proofs.Script.Reading
import TorchArchive.Proofs.Script.Writing
import TorchArchive.Script.Grammar.Expression

/-!
# Levels of the grammar

What the rules of expressions make of the tokens of written expressions.  Behind a written
expression stands a closing token, in front of which no level finds a further operator; so an
atom with its trailers is read as a term of every level.
-/

namespace TorchArchive.Script

open TorchArchive.Script.Parser

/-! ## What stands around a term -/

/-- The tokens that can stand behind a written expression. -/
def closers : List Token :=
  [.symbol ")", .symbol "]", .symbol ",", .symbol ":", .symbol "=", .newline]

def EndsTerm (tokens : List Token) : Prop := ∃ token ∈ closers, tokens.head? = some token

/-- Whether a written expression can begin with a token. -/
def isOpener : Token → Bool
  | .name _ | .number _ | .text _ => true
  | .keyword word => ["None", "True", "False"].contains word
  | .symbol spelling => ["(", "[", "-"].contains spelling
  | _ => false

def BeginsTerm (tokens : List Token) : Prop := ∃ token, isOpener token ∧ tokens.head? = some token

section Levels

variable {inner : Grammar} {before between after : List Token} {term : Term}

theorem EndsTerm.ne (ends : EndsTerm after) {token : Token} (other : token ∉ closers) :
    after.head? ≠ some token := by
  obtain ⟨closer, member, first⟩ := ends
  rw [first]
  rintro ⟨rfl⟩
  exact other member

theorem BeginsTerm.ne (begins : BeginsTerm before) {token : Token}
    (other : isOpener token = false) : before.head? ≠ some token := by
  obtain ⟨opener, opens, first⟩ := begins
  rw [first]
  rintro ⟨rfl⟩
  rw [other] at opens
  cases opens

theorem EndsTerm.fails_oneOf (ends : EndsTerm after) {spellings : List String}
    (apart : ∀ spelling ∈ spellings, Token.symbol spelling ∉ closers) :
    (oneOf spellings).Fails after :=
  Parser.fails_oneOf fun spelling member => ends.ne (apart spelling member)

theorem EndsTerm.fails_keyword (ends : EndsTerm after) (word : String) :
    (keyword word).Fails after :=
  fails_token (ends.ne (by simp [closers]))

/-! ## Levels of the grammar -/

theorem reads_leftAssociative {spellings : List String} {operand : Parser Term}
    (taken : operand.Reads before term after) (fails : (oneOf spellings).Fails after) :
    (leftAssociative spellings operand).Reads before term after :=
  taken.bind ((reads_many_of_fails (fails.bind _)).bind (reads_pure term after))

theorem reads_bitwiseOr (taken : inner.factor.Reads before term after) (ends : EndsTerm after) :
    (Rule.bitwiseOr inner).Reads before term after := by
  apply reads_leftAssociative _ (ends.fails_oneOf (by decide))
  apply reads_leftAssociative _ (ends.fails_oneOf (by decide))
  apply reads_leftAssociative _ (ends.fails_oneOf (by decide))
  apply reads_leftAssociative _ (ends.fails_oneOf (by decide))
  apply reads_leftAssociative _ (ends.fails_oneOf (by decide))
  exact reads_leftAssociative taken (ends.fails_oneOf (by decide))

theorem reads_comparison (taken : inner.factor.Reads before term after) (ends : EndsTerm after) :
    (Rule.comparison inner).Reads before term after := by
  apply (reads_bitwiseOr taken ends).bind
  refine Reads.bind (reads_many_of_fails (Fails.bind ?_ _)) (reads_pure term after)
  apply (ends.fails_oneOf (by decide)).orElse_fails
  apply ((ends.fails_keyword "not").bind _).orElse_fails
  apply ((ends.fails_keyword "in").bind _).orElse_fails
  apply ((ends.fails_keyword "is").bind _).orElse_fails
  exact (ends.fails_keyword "is").bind _

theorem reads_joined {word : String} {operand : Parser Term}
    (taken : operand.Reads before term after) (ends : EndsTerm after) :
    (Rule.joined word operand).Reads before term after :=
  taken.bind ((reads_many_of_fails ((ends.fails_keyword word).bind _)).bind (reads_pure term after))

theorem reads_disjunction (taken : inner.factor.Reads before term after)
    (begins : BeginsTerm before) (ends : EndsTerm after) :
    (Rule.disjunction inner).Reads before term after := by
  apply reads_joined _ ends
  apply reads_joined _ ends
  exact (reads_isNext_of_ne (begins.ne (by decide))).bind_false (reads_comparison taken ends)

/-- A factor that ends where an expression ends is an expression. -/
theorem reads_expression (taken : inner.factor.Reads before term after)
    (begins : BeginsTerm before) (ends : EndsTerm after) :
    (Rule.expression inner).Reads before term after := by
  apply (reads_isNext_of_ne (begins.ne (by decide))).bind_false
  apply (reads_disjunction taken begins ends).bind
  exact ((ends.fails_keyword "if").bind _).perhaps.bind (reads_pure term after)

/-- A primary without a sign in front is a factor. -/
theorem reads_factor (taken : (Rule.primary inner).Reads before term after)
    (begins : BeginsTerm before) (unsigned : before.head? ≠ some (.symbol "-"))
    (ends : EndsTerm after) : (Rule.factor inner).Reads before term after := by
  have signs : (oneOf ["+", "-", "~"]).Fails before := by
    apply Parser.fails_oneOf
    intro spelling member
    rcases List.mem_cons.mp member with rfl | member
    · exact begins.ne (by decide)
    · rcases List.mem_cons.mp member with rfl | member
      · exact unsigned
      · rw [List.mem_singleton.mp member]
        exact begins.ne (by decide)
  apply signs.perhaps.bind
  have awaits : (isKeywordNext "await").Reads before false before :=
    reads_isNext_of_ne (begins.ne (by decide))
  apply awaits.bind_false
  apply taken.bind
  exact (reads_perhapsSymbol_of_ne (ends.ne (by decide))).bind_false (reads_pure term after)

/-- A sign in front of a factor. -/
theorem reads_factor_minus (taken : inner.factor.Reads before term after) :
    (Rule.factor inner).Reads (.symbol "-" :: before) (.unary "-" term) after :=
  (reads_oneOf (by decide) before).perhaps.bind (taken.bind (reads_pure _ after))

theorem reads_primary {trailers : List (Term → Term)}
    (taken : (Rule.atom inner).Reads before term between)
    (trailing : Repeats (Rule.trailer inner) Eq between trailers after) :
    (Rule.primary inner).Reads before
      (trailers.foldl (fun target trailer => trailer target) term) after :=
  taken.bind (trailing.reads_many.bind (reads_pure _ after))

theorem EndsTerm.fails_trailer (ends : EndsTerm after) : (Rule.trailer inner).Fails after := by
  apply ((fails_token (ends.ne (by decide))).bind _).orElse_fails
  apply ((fails_token (ends.ne (by decide))).bind _).orElse_fails
  exact (fails_token (ends.ne (by decide))).bind _

end Levels

/-! ## Atoms -/

section Atoms

variable {inner : Grammar} {before between after : List Token} {term : Term}

theorem reads_atom_name (id : String) (rest : List Token) :
    (Rule.atom inner).Reads (.name id :: rest) (.name id) rest :=
  ((reads_name id rest).map Term.name).orElse _

theorem fails_name_map (other : ∀ id, before.head? ≠ some (.name id)) :
    (Term.name <$> name).Fails before :=
  (fails_name other).map _

/-- A word that stands for a constant. -/
theorem reads_atom_keyword {word : String} {value : Atom}
    (stands : ∀ rest, Rule.wordConstant.Reads (.keyword word :: rest) (.constant value false) rest)
    (rest : List Token) :
    (Rule.atom inner).Reads (.keyword word :: rest) (.constant value false) rest := by
  apply (fails_name_map fun id same => by cases same).orElse
  exact (stands rest).orElse _

theorem reads_atom_number (value : Atom) (rest : List Token) :
    (Rule.atom inner).Reads (.number value :: rest) (.constant value false) rest := by
  apply (fails_name_map fun id same => by cases same).orElse
  have notWord : Rule.wordConstant.Fails (.number value :: rest) := by
    apply fails_take
    rintro _ ⟨rfl⟩
    rfl
  apply notWord.orElse
  exact Parses.orElse (reads_take (by rfl) rest) _

theorem EndsTerm.fails_text (ends : EndsTerm after) :
    (take fun
      | .text literal => some literal
      | _ => none : Parser TextLiteral).Fails after := by
  apply fails_take
  intro token first
  obtain ⟨closer, member, isFirst⟩ := ends
  obtain rfl := Option.some.inj (isFirst.symm.trans first)
  simp only [closers, List.mem_cons, List.not_mem_nil, or_false] at member
  rcases member with rfl | rfl | rfl | rfl | rfl | rfl <;> rfl

theorem joinLiterals_quoted (content : String) :
    Rule.joinLiterals inner [⟨false, false, false, false,
        content.toList.flatMap (quotedChar (enclosingQuote content.toList))⟩] =
      some (.constant (.str content) false) := by
  have text := decodeText_quoted content
  have single : String.join [content] = content := by simp [String.join]
  simp [Rule.joinLiterals, text, single]

theorem reads_literals (content : String) (ends : EndsTerm after) :
    (Rule.literals inner).Reads ((Word.text content).token :: after)
      (.constant (.str content) false) after := by
  have parts : Repeats (take fun
      | .text literal => some literal
      | _ => none : Parser TextLiteral) Eq ((Word.text content).token :: after)
      [⟨false, false, false, false,
        content.toList.flatMap (quotedChar (enclosingQuote content.toList))⟩] after :=
    Repeats.more (reads_take (by rfl) after) (Nat.lt_succ_self _) (Repeats.done ends.fails_text)
  refine Parses.bind parts.parses_some1 ?_
  intro found same
  rw [List.forall₂_eq_eq_eq] at same
  subst same
  rw [joinLiterals_quoted]
  exact reads_pure _ after

theorem reads_atom_text (content : String) (ends : EndsTerm after) :
    (Rule.atom inner).Reads ((Word.text content).token :: after)
      (.constant (.str content) false) after := by
  apply (fails_name_map fun id same => by cases same).orElse
  have notWord : Rule.wordConstant.Fails ((Word.text content).token :: after) := by
    apply fails_take
    rintro _ ⟨rfl⟩
    rfl
  have notNumber : Rule.numeral.Fails ((Word.text content).token :: after) := by
    apply fails_take
    rintro _ ⟨rfl⟩
    rfl
  apply notWord.orElse
  apply notNumber.orElse
  exact (reads_literals content ends).orElse _

/-- An atom that begins with a bracket. -/
theorem reads_atom_symbol {spelling : String} (bracket : spelling = "(" ∨ spelling = "[")
    {rest : List Token}
    (taken : (Rule.parenthesized inner <|> Rule.bracketed inner <|> Rule.braced inner).Reads
      (.symbol spelling :: rest) term after) :
    (Rule.atom inner).Reads (.symbol spelling :: rest) term after := by
  apply (fails_name_map fun id same => by cases same).orElse
  have notWord : Rule.wordConstant.Fails (.symbol spelling :: rest) := by
    apply fails_take
    rintro _ ⟨rfl⟩
    rcases bracket with rfl | rfl <;> rfl
  have notNumber : Rule.numeral.Fails (.symbol spelling :: rest) := by
    apply fails_take
    rintro _ ⟨rfl⟩
    rfl
  have notText : (Rule.literals inner).Fails (.symbol spelling :: rest) := by
    apply Fails.bind
    apply Fails.bind
    apply fails_take
    rintro _ ⟨rfl⟩
    rfl
  apply notWord.orElse
  apply notNumber.orElse
  exact notText.orElse taken

theorem reads_atom_opening {rest : List Token}
    (taken : (Rule.parenthesized inner).Reads (.symbol "(" :: rest) term after) :
    (Rule.atom inner).Reads (.symbol "(" :: rest) term after :=
  reads_atom_symbol (.inl rfl) (taken.orElse _)

theorem reads_atom_itemOpening {rest : List Token}
    (taken : (Rule.bracketed inner).Reads (.symbol "[" :: rest) term after) :
    (Rule.atom inner).Reads (.symbol "[" :: rest) term after := by
  apply reads_atom_symbol (.inr rfl)
  have notParenthesized : (Rule.parenthesized inner).Fails (.symbol "[" :: rest) :=
    Fails.bind (fails_token (by simp)) _
  exact notParenthesized.orElse (taken.orElse _)

/-! ## Terms inside of brackets -/

theorem reads_named (taken : inner.expression.Reads before term after) (ends : EndsTerm after)
    (unnamed : beginsNaming ":=" before = false) : (Rule.named inner).Reads before term after := by
  have looked := reads_isNameBefore ":=" before
  rw [unnamed] at looked
  apply looked.bind_false
  apply taken.bind
  exact (reads_notBefore (ends.ne (by decide))).bind (reads_pure term after)

theorem reads_starNamed (taken : inner.expression.Reads before term after)
    (begins : BeginsTerm before) (ends : EndsTerm after)
    (unnamed : beginsNaming ":=" before = false) :
    (Rule.starNamed inner).Reads before term after :=
  (reads_perhapsSymbol_of_ne (begins.ne (by decide))).bind_false (reads_named taken ends unnamed)

theorem EndsTerm.reads_isLoopNext (ends : EndsTerm after) :
    Rule.isLoopNext.Reads after false after := by
  have notFor : (isKeywordNext "for").Reads after false after :=
    reads_isNext_of_ne (ends.ne (by decide))
  have notAsync : (isKeywordNext "async").Reads after false after :=
    reads_isNext_of_ne (ends.ne (by decide))
  exact notFor.bind (notAsync.bind (reads_pure false after))

/-- A term in parentheses is read as the term. -/
theorem reads_parenthesized {rest : List Token}
    (taken : inner.expression.Reads before term (.symbol ")" :: rest))
    (begins : BeginsTerm before) (unnamed : beginsNaming ":=" before = false)
    (plain : Rule.isStarred term = false) :
    (Rule.parenthesized inner).Reads (.symbol "(" :: before) term rest := by
  have ends : EndsTerm (.symbol ")" :: rest) := ⟨_, by decide, rfl⟩
  have notYield : (isKeywordNext "yield").Reads before false before :=
    reads_isNext_of_ne (begins.ne (by decide))
  have notComma : (isSymbolNext ",").Reads (.symbol ")" :: rest) false (.symbol ")" :: rest) :=
    reads_isNext_of_ne (by simp)
  apply (reads_symbol "(" before).bind
  apply (reads_perhapsSymbol_of_ne (begins.ne (by decide))).bind_false
  apply notYield.bind_false
  apply (reads_starNamed taken begins ends unnamed).bind
  apply ends.reads_isLoopNext.bind_false
  apply notComma.bind_false
  apply (reads_symbol ")" rest).bind
  rw [plain]
  exact reads_pure term rest

theorem reads_parenthesized_nil (rest : List Token) :
    (Rule.parenthesized inner).Reads (.symbol "(" :: .symbol ")" :: rest) (.tuple []) rest :=
  (reads_symbol "(" _).bind ((reads_perhapsSymbol ")" rest).bind_true (reads_pure _ rest))

section Rows

variable {closing : String} {first row : List Token} {rows : List (List Token)} {value : Term}
  {values : List Term} {rest : List Token}

/-- A term in parentheses inside of another term. -/
structure ReadsRow (inner : Grammar) (row : List Token) (value : Term) : Prop where
  enclosed : ∃ tail, row = .symbol "(" :: tail
  taken : ∀ rest, EndsTerm rest → inner.expression.Reads (row ++ rest) value rest

abbrev ReadsRows (inner : Grammar) (rows : List (List Token)) (values : List Term) : Prop :=
  List.Forall₂ (ReadsRow inner) rows values

theorem beginsTerm_opening (rest : List Token) : BeginsTerm (.symbol "(" :: rest) :=
  ⟨_, by decide, rfl⟩

theorem endsTerm_comma (rest : List Token) : EndsTerm (.symbol "," :: rest) :=
  ⟨_, by decide, rfl⟩

theorem ReadsRow.starNamed (reads : ReadsRow inner row value) (ends : EndsTerm rest) :
    (Rule.starNamed inner).Reads (row ++ rest) value rest := by
  obtain ⟨⟨tail, rfl⟩, taken⟩ := reads
  exact reads_starNamed (taken rest ends) (beginsTerm_opening _) ends rfl

theorem ReadsRows.starNamed (reads : ReadsRows inner rows values) :
    ReadsEach (Rule.starNamed inner) EndsTerm rows values := by
  apply reads.imp
  intro row value reads rest ends
  exact reads.starNamed ends

/-- The rows behind the first one, up to the closing bracket. -/
theorem reads_furtherTerms (reads : ReadsRows inner rows values)
    (closes : closing = ")" ∨ closing = "]") :
    (Rule.furtherTerms inner closing).Reads
      (rows.flatMap (fun row => .symbol "," :: row) ++ .symbol closing :: rest) values rest := by
  have ends : EndsTerm (.symbol closing :: rest) := by
    rcases closes with rfl | rfl
    · exact ⟨_, by decide, rfl⟩
    · exact ⟨_, by decide, rfl⟩
  have notComma : (Token.symbol closing :: rest).head? ≠ some (.symbol ",") := by
    rcases closes with rfl | rfl <;> simp
  have each := ReadsRows.starNamed reads
  cases reads with
  | nil =>
      apply (reads_perhapsSymbol_of_ne notComma).bind_false
      exact (reads_symbol closing rest).bind (reads_pure [] rest)
  | @cons row value rows values readsFirst reads =>
      have notClosing : ([.symbol ","].intercalate (row :: rows) ++
          .symbol closing :: rest).head? ≠ some (.symbol closing) := by
        obtain ⟨tail, rfl⟩ := readsFirst.enclosed
        rw [intercalate_cons, List.cons_append]
        rcases closes with rfl | rfl <;> simp
      rw [List.flatMap_cons, List.cons_append, List.cons_append, ← intercalate_cons]
      apply (reads_perhapsSymbol "," _).bind_true
      apply (reads_perhapsSymbol_of_ne notClosing).bind_false
      apply (ReadsEach.commaList each (List.cons_ne_nil _ _) endsTerm_comma ends notComma).bind
      exact (reads_symbol closing rest).bind (reads_pure _ rest)

theorem reads_bracketed (reads : ReadsRows inner rows values) :
    (Rule.bracketed inner).Reads
      (.symbol "[" :: ([.symbol ","].intercalate rows ++ .symbol "]" :: rest)) (.list values)
      rest := by
  apply (reads_symbol "[" _).bind
  have ends : EndsTerm (.symbol "]" :: rest) := ⟨_, by decide, rfl⟩
  cases reads with
  | nil => exact (reads_perhapsSymbol "]" rest).bind_true (reads_pure _ rest)
  | @cons row value rows values readsFirst reads =>
      have endsRow := follows_rows endsTerm_comma ends rows
      have notClosing : (row ++ (rows.flatMap (fun row => .symbol "," :: row) ++
          .symbol "]" :: rest)).head? ≠ some (.symbol "]") := by
        obtain ⟨tail, rfl⟩ := readsFirst.enclosed
        simp
      rw [intercalate_cons, List.append_assoc]
      apply (reads_perhapsSymbol_of_ne notClosing).bind_false
      apply (readsFirst.starNamed endsRow).bind
      apply endsRow.reads_isLoopNext.bind_false
      exact (reads_furtherTerms reads (.inr rfl)).bind (reads_pure _ rest)

/-- Several terms in parentheses, or one with a comma behind it, are read as a tuple. -/
theorem reads_parenthesized_terms (reads : ReadsRow inner row value)
    (further : (Rule.furtherTerms inner ")").Reads (.symbol "," :: between) values rest) :
    (Rule.parenthesized inner).Reads (.symbol "(" :: (row ++ .symbol "," :: between))
      (.tuple (value :: values)) rest := by
  have begins : BeginsTerm (row ++ .symbol "," :: between) := by
    obtain ⟨tail, rfl⟩ := reads.enclosed
    exact beginsTerm_opening _
  have notYield : (isKeywordNext "yield").Reads (row ++ .symbol "," :: between) false
      (row ++ .symbol "," :: between) :=
    reads_isNext_of_ne (begins.ne (by decide))
  apply (reads_symbol "(" _).bind
  apply (reads_perhapsSymbol_of_ne (begins.ne (by decide))).bind_false
  apply notYield.bind_false
  apply (reads.starNamed (endsTerm_comma between)).bind
  apply (endsTerm_comma between).reads_isLoopNext.bind_false
  exact Reads.bind_true (reads_isNext_self _ between) (further.bind (reads_pure _ rest))

/-- The tokens between the parentheses of a tuple. -/
def tupleTokens : List (List Token) → List Token
  | [single] => single ++ [.symbol ","]
  | rows => [.symbol ","].intercalate rows

theorem reads_parenthesized_tuple (reads : ReadsRows inner rows values) :
    (Rule.parenthesized inner).Reads
      (.symbol "(" :: (tupleTokens rows ++ .symbol ")" :: rest)) (.tuple values) rest := by
  match reads with
  | .nil => exact reads_parenthesized_nil rest
  | .cons readsFirst .nil =>
      rw [tupleTokens, List.append_assoc]
      apply reads_parenthesized_terms readsFirst
      apply (reads_perhapsSymbol "," _).bind_true
      exact (reads_perhapsSymbol ")" rest).bind_true (reads_pure [] rest)
  | .cons readsFirst (.cons readsSecond reads) =>
      have further : (Rule.furtherTerms inner ")").Reads _ _ rest :=
        reads_furtherTerms (List.Forall₂.cons readsSecond reads) (.inl rfl)
      rw [List.flatMap_cons, List.cons_append, List.cons_append] at further
      change (Rule.parenthesized inner).Reads
        (.symbol "(" :: ([.symbol ","].intercalate (_ :: _ :: _) ++ _)) _ _
      rw [intercalate_cons, List.flatMap_cons, List.append_assoc, List.cons_append,
        List.cons_append]
      exact reads_parenthesized_terms readsFirst further

/-! ## Arguments, members and items -/

def closesArgument (tokens : List Token) : Prop :=
  tokens.head? = some (.symbol ",") ∨ tokens.head? = some (.symbol ")")

theorem closesArgument.endsTerm (closes : closesArgument after) : EndsTerm after := by
  rcases closes with first | first
  · exact ⟨_, by decide, first⟩
  · exact ⟨_, by decide, first⟩

theorem reads_argument_positional (taken : inner.expression.Reads before term after)
    (begins : BeginsTerm before) (unnamed : beginsNaming ":=" before = false)
    (unequal : beginsNaming "=" before = false) (closes : closesArgument after) :
    (Rule.argument inner).Reads before (.positional term) after := by
  have notEquals : after.head? ≠ some (.symbol "=") := by
    rcases closes with first | first <;> rw [first] <;> simp
  have named := reads_isNameBefore "=" before
  rw [unequal] at named
  apply (reads_perhapsSymbol_of_ne (begins.ne (by decide))).bind_false
  apply (reads_perhapsSymbol_of_ne (begins.ne (by decide))).bind_false
  apply named.bind_false
  apply (reads_named taken closes.endsTerm unnamed).bind
  exact (reads_notBefore notEquals).bind (reads_pure _ after)

theorem ReadsRow.argument (reads : ReadsRow inner row value) (closes : closesArgument rest) :
    (Rule.argument inner).Reads (row ++ rest) (.positional value) rest := by
  obtain ⟨⟨tail, rfl⟩, taken⟩ := reads
  exact reads_argument_positional (taken rest closes.endsTerm) (beginsTerm_opening _) rfl rfl
    closes

theorem reads_argument_keyword (id : String) (taken : inner.expression.Reads before term after) :
    (Rule.argument inner).Reads (.name id :: .symbol "=" :: before) (.keyword id term) after := by
  apply (reads_perhapsSymbol_of_ne (by simp)).bind_false
  apply (reads_perhapsSymbol_of_ne (by simp)).bind_false
  apply Reads.bind_true (reads_isNameBefore "=" (.name id :: .symbol "=" :: before))
  apply (reads_name id _).bind
  exact (reads_symbol "=" before).bind (taken.bind (reads_pure _ after))

theorem reads_arguments_nil (clause : Parser LoopClause) (rest : List Token) :
    (Rule.arguments inner clause).Reads (.symbol ")" :: rest) ([], []) rest :=
  (reads_perhapsSymbol ")" rest).bind_true (reads_pure _ rest)

theorem reads_arguments {clause : Parser LoopClause} {arguments : List Rule.Argument}
    {positional : List Term} {keywords : List (Option String × Term)}
    (each : ReadsEach (Rule.argument inner) closesArgument rows arguments) (nonempty : rows ≠ [])
    (opens : ([.symbol ","].intercalate rows ++ .symbol ")" :: rest).head? ≠ some (.symbol ")"))
    (noClause : ∀ tokens, closesArgument tokens → clause.Fails tokens)
    (grouped : Rule.grouped arguments = pure (positional, keywords)) :
    (Rule.arguments inner clause).Reads
      ([.symbol ","].intercalate rows ++ .symbol ")" :: rest) (positional, keywords) rest := by
  have last : closesArgument (.symbol ")" :: rest) := .inr rfl
  have between : ∀ tokens, closesArgument (.symbol "," :: tokens) := fun _ => .inl rfl
  have notComma : (Token.symbol ")" :: rest).head? ≠ some (.symbol ",") := by simp
  cases each with
  | nil => exact absurd rfl nonempty
  | @cons row value rows values readsFirst each =>
      have follows := follows_rows between last rows
      apply (reads_perhapsSymbol_of_ne opens).bind_false
      rw [intercalate_cons, List.append_assoc]
      apply (readsFirst _ follows).bind
      apply (reads_many_of_fails (noClause _ follows)).bind
      split
      · rename_i none
        cases none
      · rename_i none
        cases none
      · apply (ReadsEach.repeats each between last notComma).reads_many.bind
        apply (reads_perhapsSymbol_of_ne notComma).bind
        apply (reads_symbol ")" rest).bind
        rw [grouped]
        exact reads_pure _ rest

theorem reads_trailer_call {positional : List Term} {keywords : List (Option String × Term)}
    (taken : (Rule.arguments inner (Rule.clause inner)).Reads before (positional, keywords) after) :
    (Rule.trailer inner).Reads (.symbol "(" :: before)
      (fun target => .call target positional keywords) after := by
  have notMember : (symbol ".").Fails (.symbol "(" :: before) := fails_token (by simp)
  apply (notMember.bind _).orElse
  apply Parses.orElse
  exact (reads_symbol "(" before).bind (taken.bind (reads_pure _ after))

theorem reads_trailer_member (id : String) (rest : List Token) :
    (Rule.trailer inner).Reads (.symbol "." :: .name id :: rest)
      (fun target => .member target id) rest := by
  apply Parses.orElse
  apply (reads_symbol "." _).bind
  apply (reads_name id rest).bind
  exact reads_pure _ rest

theorem reads_indices (taken : inner.expression.Reads (.symbol "(" :: before) term
      (.symbol "]" :: rest)) (plain : Rule.isStarred term = false) :
    (Rule.indices inner).Reads (.symbol "(" :: before) term (.symbol "]" :: rest) := by
  have index : (Rule.index inner).Reads (.symbol "(" :: before) term (.symbol "]" :: rest) := by
    apply (reads_perhapsSymbol_of_ne (by simp)).bind_false
    apply (reads_perhapsSymbol_of_ne (by simp)).bind_false
    apply Reads.bind_false (reads_isNameBefore ":=" (.symbol "(" :: before))
    apply taken.bind
    apply (reads_perhapsSymbol_of_ne (by simp)).bind_false
    exact (reads_notBefore (by simp)).bind (reads_pure term _)
  apply (reads_commaList_single index (by simp)).bind
  split
  rename_i pair
  obtain ⟨rfl, rfl⟩ := Prod.mk.inj pair
  split
  · rename_i starred _
    rw [List.head_eq_of_cons_eq starred] at plain
    cases plain
  · rename_i single _
    rw [List.head_eq_of_cons_eq single]
    exact reads_pure _ _
  · rename_i other
    exact absurd rfl (other term rfl)

theorem reads_trailer_item (taken : inner.expression.Reads (.symbol "(" :: before) term
      (.symbol "]" :: rest)) (plain : Rule.isStarred term = false) :
    (Rule.trailer inner).Reads (.symbol "[" :: .symbol "(" :: before)
      (fun target => .item target term) rest := by
  have notMember : (symbol ".").Fails (.symbol "[" :: .symbol "(" :: before) :=
    fails_token (by simp)
  have notCall : (symbol "(").Fails (.symbol "[" :: .symbol "(" :: before) :=
    fails_token (by simp)
  apply (notMember.bind _).orElse
  apply (notCall.bind _).orElse
  apply (reads_symbol "[" _).bind
  apply (reads_indices taken plain).bind
  exact (reads_symbol "]" rest).bind (reads_pure _ rest)

end Rows

end Atoms

end TorchArchive.Script
