import TorchArchive.Proofs.Package.Names
import TorchArchive.Proofs.Script.Expressions
import TorchArchive.Proofs.Script.Layout
import TorchArchive.Proofs.Script.Phrases
import TorchArchive.Script.Program

/-!
# Reading written statements

The tokens of a statement are read as phrases that the statement is cut out of again.  A
statement ends in front of another one, in front of the end of its block or at the end of the
text; all that matters is that no second branch stands there.
-/

namespace TorchArchive

open Script
open TorchArchive.Script.Parser

/-! ## Dotted names -/

section Dotted

variable {rest : List Token} {depth : Nat}

/-- The tokens of names with points in between. -/
def dottedTokens (parts : List String) : List Token :=
  [.symbol "."].intercalate (parts.map fun part => [.name part])

theorem tokens_dotted (name : String) :
    (Word.dotted name).map Word.token = dottedTokens (Heap.nameParts name) := by
  rw [Word.dotted, Expr.tokens_separated, List.map_map]
  rfl

theorem dottedTokens_cons (first : String) (parts : List String) :
    dottedTokens (first :: parts) =
      .name first :: parts.flatMap fun part => [.symbol ".", .name part] := by
  rw [dottedTokens, List.map_cons, intercalate_cons, List.flatMap_map]
  rfl

/-- A member of a member, and so on. -/
def chain (first : String) (parts : List String) : Term :=
  parts.foldl .member (.name first)

/-- The first two of several parts may be joined before the others. -/
theorem intercalate_joined (first next : String) (parts : List String) :
    ".".intercalate (first :: next :: parts) =
      ".".intercalate ((first ++ "." ++ next) :: parts) := by
  cases parts with
  | nil => rw [String.intercalate_cons_cons, String.intercalate_singleton,
      String.intercalate_singleton]
  | cons part parts =>
      rw [String.intercalate_cons_cons, String.intercalate_cons_cons,
        String.intercalate_cons_cons]
      simp only [String.append_assoc]

theorem spell_chain (asked : Nat) (first : String) (parts : List String) :
    (chain first parts).spell asked = ".".intercalate (first :: parts) := by
  have members : ∀ (parts : List String) (target : Term) (text : String),
      (∀ asked, target.spell asked = text) →
      (∀ part asked, (target.member part).spell asked = text ++ "." ++ part) →
      (parts.foldl .member target).spell asked = ".".intercalate (text :: parts) := by
    intro parts
    induction parts with
    | nil =>
        intro target text spelled _
        rw [String.intercalate_singleton]
        exact spelled asked
    | cons part parts inductionHypothesis =>
        intro target text _ member
        rw [intercalate_joined]
        apply inductionHypothesis (target.member part) (text ++ "." ++ part) (member part)
        intro next asked
        rw [Term.spell, member part]
        rfl
  apply members parts (.name first) first
  · intro asked
    rw [Term.spell]
  · intro part asked
    rw [Term.spell, Term.spell]
    rfl

theorem reads_chain (first : String) (parts : List String) (ends : EndsTerm rest) :
    (Grammar.upTo (depth + 2)).expression.Reads (dottedTokens (first :: parts) ++ rest)
      (chain first parts) rest := by
  have trailing : Repeats (Rule.trailer (Grammar.upTo depth)) Eq
      (parts.flatMap (fun part => [.symbol ".", .name part]) ++ rest)
      (parts.map fun part target => .member target part) rest := by
    induction parts with
    | nil => exact Repeats.done ends.fails_trailer
    | cons part parts inductionHypothesis =>
        exact Repeats.more (reads_trailer_member part _)
          (Nat.lt_succ_of_lt (Nat.lt_succ_self _)) inductionHypothesis
  have primary := reads_primary (reads_atom_name first _) trailing
  rw [List.foldl_map] at primary
  rw [dottedTokens_cons]
  exact Expr.reads_of_primary primary ⟨_, rfl, rfl⟩ (by simp) ends

end Dotted

/-! ## Bases and imports -/

section Rows

variable {rest : List Token} {depth : Nat}

/-- The term of a class that another class is based on. -/
def baseTerm (name : String) : Term :=
  match Heap.nameParts name with
  | [] => .name name
  | first :: parts => chain first parts

theorem spelling_baseTerm (name : String) : (baseTerm name).spelling = name := by
  have joined := Heap.intercalate_nameParts name
  obtain ⟨first, parts, shape⟩ := List.exists_cons_of_ne_nil (Heap.nameParts_ne_nil name)
  rw [baseTerm, shape, Term.spelling, spell_chain, ← shape]
  exact joined

theorem reads_base (name : String) (closes : closesArgument rest) :
    (Rule.argument (Grammar.upTo (depth + 2))).Reads
      ((Word.dotted name).map Word.token ++ rest) (.positional (baseTerm name)) rest := by
  obtain ⟨first, parts, shape⟩ := List.exists_cons_of_ne_nil (Heap.nameParts_ne_nil name)
  have unnamed : ∀ spelling ∈ [":=", "="],
      beginsNaming spelling (dottedTokens (first :: parts) ++ rest) = false := by
    intro spelling member
    have other : spelling ≠ "." ∧ spelling ≠ "," ∧ spelling ≠ ")" := by
      simp only [List.mem_cons, List.not_mem_nil, or_false] at member
      rcases member with rfl | rfl <;> decide
    rw [dottedTokens_cons]
    cases parts with
    | cons next parts => exact beq_eq_false_iff_ne.mpr other.1.symm
    | nil =>
        cases rest with
        | nil => rfl
        | cons token rest =>
            rcases closes with same | same
            · cases same
              exact beq_eq_false_iff_ne.mpr other.2.1.symm
            · cases same
              exact beq_eq_false_iff_ne.mpr other.2.2.symm
  have begins : BeginsTerm (dottedTokens (first :: parts) ++ rest) := by
    rw [dottedTokens_cons]
    exact ⟨_, rfl, rfl⟩
  rw [tokens_dotted, baseTerm, shape]
  exact reads_argument_positional (reads_chain first parts closes.endsTerm) begins
    (unnamed _ (by simp)) (unnamed _ (by simp)) closes

theorem reads_bases (bases : List String) (nonempty : bases ≠ []) :
    (Rule.arguments (Grammar.upTo (depth + 2)) failure).Reads
      ([.symbol ","].intercalate (bases.map fun base => (Word.dotted base).map Word.token) ++
        .symbol ")" :: rest)
      (bases.map baseTerm, []) rest := by
  have each : ReadsEach (Rule.argument (Grammar.upTo (depth + 2))) closesArgument
      (bases.map fun base => (Word.dotted base).map Word.token)
      ((bases.map baseTerm).map .positional) := by
    rw [List.map_map]
    apply List.forall₂_map_left_iff.mpr
    apply List.forall₂_map_right_iff.mpr
    apply List.forall₂_same.mpr
    exact fun base _ rest closes => reads_base base closes
  have grouped := Expr.grouped_argumentsOf (bases.map baseTerm) []
  rw [Expr.argumentsOf, Expr.keywordTerms, List.filterMap_nil, List.append_nil] at grouped
  refine reads_arguments each (by simpa using nonempty) ?_ (fun _ _ => fails_failure _) grouped
  obtain ⟨base, others, rfl⟩ := List.exists_cons_of_ne_nil nonempty
  obtain ⟨first, parts, shape⟩ := List.exists_cons_of_ne_nil (Heap.nameParts_ne_nil base)
  rw [List.map_cons, intercalate_cons, tokens_dotted, shape, dottedTokens_cons]
  simp

/-- What stands behind an imported package. -/
def endsImport (tokens : List Token) : Prop :=
  tokens.head? ≠ some (.symbol ".") ∧ tokens.head? ≠ some (.keyword "as")

theorem reads_imports (packages : List (String × Option String)) (nonempty : packages ≠ [])
    (rest : List Token) :
    (separated "," Rule.imported).Reads
      ([.symbol ","].intercalate
        (packages.map fun package => (importWords package).map Word.token) ++ .newline :: rest)
      packages (.newline :: rest) := by
  have each : ReadsEach Rule.imported endsImport
      (packages.map fun package => (importWords package).map Word.token) packages := by
    apply List.forall₂_map_left_iff.mpr
    apply List.forall₂_same.mpr
    rintro ⟨package, other⟩ _ rest ends
    have some := Heap.nameParts_ne_nil package
    cases other with
    | none =>
        have reads := reads_imported some ends.1 ends.2
        rw [Heap.intercalate_nameParts] at reads
        rw [importWords, tokens_dotted]
        exact reads
    | some other =>
        have reads := reads_imported_as some other rest
        rw [Heap.intercalate_nameParts] at reads
        rw [importWords, List.map_append, tokens_dotted, List.append_assoc]
        exact reads
  exact ReadsEach.separated each (by simpa using nonempty)
    (fun rest => ⟨by simp, by simp⟩) ⟨by simp, by simp⟩ (by simp)

end Rows

/-! ## Cutting statements out -/

theorem statementsOf_single {phrase : Phrase} {statement : Stmt}
    (same : statementOf phrase = .ok statement) : statementsOf [phrase] = .ok [statement] := by
  rw [statementsOf, same]
  rfl

theorem statementsOf_append {front back : List Phrase} {statements others : List Stmt}
    (same : statementsOf front = .ok statements) (sameToo : statementsOf back = .ok others) :
    statementsOf (front ++ back) = .ok (statements ++ others) := by
  induction front generalizing statements with
  | nil =>
      cases same
      exact sameToo
  | cons phrase front inductionHypothesis =>
      rw [statementsOf] at same
      cases found : statementOf phrase with
      | error fault =>
          rw [found] at same
          cases same
      | ok statement =>
          cases further : statementsOf front with
          | error fault =>
              rw [found, further] at same
              cases same
          | ok rest =>
              rw [found, further] at same
              cases same
              rw [List.cons_append, statementsOf, found, inductionHypothesis further]
              rfl

/-- The phrases that statements are read as, one group for each of them. -/
theorem statementsOf_flatten {found : List (List Phrase)} {statements : List Stmt}
    (each : List.Forall₂ (fun phrases statement => statementsOf phrases = .ok [statement]) found
      statements) :
    statementsOf found.flatten = .ok statements := by
  induction each with
  | nil => rfl
  | cons same each inductionHypothesis => exact statementsOf_append same inductionHypothesis

namespace Expr

mutual

theorem isTarget_term (e : Expr) (assignable : e.isAssignable = true) :
    e.term.isTarget = true := by
  match e with
  | .identifier _ | .member _ _ | .item _ _ => rfl
  | .tuple items => exact areTargets_termsOf items assignable

theorem areTargets_termsOf (items : List Expr) (assignable : areAssignable items = true) :
    Term.areTargets (termsOf items) = true := by
  match items with
  | [] => rfl
  | first :: others =>
      rw [areAssignable, Bool.and_eq_true] at assignable
      rw [termsOf, Term.areTargets, isTarget_term first assignable.1,
        areTargets_termsOf others assignable.2]
      rfl

end

end Expr

namespace Stmt

/-! ## Tokens of written statements -/

/-- The tokens of a statement. -/
def tokens (statement : Stmt) : List Token := Outline.tokensOfAll statement.outlines

def tokensOf (statements : List Stmt) : List Token := Outline.tokensOfAll (outlinesOf statements)

theorem tokensOfAll_append (front back : List Outline) :
    Outline.tokensOfAll (front ++ back) =
      Outline.tokensOfAll front ++ Outline.tokensOfAll back := by
  induction front with
  | nil => rfl
  | cons first front inductionHypothesis =>
      rw [List.cons_append, Outline.tokensOfAll, Outline.tokensOfAll, inductionHypothesis,
        List.append_assoc]

theorem tokensOf_cons (first : Stmt) (others : List Stmt) :
    tokensOf (first :: others) = first.tokens ++ tokensOf others :=
  tokensOfAll_append _ _

theorem tokens_line (line : List Word) :
    Outline.tokensOfAll [.entry line []] = line.map Word.token ++ [.newline] := by
  simp only [Outline.tokensOfAll, Outline.tokens, Outline.block, List.append_nil]

/-- The words that the second branch of a conditional statement begins with. -/
def continues (token : Token) : Bool := token = .keyword "else" || token = .keyword "elif"

theorem continues_opener {token : Token} (opens : isOpener token = true) :
    continues token = false := by
  rw [continues, Bool.or_eq_false_iff, decide_eq_false_iff_not, decide_eq_false_iff_not]
  constructor
  · rintro rfl
    exact absurd opens (by decide)
  · rintro rfl
    exact absurd opens (by decide)

/-- No statement begins as a second branch does. -/
theorem tokens_cases {statement : Stmt} (writable : statement.isWritable = true) :
    ∃ first others, statement.tokens = first :: others ∧ continues first = false := by
  match statement, writable with
  | .pass, _ => exact ⟨_, _, rfl, by decide⟩
  | .returns _, _ => exact ⟨_, _, rfl, by decide⟩
  | .functionDef _ _ _, _ => exact ⟨_, _, rfl, by decide⟩
  | .classDef _ _ _, _ => exact ⟨_, _, rfl, by decide⟩
  | .declare _, _ => exact ⟨_, _, rfl, rfl⟩
  | .branch _ _ _, _ => exact ⟨_, _, rfl, by decide⟩
  | .call (.call _ _ _), _ => exact ⟨_, _, rfl, by decide⟩
  | .imports _, _ => exact ⟨_, _, rfl, by decide⟩
  | .assign target value, writable =>
      simp only [isWritable, Bool.and_eq_true] at writable
      have begins := Expr.beginsTerm_tokens writable.1.2
        ((Word.mark .equals :: value.words).map Word.token ++ [.newline])
      have shape : (assign target value).tokens =
          target.tokens ++ ((Word.mark .equals :: value.words).map Word.token ++ [.newline]) := by
        rw [tokens, outlines, tokens_line, List.map_append, List.append_assoc]
        rfl
      rw [shape]
      obtain ⟨token, opens, first⟩ := begins
      obtain ⟨others, same⟩ := List.head?_eq_some_iff.mp first
      exact ⟨token, others, same, continues_opener opens⟩

/-- What can stand behind a statement. -/
def Ends (rest : List Token) : Prop := ∀ token, rest.head? = some token → continues token = false

theorem Ends.ne {rest : List Token} (ends : Ends rest) {token : Token}
    (other : continues token = true) : rest.head? ≠ some token := by
  intro first
  rw [ends token first] at other
  cases other

theorem barren_dedent (rest : List Token) : Barren (.dedent :: rest) := by
  rintro token ⟨rfl⟩
  decide

theorem ends_of_barren {rest : List Token} (barren : Barren rest) : Ends rest := by
  intro token first
  have member := barren token first
  simp only [blockers, List.mem_cons, List.not_mem_nil, or_false] at member
  rcases member with rfl | rfl | rfl <;> rfl

theorem ends_tokensOf {statements : List Stmt} (writable : areWritable statements = true)
    {rest : List Token} (ends : Ends rest) : Ends (tokensOf statements ++ rest) := by
  cases statements with
  | nil => exact ends
  | cons first others =>
      rw [areWritable, Bool.and_eq_true] at writable
      obtain ⟨token, tokens, shape, apart⟩ := tokens_cases writable.1
      rw [tokensOf_cons, shape]
      rintro _ ⟨rfl⟩
      exact apart

theorem block_tokensOf {statements : List Stmt} (writable : areWritable statements = true)
    (nonempty : statements.isEmpty = false) :
    Outline.block (Outline.tokensOfAll (outlinesOf statements)) =
      .indent :: (tokensOf statements ++ [.dedent]) := by
  cases statements with
  | nil => cases nonempty
  | cons first others =>
      rw [areWritable, Bool.and_eq_true] at writable
      obtain ⟨token, tokens, shape, _⟩ := tokens_cases writable.1
      change Outline.block (tokensOf (first :: others)) = _
      rw [tokensOf_cons, shape]
      rfl

/-- The tokens of a line with a block below it. -/
theorem tokens_block (line : List Word) {statements : List Stmt}
    (writable : areWritable statements = true) (nonempty : statements.isEmpty = false)
    (rest : List Token) :
    Outline.tokensOfAll [.entry (line ++ [.mark .colon]) (outlinesOf statements)] ++ rest =
      line.map Word.token ++
        .symbol ":" :: .newline :: .indent :: (tokensOf statements ++ .dedent :: rest) := by
  simp only [Outline.tokensOfAll, Outline.tokens, block_tokensOf writable nonempty]
  simp [Word.token, Mark.spelling]

/-! ## Reading statements -/

section Lines

variable {inner : Grammar} {before rest : List Token} {depth : Nat}

/-- A line that no statement over several lines begins with. -/
theorem parses_keyword_line {word : String} {phrase : Phrase} {statement : Stmt}
    (plain : word ∉ headWords)
    (taken : (Rule.simple inner).Reads (.keyword word :: before) phrase (.newline :: rest))
    (same : statementOf phrase = .ok statement) :
    (Rule.statement inner).Parses (.keyword word :: before)
      (fun phrases => statementsOf phrases = .ok [statement]) rest := by
  have compound : (Rule.compound inner).Fails (.keyword word :: before) := by
    refine fails_compound ?_ (by simp) (fails_distinction_of_ne (by simp))
    rintro head member ⟨rfl⟩
    exact plain member
  apply (parses_statement_line compound taken).imp
  rintro _ ⟨_, rfl, rfl⟩
  exact statementsOf_single same

theorem parses_assignment_line {result : Phrase → Prop} {statement : Stmt}
    (begins : BeginsTerm before)
    (barren : ∀ id others, before = .name id :: others → Barren others)
    (taken : (Rule.assignment (Grammar.upTo depth)).Parses before result (.newline :: rest))
    (same : ∀ phrase, result phrase → statementOf phrase = .ok statement) :
    (Rule.statement (Grammar.upTo depth)).Parses before
      (fun phrases => statementsOf phrases = .ok [statement]) rest := by
  have distinction : (Rule.distinction (Grammar.upTo depth)).Fails before := by
    obtain ⟨token, _, first⟩ := begins
    obtain ⟨others, shape⟩ := List.head?_eq_some_iff.mp first
    cases token with
    | name id =>
        rw [shape]
        exact (barren id others shape).fails_distinction id depth
    | _ => exact fails_distinction_of_ne (by simp [first])
  have compound : (Rule.compound (Grammar.upTo depth)).Fails before := by
    refine fails_compound ?_ (begins.ne (by decide)) distinction
    have heads : ∀ word ∈ headWords, isOpener (.keyword word) = false := by decide
    exact fun word member => begins.ne (heads word member)
  apply (parses_statement_line compound (parses_simple_assignment begins taken)).imp
  rintro _ ⟨phrase, holds, rfl⟩
  exact statementsOf_single (same phrase holds)

end Lines

/-! ### The forms of statements -/

section Forms

variable {depth : Nat} {rest : List Token}

/-- The phrases that a statement is cut out of. -/
abbrev PhrasesOf (statement : Stmt) (phrases : List Phrase) : Prop :=
  statementsOf phrases = .ok [statement]

theorem parses_returns {result : Expr} (writable : result.isWritable = true)
    (deep : 2 * result.brackets + 3 ≤ depth) :
    (Rule.statement (Grammar.upTo depth)).Parses ((returns result).tokens ++ rest)
      (PhrasesOf (returns result)) rest := by
  have taken := result.reads_tokens writable depth deep (.newline :: rest) ⟨_, by decide, rfl⟩
  have shape : (returns result).tokens ++ rest =
      .keyword "return" :: (result.tokens ++ .newline :: rest) := by
    rw [tokens, outlines, tokens_line, List.append_assoc]
    rfl
  rw [shape]
  apply parses_keyword_line (by decide)
    (reads_simple_return taken (Expr.beginsTerm_tokens writable _))
  rw [statementOf, Expr.expressionOf_term result writable]
  rfl

theorem parses_declare (name : String) (deep : 3 ≤ depth) :
    (Rule.statement (Grammar.upTo depth)).Parses ((declare name).tokens ++ rest)
      (PhrasesOf (declare name)) rest := by
  obtain ⟨less, rfl⟩ : ∃ less, depth = less + 2 := ⟨depth - 2, by omega⟩
  have reads (id : String) {after : List Token} (ends : EndsTerm after) :
      (Grammar.upTo (less + 2)).expression.Reads (.name id :: after) (.name id) after :=
    Expr.reads_of_atom (reads_atom_name id after) ⟨_, rfl, rfl⟩ (by simp) ends
  have note : (Grammar.upTo (less + 2)).expression.Reads
      (.name "Tensor" :: .newline :: rest) (.name "Tensor") (.newline :: rest) :=
    reads "Tensor" ⟨_, by decide, rfl⟩
  have taken := reads_declaration name note (reads name ⟨_, by decide, rfl⟩)
  refine parses_assignment_line ⟨_, rfl, rfl⟩ ?_ taken ?_
  · rintro id others ⟨rfl, rfl⟩ token ⟨rfl⟩
    decide
  · rintro _ rfl
    rfl

theorem parses_assign {target value : Expr} (assignable : target.isAssignable = true)
    (writable : target.isWritable = true) (writableValue : value.isWritable = true)
    (deep : 2 * target.brackets + 3 ≤ depth) (deepValue : 2 * value.brackets + 3 ≤ depth) :
    (Rule.statement (Grammar.upTo depth)).Parses ((assign target value).tokens ++ rest)
      (PhrasesOf (assign target value)) rest := by
  have shape : (assign target value).tokens ++ rest =
      target.tokens ++ .symbol "=" :: (value.tokens ++ .newline :: rest) := by
    rw [tokens, outlines, tokens_line, List.map_append, List.append_assoc, List.append_assoc]
    rfl
  have takenValue := value.reads_tokens writableValue depth deepValue (.newline :: rest)
    ⟨_, by decide, rfl⟩
  have taken := reads_assignment
    (target.reads_tokens writable depth deep _ ⟨_, by decide, rfl⟩)
    (Expr.beginsTerm_tokens writable _) (target.isTarget_term assignable) takenValue
    (Expr.beginsTerm_tokens writableValue _)
  rw [shape]
  refine parses_assignment_line (Expr.beginsTerm_tokens writable _) ?_ taken ?_
  · intro id others same
    rcases Expr.tokens_cases writable with ⟨name, alone⟩ | ⟨first, more, several, _, unnamed⟩
    · rw [alone] at same
      obtain ⟨_, rfl⟩ := List.cons.inj same
      rintro token ⟨rfl⟩
      decide
    · rw [several] at same
      exact absurd (List.cons.inj same).1 (unnamed id)
  · rintro _ rfl
    rw [statementOf, statementOf.assignmentOf, Expr.expressionOf_term target writable,
      Expr.expressionOf_term value writableValue]
    rfl

theorem parses_call {callee : Expr} {arguments : List Expr} {keywords : List (String × Expr)}
    (writable : (Expr.call callee arguments keywords).isWritable = true)
    (deep : 2 * (Expr.call callee arguments keywords).brackets + 3 ≤ depth) :
    (Rule.statement (Grammar.upTo depth)).Parses
      ((call (.call callee arguments keywords)).tokens ++ rest)
      (PhrasesOf (call (.call callee arguments keywords))) rest := by
  have taken := Expr.reads_tokens _ writable depth deep (.newline :: rest) ⟨_, by decide, rfl⟩
  have shape : (call (.call callee arguments keywords)).tokens ++ rest =
      (Expr.call callee arguments keywords).tokens ++ .newline :: rest := by
    rw [tokens, outlines, tokens_line, List.append_assoc]
    rfl
  have begins := Expr.beginsTerm_tokens writable (.newline :: rest)
  rw [shape]
  refine parses_assignment_line begins ?_ (parses_expression_line taken begins) ?_
  · rintro id others ⟨⟩
  · rintro _ ⟨line, rfl⟩
    have same := Expr.expressionOf_term _ writable
    rw [Expr.term] at same ⊢
    rw [statementOf, standalone, same]
    rfl

theorem parses_imports {packages : List (String × Option String)}
    (nonempty : packages.isEmpty = false) :
    (Rule.statement (Grammar.upTo depth)).Parses ((imports packages).tokens ++ rest)
      (PhrasesOf (imports packages)) rest := by
  have shape : (imports packages).tokens ++ rest =
      .keyword "import" ::
        ([.symbol ","].intercalate
          (packages.map fun package => (importWords package).map Word.token) ++
            .newline :: rest) := by
    rw [tokens, outlines, tokens_line, List.map_cons, Expr.tokens_separated, List.map_map,
      List.append_assoc]
    rfl
  have some : packages ≠ [] := by
    rintro rfl
    cases nonempty
  rw [shape]
  exact parses_keyword_line (by decide) (reads_simple_import (reads_imports packages some rest))
    rfl

variable {body : List Stmt}

/-- Statements of a block are read one after the other, up to the end of the block. -/
abbrev ReadsBody (depth : Nat) (body : List Stmt) : Prop :=
  ∀ rest, Repeats (Grammar.upTo depth).statement (fun phrases statement =>
    PhrasesOf statement phrases) (tokensOf body ++ .dedent :: rest) body (.dedent :: rest)

theorem parses_body (nonempty : body.isEmpty = false) (repeats : ReadsBody depth body)
    (rest : List Token) :
    (Rule.block (Grammar.upTo depth)).Parses
      (.symbol ":" :: .newline :: .indent :: (tokensOf body ++ .dedent :: rest))
      (fun phrases => statementsOf phrases = .ok body) rest := by
  cases body with
  | nil => cases nonempty
  | cons first others =>
      apply (parses_block (repeats rest)).imp
      rintro _ ⟨phrases, each, rfl⟩
      exact statementsOf_flatten each

theorem parses_function (name : String) (parameters : List String)
    (writable : areWritable body = true) (nonempty : body.isEmpty = false)
    (repeats : ReadsBody depth body) :
    (Rule.statement (Grammar.upTo depth)).Parses
      ((functionDef name parameters body).tokens ++ rest)
      (PhrasesOf (functionDef name parameters body)) rest := by
  have header : (Word.enclosed (Word.separated (.mark .comma)
        (parameters.map fun parameter => [Word.name parameter]))).map Word.token =
      .symbol "(" :: ([.symbol ","].intercalate (parameters.map fun name => [.name name]) ++
        [.symbol ")"]) := by
    rw [Expr.tokens_enclosed, Expr.tokens_separated, List.map_map]
    rfl
  have shape := tokens_block
    (.keyword "def" :: .name name :: Word.enclosed (Word.separated (.mark .comma)
      (parameters.map fun parameter => [Word.name parameter]))) writable nonempty rest
  simp only [List.map_cons, header, List.cons_append, List.append_assoc, List.nil_append] at shape
  have taken := parses_functionDef name parameters (parses_body nonempty repeats rest)
  rw [tokens, outlines, shape]
  refine (parses_statement_block (by simp) taken).imp ?_
  rintro _ ⟨_, ⟨phrases, same, rfl⟩, rfl⟩
  apply statementsOf_single
  rw [statementOf, same]
  rfl

theorem parses_class (name : String) (bases : List String)
    (writable : areWritable body = true) (nonempty : body.isEmpty = false)
    (repeats : ReadsBody (depth + 2) body) :
    (Rule.statement (Grammar.upTo (depth + 2))).Parses ((classDef name bases body).tokens ++ rest)
      (PhrasesOf (classDef name bases body)) rest := by
  have block := parses_body nonempty repeats rest
  have shape := tokens_block (.keyword "class" :: .name name :: baseWords bases) writable nonempty
    rest
  have cut : ∀ phrases, statementsOf phrases = .ok body →
      statementsOf [.classDef name (bases.map baseTerm) phrases] =
        .ok [classDef name bases body] := by
    intro phrases same
    have spelled : (bases.map baseTerm).map Term.spelling = bases := by
      rw [List.map_map]
      exact List.map_id'' spelling_baseTerm bases
    apply statementsOf_single
    rw [statementOf, same, spelled]
    rfl
  rw [tokens, outlines]
  cases bases with
  | nil =>
      refine shape ▸ (parses_statement_block (by simp) (parses_classDef name block)).imp ?_
      rintro _ ⟨_, ⟨phrases, same, rfl⟩, rfl⟩
      exact cut phrases same
  | cons base others =>
      have header : (baseWords (base :: others)).map Word.token =
          .symbol "(" :: ([.symbol ","].intercalate
            ((base :: others).map fun base => (Word.dotted base).map Word.token) ++
              [.symbol ")"]) := by
        rw [baseWords, Expr.tokens_enclosed, Expr.tokens_separated, List.map_map]
        · rfl
        · exact List.cons_ne_nil _ _
      simp only [List.map_cons, header, List.cons_append, List.append_assoc,
        List.nil_append] at shape
      have taken := parses_classDef_bases name (reads_bases (base :: others) (List.cons_ne_nil _ _))
        block
      refine shape ▸ (parses_statement_block (by simp) taken).imp ?_
      rintro _ ⟨_, ⟨phrases, same, rfl⟩, rfl⟩
      exact cut phrases same

/-- What stands behind the first branch of a conditional statement. -/
def otherTokens (other : List Stmt) : List Token :=
  Outline.tokensOfAll (otherwise (outlinesOf other))

theorem otherTokens_cons {first : Stmt} {others : List Stmt}
    (writable : areWritable (first :: others) = true) (rest : List Token) :
    otherTokens (first :: others) ++ rest =
      .keyword "else" :: .symbol ":" :: .newline :: .indent ::
        (tokensOf (first :: others) ++ .dedent :: rest) := by
  have shape := tokens_block [.keyword "else"] writable rfl rest
  have some : outlinesOf (first :: others) ≠ [] := by
    intro none
    have block := block_tokensOf writable rfl
    rw [none] at block
    cases block
  rw [otherTokens]
  cases outlined : outlinesOf (first :: others) with
  | nil => exact absurd outlined some
  | cons outline more =>
      rw [outlined] at shape
      exact shape

theorem parses_otherTokens {other : List Stmt} (writable : areWritable other = true)
    (repeats : ReadsBody depth other) (ends : Ends rest) :
    (Rule.otherwise (Grammar.upTo depth)).Parses (otherTokens other ++ rest)
      (fun phrases => statementsOf phrases = .ok other) rest := by
  cases other with
  | nil =>
      apply (reads_otherwise_none (ends.ne (by decide))).imp
      rintro _ rfl
      rfl
  | cons first others =>
      rw [otherTokens_cons writable]
      exact parses_otherwise (parses_body rfl repeats rest)

theorem otherTokens_ne_elif {other : List Stmt} (writable : areWritable other = true)
    (ends : Ends rest) : (otherTokens other ++ rest).head? ≠ some (.keyword "elif") := by
  cases other with
  | nil => exact ends.ne (by decide)
  | cons first others =>
      rw [otherTokens_cons writable]
      simp

theorem parses_conditional {condition : Expr} {other : List Stmt}
    (writableCondition : condition.isWritable = true) (deep : 2 * condition.brackets + 3 ≤ depth)
    (writable : areWritable body = true) (nonempty : body.isEmpty = false)
    (writableOther : areWritable other = true) (repeats : ReadsBody depth body)
    (repeatsOther : ReadsBody depth other) (ends : Ends rest) :
    (Rule.statement (Grammar.upTo depth)).Parses ((branch condition body other).tokens ++ rest)
      (PhrasesOf (branch condition body other)) rest := by
  have block := parses_body nonempty repeats (otherTokens other ++ rest)
  have colon (between : List Token) : EndsTerm (.symbol ":" :: between) := ⟨_, by decide, rfl⟩
  have named := reads_named
    (condition.reads_tokens writableCondition depth deep _ (colon (.newline :: .indent ::
      (tokensOf body ++ .dedent :: (otherTokens other ++ rest)))))
    (colon _) (Expr.beginsNaming_tokens writableCondition (colon _))
  have taken := parses_branch named (Expr.beginsTerm_tokens writableCondition _) block
    (otherTokens_ne_elif writableOther ends) (parses_otherTokens writableOther repeatsOther ends)
  have shape : (branch condition body other).tokens ++ rest =
      .keyword "if" :: (condition.tokens ++ .symbol ":" :: .newline :: .indent ::
        (tokensOf body ++ .dedent :: (otherTokens other ++ rest))) := by
    have header := tokens_block (.keyword "if" :: condition.words) writable nonempty
      (otherTokens other ++ rest)
    rw [tokens, outlines, ← List.singleton_append, tokensOfAll_append, List.append_assoc]
    exact header
  rw [shape]
  refine (parses_statement_block (by simp) taken).imp ?_
  rintro _ ⟨_, ⟨phrases, others, same, sameOther, rfl⟩, rfl⟩
  apply statementsOf_single
  rw [statementOf, Expr.expressionOf_term condition writableCondition, same, sameOther]
  rfl

end Forms

mutual

/-- A statement is read as phrases that it is cut out of again. -/
theorem parses_tokens (statement : Stmt) (writable : statement.isWritable = true) (depth : Nat)
    (deep : 2 * statement.brackets + statement.blocks + 4 ≤ depth) (rest : List Token)
    (ends : Ends rest) :
    (Grammar.upTo depth).statement.Parses (statement.tokens ++ rest) (PhrasesOf statement)
      rest := by
  obtain ⟨less, rfl⟩ : ∃ less, depth = less + 1 := ⟨depth - 1, by omega⟩
  change (Rule.statement (Grammar.upTo less)).Parses _ _ rest
  match statement, writable with
  | .pass, _ => exact parses_keyword_line (by decide) (reads_simple_pass (.newline :: rest)) rfl
  | .returns result, writable =>
      simp only [brackets, blocks] at deep
      exact parses_returns writable (by omega)
  | .declare name, _ => exact parses_declare name (by omega)
  | .assign target value, writable =>
      simp only [isWritable, Bool.and_eq_true] at writable
      simp only [brackets, blocks] at deep
      exact parses_assign writable.1.1 writable.1.2 writable.2 (by omega) (by omega)
  | .call (.call callee arguments keywords), writable =>
      simp only [brackets, blocks] at deep
      exact parses_call writable (by omega)
  | .imports packages, writable =>
      simp only [isWritable, Bool.and_eq_true, Bool.not_eq_true'] at writable
      exact parses_imports writable.1
  | .functionDef name parameters body, writable =>
      simp only [isWritable, Bool.and_eq_true, Bool.not_eq_true'] at writable
      simp only [brackets, blocks] at deep
      have repeats : ReadsBody less body := fun rest =>
        repeats_tokensOf body writable.2 less (by omega) (.dedent :: rest) (barren_dedent rest)
      exact parses_function name parameters writable.2 writable.1.2 repeats
  | .classDef name bases body, writable =>
      simp only [isWritable, Bool.and_eq_true, Bool.not_eq_true'] at writable
      simp only [brackets, blocks] at deep
      obtain ⟨fewer, rfl⟩ : ∃ fewer, less = fewer + 2 := ⟨less - 2, by omega⟩
      have repeats : ReadsBody (fewer + 2) body := fun rest =>
        repeats_tokensOf body writable.2 (fewer + 2) (by omega) (.dedent :: rest)
          (barren_dedent rest)
      exact parses_class name bases writable.2 writable.1.2 repeats
  | .branch condition taken other, writable =>
      simp only [isWritable, Bool.and_eq_true, Bool.not_eq_true'] at writable
      simp only [brackets, blocks] at deep
      have repeats : ReadsBody less taken := fun rest =>
        repeats_tokensOf taken writable.1.2 less (by omega) (.dedent :: rest) (barren_dedent rest)
      have repeatsOther : ReadsBody less other := fun rest =>
        repeats_tokensOf other writable.2 less (by omega) (.dedent :: rest) (barren_dedent rest)
      exact parses_conditional writable.1.1.1 (by omega) writable.1.2 writable.1.1.2 writable.2
        repeats repeatsOther ends

theorem repeats_tokensOf (statements : List Stmt) (writable : areWritable statements = true)
    (depth : Nat) (deep : 2 * bracketsOf statements + blocksOf statements + 4 ≤ depth)
    (rest : List Token) (barren : Barren rest) :
    Repeats (Grammar.upTo depth).statement (fun phrases statement => PhrasesOf statement phrases)
      (tokensOf statements ++ rest) statements rest := by
  match statements with
  | [] => exact Repeats.done (barren.fails_statement depth)
  | first :: others =>
      rw [areWritable, Bool.and_eq_true] at writable
      rw [bracketsOf, blocksOf] at deep
      have tail := repeats_tokensOf others writable.2 depth (by omega) rest barren
      have head := parses_tokens first writable.1 depth (by omega) (tokensOf others ++ rest)
        (ends_tokensOf writable.2 (ends_of_barren barren))
      obtain ⟨token, tokens, shape, _⟩ := tokens_cases writable.1
      rw [tokensOf_cons, List.append_assoc]
      refine Repeats.more head ?_ tail
      simp only [shape, List.length_cons, List.length_append]
      omega

end

end Stmt

end TorchArchive
