import TorchArchive.Proofs.Script.Fitting
import TorchArchive.Proofs.Script.Statements

/-!
# Reading what was written

The text of a program is read as the program.  The grammar is opened to a depth that grows
with the length of the text, so the brackets and the blocks of a program have to be counted
against the characters that they are written with.
-/

namespace TorchArchive

open Script
open TorchArchive.Script.Parser

/-! ## Widths -/

/-- The number of characters of words, not counting the blanks in between. -/
def Script.Word.width (words : List Word) : Nat := (words.flatMap Word.chars).length

section Width

variable {word : Word} {words front back : List Word} {rows : List (List Word)}

theorem width_cons : Word.width (word :: words) = word.chars.length + Word.width words := by
  rw [Word.width, List.flatMap_cons, List.length_append]
  rfl

theorem width_append : Word.width (front ++ back) = Word.width front + Word.width back := by
  rw [Word.width, List.flatMap_append, List.length_append]
  rfl

theorem width_enclosed : Word.width (Word.enclosed words) = Word.width words + 2 := by
  rw [Word.enclosed, width_cons, width_append]
  change 1 + (Word.width words + 1) = _
  omega

/-- Rows do not get shorter when something is put between them. -/
theorem width_flatten_le (separator : Word) (rows : List (List Word)) :
    Word.width rows.flatten ≤ Word.width (Word.separated separator rows) := by
  rw [Word.separated, List.intercalate]
  induction rows with
  | nil => exact Nat.le_refl _
  | cons first rows inductionHypothesis =>
      cases rows with
      | nil => exact Nat.le_refl _
      | cons next rows =>
          simp only [List.intersperse_cons_cons, List.flatten_cons, width_append]
            at inductionHypothesis ⊢
          omega

theorem width_le_line (words : List Word) : Word.width words ≤ (Word.line words).length := by
  induction words with
  | nil => exact Nat.le_refl _
  | cons first words inductionHypothesis =>
      cases words with
      | nil =>
          rw [width_cons]
          exact Nat.le_refl _
      | cons next words =>
          rw [width_cons, Word.line, List.length_append, List.length_append]
          omega

end Width

/-! ## Brackets and blocks of a text -/

namespace Expr

theorem width_tupleWords (rows : List (List Word)) :
    Word.width rows.flatten ≤ Word.width (tupleWords rows) := by
  match rows with
  | [] => exact Nat.le_refl _
  | [single] =>
      rw [tupleWords, width_append, List.flatten_singleton]
      exact Nat.le_add_right _ _
  | _ :: _ :: _ => exact width_flatten_le _ _

mutual

/-- Every bracket of an expression is a character of its text. -/
theorem brackets_le_width (e : Expr) : e.brackets ≤ Word.width e.words := by
  match e with
  | .literal _ | .identifier _ | .blank => exact Nat.zero_le _
  | .list items =>
      have inside := bracketsOf_le_width items
      have whole := width_flatten_le (.mark .comma) (rowsOf items)
      rw [brackets, words, width_cons, width_append, width_cons]
      change _ ≤ 1 + (_ + (1 + _))
      omega
  | .tuple items =>
      have inside := bracketsOf_le_width items
      have whole := width_tupleWords (rowsOf items)
      rw [brackets, words, width_enclosed]
      omega
  | .member target name =>
      have inside := brackets_le_width target
      rw [brackets, words, width_append, width_enclosed]
      omega
  | .item target index =>
      have inside := brackets_le_width target
      have insideIndex := brackets_le_width index
      rw [brackets, words, width_append, width_cons, width_append, width_enclosed, width_enclosed]
      omega
  | .call callee arguments keywords =>
      have inside := brackets_le_width callee
      have insideArguments := bracketsOf_le_width arguments
      have insideKeywords := bracketsOfKeywords_le_width keywords
      have whole := width_flatten_le (.mark .comma) (rowsOf arguments ++ keywordRows keywords)
      rw [List.flatten_append, width_append] at whole
      rw [brackets, words, width_append, width_enclosed, width_enclosed]
      omega

theorem bracketsOf_le_width (items : List Expr) :
    bracketsOf items ≤ Word.width (rowsOf items).flatten := by
  match items with
  | [] => exact Nat.zero_le _
  | first :: others =>
      have head := brackets_le_width first
      have tail := bracketsOf_le_width others
      rw [bracketsOf, rowsOf, List.flatten_cons, width_append, width_enclosed]
      omega

theorem bracketsOfKeywords_le_width (keywords : List (String × Expr)) :
    bracketsOfKeywords keywords ≤ Word.width (keywordRows keywords).flatten := by
  match keywords with
  | [] => exact Nat.zero_le _
  | (name, value) :: others =>
      have head := brackets_le_width value
      have tail := bracketsOfKeywords_le_width others
      rw [bracketsOfKeywords, keywordRows, List.flatten_cons, width_append, width_cons, width_cons,
        width_enclosed]
      omega

end

end Expr

namespace Stmt

/-- The number of characters that outlines are written with. -/
def charCount (level : Nat) (outlines : List Outline) : Nat :=
  (Outline.charsOfAll level outlines).length

theorem charCount_cons (level : Nat) (line : List Word) (below others : List Outline) :
    Word.width line + charCount (level + 1) below + 1 + charCount level others ≤
      charCount level (.entry line below :: others) := by
  have whole := width_le_line line
  rw [charCount, charCount, charCount, Outline.charsOfAll, Outline.chars]
  simp only [List.length_append, List.length_cons]
  omega

theorem charCount_append (level : Nat) (front back : List Outline) :
    charCount level (front ++ back) = charCount level front + charCount level back := by
  induction front with
  | nil => exact (Nat.zero_add _).symm
  | cons first front inductionHypothesis =>
      simp only [charCount, List.cons_append, Outline.charsOfAll, List.length_append]
        at inductionHypothesis ⊢
      omega

theorem charCount_otherwise (level : Nat) (below : List Outline) :
    charCount (level + 1) below ≤ charCount level (otherwise below) := by
  cases below with
  | nil => exact Nat.zero_le _
  | cons first others =>
      have whole := charCount_cons level [.keyword "else", .mark .colon] (first :: others) []
      change _ ≤ charCount level [.entry [.keyword "else", .mark .colon] (first :: others)]
      omega

mutual

/-- A statement is written with as many characters as it has brackets or blocks inside of each
other. -/
theorem nesting_le_charCount (statement : Stmt) (level : Nat) :
    max statement.brackets statement.blocks ≤ charCount level statement.outlines := by
  match statement with
  | .pass | .declare _ | .imports _ | .blank => exact Nat.zero_le _
  | .returns result =>
      have line := charCount_cons level (.keyword "return" :: result.words) [] []
      have inside := result.brackets_le_width
      simp only [brackets, blocks, outlines, width_cons] at line ⊢
      omega
  | .call made =>
      have line := charCount_cons level made.words [] []
      have inside := made.brackets_le_width
      simp only [brackets, blocks, outlines] at line ⊢
      omega
  | .assign target value =>
      have line := charCount_cons level (target.words ++ .mark .equals :: value.words) [] []
      have inside := target.brackets_le_width
      have insideValue := value.brackets_le_width
      simp only [brackets, blocks, outlines, width_append, width_cons] at line ⊢
      omega
  | .functionDef name parameters body =>
      have inside := nesting_le_charCountOf body (level + 1)
      simp only [brackets, blocks, outlines]
      refine Nat.le_trans ?_ (charCount_cons level _ _ [])
      omega
  | .classDef name bases body =>
      have inside := nesting_le_charCountOf body (level + 1)
      simp only [brackets, blocks, outlines]
      refine Nat.le_trans ?_ (charCount_cons level _ _ [])
      omega
  | .branch condition taken other =>
      have inside := nesting_le_charCountOf taken (level + 1)
      have insideOther := nesting_le_charCountOf other (level + 1)
      have second := charCount_otherwise level (outlinesOf other)
      have insideCondition := condition.brackets_le_width
      simp only [brackets, blocks, outlines]
      refine Nat.le_trans ?_ (charCount_cons level _ _ _)
      rw [width_cons, width_append]
      omega

theorem nesting_le_charCountOf (statements : List Stmt) (level : Nat) :
    max (bracketsOf statements) (blocksOf statements) ≤
      charCount level (outlinesOf statements) := by
  match statements with
  | [] => exact Nat.zero_le _
  | first :: others =>
      have head := nesting_le_charCount first level
      have tail := nesting_le_charCountOf others level
      rw [bracketsOf, blocksOf, outlinesOf, charCount_append]
      omega

end

end Stmt

/-! ## Programs -/

theorem deep_enough {program : Program} (writable : program.IsWritable) :
    2 * Stmt.bracketsOf program.body + Stmt.blocksOf program.body + 4 ≤
      Grammar.depthOf program.text.length := by
  have few := writable.brackets
  have shallow := writable.blocks
  have written := Stmt.nesting_le_charCountOf program.body 0
  have length : program.text.length = Stmt.charCount 0 (Stmt.outlinesOf program.body) :=
    String.length_ofList
  rw [LexerState.bracketLimit] at few
  rw [LexerState.indentationLimit] at shallow
  rw [length, Grammar.depthOf, Grammar.depthLimit]
  omega

/-- The text of a program is read as the program. -/
theorem Program.read_text (program : Program) (writable : program.IsWritable) :
    Program.read program.text program.file = .ok program := by
  have fits := Stmt.allFit_outlinesOf program.body writable.statements writable.brackets 0
    (by rw [Nat.zero_add]; exact writable.blocks)
  have plain : '\x00' ∉ program.text.toList := by
    rw [Program.text, String.toList_ofList]
    exact not_mem_outlines (.inr rfl) 0 _ fits
  obtain ⟨lexemes, lexed, shown⟩ := lex_outlines _ fits
  have repeats := Stmt.repeats_tokensOf program.body writable.statements _ (deep_enough writable)
    [] (by rintro token ⟨⟩)
  rw [List.append_nil] at repeats
  obtain ⟨found, left, ran, each, done⟩ := repeats.parses_many (.ofList lexemes) shown
  have empty : left.list = [] := List.map_eq_nil_iff.mp done
  have phrases : readPhrases program.text = some found.flatten := by
    rw [readPhrases, Program.text, lexed]
    change (((many _) (.ofList lexemes)).bind _ : Option _) = _
    rw [← Program.text, ran]
    change (if left.list.isEmpty = true then _ else _) = _
    rw [empty]
    rfl
  rw [Program.read, if_neg (by simpa using plain), phrases]
  change (statementsOf found.flatten >>= fun statements => _) = _
  rw [statementsOf_flatten each]
  rfl

/-- Blocks inside of blocks, names of packages, a sign and a quotation mark. -/
def nestedProgram : Program where
  body := [
    .imports [("a.b", some "c"), ("d", none)],
    .functionDef "f" ["x", "y"] [
      .branch (.member (.identifier "x") "q")
        [.assign
          (.tuple [.identifier "x", .item (.identifier "y") (.literal (.atom (.int 0)))])
          (.call (.identifier "c") [.literal (.atom (.int (-1)))]
            [("z", .literal (.atom (.str "it's")))])]
        [.pass],
      .returns (.list [.literal (.atom .none)])],
    .classDef "A" ["d.E"] [
      .declare "w",
      .call (.call (.member (.identifier "x") "q") [] [])]]
  file := "m.py"

theorem read_text_nested :
    Program.read
        ("import a.b as c, d\n" ++
          "def f(x, y):\n" ++
          "  if (x).q:\n" ++
          "    ((x), ((y)[(0)])) = (c)((-1), z = (\"it's\"))\n" ++
          "  else:\n" ++
          "    pass\n" ++
          "  return [(None)]\n" ++
          "class A(d.E):\n" ++
          "  w: Tensor\n" ++
          "  ((x).q)()\n")
        "m.py" = .ok nestedProgram := by
  have text : nestedProgram.text =
      "import a.b as c, d\n" ++
        "def f(x, y):\n" ++
        "  if (x).q:\n" ++
        "    ((x), ((y)[(0)])) = (c)((-1), z = (\"it's\"))\n" ++
        "  else:\n" ++
        "    pass\n" ++
        "  return [(None)]\n" ++
        "class A(d.E):\n" ++
        "  w: Tensor\n" ++
        "  ((x).q)()\n" := by
    decide +kernel
  have writable : nestedProgram.IsWritable :=
    ⟨by decide +kernel, by decide +kernel, by decide +kernel⟩
  rw [← text]
  exact Program.read_text nestedProgram writable

end TorchArchive
