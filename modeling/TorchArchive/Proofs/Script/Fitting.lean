import TorchArchive.Proofs.Script.Layout

/-!
# The words of a program

Every word of a written program has a spelling, and the brackets of an expression are closed
in the order in which they were opened.  This is what the lexer asks of a text.
-/

namespace TorchArchive

open Script (Word Mark Outline keywords)
open Script.LexerState (bracketLimit indentationLimit)

namespace Script.Word

/-- Words that have spellings, and whose brackets are closed again; no more than a number of
them are open at a time. -/
structure Balanced (depth : Nat) (words : List Word) : Prop where
  spelled : ∀ word ∈ words, word.isSpelled = true
  nested : ∀ brackets : List Char, brackets.length + depth ≤ bracketLimit →
    words.foldlM nest brackets = some brackets

section Balance

variable {depth deeper : Nat} {front back words : List Word} {rows : List (List Word)} {word : Word}

theorem Balanced.mono (balanced : Balanced depth words) (less : depth ≤ deeper) :
    Balanced deeper words :=
  ⟨balanced.spelled, fun brackets room => balanced.nested brackets (by omega)⟩

theorem Balanced.nil (depth : Nat) : Balanced depth [] :=
  ⟨fun _ member => absurd member List.not_mem_nil, fun _ _ => rfl⟩

theorem Balanced.append (balanced : Balanced depth front) (balancedToo : Balanced depth back) :
    Balanced depth (front ++ back) := by
  constructor
  · intro word member
    rcases List.mem_append.mp member with member | member
    · exact balanced.spelled word member
    · exact balancedToo.spelled word member
  · intro brackets room
    rw [List.foldlM_append, balanced.nested brackets room]
    exact balancedToo.nested brackets room

/-- A word that is no bracket. -/
theorem Balanced.cons (spelled : word.isSpelled = true)
    (neutral : ∀ brackets, nest brackets word = some brackets) (balanced : Balanced depth words) :
    Balanced depth (word :: words) := by
  constructor
  · intro other member
    rcases List.mem_cons.mp member with rfl | member
    · exact spelled
    · exact balanced.spelled other member
  · intro brackets room
    rw [List.foldlM_cons, neutral]
    exact balanced.nested brackets room

/-- Words between two brackets that belong together. -/
theorem Balanced.between {left right : Mark} {bracket : Char}
    (opens : ∀ brackets : List Char, brackets.length < bracketLimit →
      nest brackets (.mark left) = some (bracket :: brackets))
    (closes : ∀ brackets, nest (bracket :: brackets) (.mark right) = some brackets)
    (balanced : Balanced depth words) :
    Balanced (depth + 1) (.mark left :: (words ++ [.mark right])) := by
  constructor
  · intro word member
    rcases List.mem_cons.mp member with rfl | member
    · rfl
    rcases List.mem_append.mp member with member | member
    · exact balanced.spelled word member
    · rw [List.mem_singleton.mp member]
      rfl
  · intro brackets room
    have inside := balanced.nested (bracket :: brackets) (by rw [List.length_cons]; omega)
    rw [List.foldlM_cons, opens brackets (by omega)]
    change (words ++ [mark right]).foldlM nest (bracket :: brackets) = _
    rw [List.foldlM_append, inside]
    change [mark right].foldlM nest (bracket :: brackets) = _
    rw [List.foldlM_cons, closes]
    rfl

theorem Balanced.enclosed (balanced : Balanced depth words) :
    Balanced (depth + 1) (enclosed words) :=
  balanced.between (fun _ room => if_pos room) fun _ => rfl

theorem Balanced.items (balanced : Balanced depth words) :
    Balanced (depth + 1) (.mark .itemOpening :: (words ++ [.mark .itemClosing])) :=
  balanced.between (fun _ room => if_pos room) fun _ => rfl

theorem Balanced.separated (spelled : word.isSpelled = true)
    (neutral : ∀ brackets, nest brackets word = some brackets)
    (balanced : ∀ row ∈ rows, Balanced depth row) : Balanced depth (separated word rows) := by
  rw [Word.separated, List.intercalate]
  induction rows with
  | nil => exact Balanced.nil depth
  | cons first rows inductionHypothesis =>
      have head := balanced first List.mem_cons_self
      have tail := inductionHypothesis fun row member =>
        balanced row (List.mem_cons_of_mem first member)
      cases rows with
      | nil =>
          rw [List.intersperse_singleton, List.flatten_singleton]
          exact head
      | cons next rows =>
          rw [List.intersperse_cons_cons, List.flatten_cons, List.flatten_cons]
          exact head.append (Balanced.cons spelled neutral tail)

theorem Balanced.commas (balanced : ∀ row ∈ rows, Balanced depth row) :
    Balanced depth (Word.separated (.mark .comma) rows) :=
  Balanced.separated rfl (fun _ => rfl) balanced

theorem Balanced.name {id : String} (plain : isPlainName id = true)
    (balanced : Balanced depth words) : Balanced depth (.name id :: words) :=
  Balanced.cons plain (fun _ => rfl) balanced

theorem Balanced.dotted {name : String} (plain : isPlainPath name = true) :
    Balanced depth (dotted name) := by
  apply Balanced.separated rfl fun _ => rfl
  intro row member
  obtain ⟨part, inside, rfl⟩ := List.mem_map.mp member
  exact Balanced.name (List.all_eq_true.mp plain part inside) (Balanced.nil depth)

/-- Words that can stand in a line of their own. -/
theorem Balanced.isLine (balanced : Balanced depth words) (some : words ≠ [])
    (few : depth ≤ bracketLimit) : IsLine words :=
  ⟨some, balanced.spelled, balanced.nested [] (by rw [List.length_nil]; omega)⟩

end Balance

end Script.Word

open Script.Word (Balanced)

/-! ## Expressions -/

theorem Value.balanced_words {value : Value} (writable : value.isWritable = true) (depth : Nat) :
    Balanced depth value.words := by
  match value, writable with
  | .atom .none, _ => exact Balanced.cons rfl (fun _ => rfl) (Balanced.nil depth)
  | .atom (.bool true), _ => exact Balanced.cons rfl (fun _ => rfl) (Balanced.nil depth)
  | .atom (.bool false), _ => exact Balanced.cons rfl (fun _ => rfl) (Balanced.nil depth)
  | .atom (.str content), _ => exact Balanced.cons rfl (fun _ => rfl) (Balanced.nil depth)
  | .atom (.int (.ofNat n)), few =>
      exact Balanced.cons few (fun _ => rfl) (Balanced.nil depth)
  | .atom (.int (.negSucc n)), few =>
      exact Balanced.cons rfl (fun _ => rfl)
        (Balanced.cons few (fun _ => rfl) (Balanced.nil depth))

namespace Expr

theorem balanced_tupleWords {rows : List (List Word)} {depth : Nat}
    (balanced : ∀ row ∈ rows, Balanced depth row) : Balanced depth (tupleWords rows) := by
  match rows with
  | [] => exact Balanced.commas balanced
  | [single] =>
      exact (balanced single List.mem_cons_self).append
        (Balanced.cons rfl (fun _ => rfl) (Balanced.nil depth))
  | first :: second :: others => exact Balanced.commas balanced

mutual

theorem balanced_words (e : Expr) (writable : e.isWritable = true) :
    Balanced e.brackets e.words := by
  match e with
  | .literal value => exact Value.balanced_words writable _
  | .identifier name => exact Balanced.name writable (Balanced.nil _)
  | .list items => exact (Balanced.commas (balanced_rowsOf items writable)).items
  | .tuple items => exact (balanced_tupleWords (balanced_rowsOf items writable)).enclosed
  | .member target name =>
      rw [isWritable, Bool.and_eq_true] at writable
      have inside := (balanced_words target writable.1).enclosed
      exact inside.append
        (Balanced.cons rfl (fun _ => rfl) (Balanced.name writable.2 (Balanced.nil _)))
  | .item target index =>
      rw [isWritable, Bool.and_eq_true] at writable
      have inside := (balanced_words target writable.1).enclosed
      have indexed := (balanced_words index writable.2).enclosed.items
      rw [words, brackets]
      exact (inside.mono (Nat.le_max_left _ _)).append (indexed.mono (Nat.le_max_right _ _))
  | .call callee arguments keywords =>
      rw [isWritable, Bool.and_eq_true, Bool.and_eq_true] at writable
      have inside := (balanced_words callee writable.1.1).enclosed
      have rows : ∀ row ∈ rowsOf arguments ++ keywordRows keywords,
          Balanced (max (bracketsOf arguments) (bracketsOfKeywords keywords)) row := by
        intro row member
        rcases List.mem_append.mp member with member | member
        · exact (balanced_rowsOf arguments writable.1.2 row member).mono (Nat.le_max_left _ _)
        · exact (balanced_keywordRows keywords writable.2 row member).mono (Nat.le_max_right _ _)
      rw [words, brackets]
      exact (inside.mono (Nat.le_max_left _ _)).append
        ((Balanced.commas rows).enclosed.mono (Nat.le_max_right _ _))
  | .blank => cases writable

theorem balanced_rowsOf (items : List Expr) (writable : areWritable items = true) :
    ∀ row ∈ rowsOf items, Balanced (bracketsOf items) row := by
  match items with
  | [] => exact fun row member => absurd member List.not_mem_nil
  | first :: rest =>
      rw [areWritable, Bool.and_eq_true] at writable
      intro row member
      rw [bracketsOf]
      rcases List.mem_cons.mp member with rfl | member
      · exact (balanced_words first writable.1).enclosed.mono (Nat.le_max_left _ _)
      · exact (balanced_rowsOf rest writable.2 row member).mono (Nat.le_max_right _ _)

theorem balanced_keywordRows (keywords : List (String × Expr))
    (writable : keywordsAreWritable keywords = true) :
    ∀ row ∈ keywordRows keywords, Balanced (bracketsOfKeywords keywords) row := by
  match keywords with
  | [] => exact fun row member => absurd member List.not_mem_nil
  | (name, value) :: rest =>
      rw [keywordsAreWritable, Bool.and_eq_true, Bool.and_eq_true] at writable
      intro row member
      rw [bracketsOfKeywords]
      rcases List.mem_cons.mp member with rfl | member
      · have inside := (balanced_words value writable.1.2).enclosed
        exact (Balanced.name writable.1.1 (Balanced.cons rfl (fun _ => rfl) inside)).mono
          (Nat.le_max_left _ _)
      · exact (balanced_keywordRows rest writable.2 row member).mono (Nat.le_max_right _ _)

end

end Expr

/-! ## Statements -/

namespace Stmt

open Script.Outline (AllFit)

theorem allFit_append {level : Nat} {front back : List Outline} (fits : AllFit level front)
    (fitsToo : AllFit level back) : AllFit level (front ++ back) := by
  induction front with
  | nil => exact fitsToo
  | cons first front inductionHypothesis => exact ⟨fits.1, inductionHypothesis fits.2⟩

/-- A line without lines below it. -/
theorem allFit_line {level depth : Nat} {line : List Word} (balanced : Balanced depth line)
    (some : line ≠ []) (few : depth ≤ bracketLimit) : AllFit level [.entry line []] :=
  ⟨⟨balanced.isLine some few, fun none => absurd rfl none, trivial⟩, trivial⟩

/-- A line with lines below it. -/
theorem allFit_block {level depth : Nat} {line : List Word} {below : List Outline}
    (balanced : Balanced depth line) (some : line ≠ []) (few : depth ≤ bracketLimit)
    (shallow : level < indentationLimit) (fits : AllFit (level + 1) below) :
    AllFit level [.entry line below] :=
  ⟨⟨balanced.isLine some few, fun _ => shallow, fits⟩, trivial⟩

theorem balanced_baseWords {bases : List String} (plain : bases.all isPlainPath = true) :
    Balanced 1 (baseWords bases) := by
  match bases with
  | [] => exact Balanced.nil 1
  | first :: others =>
      apply Balanced.enclosed
      apply Balanced.commas
      intro row member
      obtain ⟨base, inside, rfl⟩ := List.mem_map.mp member
      exact Balanced.dotted (List.all_eq_true.mp plain base inside)

theorem balanced_parameterWords {parameters : List String}
    (plain : parameters.all isPlainName = true) :
    Balanced 1 (Word.enclosed
      (Word.separated (.mark .comma) (parameters.map fun parameter => [Word.name parameter]))) := by
  apply Balanced.enclosed
  apply Balanced.commas
  intro row member
  obtain ⟨parameter, inside, rfl⟩ := List.mem_map.mp member
  exact Balanced.name (List.all_eq_true.mp plain parameter inside) (Balanced.nil 0)

theorem balanced_importWords {package : String × Option String}
    (plain : isPlainPath package.1 = true) (plainOther : package.2.all isPlainName = true) :
    Balanced 0 (importWords package) := by
  match package with
  | (package, none) => exact Balanced.dotted plain
  | (package, some other) =>
      exact (Balanced.dotted plain).append
        (Balanced.cons rfl (fun _ => rfl) (Balanced.name plainOther (Balanced.nil 0)))

mutual

/-- The outlines of a statement can be read where there is room for its blocks. -/
theorem allFit_outlines (statement : Stmt) (writable : statement.isWritable = true)
    (few : statement.brackets ≤ bracketLimit) (level : Nat)
    (shallow : level + statement.blocks ≤ indentationLimit) :
    AllFit level statement.outlines := by
  match statement, writable with
  | .pass, _ =>
      exact allFit_line (Balanced.cons rfl (fun _ => rfl) (Balanced.nil 0)) (List.cons_ne_nil _ _)
        few
  | .returns result, writable =>
      exact allFit_line (Balanced.cons rfl (fun _ => rfl) (result.balanced_words writable))
        (List.cons_ne_nil _ _) few
  | .functionDef name parameters body, writable =>
      simp only [isWritable, Bool.and_eq_true] at writable
      rw [brackets] at few
      rw [blocks] at shallow
      have header := (balanced_parameterWords writable.1.1.2).append
        (Balanced.cons rfl (fun _ => rfl) (Balanced.nil 1) : Balanced 1 [.mark .colon])
      exact allFit_block
        (Balanced.cons rfl (fun _ => rfl) (Balanced.name writable.1.1.1 header))
        (List.cons_ne_nil _ _) (by omega) (by omega)
        (allFit_outlinesOf body writable.2 (by omega) (level + 1) (by omega))
  | .classDef name bases body, writable =>
      simp only [isWritable, Bool.and_eq_true] at writable
      rw [brackets] at few
      rw [blocks] at shallow
      have header := (balanced_baseWords writable.1.1.2).append
        (Balanced.cons rfl (fun _ => rfl) (Balanced.nil 1) : Balanced 1 [.mark .colon])
      exact allFit_block
        (Balanced.cons rfl (fun _ => rfl) (Balanced.name writable.1.1.1 header))
        (List.cons_ne_nil _ _) (by omega) (by omega)
        (allFit_outlinesOf body writable.2 (by omega) (level + 1) (by omega))
  | .declare name, writable =>
      exact allFit_line (Balanced.name writable (Balanced.cons rfl (fun _ => rfl)
        (Balanced.cons (by decide) (fun _ => rfl) (Balanced.nil 0)))) (List.cons_ne_nil _ _) few
  | .assign target value, writable =>
      simp only [isWritable, Bool.and_eq_true] at writable
      have left := (target.balanced_words writable.1.2).mono
        (Nat.le_max_left target.brackets value.brackets)
      have right := (value.balanced_words writable.2).mono
        (Nat.le_max_right target.brackets value.brackets)
      exact allFit_line (left.append (Balanced.cons rfl (fun _ => rfl) right))
        (List.append_ne_nil_of_right_ne_nil _ (List.cons_ne_nil _ _)) few
  | .branch condition taken other, writable =>
      simp only [isWritable, Bool.and_eq_true] at writable
      rw [brackets] at few
      rw [blocks] at shallow
      have colon : Balanced condition.brackets [.mark .colon] :=
        Balanced.cons rfl (fun _ => rfl) (Balanced.nil _)
      have header : Balanced condition.brackets
          (.keyword "if" :: (condition.words ++ [.mark .colon])) :=
        Balanced.cons rfl (fun _ => rfl)
          ((condition.balanced_words writable.1.1.1).append colon)
      have fits := allFit_outlinesOf other writable.2 (by omega) (level + 1) (by omega)
      have branches := allFit_block header (List.cons_ne_nil _ _) (by omega)
        (by omega) (allFit_outlinesOf taken writable.1.2 (by omega) (level + 1) (by omega))
      rw [outlines]
      refine allFit_append branches ?_
      cases shape : outlinesOf other with
      | nil => trivial
      | cons first others =>
          rw [shape] at fits
          exact allFit_block
            (Balanced.cons rfl (fun _ => rfl) (Balanced.cons rfl (fun _ => rfl) (Balanced.nil 0)))
            (List.cons_ne_nil _ _) (Nat.zero_le _) (by omega) fits
  | .call (.call callee arguments keywords), writable =>
      exact allFit_line (Expr.balanced_words _ writable) (List.cons_ne_nil _ _) few
  | .imports packages, writable =>
      simp only [isWritable, Bool.and_eq_true] at writable
      have rows : ∀ row ∈ packages.map importWords, Balanced 0 row := by
        intro row member
        obtain ⟨package, inside, rfl⟩ := List.mem_map.mp member
        have plain := List.all_eq_true.mp writable.2 package inside
        rw [Bool.and_eq_true] at plain
        exact balanced_importWords plain.1 plain.2
      exact allFit_line (Balanced.cons rfl (fun _ => rfl) (Balanced.commas rows))
        (List.cons_ne_nil _ _) few

theorem allFit_outlinesOf (statements : List Stmt) (writable : areWritable statements = true)
    (few : bracketsOf statements ≤ bracketLimit) (level : Nat)
    (shallow : level + blocksOf statements ≤ indentationLimit) :
    AllFit level (outlinesOf statements) := by
  match statements with
  | [] => trivial
  | first :: rest =>
      rw [areWritable, Bool.and_eq_true] at writable
      rw [bracketsOf] at few
      rw [blocksOf] at shallow
      exact allFit_append
        (allFit_outlines first writable.1 (by omega) level (by omega))
        (allFit_outlinesOf rest writable.2 (by omega) level (by omega))

end

end Stmt

end TorchArchive
