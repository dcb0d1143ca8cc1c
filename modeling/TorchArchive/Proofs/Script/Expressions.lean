import TorchArchive.Proofs.Script.Levels
import TorchArchive.Proofs.Script.Terms

/-!
# Reading written expressions

The words of an expression are read as its term.  Two levels of the grammar are needed for
every bracket: an expression inside of another one stands in parentheses, and what stands in
parentheses begins with the loosest level again.
-/

namespace TorchArchive

open Script
open TorchArchive.Script.Parser

namespace Expr

/-! ## Tokens of written expressions -/

/-- The tokens of an expression. -/
def tokens (e : Expr) : List Token := e.words.map Word.token

theorem tokens_enclosed (words : List Word) :
    (Word.enclosed words).map Word.token =
      .symbol "(" :: (words.map Word.token ++ [.symbol ")"]) := by
  rw [Word.enclosed, List.map_cons, List.map_append]
  rfl

theorem tokens_separated (separator : Word) (rows : List (List Word)) :
    (Word.separated separator rows).map Word.token =
      [separator.token].intercalate (rows.map (·.map Word.token)) := by
  rw [Word.separated, List.intercalate, List.intercalate, List.map_flatten]
  induction rows with
  | nil => rfl
  | cons first rows inductionHypothesis =>
      cases rows with
      | nil => rfl
      | cons next rows =>
          rw [List.intersperse_cons_cons, List.map_cons, List.map_cons, List.flatten_cons,
            List.flatten_cons, inductionHypothesis]
          rfl

theorem tokens_list (items : List Expr) (rest : List Token) :
    (list items).tokens ++ rest =
      .symbol "[" ::
        ([.symbol ","].intercalate ((rowsOf items).map (·.map Word.token)) ++
          .symbol "]" :: rest) := by
  rw [tokens, words, List.map_cons, List.map_append, tokens_separated, List.cons_append,
    List.append_assoc]
  rfl

theorem tokens_tuple (items : List Expr) (rest : List Token) :
    (tuple items).tokens ++ rest =
      .symbol "(" ::
        (tupleTokens ((rowsOf items).map (·.map Word.token)) ++ .symbol ")" :: rest) := by
  have inside : (tupleWords (rowsOf items)).map Word.token =
      tupleTokens ((rowsOf items).map (·.map Word.token)) := by
    match rowsOf items with
    | [] => rfl
    | [single] => exact List.map_append
    | first :: second :: others => exact tokens_separated _ _
  rw [tokens, words, tokens_enclosed, inside, List.cons_append, List.append_assoc]
  rfl

theorem tokens_member (target : Expr) (name : String) (rest : List Token) :
    (member target name).tokens ++ rest =
      (Word.enclosed target.words).map Word.token ++ .symbol "." :: .name name :: rest := by
  rw [tokens, words, List.map_append, List.append_assoc]
  rfl

theorem tokens_item (target index : Expr) (rest : List Token) :
    (item target index).tokens ++ rest =
      (Word.enclosed target.words).map Word.token ++ .symbol "[" ::
        ((Word.enclosed index.words).map Word.token ++ .symbol "]" :: rest) := by
  rw [tokens, words, List.map_append, List.map_cons, List.map_append, List.append_assoc,
    List.cons_append, List.append_assoc]
  rfl

theorem tokens_call (callee : Expr) (arguments : List Expr) (keywords : List (String × Expr))
    (rest : List Token) :
    (call callee arguments keywords).tokens ++ rest =
      (Word.enclosed callee.words).map Word.token ++ .symbol "(" ::
        ([.symbol ","].intercalate
          ((rowsOf arguments ++ keywordRows keywords).map (·.map Word.token)) ++
            .symbol ")" :: rest) := by
  rw [tokens, words, List.map_append, tokens_enclosed (Word.separated _ _), tokens_separated,
    List.append_assoc, List.cons_append, List.append_assoc]
  rfl

theorem beginsTerm_enclosed (words : List Word) (rest : List Token) :
    BeginsTerm ((Word.enclosed words).map Word.token ++ rest) := ⟨.symbol "(", by decide, rfl⟩

theorem unsigned_opening (rest : List Token) :
    (Token.symbol "(" :: rest).head? ≠ some (.symbol "-") := by simp

theorem unsigned_enclosed (words : List Word) (rest : List Token) :
    ((Word.enclosed words).map Word.token ++ rest).head? ≠ some (.symbol "-") :=
  unsigned_opening _

theorem isStarred_term {e : Expr} (writable : e.isWritable = true) :
    Rule.isStarred e.term = false := by
  match e, writable with
  | .literal (.atom .none), _ => rfl
  | .literal (.atom (.bool _)), _ => rfl
  | .literal (.atom (.str _)), _ => rfl
  | .literal (.atom (.int (.ofNat _))), _ => rfl
  | .literal (.atom (.int (.negSucc _))), _ => rfl
  | .identifier _, _ => rfl
  | .list _, _ => rfl
  | .tuple _, _ => rfl
  | .member _ _, _ => rfl
  | .item _ _, _ => rfl
  | .call _ _ _, _ => rfl

/-- The first tokens of an expression: a name alone, or a token that is no name. -/
theorem tokens_cases {e : Expr} (writable : e.isWritable = true) :
    (∃ id, e.tokens = [.name id]) ∨
      ∃ first others, e.tokens = first :: others ∧ isOpener first = true ∧
        ∀ id, first ≠ .name id := by
  match e, writable with
  | .literal (.atom .none), _ => exact .inr ⟨_, _, rfl, by decide, fun _ same => by cases same⟩
  | .literal (.atom (.bool true)), _ =>
      exact .inr ⟨_, _, rfl, by decide, fun _ same => by cases same⟩
  | .literal (.atom (.bool false)), _ =>
      exact .inr ⟨_, _, rfl, by decide, fun _ same => by cases same⟩
  | .literal (.atom (.str _)), _ => exact .inr ⟨_, _, rfl, rfl, fun _ same => by cases same⟩
  | .literal (.atom (.int (.ofNat _))), _ =>
      exact .inr ⟨_, _, rfl, rfl, fun _ same => by cases same⟩
  | .literal (.atom (.int (.negSucc _))), _ =>
      exact .inr ⟨_, _, rfl, by decide, fun _ same => by cases same⟩
  | .identifier id, _ => exact .inl ⟨id, rfl⟩
  | .list _, _ => exact .inr ⟨_, _, rfl, by decide, fun _ same => by cases same⟩
  | .tuple _, _ => exact .inr ⟨_, _, rfl, by decide, fun _ same => by cases same⟩
  | .member _ _, _ => exact .inr ⟨_, _, rfl, by decide, fun _ same => by cases same⟩
  | .item _ _, _ => exact .inr ⟨_, _, rfl, by decide, fun _ same => by cases same⟩
  | .call _ _ _, _ => exact .inr ⟨_, _, rfl, by decide, fun _ same => by cases same⟩

theorem beginsTerm_tokens {e : Expr} (writable : e.isWritable = true) (rest : List Token) :
    BeginsTerm (e.tokens ++ rest) := by
  rcases tokens_cases writable with ⟨id, shape⟩ | ⟨first, others, shape, opens, _⟩
  · rw [shape]
    exact ⟨_, rfl, rfl⟩
  · rw [shape]
    exact ⟨first, opens, rfl⟩

theorem beginsNaming_tokens {e : Expr} (writable : e.isWritable = true) {rest : List Token}
    (ends : EndsTerm rest) : beginsNaming ":=" (e.tokens ++ rest) = false := by
  rcases tokens_cases writable with ⟨id, shape⟩ | ⟨first, others, shape, _, unnamed⟩
  · obtain ⟨closer, member, first⟩ := ends
    rw [shape]
    cases rest with
    | nil => cases first
    | cons token rest =>
        obtain rfl := Option.some.inj first
        have other : ∀ token ∈ closers, ∀ rest,
            beginsNaming ":=" (.name id :: token :: rest) = false := by
          intro token member rest
          simp only [closers, List.mem_cons, List.not_mem_nil, or_false] at member
          rcases member with rfl | rfl | rfl | rfl | rfl | rfl <;> rfl
        exact other token member rest
  · rw [shape]
    cases first with
    | name id => exact absurd rfl (unnamed id)
    | _ => rfl

/-! ## Expressions inside of others -/

section Depth

variable {depth : Nat} {before between after rest : List Token} {term : Term}

theorem reads_of_primary (taken : (Rule.primary (Grammar.upTo depth)).Reads before term after)
    (begins : BeginsTerm before) (unsigned : before.head? ≠ some (.symbol "-"))
    (ends : EndsTerm after) :
    (Grammar.upTo (depth + 2)).expression.Reads before term after := by
  change (Rule.expression (Grammar.upTo (depth + 1))).Reads before term after
  exact reads_expression (reads_factor taken begins unsigned ends) begins ends

theorem reads_of_atom (taken : (Rule.atom (Grammar.upTo depth)).Reads before term after)
    (begins : BeginsTerm before) (unsigned : before.head? ≠ some (.symbol "-"))
    (ends : EndsTerm after) :
    (Grammar.upTo (depth + 2)).expression.Reads before term after :=
  reads_of_primary (reads_primary taken (Repeats.done ends.fails_trailer)) begins unsigned ends

/-- An expression in parentheses. -/
theorem reads_enclosed_atom {e : Expr} (writable : e.isWritable = true)
    (taken : (Grammar.upTo depth).expression.Reads (e.tokens ++ .symbol ")" :: rest) e.term
      (.symbol ")" :: rest)) :
    (Rule.atom (Grammar.upTo depth)).Reads ((Word.enclosed e.words).map Word.token ++ rest) e.term
      rest := by
  have ends : EndsTerm (.symbol ")" :: rest) := ⟨_, by decide, rfl⟩
  rw [tokens_enclosed, List.cons_append, List.append_assoc]
  exact reads_atom_opening (reads_parenthesized taken (beginsTerm_tokens writable _)
    (beginsNaming_tokens writable ends) (isStarred_term writable))

theorem reads_enclosed {e : Expr} (writable : e.isWritable = true)
    (taken : ∀ rest, EndsTerm rest →
      (Grammar.upTo depth).expression.Reads (e.tokens ++ rest) e.term rest)
    (ends : EndsTerm rest) :
    (Grammar.upTo (depth + 2)).expression.Reads ((Word.enclosed e.words).map Word.token ++ rest)
      e.term rest := by
  have atom := reads_enclosed_atom writable (taken (.symbol ")" :: rest) ⟨_, by decide, rfl⟩)
  rw [tokens_enclosed, List.cons_append] at atom ⊢
  exact reads_of_atom atom (beginsTerm_opening _) (by simp) ends

end Depth

/-! ## Arguments -/

/-- The arguments of a call in the order in which they are written. -/
def argumentsOf (items : List Term) (keywords : List (Option String × Term)) :
    List Rule.Argument :=
  items.map .positional ++
    keywords.filterMap fun (name, value) => name.map fun name => .keyword name value

theorem inOrder_keywords (keywords : List (String × Expr)) :
    Rule.Argument.inOrder true false ((keywordTerms keywords).filterMap fun (name, value) =>
      name.map fun name => .keyword name value) = true := by
  induction keywords with
  | nil => rfl
  | cons first keywords inductionHypothesis => exact inductionHypothesis

theorem inOrder_argumentsOf (items : List Term) (keywords : List (String × Expr)) :
    Rule.Argument.inOrder false false (argumentsOf items (keywordTerms keywords)) = true := by
  induction items with
  | nil =>
      cases keywords with
      | nil => rfl
      | cons first keywords => exact inOrder_keywords (first :: keywords)
  | cons item items inductionHypothesis => exact inductionHypothesis

theorem positional_argumentsOf (items : List Term) (keywords : List (String × Expr)) :
    (argumentsOf items (keywordTerms keywords)).filterMap Rule.Argument.positional? = items := by
  induction items with
  | nil =>
      induction keywords with
      | nil => rfl
      | cons first keywords inductionHypothesis => exact inductionHypothesis
  | cons item items inductionHypothesis => exact congrArg (item :: ·) inductionHypothesis

theorem keyword_argumentsOf (items : List Term) (keywords : List (String × Expr)) :
    (argumentsOf items (keywordTerms keywords)).filterMap Rule.Argument.keyword? =
      keywordTerms keywords := by
  induction items with
  | nil =>
      induction keywords with
      | nil => rfl
      | cons first keywords inductionHypothesis =>
          exact congrArg ((some first.1, first.2.term) :: ·) inductionHypothesis
  | cons item items inductionHypothesis => exact inductionHypothesis

/-- Arguments in the order in which they are written fall into their two groups. -/
theorem grouped_argumentsOf (items : List Term) (keywords : List (String × Expr)) :
    Rule.grouped (argumentsOf items (keywordTerms keywords)) =
      pure (items, keywordTerms keywords) := by
  rw [Rule.grouped, if_pos (inOrder_argumentsOf items keywords), positional_argumentsOf,
    keyword_argumentsOf]

theorem reads_call_arguments {depth : Nat} {arguments : List Expr}
    {keywords : List (String × Expr)}
    (reads : ReadsRows (Grammar.upTo depth) ((rowsOf arguments).map (·.map Word.token))
      (termsOf arguments))
    (readsKeywords : ReadsEach (Rule.argument (Grammar.upTo depth)) closesArgument
      ((keywordRows keywords).map (·.map Word.token))
      ((keywordTerms keywords).filterMap fun (name, value) =>
        name.map fun name => .keyword name value))
    (rest : List Token) :
    (Rule.arguments (Grammar.upTo depth) (Rule.clause (Grammar.upTo depth))).Reads
      ([.symbol ","].intercalate
        ((rowsOf arguments ++ keywordRows keywords).map (·.map Word.token)) ++
          .symbol ")" :: rest)
      (termsOf arguments, keywordTerms keywords) rest := by
  have positional : ReadsEach (Rule.argument (Grammar.upTo depth)) closesArgument
      ((rowsOf arguments).map (·.map Word.token))
      ((termsOf arguments).map .positional) := by
    apply List.forall₂_map_right_iff.mpr
    apply reads.imp
    intro row value reads rest closes
    exact reads.argument closes
  have each : ReadsEach (Rule.argument (Grammar.upTo depth)) closesArgument
      ((rowsOf arguments).map (·.map Word.token) ++ (keywordRows keywords).map (·.map Word.token))
      (argumentsOf (termsOf arguments) (keywordTerms keywords)) :=
    List.rel_append positional readsKeywords
  have noClause : ∀ tokens, closesArgument tokens →
      (Rule.clause (Grammar.upTo depth)).Fails tokens := by
    intro tokens closes
    exact (closes.endsTerm.fails_keyword "async").perhaps.bind_fails
      ((closes.endsTerm.fails_keyword "for").bind _)
  have grouped := grouped_argumentsOf (termsOf arguments) keywords
  rw [List.map_append]
  cases arguments with
  | cons first others =>
      refine reads_arguments each (List.cons_ne_nil _ _) ?_ noClause grouped
      rw [rowsOf, List.map_cons, List.cons_append, intercalate_cons, tokens_enclosed]
      simp
  | nil =>
      cases keywords with
      | nil => exact reads_arguments_nil _ rest
      | cons first others =>
          refine reads_arguments each (List.cons_ne_nil _ _) ?_ noClause grouped
          rw [rowsOf, keywordRows, List.map_nil, List.nil_append, List.map_cons,
            intercalate_cons]
          simp [Word.token]

/-- What stands behind a token and a row is shorter than both. -/
theorem length_lt {first : Token} (row : List Token) {last : Token} (rest : List Token) :
    rest.length < (first :: (row ++ last :: rest)).length := by
  simp only [List.length_cons, List.length_append]
  omega

/-! ## Reading expressions -/

theorem reads_literal {value : Value} (writable : value.isWritable = true) {depth : Nat}
    {rest : List Token} (ends : EndsTerm rest) :
    (Grammar.upTo (depth + 3)).expression.Reads (value.words.map Word.token ++ rest) value.term
      rest := by
  match value, writable with
  | .atom .none, _ =>
      exact reads_of_atom (reads_atom_keyword (reads_take (by rfl)) rest) ⟨_, by decide, rfl⟩
        (fun same => by cases same) ends
  | .atom (.bool true), _ =>
      exact reads_of_atom (reads_atom_keyword (reads_take (by rfl)) rest) ⟨_, by decide, rfl⟩
        (fun same => by cases same) ends
  | .atom (.bool false), _ =>
      exact reads_of_atom (reads_atom_keyword (reads_take (by rfl)) rest) ⟨_, by decide, rfl⟩
        (fun same => by cases same) ends
  | .atom (.str content), _ =>
      exact reads_of_atom (reads_atom_text content ends) ⟨_, rfl, rfl⟩
        (fun same => by cases same) ends
  | .atom (.int (.ofNat n)), _ =>
      exact reads_of_atom (reads_atom_number (.int n) rest) ⟨_, rfl, rfl⟩
        (fun same => by cases same) ends
  | .atom (.int (.negSucc n)), _ =>
      have number : (Rule.factor (Grammar.upTo depth)).Reads
          (.number (.int (n + 1 : Nat)) :: rest) (.constant (.int (n + 1 : Nat)) false) rest :=
        reads_factor
          (reads_primary (reads_atom_number _ rest) (Repeats.done ends.fails_trailer))
          ⟨_, rfl, rfl⟩ (fun same => by cases same) ends
      change (Rule.expression (Grammar.upTo (depth + 2))).Reads
        (.symbol "-" :: .number (.int (n + 1 : Nat)) :: rest) _ rest
      refine reads_expression ?_ ⟨_, by decide, rfl⟩ ends
      change (Rule.factor (Grammar.upTo (depth + 1))).Reads _ _ rest
      exact reads_factor_minus number

mutual

/-- An expression is read as its term where there are two levels for each of its brackets, and
three more. -/
theorem reads_tokens (e : Expr) (writable : e.isWritable = true) (depth : Nat)
    (deep : 2 * e.brackets + 3 ≤ depth) (rest : List Token) (ends : EndsTerm rest) :
    (Grammar.upTo depth).expression.Reads (e.tokens ++ rest) e.term rest := by
  match e with
  | .literal value =>
      obtain ⟨less, rfl⟩ : ∃ less, depth = less + 3 := ⟨depth - 3, by omega⟩
      exact reads_literal writable ends
  | .identifier name =>
      obtain ⟨less, rfl⟩ : ∃ less, depth = less + 2 := ⟨depth - 2, by omega⟩
      exact reads_of_atom (reads_atom_name name rest) ⟨_, rfl, rfl⟩ (fun same => by cases same)
        ends
  | .list items =>
      rw [brackets] at deep
      obtain ⟨less, rfl⟩ : ∃ less, depth = less + 2 := ⟨depth - 2, by omega⟩
      have rows := reads_rows items writable less (by omega)
      have atom := reads_atom_itemOpening (reads_bracketed rows : Reads _ _ _ rest)
      rw [tokens_list]
      exact reads_of_atom atom ⟨_, by decide, rfl⟩ (by simp) ends
  | .tuple items =>
      rw [brackets] at deep
      obtain ⟨less, rfl⟩ : ∃ less, depth = less + 2 := ⟨depth - 2, by omega⟩
      have rows := reads_rows items writable less (by omega)
      have atom := reads_atom_opening (reads_parenthesized_tuple rows : Reads _ _ _ rest)
      rw [tokens_tuple]
      exact reads_of_atom atom (beginsTerm_opening _) (unsigned_opening _) ends
  | .member target name =>
      rw [isWritable, Bool.and_eq_true] at writable
      rw [brackets] at deep
      obtain ⟨less, rfl⟩ : ∃ less, depth = less + 2 := ⟨depth - 2, by omega⟩
      have atom : (Rule.atom (Grammar.upTo less)).Reads _ _ (.symbol "." :: .name name :: rest) :=
        reads_enclosed_atom writable.1
          (reads_tokens target writable.1 less (by omega) _ ⟨_, by decide, rfl⟩)
      have trailing : Repeats (Rule.trailer (Grammar.upTo less)) Eq
          (.symbol "." :: .name name :: rest) [fun target => .member target name] rest :=
        Repeats.more (reads_trailer_member name rest) (Nat.lt_succ_of_lt (Nat.lt_succ_self _))
          (Repeats.done ends.fails_trailer)
      have primary := reads_primary atom trailing
      rw [tokens_member]
      exact reads_of_primary primary (beginsTerm_enclosed _ _) (unsigned_enclosed _ _) ends
  | .item target index =>
      rw [isWritable, Bool.and_eq_true] at writable
      rw [brackets] at deep
      obtain ⟨less, rfl⟩ : ∃ less, depth = less + 4 := ⟨depth - 4, by omega⟩
      have atom : (Rule.atom (Grammar.upTo (less + 2))).Reads _ _
          (.symbol "[" :: ((Word.enclosed index.words).map Word.token ++ .symbol "]" :: rest)) :=
        reads_enclosed_atom writable.1
          (reads_tokens target writable.1 (less + 2) (by omega) _ ⟨_, by decide, rfl⟩)
      have inside : (Grammar.upTo (less + 2)).expression.Reads
          ((Word.enclosed index.words).map Word.token ++ .symbol "]" :: rest) index.term
          (.symbol "]" :: rest) :=
        reads_enclosed writable.2 (reads_tokens index writable.2 less (by omega))
          ⟨_, by decide, rfl⟩
      have trailing : Repeats (Rule.trailer (Grammar.upTo (less + 2))) Eq
          (.symbol "[" :: ((Word.enclosed index.words).map Word.token ++ .symbol "]" :: rest))
          [fun target => .item target index.term] rest :=
        Repeats.more (reads_trailer_item inside (isStarred_term writable.2)) (length_lt _ rest)
          (Repeats.done ends.fails_trailer)
      have primary := reads_primary atom trailing
      rw [tokens_item]
      exact reads_of_primary primary (beginsTerm_enclosed _ _) (unsigned_enclosed _ _) ends
  | .call callee arguments keywords =>
      rw [isWritable, Bool.and_eq_true, Bool.and_eq_true] at writable
      rw [brackets] at deep
      obtain ⟨less, rfl⟩ : ∃ less, depth = less + 2 := ⟨depth - 2, by omega⟩
      have atom : ∀ behind, (Rule.atom (Grammar.upTo less)).Reads
          ((Word.enclosed callee.words).map Word.token ++ behind) callee.term behind := fun _ =>
        reads_enclosed_atom writable.1.1
          (reads_tokens callee writable.1.1 less (by omega) _ ⟨_, by decide, rfl⟩)
      have taken := reads_call_arguments
        (reads_rows arguments writable.1.2 less (by omega))
        (reads_keywordRows keywords writable.2 less (by omega)) rest
      have trailing : Repeats (Rule.trailer (Grammar.upTo less)) Eq _
          [fun target => .call target (termsOf arguments) (keywordTerms keywords)] rest :=
        Repeats.more (reads_trailer_call taken) (length_lt _ rest)
          (Repeats.done ends.fails_trailer)
      have primary := reads_primary (atom _) trailing
      rw [tokens_call]
      exact reads_of_primary primary (beginsTerm_enclosed _ _) (unsigned_enclosed _ _) ends
  | .blank => cases writable

theorem reads_rows (items : List Expr) (writable : areWritable items = true) (depth : Nat)
    (deep : 2 * bracketsOf items + 3 ≤ depth) :
    ReadsRows (Grammar.upTo depth) ((rowsOf items).map (·.map Word.token)) (termsOf items) := by
  match items with
  | [] => exact List.Forall₂.nil
  | first :: others =>
      rw [areWritable, Bool.and_eq_true] at writable
      rw [bracketsOf] at deep
      have tail := reads_rows others writable.2 depth (by omega)
      obtain ⟨less, rfl⟩ : ∃ less, depth = less + 2 := ⟨depth - 2, by omega⟩
      refine List.Forall₂.cons ⟨⟨_, rfl⟩, ?_⟩ tail
      intro rest ends
      exact reads_enclosed writable.1 (reads_tokens first writable.1 less (by omega)) ends

theorem reads_keywordRows (keywords : List (String × Expr))
    (writable : keywordsAreWritable keywords = true) (depth : Nat)
    (deep : 2 * bracketsOfKeywords keywords + 3 ≤ depth) :
    ReadsEach (Rule.argument (Grammar.upTo depth)) closesArgument
      ((keywordRows keywords).map (·.map Word.token))
      ((keywordTerms keywords).filterMap fun (name, value) =>
        name.map fun name => .keyword name value) := by
  match keywords with
  | [] => exact List.Forall₂.nil
  | (name, value) :: others =>
      rw [keywordsAreWritable, Bool.and_eq_true, Bool.and_eq_true] at writable
      rw [bracketsOfKeywords] at deep
      have tail := reads_keywordRows others writable.2 depth (by omega)
      obtain ⟨less, rfl⟩ : ∃ less, depth = less + 2 := ⟨depth - 2, by omega⟩
      refine List.Forall₂.cons ?_ tail
      intro rest closes
      apply reads_argument_keyword
      exact reads_enclosed writable.1.2 (reads_tokens value writable.1.2 less (by omega))
        closes.endsTerm

end

end Expr

end TorchArchive
