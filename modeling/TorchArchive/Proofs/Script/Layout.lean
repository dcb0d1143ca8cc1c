import TorchArchive.Proofs.Script.Lexing

/-!
# Tokens of written outlines

The lexer turns the text of an outline into the tokens of the outline.  A block is closed only
by the line behind it, so what a run has reached is stated with the blocks that the next line
closes taken as closed.
-/

namespace TorchArchive.Script

/-! ## Indentation -/

/-- The indentations that are open in a line of a level. -/
def widths : Nat → List (Nat × Nat)
  | 0 => []
  | level + 1 => (2 * (level + 1), 2 * (level + 1)) :: widths level

theorem length_widths (level : Nat) : (widths level).length = level := by
  induction level with
  | zero => rfl
  | succ level inductionHypothesis => rw [widths, List.length_cons, inductionHypothesis]

theorem head_widths (level : Nat) :
    (widths level).head?.getD (0, 0) = (2 * level, 2 * level) := by
  cases level <;> rfl

section Indentation

variable {level depth : Nat} {rest : List Char} {tokens : List Token}

theorem measure_blanks {c : Char} (begins : beginsToken c = true) (width : Nat) :
    ∀ wide narrow line, measure wide narrow 0 line (List.replicate width ' ' ++ c :: rest) =
      some ⟨wide + width, narrow + width, line, c :: rest⟩ := by
  induction width with
  | zero =>
      intro wide narrow line
      have apart := ne_of_beginsToken begins
      rw [List.replicate_zero, List.nil_append, measure.eq_def]
      split
      · rename_i shape
        cases shape
        exact absurd rfl (apart ' ' (by decide))
      · rename_i shape
        cases shape
        exact absurd rfl (apart '\t' (by decide))
      · rename_i shape
        cases shape
        exact absurd rfl (apart '\x0c' (by decide))
      · rename_i shape
        cases shape
        exact absurd rfl (apart '\\' (by decide))
      · rename_i shape
        cases shape
        exact absurd rfl (apart '\\' (by decide))
      · rename_i shape
        cases shape
        exact absurd rfl (apart '\\' (by decide))
      · rfl
  | succ width inductionHypothesis =>
      intro wide narrow line
      rw [List.replicate_succ, List.cons_append, measure, inductionHypothesis]
      rw [Nat.add_right_comm, Nat.add_right_comm narrow]
      rfl

/-- Indentations are closed one by one, down to that of a level. -/
theorem dedentTo_widths (shallow : level ≤ depth) (state : LexerState) :
    ∃ next, LexerState.dedentTo (2 * level) (2 * level) state (widths depth) = some next ∧
      next.view = { state.view with
        indentations := widths level
        tokens := state.view.tokens ++ List.replicate (depth - level) .dedent } := by
  induction depth generalizing state with
  | zero =>
      obtain rfl := Nat.le_zero.mp shallow
      refine ⟨_, rfl, ?_⟩
      simp [LexerState.view, widths]
  | succ depth inductionHypothesis =>
      by_cases same : level = depth + 1
      · subst same
        refine ⟨{ state with indentations := widths (depth + 1) }, ?_, ?_⟩
        · rw [widths, LexerState.dedentTo, if_neg (Nat.lt_irrefl _), if_pos ⟨rfl, rfl⟩]
        · simp [LexerState.view]
      · have lower : level ≤ depth := by omega
        obtain ⟨next, closed, shown⟩ := inductionHypothesis lower (state.emit .dedent)
        refine ⟨next, ?_, ?_⟩
        · rw [widths, LexerState.dedentTo, if_pos (by omega)]
          exact closed
        · have count : depth + 1 - level = depth - level + 1 := by omega
          rw [shown, view_emit, count, List.replicate_succ, List.append_assoc]
          rfl

/-- What the indentation of a line does, given what it does to the indentations that are open. -/
theorem leads_margin {c : Char} (begins : beginsToken c = true) {closed : List Token}
    (indented : ∀ state : LexerState, state.indentations = widths depth →
      ∃ next, state.indentTo (2 * level) (2 * level) = some next ∧
        next.view = { state.view with
          indentations := widths level
          tokens := state.view.tokens ++ closed }) :
    View.Leads ⟨List.replicate (2 * level) ' ' ++ c :: rest, true, widths depth, [], tokens⟩
      ⟨c :: rest, false, widths level, [], tokens ++ closed⟩ := by
  apply View.Leads.step
  · exact List.append_ne_nil_of_right_ne_nil _ (List.cons_ne_nil _ _)
  · simp only [View.cost, List.length_append, List.length_replicate, if_true, Bool.false_eq_true,
      if_false]
    omega
  · rintro ⟨_, line, _, _, _, found⟩ shown
    obtain ⟨rfl, rfl, rfl, rfl, rfl⟩ := View.mk.inj shown
    obtain ⟨next, taken, shownNext⟩ :=
      indented ⟨c :: rest, line, false, widths depth, [], found⟩ rfl
    refine ⟨next, ?_, shownNext⟩
    have apart := ne_of_beginsToken begins
    change LexerState.beginLine _ = _
    unfold LexerState.beginLine
    rw [measure_blanks begins, Nat.zero_add]
    dsimp only [Option.bind_eq_bind, Option.bind_some]
    split
    · rename_i shape
      cases shape
      exact absurd rfl (apart '\n' (by decide))
    · rename_i shape
      cases shape
      exact absurd rfl (apart '#' (by decide))
    · exact taken

/-- A line at a level closes the deeper ones. -/
theorem leads_line_start {c : Char} (begins : beginsToken c = true) (shallow : level ≤ depth) :
    View.Leads ⟨List.replicate (2 * level) ' ' ++ c :: rest, true, widths depth, [], tokens⟩
      ⟨c :: rest, false, widths level, [],
        tokens ++ List.replicate (depth - level) .dedent⟩ := by
  apply leads_margin begins
  intro state opened
  rw [LexerState.indentTo, opened, head_widths]
  by_cases same : level = depth
  · subst same
    refine ⟨state, ?_, ?_⟩
    · simp
    · simp [LexerState.view, opened]
  · obtain ⟨next, closed, shown⟩ := dedentTo_widths shallow state
    refine ⟨next, ?_, shown⟩
    rw [← closed]
    simp only [show ¬ 2 * level = 2 * depth by omega, show ¬ 2 * depth < 2 * level by omega,
      if_false]

/-- The first line of a block opens a level. -/
theorem leads_block_start {c : Char} (begins : beginsToken c = true)
    (room : level < LexerState.indentationLimit) :
    View.Leads ⟨List.replicate (2 * (level + 1)) ' ' ++ c :: rest, true, widths level, [], tokens⟩
      ⟨c :: rest, false, widths (level + 1), [], tokens ++ [.indent]⟩ := by
  apply leads_margin begins
  intro state opened
  refine ⟨{ state.emit .indent with indentations := widths (level + 1) }, ?_, ?_⟩
  · rw [LexerState.indentTo, opened, head_widths]
    simp only [length_widths, show ¬ 2 * (level + 1) = 2 * level by omega,
      show 2 * level < 2 * (level + 1) by omega, room, and_self, if_true, if_false]
    rfl
  · simp [LexerState.view, LexerState.emit]

end Indentation

/-! ## Outlines -/

/-- A row of words that can stand in a line of its own. -/
structure Word.IsLine (words : List Word) : Prop where
  nonempty : words ≠ []
  spelled : ∀ word ∈ words, word.isSpelled = true
  closed : words.foldlM Word.nest [] = some []

namespace Outline

mutual

/-- An outline whose lines are readable and whose blocks are not nested too deeply, if it
stands at a level. -/
def Fits (level : Nat) : Outline → Prop
  | entry line below =>
      Word.IsLine line ∧ (below ≠ [] → level < LexerState.indentationLimit) ∧
        AllFit (level + 1) below

def AllFit (level : Nat) : List Outline → Prop
  | [] => True
  | first :: rest => Fits level first ∧ AllFit level rest

end

end Outline

section Outlines

variable {level depth : Nat} {rest : List Char} {tokens : List Token} {line : List Word}

theorem Word.IsLine.exists_cons (isLine : Word.IsLine line) :
    ∃ c behind, Word.line line = c :: behind ∧ beginsToken c = true := by
  obtain ⟨first, words, rfl⟩ := List.exists_cons_of_ne_nil isLine.nonempty
  obtain ⟨c, others, shape, begins⟩ :=
    exists_chars_cons (isLine.spelled first List.mem_cons_self)
  obtain ⟨tail, text⟩ := exists_line_cons first words
  refine ⟨c, others ++ tail, ?_, begins⟩
  rw [text, shape]
  rfl

/-- The words of a line and its end. -/
theorem leads_line_end (isLine : Word.IsLine line) (indentations : List (Nat × Nat)) :
    View.Leads ⟨Word.line line ++ '\n' :: rest, false, indentations, [], tokens⟩
      ⟨rest, true, indentations, [], tokens ++ (line.map Word.token ++ [.newline])⟩ := by
  have words : View.Leads ⟨Word.line line ++ '\n' :: rest, false, indentations, [], tokens⟩
      ⟨'\n' :: rest, false, indentations, [], tokens ++ line.map Word.token⟩ :=
    leads_line line isLine.spelled isLine.closed
  rw [← List.append_assoc]
  exact words.trans leads_newline

/-- A line at a level, behind lines that are no less deep. -/
theorem leads_line_at (isLine : Word.IsLine line) (shallow : level ≤ depth) :
    View.Leads
      ⟨List.replicate (2 * level) ' ' ++ Word.line line ++ '\n' :: rest, true, widths depth, [],
        tokens⟩
      ⟨rest, true, widths level, [],
        tokens ++ List.replicate (depth - level) .dedent ++
          (line.map Word.token ++ [.newline])⟩ := by
  refine View.Leads.trans ?_ (leads_line_end isLine (widths level))
  obtain ⟨c, behind, shape, begins⟩ := isLine.exists_cons
  rw [List.append_assoc, shape]
  exact leads_line_start begins shallow

/-- The first line of a block. -/
theorem leads_block_line (isLine : Word.IsLine line) (room : level < LexerState.indentationLimit) :
    View.Leads
      ⟨List.replicate (2 * (level + 1)) ' ' ++ Word.line line ++ '\n' :: rest, true, widths level,
        [], tokens⟩
      ⟨rest, true, widths (level + 1), [],
        tokens ++ [.indent] ++ (line.map Word.token ++ [.newline])⟩ := by
  refine View.Leads.trans ?_ (leads_line_end isLine (widths (level + 1)))
  obtain ⟨c, behind, shape, begins⟩ := isLine.exists_cons
  rw [List.append_assoc, shape]
  exact leads_block_start begins room

/-- The lexer stands in front of `rest`, at the beginning of a line, and would have taken the
tokens `settled` once all deeper levels are closed. -/
def Settles (level : Nat) (rest : List Char) (settled : List Token) (view : View) : Prop :=
  ∃ depth tokens, level ≤ depth ∧ view = ⟨rest, true, widths depth, [], tokens⟩ ∧
    settled = tokens ++ List.replicate (depth - level) .dedent

theorem Settles.refl (level : Nat) (rest : List Char) (tokens : List Token) :
    Settles level rest tokens ⟨rest, true, widths level, [], tokens⟩ := by
  refine ⟨level, tokens, Nat.le_refl level, rfl, ?_⟩
  rw [Nat.sub_self, List.replicate_zero, List.append_nil]

/-- Closing one more level. -/
theorem Settles.outer {settled : List Token} {view : View}
    (settles : Settles (level + 1) rest settled view) :
    Settles level rest (settled ++ [.dedent]) view := by
  obtain ⟨depth, tokens, deep, rfl, rfl⟩ := settles
  refine ⟨depth, tokens, by omega, rfl, ?_⟩
  have count : depth - level = depth - (level + 1) + 1 := by omega
  rw [count, List.replicate_succ', List.append_assoc]

theorem block_tokensOfAll (first : Outline) (others : List Outline) :
    Outline.block (Outline.tokensOfAll (first :: others)) =
      .indent :: (Outline.tokensOfAll (first :: others) ++ [.dedent]) := by
  have some : Outline.tokensOfAll (first :: others) ≠ [] := by
    cases first
    rw [Outline.tokensOfAll, Outline.tokens]
    simp
  obtain ⟨token, tokens, shape⟩ := List.exists_cons_of_ne_nil some
  rw [shape]
  rfl

mutual

/-- The lexer takes the lines that belong to a line. -/
theorem leads_below (level : Nat) (below : List Outline) (fits : Outline.AllFit (level + 1) below)
    (room : below ≠ [] → level < LexerState.indentationLimit) (rest : List Char)
    (tokens : List Token) :
    ∃ after, View.Leads
        ⟨Outline.charsOfAll (level + 1) below ++ rest, true, widths level, [], tokens⟩ after ∧
      Settles level rest (tokens ++ Outline.block (Outline.tokensOfAll below)) after := by
  match below with
  | [] =>
      refine ⟨_, View.Leads.refl _, ?_⟩
      rw [Outline.tokensOfAll, Outline.block, List.append_nil]
      exact Settles.refl level rest tokens
  | .entry line inner :: others =>
      obtain ⟨⟨isLine, roomInside, fitsInner⟩, fitsOthers⟩ := fits
      have opens := room (List.cons_ne_nil _ _)
      obtain ⟨middle, leadsInner, settlesInner⟩ := leads_below (level + 1) inner fitsInner roomInside
        (Outline.charsOfAll (level + 1) others ++ rest)
        (tokens ++ [.indent] ++ (line.map Word.token ++ [.newline]))
      obtain ⟨after, leadsOthers, settles⟩ :=
        leads_outlines (level + 1) others fitsOthers rest settlesInner
      refine ⟨after, ?_, ?_⟩
      · simp only [Outline.charsOfAll, Outline.chars, List.append_assoc, List.cons_append]
        have header := (leads_block_line isLine opens).trans (leadsInner.trans leadsOthers)
        simpa only [List.append_assoc] using header
      · rw [block_tokensOfAll]
        simpa only [Outline.tokensOfAll, Outline.tokens, List.append_assoc, List.cons_append,
          List.nil_append] using settles.outer

/-- The lexer takes lines at a level. -/
theorem leads_outlines (level : Nat) (outlines : List Outline) (fits : Outline.AllFit level outlines)
    (rest : List Char) {settled : List Token} {before : View}
    (settles : Settles level (Outline.charsOfAll level outlines ++ rest) settled before) :
    ∃ after, View.Leads before after ∧
      Settles level rest (settled ++ Outline.tokensOfAll outlines) after := by
  match outlines with
  | [] =>
      refine ⟨before, View.Leads.refl _, ?_⟩
      rw [Outline.tokensOfAll, List.append_nil]
      exact settles
  | .entry line below :: others =>
      obtain ⟨⟨isLine, room, fitsBelow⟩, fitsOthers⟩ := fits
      obtain ⟨depth, tokens, deep, rfl, rfl⟩ := settles
      obtain ⟨middle, leadsBelow, settlesBelow⟩ := leads_below level below fitsBelow room
        (Outline.charsOfAll level others ++ rest)
        (tokens ++ List.replicate (depth - level) .dedent ++ (line.map Word.token ++ [.newline]))
      obtain ⟨after, leadsOthers, settles⟩ :=
        leads_outlines level others fitsOthers rest settlesBelow
      refine ⟨after, ?_, ?_⟩
      · simp only [Outline.charsOfAll, Outline.chars, List.append_assoc, List.cons_append]
        have header := (leads_line_at isLine deep).trans (leadsBelow.trans leadsOthers)
        simpa only [List.append_assoc] using header
      · simpa only [Outline.tokensOfAll, Outline.tokens, List.append_assoc, List.cons_append,
          List.nil_append] using settles

end

/-! ## Whole texts -/

theorem not_mem_of_spelled {quote inside c : Char} {chars : List Char}
    (spelled : Spelled quote inside chars) (hidden : c = '\r' ∨ c = '\x00') : c ∉ chars := by
  intro member
  cases spelled with
  | plain _ _ printable =>
      rw [← List.mem_singleton.mp member] at printable
      rcases hidden with rfl | rfl <;> cases printable
  | escaped letter stands =>
      rcases List.mem_cons.mp member with rfl | member
      · rcases hidden with same | same <;> cases same
      · rw [← List.mem_singleton.mp member] at stands
        rcases hidden with rfl | rfl <;> cases stands
  | coded letter width asks _ _ =>
      rcases List.mem_cons.mp member with rfl | member
      · rcases hidden with same | same <;> cases same
      rcases List.mem_cons.mp member with rfl | member
      · rcases hidden with rfl | rfl <;> cases asks
      · have alphanumeric := hexDigits_isAlphanum _ _ c member
        rcases hidden with rfl | rfl <;> cases alphanumeric

/-- A written word has none of the characters that are not taken as they are. -/
theorem not_mem_chars {word : Word} (spelled : word.isSpelled = true) {c : Char}
    (hidden : c = '\r' ∨ c = '\x00') : c ∉ word.chars := by
  have letters {letters : List Char} (plain : isPlainWord letters = true) : c ∉ letters := by
    intro member
    have isPlain := isPlainChar_of_mem plain member
    rcases hidden with rfl | rfl <;> cases isPlain
  cases word with
  | name id =>
      rw [Word.isSpelled, isPlainName, Bool.and_eq_true] at spelled
      exact letters spelled.1
  | keyword word =>
      exact letters (isPlainWord_of_mem_keywords word (List.contains_iff_mem.mp spelled))
  | number n =>
      intro member
      have digit := isDigit_of_mem_decimalDigits member
      rcases hidden with rfl | rfl <;> cases digit
  | text content =>
      have isQuote := isQuote_enclosingQuote content.toList
      have notQuote : c ≠ enclosingQuote content.toList := by
        rcases isQuote with same | same <;> rw [same] <;> rcases hidden with rfl | rfl <;> decide
      rw [Word.chars, quotedText, String.toList_ofList]
      intro member
      rcases List.mem_cons.mp member with same | member
      · exact notQuote same
      rcases List.mem_append.mp member with member | member
      · obtain ⟨inside, _, member⟩ := List.mem_flatMap.mp member
        exact not_mem_of_spelled (spelled_quotedChar isQuote inside) hidden member
      · exact notQuote (List.mem_singleton.mp member)
  | mark symbol =>
      rcases hidden with rfl | rfl <;> cases symbol <;> decide

theorem not_mem_line {c : Char} (hidden : c = '\r' ∨ c = '\x00') (words : List Word)
    (spelled : ∀ word ∈ words, word.isSpelled = true) : c ∉ Word.line words := by
  induction words with
  | nil => exact List.not_mem_nil
  | cons first words inductionHypothesis =>
      have outside := not_mem_chars (spelled first List.mem_cons_self) hidden
      have further := inductionHypothesis fun word member =>
        spelled word (List.mem_cons_of_mem first member)
      have notBlank : c ≠ ' ' := by rcases hidden with rfl | rfl <;> decide
      cases words with
      | nil => exact outside
      | cons next words =>
          rw [Word.line, List.mem_append, List.mem_append]
          rintro ((inside | blank) | inside)
          · exact outside inside
          · split at blank
            · cases blank
            · exact notBlank (List.mem_singleton.mp blank)
          · exact further inside

theorem not_mem_outlines {c : Char} (hidden : c = '\r' ∨ c = '\x00') (level : Nat)
    (outlines : List Outline) (fits : Outline.AllFit level outlines) :
    c ∉ Outline.charsOfAll level outlines := by
  match outlines with
  | [] => exact List.not_mem_nil
  | .entry line below :: others =>
      obtain ⟨⟨isLine, _, fitsBelow⟩, fitsOthers⟩ := fits
      have notBlank : c ≠ ' ' := by rcases hidden with rfl | rfl <;> decide
      have notNewline : c ≠ '\n' := by rcases hidden with rfl | rfl <;> decide
      rw [Outline.charsOfAll, Outline.chars]
      simp only [List.mem_append, List.mem_cons, not_or]
      refine ⟨⟨⟨?_, not_mem_line hidden line isLine.spelled⟩, notNewline, ?_⟩, ?_⟩
      · exact fun inside => notBlank (List.eq_of_mem_replicate inside)
      · exact not_mem_outlines hidden (level + 1) below fitsBelow
      · exact not_mem_outlines hidden level others fitsOthers

/-- The text of lines ends with the end of a line. -/
theorem getLast_charsOfAll (level : Nat) (outlines : List Outline) :
    (Outline.charsOfAll level outlines).getLast?.getD '\n' = '\n' := by
  match outlines with
  | [] => rfl
  | .entry line below :: others =>
      have ends := getLast_charsOfAll (level + 1) below
      have endsOthers := getLast_charsOfAll level others
      rw [Outline.charsOfAll, Outline.chars, List.getLast?_append, List.getLast?_append,
        List.getLast?_cons, ends]
      cases last : (Outline.charsOfAll level others).getLast? with
      | none => rfl
      | some c =>
          rw [last] at endsOthers
          exact endsOthers

theorem unify_of_not_mem {input : List Char} (plain : '\r' ∉ input) :
    unifyLines.unify input = input := by
  induction input with
  | nil => rfl
  | cons c input inductionHypothesis =>
      have further := inductionHypothesis fun member => plain (List.mem_cons_of_mem c member)
      have other : c ≠ '\r' := by
        rintro rfl
        exact plain List.mem_cons_self
      rw [unifyLines.unify.eq_def]
      split
      · rename_i shape
        cases shape
        exact absurd rfl other
      · rename_i shape
        cases shape
        exact absurd rfl other
      · rename_i shape
        cases shape
        rw [further]
      · rename_i shape
        cases shape

theorem unifyLines_charsOfAll {outlines : List Outline} (fits : Outline.AllFit 0 outlines)
    (some : outlines ≠ []) :
    unifyLines (Outline.charsOfAll 0 outlines) = Outline.charsOfAll 0 outlines := by
  have ends := getLast_charsOfAll 0 outlines
  have last : (Outline.charsOfAll 0 outlines).getLast? = .some '\n' := by
    cases found : (Outline.charsOfAll 0 outlines).getLast? with
    | none =>
        obtain ⟨⟨line, below⟩, others, rfl⟩ := List.exists_cons_of_ne_nil some
        rw [List.getLast?_eq_none_iff, Outline.charsOfAll, Outline.chars] at found
        simp at found
    | some c =>
        rw [found] at ends
        exact congrArg Option.some ends
  rw [unifyLines, unify_of_not_mem (not_mem_outlines (.inl rfl) 0 outlines fits), last]
  rfl

/-- The lexer takes the tokens of an outline from its text. -/
theorem lex_outlines (outlines : List Outline) (fits : Outline.AllFit 0 outlines) :
    ∃ lexemes, lex normalizeName (String.ofList (Outline.charsOfAll 0 outlines)) = some lexemes ∧
      lexemes.map (·.token) = Outline.tokensOfAll outlines := by
  by_cases none : outlines = []
  · subst none
    exact ⟨[], rfl, rfl⟩
  have unified := unifyLines_charsOfAll fits none
  have start : Settles 0 (Outline.charsOfAll 0 outlines ++ []) []
      ⟨Outline.charsOfAll 0 outlines, true, [], [], []⟩ := by
    rw [List.append_nil]
    exact Settles.refl 0 _ []
  obtain ⟨after, leads, depth, tokens, _, rfl, settled⟩ := leads_outlines 0 outlines fits [] start
  obtain ⟨steps, final, shown, paid, ran⟩ :=
    leads ⟨Outline.charsOfAll 0 outlines, 1, true, [], [], []⟩ rfl
  obtain ⟨atEnd, fresh, indentations, brackets, found⟩ := View.mk.inj shown
  have complete : LexerState.run normalizeName (2 * (Outline.charsOfAll 0 outlines).length + 1)
      ⟨Outline.charsOfAll 0 outlines, 1, true, [], [], []⟩ = some final := by
    simp only [View.cost, List.length_nil, if_true] at paid
    obtain ⟨fuel, enough⟩ : ∃ fuel, 2 * (Outline.charsOfAll 0 outlines).length + 1 =
        steps + (fuel + 1) := ⟨2 * (Outline.charsOfAll 0 outlines).length - steps, by omega⟩
    rw [enough, ran, LexerState.run, atEnd]
    rfl
  refine ⟨final.tokens.reverse ++ final.indentations.map fun _ => ⟨.dedent, final.line⟩, ?_, ?_⟩
  · simp only [lex, String.toList_ofList, unified, complete, Option.bind_eq_bind,
      Option.bind_some, brackets, fresh]
    rfl
  · rw [List.nil_append] at settled
    have closing : (widths depth).map (fun _ => Token.dedent) = List.replicate depth .dedent := by
      rw [List.map_const', length_widths]
    rw [List.map_append, found, settled, indentations, List.map_map, Nat.sub_zero, ← closing]
    rfl

end Outlines

end TorchArchive.Script
