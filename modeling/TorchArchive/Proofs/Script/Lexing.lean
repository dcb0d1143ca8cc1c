import TorchArchive.Character.Normal
import TorchArchive.Proofs.Script.Literals
import TorchArchive.Proofs.Script.Writing

/-!
# Tokens of written lines

The lexer turns the text of a line into the tokens of its words.  One step of it is paid for
by the text that it uses up; a step that uses up none is the first one of a line, which is
paid for by the end of the line before.
-/

namespace TorchArchive.Script

/-! ## Runs of the lexer -/

/-- A state of the lexer without the lines. -/
structure View where
  rest : List Char
  fresh : Bool
  indentations : List (Nat × Nat)
  brackets : List Char
  /-- The tokens so far, the first one first. -/
  tokens : List Token

def LexerState.view (state : LexerState) : View :=
  ⟨state.rest, state.fresh, state.indentations, state.brackets,
    state.tokens.reverse.map (·.token)⟩

namespace View

/-- A bound on the number of steps to the end of the text. -/
def cost (view : View) : Nat := 2 * view.rest.length + if view.fresh then 1 else 0

/-- The lexer gets from one view to another, in steps that the difference in cost pays for. -/
def Leads (before after : View) : Prop :=
  ∀ state : LexerState, state.view = before →
    ∃ (steps : Nat) (next : LexerState), next.view = after ∧ steps + after.cost ≤ before.cost ∧
      ∀ fuel, state.run normalizeName (steps + fuel) = next.run normalizeName fuel

theorem Leads.refl (view : View) : Leads view view := by
  intro state shown
  refine ⟨0, state, shown, Nat.le_of_eq (Nat.zero_add _), ?_⟩
  intro fuel
  rw [Nat.zero_add]

theorem Leads.trans {first second third : View} (front : Leads first second)
    (back : Leads second third) : Leads first third := by
  intro state shown
  obtain ⟨steps, next, shownNext, paid, ran⟩ := front state shown
  obtain ⟨further, last, shownLast, paidToo, ranToo⟩ := back next shownNext
  refine ⟨steps + further, last, shownLast, by omega, ?_⟩
  intro fuel
  rw [Nat.add_assoc, ran, ranToo]

theorem Leads.step {before after : View} (some : before.rest ≠ [])
    (paid : after.cost < before.cost)
    (stepped : ∀ state : LexerState, state.view = before →
      ∃ next, state.step normalizeName = .some next ∧ next.view = after) :
    Leads before after := by
  intro state shown
  obtain ⟨next, taken, shownNext⟩ := stepped state shown
  refine ⟨1, next, shownNext, by omega, ?_⟩
  intro fuel
  have left : state.rest.isEmpty = false := by
    rw [← shown] at some
    exact List.isEmpty_eq_false_iff.mpr some
  rw [Nat.add_comm, LexerState.run, left, taken]
  rfl

end View

/-! ## Tokens in a line -/

section Line

variable {rest : List Char} {indentations : List (Nat × Nat)} {brackets : List Char}
  {tokens : List Token}

theorem view_emit (state : LexerState) (token : Token) :
    (state.emit token).view = { state.view with tokens := state.view.tokens ++ [token] } := by
  simp [LexerState.view, LexerState.emit]

theorem leads_blank :
    View.Leads ⟨' ' :: rest, false, indentations, brackets, tokens⟩
      ⟨rest, false, indentations, brackets, tokens⟩ := by
  apply View.Leads.step (List.cons_ne_nil _ _)
  · simp only [View.cost, List.length_cons]
    omega
  · rintro ⟨_, line, _, _, _, found⟩ shown
    obtain ⟨rfl, rfl, rfl, rfl, rfl⟩ := View.mk.inj shown
    exact ⟨_, rfl, rfl⟩

theorem leads_newline :
    View.Leads ⟨'\n' :: rest, false, indentations, [], tokens⟩
      ⟨rest, true, indentations, [], tokens ++ [.newline]⟩ := by
  apply View.Leads.step (List.cons_ne_nil _ _)
  · simp only [View.cost, List.length_cons, if_true, Bool.false_eq_true, if_false]
    omega
  · rintro ⟨_, line, _, _, _, found⟩ shown
    obtain ⟨rfl, rfl, rfl, rfl, rfl⟩ := View.mk.inj shown
    refine ⟨_, rfl, ?_⟩
    simp [LexerState.view, LexerState.emit]

/-- A character that neither ends a line, nor joins two lines, nor is passed over. -/
def beginsToken (c : Char) : Bool :=
  !(['\n', '\\', ' ', '\t', '\x0c', '#'].contains c)

theorem ne_of_beginsToken {c : Char} (begins : beginsToken c = true) :
    ∀ other ∈ ['\n', '\\', ' ', '\t', '\x0c', '#'], c ≠ other := by
  rintro other member rfl
  rw [beginsToken, Bool.not_eq_true', ← Bool.not_eq_true, List.contains_iff_mem] at begins
  exact begins member

theorem next_cons {state : LexerState} {c : Char} {behind : List Char}
    (left : state.rest = c :: behind) (begins : beginsToken c = true) :
    state.next normalizeName =
      if c == '"' || c == '\'' then
        state.literal ⟨false, false, false, false, []⟩ c state.rest
      else if LexerState.isDigit c || (c == '.' && behind.head?.any LexerState.isDigit) then
        state.numeral state.rest
      else if isNameChar c then state.word normalizeName state.rest
      else state.symbol state.rest := by
  have apart := ne_of_beginsToken begins
  obtain ⟨_, line, fresh, indentations, brackets, tokens⟩ := state
  subst left
  unfold LexerState.next
  dsimp only
  split
  · rename_i shape
    cases shape
  · rename_i shape
    cases shape
    exact absurd rfl (apart '\n' (by decide))
  · rename_i shape
    cases shape
    exact absurd rfl (apart '\\' (by decide))
  · rename_i shape
    cases shape
    exact absurd rfl (apart '\\' (by decide))
  · rename_i shape
    cases shape
    have notBlank := beq_eq_false_iff_ne.mpr (apart ' ' (by decide))
    have notTab := beq_eq_false_iff_ne.mpr (apart '\t' (by decide))
    have notFeed := beq_eq_false_iff_ne.mpr (apart '\x0c' (by decide))
    have notComment := beq_eq_false_iff_ne.mpr (apart '#' (by decide))
    simp only [notBlank, notTab, notFeed, notComment, Bool.or_false, Bool.false_eq_true, if_false]

end Line

/-! ## Plain words -/

theorem isAlpha_eq (c : Char) :
    c.isAlpha = (decide (c.val ≥ 'A'.val ∧ c.val ≤ 'Z'.val) ||
      (decide (c.val ≥ 'a'.val) && decide (c.val ≤ 'z'.val))) :=
  rfl

theorem toNat_lt_of_isAlphanum {c : Char} (plain : c.isAlphanum = true) : c.toNat < 0x80 := by
  simp only [Char.isAlphanum, isAlpha_eq, Char.isDigit, Bool.or_eq_true, Bool.and_eq_true,
    decide_eq_true_eq, UInt32.le_iff_toNat_le, ge_iff_le] at plain
  change c.val.toNat < 0x80
  have upper : 'Z'.val.toNat = 90 := rfl
  have lower : 'z'.val.toNat = 122 := rfl
  have digit : '9'.val.toNat = 57 := rfl
  omega

theorem isPlainChar_of_mem {letters : List Char} (plain : isPlainWord letters = true) {c : Char}
    (member : c ∈ letters) : isPlainChar c = true := by
  cases letters with
  | nil => cases member
  | cons first others =>
      rw [isPlainWord, Bool.and_eq_true, List.all_eq_true] at plain
      rcases List.mem_cons.mp member with rfl | later
      · have start := plain.1
        rw [isPlainStart] at start
        rw [isPlainChar, Char.isAlphanum]
        simp only [Bool.or_eq_true] at start ⊢
        tauto
      · exact plain.2 c later

theorem not_isDigit_of_isPlainStart {c : Char} (start : isPlainStart c = true) :
    c.isDigit = false := by
  have digit : '9'.val.toNat = 57 := rfl
  have upper : 'A'.val.toNat = 65 := rfl
  have lower : 'a'.val.toNat = 97 := rfl
  rcases Bool.or_eq_true_iff.mp start with underscore | letter
  · rw [beq_iff_eq.mp underscore]
    rfl
  · simp only [isAlpha_eq, Char.isDigit, Bool.or_eq_true, Bool.and_eq_true,
      Bool.and_eq_false_imp, decide_eq_true_eq, decide_eq_false_iff_not,
      UInt32.le_iff_toNat_le, ge_iff_le] at letter ⊢
    omega

theorem toNat_lt_of_isPlainChar {c : Char} (plain : isPlainChar c = true) : c.toNat < 0x80 := by
  rcases Bool.or_eq_true_iff.mp plain with underscore | letter
  · rw [beq_iff_eq.mp underscore]
    decide
  · exact toNat_lt_of_isAlphanum letter

theorem isNameChar_of_isPlainChar {c : Char} (plain : isPlainChar c = true) :
    isNameChar c = true := by
  rw [isNameChar, Bool.or_comm c.isAlphanum, ← isPlainChar, plain]
  rfl

theorem isIdentifierContinue_of_isPlainChar {c : Char} (plain : isPlainChar c = true) :
    isIdentifierContinue c = true := by
  have ascii := toNat_lt_of_isPlainChar plain
  have digit : c.isDigit = ('0' ≤ c && c ≤ '9') := rfl
  rw [isIdentifierContinue, isIdentifierStart, if_pos ascii, ← digit]
  rw [isPlainChar, Char.isAlphanum] at plain
  simp only [Bool.or_eq_true] at plain ⊢
  tauto

theorem isName_of_isPlainWord {letters : List Char} (plain : isPlainWord letters = true) :
    isName letters = true := by
  cases letters with
  | nil => cases plain
  | cons first others =>
      have start : first.toNat < 0x80 :=
        toNat_lt_of_isPlainChar (isPlainChar_of_mem plain List.mem_cons_self)
      have further : others.all isIdentifierContinue = true := by
        rw [List.all_eq_true]
        intro c member
        exact isIdentifierContinue_of_isPlainChar
          (isPlainChar_of_mem plain (List.mem_cons_of_mem first member))
      rw [isPlainWord, Bool.and_eq_true, isPlainStart] at plain
      rw [isName, isIdentifierStart, if_pos start, further, Bool.and_true]
      have letter := plain.1
      simp only [Bool.or_eq_true] at letter ⊢
      tauto

theorem normalizeName_of_isPlainWord {letters : List Char} (plain : isPlainWord letters = true) :
    normalizeName letters = letters := by
  apply if_pos
  rw [List.all_eq_true]
  intro c member
  exact decide_eq_true (toNat_lt_of_isPlainChar (isPlainChar_of_mem plain member))

/-! ## Words -/

namespace Word

def isSpelled : Word → Bool
  | name id => isPlainName id
  | keyword word => keywords.contains word
  | number n => (decimalDigits n).length ≤ integerDigitLimit
  | _ => true

/-- Whether a character can stand right behind a word. -/
def allows : Word → Char → Bool
  | name _, c | keyword _, c => !isNameChar c && c != '"' && c != '\''
  | number _, c => !isNameChar c && c != '.'
  | text _, c => c != '"' && c != '\''
  | mark .colon, c | mark .equals, c => c != '='
  | mark .dot, c => c != '.' && !LexerState.isDigit c
  | mark .minus, c => c != '>' && c != '='
  | _, _ => true

def Follows (word : Word) (rest : List Char) : Prop :=
  ∀ c, rest.head? = some c → word.allows c = true

/-- The brackets that are open behind a word. -/
def nest (brackets : List Char) : Word → Option (List Char)
  | mark .opening =>
      if brackets.length < LexerState.bracketLimit then some ('(' :: brackets) else none
  | mark .itemOpening =>
      if brackets.length < LexerState.bracketLimit then some ('[' :: brackets) else none
  | mark .closing =>
      match brackets with
      | '(' :: outer => some outer
      | _ => none
  | mark .itemClosing =>
      match brackets with
      | '[' :: outer => some outer
      | _ => none
  | _ => some brackets

end Word

section Words

variable {word : Word} {rest : List Char} {indentations : List (Nat × Nat)}
  {brackets inside : List Char} {tokens : List Token}

theorem not_isPrefixOf {c : Char} {others : List Char} (other : rest.head? ≠ some c) :
    (c :: others).isPrefixOf rest = false := by
  cases rest with
  | nil => rfl
  | cons next rest =>
      have apart : (c == next) = false := by
        apply beq_eq_false_iff_ne.mpr
        rintro rfl
        exact other rfl
      rw [List.isPrefixOf, apart, Bool.false_and]

theorem find_symbol {symbol : Mark} (follows : (Word.mark symbol).Follows rest) :
    (symbols.find? fun spelling => spelling.toList.isPrefixOf (symbol.spelling.toList ++ rest)) =
      some symbol.spelling := by
  have apart : ∀ c, (Word.mark symbol).allows c = false → rest.head? ≠ some c := by
    intro c forbidden first
    rw [follows c first] at forbidden
    cases forbidden
  cases symbol with
  | colon =>
      have equals : ['='].isPrefixOf rest = false := not_isPrefixOf (apart '=' rfl)
      simp [symbols, Mark.spelling, equals]
  | equals =>
      have equals : ['='].isPrefixOf rest = false := not_isPrefixOf (apart '=' rfl)
      simp [symbols, Mark.spelling, equals]
  | dot =>
      have dots : ['.', '.'].isPrefixOf rest = false := not_isPrefixOf (apart '.' rfl)
      simp [symbols, Mark.spelling, dots]
  | minus =>
      have arrow : ['>'].isPrefixOf rest = false := not_isPrefixOf (apart '>' rfl)
      have equals : ['='].isPrefixOf rest = false := not_isPrefixOf (apart '=' rfl)
      simp [symbols, Mark.spelling, arrow, equals]
  | _ => simp [symbols, Mark.spelling]

theorem bracket_mark {symbol : Mark} {state : LexerState}
    (nested : (Word.mark symbol).nest state.brackets = some inside) :
    state.bracket symbol.spelling = some { state with brackets := inside } := by
  obtain ⟨_, _, _, _, brackets, _⟩ := state
  cases symbol with
  | opening =>
      rw [Word.nest] at nested
      split at nested
      · rename_i room
        cases nested
        simp [LexerState.bracket, Mark.spelling, room]
      · cases nested
  | itemOpening =>
      rw [Word.nest] at nested
      split at nested
      · rename_i room
        cases nested
        simp [LexerState.bracket, Mark.spelling, room]
      · cases nested
  | closing =>
      simp only [Word.nest] at nested
      split at nested
      · cases nested
        rfl
      · cases nested
  | itemClosing =>
      simp only [Word.nest] at nested
      split at nested
      · cases nested
        rfl
      · cases nested
  | _ =>
      cases nested
      rfl

/-- The lexer takes a token from the front of the text. -/
def Takes (state : LexerState) (rest : List Char) (brackets : List Char) (token : Token) : Prop :=
  ∃ next, state.next normalizeName = some next ∧
    next.view =
      ⟨rest, state.fresh, state.indentations, brackets, state.view.tokens ++ [token]⟩

section Classes

variable {isMember : Char → Bool} {c : Char}

/-- A character of a class is none outside of it. -/
theorem beq_eq_false_of_class (member : isMember c = true) {other : Char}
    (outside : isMember other = false) : (c == other) = false := by
  apply beq_eq_false_iff_ne.mpr
  rintro rfl
  rw [outside] at member
  cases member

theorem beginsToken_of_class (member : isMember c = true)
    (outside : ['\n', '\\', ' ', '\t', '\x0c', '#'].any isMember = false) :
    beginsToken c = true := by
  rw [beginsToken, Bool.not_eq_true', ← Bool.not_eq_true, List.contains_iff_mem]
  intro inside
  exact List.any_eq_false.mp outside c inside member

end Classes

theorem takes_number {state : LexerState} {n : Nat}
    (few : (decimalDigits n).length ≤ integerDigitLimit)
    (left : state.rest = decimalDigits n ++ rest) (ends : EndsDigits rest) :
    Takes state rest state.brackets (.number (.int n)) := by
  obtain ⟨c, others, shape⟩ := List.exists_cons_of_ne_nil (decimalDigits_ne_nil n)
  have digit : c.isDigit = true := by
    apply isDigit_of_mem_decimalDigits (n := n)
    rw [shape]
    exact List.mem_cons_self
  have front : state.rest = c :: (others ++ rest) := by
    rw [left, shape]
    rfl
  have isDigit : LexerState.isDigit c = true := digit
  refine ⟨{ state.emit (.number (.int n)) with rest }, ?_, ?_⟩
  · rw [next_cons front (beginsToken_of_class digit (by decide)),
      beq_eq_false_of_class digit (by decide), beq_eq_false_of_class digit (by decide), isDigit,
      left]
    simp only [Bool.or_self, Bool.false_eq_true, Bool.true_or, if_true, if_false]
    rw [LexerState.numeral, readNumeral_digits ends few]
    rfl
  · simp [LexerState.view, LexerState.emit]

theorem takes_letters {state : LexerState} {letters : List Char}
    (plain : isPlainWord letters = true) (left : state.rest = letters ++ rest)
    (ends : ∀ c, rest.head? = some c → isNameChar c = false ∧ c ≠ '"' ∧ c ≠ '\'') :
    Takes state rest state.brackets
      (if keywords.contains (String.ofList letters) then .keyword (String.ofList letters)
        else .name (String.ofList letters)) := by
  have named : ∀ c ∈ letters, isNameChar c = true := fun c member =>
    isNameChar_of_isPlainChar (isPlainChar_of_mem plain member)
  have stops : rest.takeWhile isNameChar = [] ∧ rest.dropWhile isNameChar = rest := by
    cases rest with
    | nil => exact ⟨rfl, rfl⟩
    | cons c rest =>
        have unnamed := Bool.eq_false_iff.mp (ends c rfl).1
        exact ⟨List.takeWhile_cons_of_neg unnamed, List.dropWhile_cons_of_neg unnamed⟩
  have front : (letters ++ rest).takeWhile isNameChar = letters := by
    rw [List.takeWhile_append_of_pos named, stops.1, List.append_nil]
  have back : (letters ++ rest).dropWhile isNameChar = rest := by
    rw [List.dropWhile_append_of_pos named, stops.2]
  have taken : state.next normalizeName = state.word normalizeName state.rest := by
    cases letters with
    | nil => cases plain
    | cons c others =>
        rw [isPlainWord, Bool.and_eq_true] at plain
        have start := plain.1
        have notDigit : LexerState.isDigit c = false := not_isDigit_of_isPlainStart start
        have isNamed := named c List.mem_cons_self
        rw [next_cons left (beginsToken_of_class start (by decide)),
          beq_eq_false_of_class start (by decide), beq_eq_false_of_class start (by decide),
          beq_eq_false_of_class start (by decide), notDigit, isNamed]
        rfl
  have word : state.word normalizeName state.rest =
      some { state.emit (if keywords.contains (String.ofList letters) then
        .keyword (String.ofList letters) else .name (String.ofList letters)) with rest } := by
    rw [left, LexerState.word, front, back]
    split
    · exact absurd rfl (ends '"' rfl).2.1
    · exact absurd rfl (ends '\'' rfl).2.2
    · simp only [isName_of_isPlainWord plain, normalizeName_of_isPlainWord plain, if_true]
      by_cases keyword : keywords.contains (String.ofList letters) = true
      · simp only [keyword, if_true]
      · simp only [keyword, Bool.false_eq_true, if_false]
  refine ⟨_, taken.trans word, ?_⟩
  simp [LexerState.view, LexerState.emit]

theorem takes_text {state : LexerState} {content : String}
    (left : state.rest = (quotedText content).toList ++ rest)
    (apart : ∀ c, rest.head? = some c → c ≠ '"' ∧ c ≠ '\'') :
    Takes state rest state.brackets (Word.text content).token := by
  have isQuote := isQuote_enclosingQuote content.toList
  have ends : rest.head? ≠ some (enclosingQuote content.toList) := by
    intro first
    obtain ⟨notDouble, notSingle⟩ := apart _ first
    rcases isQuote with single | double
    · exact notSingle single
    · exact notDouble double
  have shape : state.rest = enclosingQuote content.toList ::
      (content.toList.flatMap (quotedChar (enclosingQuote content.toList)) ++
        enclosingQuote content.toList :: rest) := by
    rw [left, quotedText, String.toList_ofList]
    simp
  have quoted : (enclosingQuote content.toList == '"' ||
      enclosingQuote content.toList == '\'') = true := by
    rcases isQuote with same | same <;> rw [same] <;> rfl
  have begins : beginsToken (enclosingQuote content.toList) = true := by
    rcases isQuote with same | same <;> rw [same] <;> rfl
  have body := readBody_quoted isQuote content.toList ends
  have literal : state.literal ⟨false, false, false, false, []⟩
      (enclosingQuote content.toList) state.rest =
      some { state.emit (Word.text content).token with
        rest
        line := state.line +
          countLines (content.toList.flatMap (quotedChar (enclosingQuote content.toList))) } := by
    rw [LexerState.literal, shape, body]
    rfl
  refine ⟨_, (next_cons shape begins).trans ((if_pos quoted).trans literal), ?_⟩
  simp [LexerState.view, LexerState.emit]

theorem takes_mark {state : LexerState} {symbol : Mark}
    (left : state.rest = symbol.spelling.toList ++ rest)
    (follows : (Word.mark symbol).Follows rest)
    (nested : (Word.mark symbol).nest state.brackets = some inside) :
    Takes state rest inside (Word.mark symbol).token := by
  have single : ∃ c, symbol.spelling.toList = [c] ∧ beginsToken c = true ∧
      (c == '"' || c == '\'') = false ∧ LexerState.isDigit c = false ∧ isNameChar c = false ∧
      (c == '.') = (symbol == .dot) := by
    cases symbol <;> exact ⟨_, rfl, rfl, rfl, rfl, rfl, rfl⟩
  obtain ⟨c, spelled, begins, noQuote, noDigit, noName, isDot⟩ := single
  have noNumber : (c == '.' && rest.head?.any LexerState.isDigit) = false := by
    rw [isDot, Bool.and_eq_false_imp, beq_iff_eq]
    rintro rfl
    cases rest with
    | nil => rfl
    | cons next rest =>
        have allowed := follows next rfl
        rw [Word.allows, Bool.and_eq_true, Bool.not_eq_true'] at allowed
        exact allowed.2
  have front : state.rest = c :: rest := by
    rw [left, spelled]
    rfl
  have length : symbol.spelling.length = 1 := by
    rw [← String.length_toList, spelled]
    rfl
  refine ⟨{ { state with brackets := inside }.emit (.symbol symbol.spelling) with rest }, ?_, ?_⟩
  · rw [next_cons front begins, noQuote, noDigit, noNumber, noName, left]
    simp only [Bool.or_self, Bool.false_eq_true, if_false]
    rw [LexerState.symbol, find_symbol follows]
    simp only [Option.bind_eq_bind, Option.bind_some, bracket_mark nested]
    rw [spelled, length]
    rfl
  · simp [LexerState.view, LexerState.emit, Word.token]

theorem isPlainWord_of_mem_keywords : ∀ word ∈ keywords, isPlainWord word.toList = true := by
  decide +kernel

theorem takes_word {state : LexerState} (spelled : word.isSpelled = true)
    (left : state.rest = word.chars ++ rest) (follows : word.Follows rest)
    (nested : word.nest state.brackets = some inside) :
    Takes state rest inside word.token := by
  have letters (allowed : ∀ c, word.allows c = (!isNameChar c && c != '"' && c != '\'')) :
      ∀ c, rest.head? = some c → isNameChar c = false ∧ c ≠ '"' ∧ c ≠ '\'' := by
    intro c first
    have apart := follows c first
    rw [allowed] at apart
    simpa [and_assoc] using apart
  cases word with
  | name id =>
      cases nested
      rw [Word.isSpelled, isPlainName, Bool.and_eq_true, Bool.not_eq_true'] at spelled
      have taken := takes_letters spelled.1 left (letters fun _ => rfl)
      rw [String.ofList_toList, spelled.2] at taken
      exact taken
  | keyword word =>
      cases nested
      have plain := isPlainWord_of_mem_keywords word (List.contains_iff_mem.mp spelled)
      have taken := takes_letters plain left (letters fun _ => rfl)
      rw [Word.isSpelled] at spelled
      rw [String.ofList_toList, spelled] at taken
      exact taken
  | number n =>
      cases nested
      apply takes_number (of_decide_eq_true spelled) left
      intro c first
      simpa [Word.allows] using follows c first
  | text content =>
      cases nested
      apply takes_text left
      intro c first
      simpa [Word.allows] using follows c first
  | mark symbol => exact takes_mark left follows nested

/-- What a word begins with. -/
theorem exists_chars_cons (spelled : word.isSpelled = true) :
    ∃ c others, word.chars = c :: others ∧ beginsToken c = true := by
  have letters {letters : List Char} (plain : isPlainWord letters = true) :
      ∃ c others, letters = c :: others ∧ beginsToken c = true := by
    cases letters with
    | nil => cases plain
    | cons c others =>
        rw [isPlainWord, Bool.and_eq_true] at plain
        exact ⟨c, others, rfl, beginsToken_of_class plain.1 (by decide)⟩
  cases word with
  | name id =>
      rw [Word.isSpelled, isPlainName, Bool.and_eq_true] at spelled
      exact letters spelled.1
  | keyword word =>
      exact letters (isPlainWord_of_mem_keywords word (List.contains_iff_mem.mp spelled))
  | number n =>
      obtain ⟨c, others, shape⟩ := List.exists_cons_of_ne_nil (decimalDigits_ne_nil n)
      have digit : c.isDigit = true := by
        apply isDigit_of_mem_decimalDigits (n := n)
        rw [shape]
        exact List.mem_cons_self
      exact ⟨c, others, shape, beginsToken_of_class digit (by decide)⟩
  | text content =>
      refine ⟨enclosingQuote content.toList, _, String.toList_ofList, ?_⟩
      rcases isQuote_enclosingQuote content.toList with same | same <;> rw [same] <;> rfl
  | mark symbol => cases symbol <;> exact ⟨_, _, rfl, rfl⟩

theorem leads_word (spelled : word.isSpelled = true) (follows : word.Follows rest)
    (nested : word.nest brackets = some inside) :
    View.Leads ⟨word.chars ++ rest, false, indentations, brackets, tokens⟩
      ⟨rest, false, indentations, inside, tokens ++ [word.token]⟩ := by
  obtain ⟨c, others, shape, _⟩ := exists_chars_cons spelled
  have some : word.chars ≠ [] := by
    rw [shape]
    exact List.cons_ne_nil c others
  apply View.Leads.step (List.append_ne_nil_of_left_ne_nil some rest)
  · have positive := List.length_pos_iff.mpr some
    simp only [View.cost, List.length_append]
    omega
  · rintro ⟨_, line, _, _, _, found⟩ shown
    obtain ⟨rfl, rfl, rfl, rfl, rfl⟩ := View.mk.inj shown
    exact takes_word spelled rfl follows nested

/-! ## Lines -/

/-- What can stand behind every word. -/
theorem allows_of_mem (word : Word) :
    ∀ c ∈ [' ', '\n', ')', ']', ',', ':'], word.allows c = true := by
  apply List.all_eq_true.mp
  cases word with
  | mark symbol => cases symbol <;> rfl
  | _ => rfl

theorem follows_cons {c : Char} (allowed : word.allows c = true) (tail : List Char) :
    word.Follows (c :: tail) := by
  rintro _ ⟨rfl⟩
  exact allowed

theorem follows_joined {next : Word} (joins : word.joins next = true)
    (spelled : next.isSpelled = true) (tail : List Char) :
    word.Follows (next.chars ++ tail) := by
  unfold Word.joins at joins
  split at joins
  · exact fun _ _ => rfl
  · exact fun _ _ => rfl
  · exact follows_cons (allows_of_mem word ')' (by decide)) tail
  · exact follows_cons (allows_of_mem word ']' (by decide)) tail
  · exact follows_cons (allows_of_mem word ',' (by decide)) tail
  · exact follows_cons (allows_of_mem word ':' (by decide)) tail
  · exact follows_cons rfl tail
  · exact follows_cons rfl tail
  · exact follows_cons rfl tail
  · exact follows_cons rfl tail
  · exact follows_cons rfl tail
  · rename_i id
    rw [Word.isSpelled, isPlainName, Bool.and_eq_true] at spelled
    rw [Word.chars]
    cases shape : id.toList with
    | nil =>
        rw [shape] at spelled
        cases spelled.1
    | cons c others =>
        rw [shape, isPlainWord, Bool.and_eq_true] at spelled
        have start := spelled.1.1
        have notDigit : LexerState.isDigit c = false := not_isDigit_of_isPlainStart start
        apply follows_cons
        rw [Word.allows, bne, beq_eq_false_of_class start (by decide), notDigit]
        rfl
  · rename_i n
    obtain ⟨c, others, shape⟩ := List.exists_cons_of_ne_nil (decimalDigits_ne_nil n)
    have digit : c.isDigit = true := by
      apply isDigit_of_mem_decimalDigits (n := n)
      rw [shape]
      exact List.mem_cons_self
    rw [Word.chars, shape]
    apply follows_cons
    rw [Word.allows, bne, bne, beq_eq_false_of_class digit (by decide),
      beq_eq_false_of_class digit (by decide)]
    rfl
  · cases joins

theorem exists_line_cons (first : Word) (words : List Word) :
    ∃ tail, Word.line (first :: words) = first.chars ++ tail := by
  cases words with
  | nil => exact ⟨[], (List.append_nil _).symm⟩
  | cons next words =>
      rw [Word.line, List.append_assoc]
      exact ⟨_, rfl⟩

/-- The lexer takes the words of a line, one after the other. -/
theorem leads_line (words : List Word) (spelled : ∀ word ∈ words, word.isSpelled = true)
    (nested : words.foldlM Word.nest brackets = some inside) :
    View.Leads ⟨Word.line words ++ '\n' :: rest, false, indentations, brackets, tokens⟩
      ⟨'\n' :: rest, false, indentations, inside, tokens ++ words.map Word.token⟩ := by
  induction words generalizing brackets tokens with
  | nil =>
      cases nested
      rw [List.map_nil, List.append_nil]
      exact View.Leads.refl _
  | cons first words inductionHypothesis =>
      rw [List.foldlM_cons] at nested
      obtain ⟨between, nestedFirst, nestedRest⟩ := Option.bind_eq_some_iff.mp nested
      have spelledFirst := spelled first List.mem_cons_self
      have spelledRest : ∀ word ∈ words, word.isSpelled = true := fun word member =>
        spelled word (List.mem_cons_of_mem first member)
      have further : View.Leads
          ⟨Word.line words ++ '\n' :: rest, false, indentations, between, tokens ++ [first.token]⟩
          ⟨'\n' :: rest, false, indentations, inside,
            tokens ++ [first.token] ++ words.map Word.token⟩ :=
        inductionHypothesis spelledRest nestedRest
      rw [List.append_assoc, List.singleton_append, ← List.map_cons] at further
      cases words with
      | nil =>
          apply (leads_word spelledFirst _ nestedFirst).trans further
          exact follows_cons (allows_of_mem first '\n' (by decide)) rest
      | cons next words =>
          rw [Word.line, List.append_assoc, List.append_assoc]
          by_cases joins : first.joins next = true
          · rw [if_pos joins, List.nil_append]
            refine (leads_word spelledFirst ?_ nestedFirst).trans further
            obtain ⟨tail, shape⟩ := exists_line_cons next words
            rw [shape, List.append_assoc]
            exact follows_joined joins (spelledRest next List.mem_cons_self) _
          · rw [if_neg joins]
            have blank := allows_of_mem first ' ' (by decide)
            exact (leads_word spelledFirst (follows_cons blank _) nestedFirst).trans
              (leads_blank.trans further)

end Words

end TorchArchive.Script
