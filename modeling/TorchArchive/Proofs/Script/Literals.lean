import Mathlib.Data.Nat.Digits.Defs
import TorchArchive.Script.Lexer
import TorchArchive.Script.Token

/-!
# Reading names, numbers and texts

A quoted text is read up to its closing quote, and what stands between the quotes resolves
to the text.  The decimal digits of a number are read as the number.
-/

namespace TorchArchive.Script

/-! ## Hexadecimal digits -/

theorem hexValue_digitChar : ∀ digit < 16, hexValue? digit.digitChar = some digit := by
  decide

theorem hexWorth_append (front back : List Char) :
    hexWorth? (front ++ back) = (hexWorth? front).bind fun n =>
      back.foldlM (fun n c => (hexValue? c).map fun d => 16 * n + d) n :=
  List.foldlM_append

theorem hexWorth_toDigits (n : Nat) : hexWorth? (Nat.toDigits 16 n) = some n := by
  induction n using Nat.strong_induction_on with
  | _ n inductionHypothesis =>
      by_cases small : n < 16
      · rw [Nat.toDigits_of_lt_base small]
        simp [hexWorth?, hexValue_digitChar n small]
      · have digits := Nat.toDigits_of_base_le (b := 16) (by decide) (Nat.le_of_not_lt small)
        rw [digits, hexWorth_append, inductionHypothesis (n / 16) (by omega)]
        have worth := hexValue_digitChar (n % 16) (Nat.mod_lt n (by decide))
        simp only [Option.bind_some, List.foldlM_cons, List.foldlM_nil, worth]
        exact congrArg some (Nat.div_add_mod n 16)

theorem hexWorth_hexDigits (width n : Nat) : hexWorth? (hexDigits width n) = some n := by
  have padding : ∀ zeros, hexWorth? (List.replicate zeros '0') = some 0 := by
    intro zeros
    induction zeros with
    | zero => rfl
    | succ zeros inductionHypothesis => exact inductionHypothesis
  rw [hexDigits, hexWorth_append, padding]
  exact hexWorth_toDigits n

theorem length_hexDigits {width n : Nat} (positive : 0 < width) (fits : n < 16 ^ width) :
    (hexDigits width n).length = width := by
  have short : (Nat.toDigits 16 n).length ≤ width :=
    (Nat.length_toDigits_le_iff (by decide) positive).mpr fits
  rw [hexDigits, List.length_append, List.length_replicate]
  omega

theorem hexDigits_isAlphanum (width n : Nat) : ∀ c ∈ hexDigits width n, c.isAlphanum = true := by
  have digit : ∀ digit < 16, digit.digitChar.isAlphanum = true := by decide
  have digits : ∀ n, ∀ c ∈ Nat.toDigits 16 n, c.isAlphanum = true := by
    intro n
    induction n using Nat.strong_induction_on with
    | _ n inductionHypothesis =>
        by_cases small : n < 16
        · rw [Nat.toDigits_of_lt_base small]
          simpa using digit n small
        · rw [Nat.toDigits_of_base_le (by decide) (Nat.le_of_not_lt small)]
          intro c member
          rcases List.mem_append.mp member with front | last
          · exact inductionHypothesis (n / 16) (by omega) c front
          · rw [List.mem_singleton.mp last]
            exact digit _ (Nat.mod_lt n (by decide))
  intro c member
  rcases List.mem_append.mp member with zero | member
  · rw [List.eq_of_mem_replicate zero]
    decide
  · exact digits n c member

/-! ## Quoted characters -/

/-- The forms in which a character stands between quotes: by itself, behind a backslash, or
by its code. -/
inductive Spelled (quote c : Char) : List Char → Prop where
  | plain (notQuote : c ≠ quote) (notEscape : c ≠ '\\') (printable : isPrintable c = true) :
      Spelled quote c [c]
  | escaped (letter : Char) (stands : letterEscape? letter = some c.toNat) :
      Spelled quote c ['\\', letter]
  | coded (letter : Char) (width : Nat) (asks : hexWidth? false letter = some width)
      (positive : 0 < width) (fits : c.toNat < 16 ^ width) :
      Spelled quote c ('\\' :: letter :: hexDigits width c.toNat)

theorem toNat_le_limit (c : Char) : c.toNat ≤ 0x10ffff := by
  rcases c.valid with low | ⟨_, high⟩
  · exact Nat.le_of_lt (Nat.lt_trans low (by decide))
  · exact Nat.le_of_lt_succ high

theorem spelled_codeEscape (quote c : Char) : Spelled quote c (codeEscape c.toNat) := by
  have limit := toNat_le_limit c
  rw [codeEscape]
  split
  · exact .coded 'x' 2 rfl (by decide) (by assumption)
  · split
    · exact .coded 'u' 4 rfl (by decide) (by assumption)
    · exact .coded 'U' 8 rfl (by decide) (by omega)

theorem spelled_quotedChar {quote : Char} (isQuote : quote = '\'' ∨ quote = '"') (c : Char) :
    Spelled quote c (quotedChar quote c) := by
  rw [quotedChar]
  by_cases special : c = quote ∨ c = '\\'
  · rw [if_pos special]
    apply Spelled.escaped
    rcases special with rfl | rfl
    · rcases isQuote with rfl | rfl <;> rfl
    · rfl
  · rw [if_neg special]
    obtain ⟨notQuote, notEscape⟩ := not_or.mp special
    unfold controlEscape?
    split
    · rename_i escape found
      split at found
      · cases found
        exact .escaped 'n' rfl
      · cases found
        exact .escaped 'r' rfl
      · cases found
        exact .escaped 't' rfl
      · cases found
    · split
      · exact .plain notQuote notEscape (by assumption)
      · exact spelled_codeEscape quote c

/-! ## Reading up to the closing quote -/

theorem shortBody_cons {quote c : Char} (notQuote : c ≠ quote) (notEscape : c ≠ '\\')
    (notNewline : c ≠ '\n') (rest : List Char) :
    shortBody quote (c :: rest) =
      (shortBody quote rest).map fun (body, rest) => (c :: body, rest) := by
  cases rest with
  | nil =>
      rw [shortBody.eq_def]
      simp [notQuote, notNewline]
  | cons next rest =>
      rw [shortBody.eq_def]
      simp [notQuote, notEscape, notNewline]

theorem shortBody_run {quote : Char} {run : List Char}
    (plain : ∀ c ∈ run, c ≠ quote ∧ c ≠ '\\' ∧ c ≠ '\n') (rest : List Char) :
    shortBody quote (run ++ rest) =
      (shortBody quote rest).map fun (body, rest) => (run ++ body, rest) := by
  induction run with
  | nil =>
      rw [List.nil_append]
      cases shortBody quote rest with
      | none => rfl
      | some found => rfl
  | cons c run inductionHypothesis =>
      obtain ⟨notQuote, notEscape, notNewline⟩ := plain c List.mem_cons_self
      have further := inductionHypothesis fun c member => plain c (List.mem_cons_of_mem _ member)
      rw [List.cons_append, shortBody_cons notQuote notEscape notNewline, further, Option.map_map]
      rfl

theorem shortBody_escaped (quote letter : Char) (rest : List Char) :
    shortBody quote ('\\' :: letter :: rest) =
      (shortBody quote rest).map fun (body, rest) => ('\\' :: letter :: body, rest) := by
  rw [shortBody]

theorem ne_newline_of_isPrintable {c : Char} (printable : isPrintable c = true) : c ≠ '\n' := by
  rintro rfl
  cases printable

/-- A character between quotes does not end the text. -/
theorem shortBody_spelled {quote c : Char} (isQuote : quote = '\'' ∨ quote = '"')
    {spelled : List Char} (isSpelled : Spelled quote c spelled) (rest : List Char) :
    shortBody quote (spelled ++ rest) =
      (shortBody quote rest).map fun (body, rest) => (spelled ++ body, rest) := by
  cases isSpelled with
  | plain notQuote notEscape printable =>
      exact shortBody_cons notQuote notEscape (ne_newline_of_isPrintable printable) rest
  | escaped letter stands => exact shortBody_escaped quote letter rest
  | coded letter width asks positive fits =>
      have plain : ∀ digit ∈ hexDigits width c.toNat,
          digit ≠ quote ∧ digit ≠ '\\' ∧ digit ≠ '\n' := by
        intro digit member
        have alphanumeric := hexDigits_isAlphanum width c.toNat digit member
        refine ⟨?_, ?_, ?_⟩
        · rintro rfl
          rcases isQuote with rfl | rfl <;> cases alphanumeric
        · rintro rfl
          cases alphanumeric
        · rintro rfl
          cases alphanumeric
      rw [List.cons_append, List.cons_append, shortBody_escaped, shortBody_run plain,
        Option.map_map]
      rfl

theorem shortBody_quoted {quote : Char} (isQuote : quote = '\'' ∨ quote = '"')
    (content rest : List Char) :
    shortBody quote (content.flatMap (quotedChar quote) ++ quote :: rest) =
      some (content.flatMap (quotedChar quote), rest) := by
  induction content with
  | nil =>
      rw [shortBody.eq_def]
      rcases isQuote with rfl | rfl <;> simp
  | cons c content inductionHypothesis =>
      rw [List.flatMap_cons, List.append_assoc,
        shortBody_spelled isQuote (spelled_quotedChar isQuote c), inductionHypothesis]
      rfl

theorem isQuote_enclosingQuote (content : List Char) :
    enclosingQuote content = '\'' ∨ enclosingQuote content = '"' := by
  rw [enclosingQuote]
  split
  · exact .inr rfl
  · exact .inl rfl

/-- What a spelled character begins with is no quote. -/
theorem head_ne_quote {quote c : Char} (isQuote : quote = '\'' ∨ quote = '"')
    {spelled : List Char} (isSpelled : Spelled quote c spelled) :
    ∃ first others, spelled = first :: others ∧ first ≠ quote := by
  have escape : '\\' ≠ quote := by rcases isQuote with rfl | rfl <;> decide
  cases isSpelled with
  | plain notQuote _ _ => exact ⟨_, _, rfl, notQuote⟩
  | escaped _ _ => exact ⟨_, _, rfl, escape⟩
  | coded _ _ _ _ _ => exact ⟨_, _, rfl, escape⟩

/-- A quoted text is read up to its closing quote, unless another quote follows. -/
theorem readBody_quoted {quote : Char} (isQuote : quote = '\'' ∨ quote = '"')
    (content : List Char) {rest : List Char} (apart : rest.head? ≠ some quote) :
    readBody quote (quote :: (content.flatMap (quotedChar quote) ++ quote :: rest)) =
      some (content.flatMap (quotedChar quote), rest) := by
  have body := shortBody_quoted isQuote content rest
  cases content with
  | nil =>
      cases rest with
      | nil => exact body
      | cons next rest =>
          have single : ¬ (quote = quote ∧ quote = quote ∧ next = quote) := by
            rintro ⟨_, _, rfl⟩
            exact apart rfl
          rw [List.flatMap_nil, List.nil_append, readBody, if_neg single]
          exact body
  | cons c content =>
      obtain ⟨first, others, spelled, notQuote⟩ :=
        head_ne_quote isQuote (spelled_quotedChar isQuote c)
      rw [List.flatMap_cons, spelled, List.cons_append, List.cons_append] at body ⊢
      obtain ⟨next, behind, shape⟩ := List.exists_cons_of_ne_nil
        (List.append_ne_nil_of_right_ne_nil (others ++ content.flatMap (quotedChar quote))
          (List.cons_ne_nil quote rest))
      rw [shape] at body ⊢
      rw [readBody, if_neg fun same => notQuote same.2.1]
      exact body

/-! ## Resolving escapes -/

theorem resolve_spelled {quote c : Char} {spelled : List Char}
    (isSpelled : Spelled quote c spelled) (fuel : Nat) (rest : List Char) :
    resolve false (fuel + 1) (spelled ++ rest) =
      (resolve false fuel rest).map (c.toNat :: ·) := by
  cases isSpelled with
  | plain notQuote notEscape printable =>
      rw [List.singleton_append, resolve.eq_def]
      split <;> simp_all
  | escaped letter stands =>
      have notNewline : letter ≠ '\n' := by
        rintro rfl
        cases stands
      rw [List.cons_append, List.cons_append, List.nil_append, resolve]
      · rw [stands]
      · exact notNewline
  | coded letter width asks positive fits =>
      have apart : letter ≠ '\n' ∧ letterEscape? letter = none ∧ isOctal letter = false := by
        unfold hexWidth? at asks
        split at asks
        · decide
        · decide
        · decide
        · cases asks
      obtain ⟨notNewline, unnamed, notOctal⟩ := apart
      have length := length_hexDigits positive fits
      have taken : (hexDigits width c.toNat ++ rest).take width = hexDigits width c.toNat :=
        List.take_left' length
      have left : (hexDigits width c.toNat ++ rest).drop width = rest := List.drop_left' length
      have enough : ¬ (hexDigits width c.toNat ++ rest).length < width := by
        rw [List.length_append, length]
        omega
      rw [List.cons_append, List.cons_append, resolve]
      · simp only [unnamed, notOctal, asks, enough, taken, left, hexWorth_hexDigits,
          Option.bind_eq_bind, Option.bind_some, Nat.not_lt.mpr (toNat_le_limit c),
          Bool.false_eq_true, if_false]
      · exact notNewline

theorem resolve_quoted {quote : Char} (isQuote : quote = '\'' ∨ quote = '"')
    (content : List Char) {fuel : Nat}
    (enough : (content.flatMap (quotedChar quote)).length < fuel) :
    resolve false fuel (content.flatMap (quotedChar quote)) = some (content.map Char.toNat) := by
  induction content generalizing fuel with
  | nil =>
      cases fuel with
      | zero => cases enough
      | succ fuel => rfl
  | cons c content inductionHypothesis =>
      have spelled := spelled_quotedChar isQuote c
      obtain ⟨first, others, shape, _⟩ := head_ne_quote isQuote spelled
      rw [List.flatMap_cons] at enough ⊢
      obtain ⟨less, rfl⟩ : ∃ less, fuel = less + 1 := ⟨fuel - 1, by omega⟩
      have room : (content.flatMap (quotedChar quote)).length < less := by
        rw [shape] at enough
        simp only [List.length_append, List.length_cons] at enough
        omega
      rw [resolve_spelled spelled, inductionHypothesis room]
      rfl

theorem charOf_toNat (c : Char) : charOf c.toNat = c := by
  have scalar : ¬ (0xd800 ≤ c.toNat && c.toNat < 0xe000) = true := by
    have valid := c.valid
    simp only [Bool.and_eq_true, decide_eq_true_eq]
    change c.toNat < 0xd800 ∨ (0xdfff < c.toNat ∧ c.toNat < 0x110000) at valid
    omega
  rw [charOf, if_neg scalar, Char.ofNat_toNat]

/-- What stands between the quotes of a text resolves to the text. -/
theorem decodeText_quoted (content : String) :
    decodeText false (content.toList.flatMap (quotedChar (enclosingQuote content.toList))) =
      some content := by
  have isQuote := isQuote_enclosingQuote content.toList
  have chars : charOf ∘ Char.toNat = id := funext charOf_toNat
  rw [decodeText, if_neg Bool.false_ne_true, resolve_quoted isQuote _ (Nat.lt_succ_self _)]
  rw [Option.map_some, List.map_map, chars, List.map_id, String.ofList_toList]

/-! ## Numbers -/

theorem natOfDigits_decimalDigits (n : Nat) : natOfDigits (decimalDigits n) = n := by
  have value : Nat.ofDigitChars 10 (Nat.toDigits 10 n) 0 = n := Nat.ofDigitChars_ten_toDigits
  rw [Nat.ofDigitChars] at value
  rw [natOfDigits, decimalDigits]
  simpa only [digitValue, Nat.mul_comm] using value

theorem isDigit_of_mem_decimalDigits {n : Nat} {c : Char} (member : c ∈ decimalDigits n) :
    c.isDigit = true :=
  Nat.isDigit_of_mem_toDigits (by decide) (Nat.le_refl 10) member

theorem decimalDigits_ne_nil (n : Nat) : decimalDigits n ≠ [] := by
  intro none
  have positive := Nat.length_toDigits_pos (b := 10) (n := n)
  rw [decimalDigits] at none
  rw [none] at positive
  cases positive

/-- The digits of a number other than zero do not begin with a zero. -/
theorem head_decimalDigits (n : Nat) : (decimalDigits n).head? = some '0' → n = 0 := by
  induction n using Nat.strong_induction_on with
  | _ n inductionHypothesis =>
      intro first
      by_cases small : n < 10
      · have digit : ∀ n < 10, n.digitChar = '0' → n = 0 := by decide
        rw [decimalDigits, Nat.toDigits_of_lt_base small] at first
        exact digit n small (Option.some.inj first)
      · have digits := Nat.toDigits_of_base_le (b := 10) (by decide) (Nat.le_of_not_lt small)
        have some := decimalDigits_ne_nil (n / 10)
        rw [decimalDigits, digits, List.head?_append, ← decimalDigits] at first
        rw [List.head?_eq_some_head some, Option.some_or] at first
        have none := inductionHypothesis (n / 10) (by omega)
          ((List.head?_eq_some_head some).trans first)
        omega

/-- What can stand behind the digits of a number: neither a part of a name nor a point. -/
def EndsDigits (rest : List Char) : Prop :=
  ∀ c, rest.head? = some c → isNameChar c = false ∧ c ≠ '.'

section Digits

variable {digits rest : List Char}

theorem digitRun_cons {c : Char} (plain : c ≠ '_') (rest : List Char) :
    digitRun isDecimal (c :: rest) =
      if isDecimal c then
        (digitRun isDecimal rest).map fun (digits, rest) => (c :: digits, rest)
      else some ([], c :: rest) := by
  rw [digitRun.eq_def]
  split <;> simp_all

theorem not_isNameChar {c : Char} (other : isNameChar c = false) :
    c.isAlphanum = false ∧ c ≠ '_' := by
  rw [isNameChar, Bool.or_eq_false_iff, Bool.or_eq_false_iff, beq_eq_false_iff_ne] at other
  exact other.1

theorem EndsDigits.digitRun (ends : EndsDigits rest) :
    digitRun isDecimal rest = some ([], rest) := by
  cases rest with
  | nil => rfl
  | cons c rest =>
      obtain ⟨notLetter, plain⟩ := not_isNameChar (ends c rfl).1
      have notDigit : isDecimal c = false := by
        rw [Char.isAlphanum, Bool.or_eq_false_iff] at notLetter
        exact notLetter.2
      rw [digitRun_cons plain, notDigit]
      rfl

theorem digitRun_digits (ends : EndsDigits rest) (decimal : ∀ c ∈ digits, c.isDigit = true) :
    digitRun isDecimal (digits ++ rest) = some (digits, rest) := by
  induction digits with
  | nil => exact ends.digitRun
  | cons c digits inductionHypothesis =>
      have isDigit : isDecimal c = true := decimal c List.mem_cons_self
      have plain : c ≠ '_' := by
        rintro rfl
        cases isDigit
      have further := inductionHypothesis fun c member => decimal c (List.mem_cons_of_mem _ member)
      rw [List.cons_append, digitRun_cons plain, isDigit, further]
      rfl

theorem EndsDigits.exponentPart (ends : EndsDigits rest) :
    exponentPart rest = some (none, rest) := by
  cases rest with
  | nil => rfl
  | cons c rest =>
      have noExponent : (c == 'e' || c == 'E') = false := by
        rw [Bool.or_eq_false_iff, beq_eq_false_iff_ne, beq_eq_false_iff_ne]
        constructor
        · rintro rfl
          cases (ends _ rfl).1
        · rintro rfl
          cases (ends _ rfl).1
      unfold Script.exponentPart
      exact if_neg (ne_true_of_eq_false noExponent)

theorem EndsDigits.endsNumeral (ends : EndsDigits rest) : endsNumeral rest = true := by
  have unnamed : rest.head?.any isNameChar = false := by
    cases rest with
    | nil => rfl
    | cons c rest => exact (ends c rfl).1
  rw [Script.endsNumeral, unnamed]
  exact Bool.or_true _

theorem finish_digits (ends : EndsDigits rest) {n : Nat} (decimal : Decimal)
    (few : (decimalDigits n).length ≤ integerDigitLimit) :
    decimalNumeral.finish (decimalDigits n) none none decimal rest = some (.int n, rest) := by
  have leading : ((decimalDigits n).head? == some '0' && n != 0) = false := by
    rw [Bool.and_eq_false_imp, beq_iff_eq, bne_eq_false_iff_eq]
    exact head_decimalDigits n
  unfold decimalNumeral.finish
  simp only [ends.endsNumeral, natOfDigits_decimalDigits, leading, Nat.not_lt.mpr few,
    Bool.not_true, Bool.false_eq_true, if_false]

/-- The digits of a number that is not followed by a part of a numeral. -/
theorem decimalNumeral_digits (ends : EndsDigits rest) {n : Nat}
    (few : (decimalDigits n).length ≤ integerDigitLimit) :
    decimalNumeral (decimalDigits n) rest = some (.int n, rest) := by
  unfold decimalNumeral
  cases rest with
  | nil =>
      simp only [Option.bind_eq_bind, Option.bind_some, ends.exponentPart]
      exact finish_digits ends _ few
  | cons c rest =>
      have pointless : c ≠ '.' := (ends c rfl).2
      have real : (c == 'j' || c == 'J') = false := by
        rw [Bool.or_eq_false_iff, beq_eq_false_iff_ne, beq_eq_false_iff_ne]
        constructor
        · rintro rfl
          cases (ends _ rfl).1
        · rintro rfl
          cases (ends _ rfl).1
      split
      · rename_i shape
        cases shape
        exact absurd rfl pointless
      · simp only [Option.bind_eq_bind, Option.bind_some, ends.exponentPart, real,
          Bool.false_eq_true, if_false]
        exact finish_digits ends _ few

/-- A zero is read like any other number unless the letter of a base follows. -/
theorem readNumeral_cons {c : Char} (digit : c.isDigit = true)
    (decimal : c = '0' → EndsDigits rest) :
    readNumeral (c :: rest) =
      (digitRun isDecimal (c :: rest)).bind fun (whole, rest) => decimalNumeral whole rest := by
  unfold readNumeral
  split
  · rename_i x behind shape
    obtain ⟨zero, rfl⟩ := List.cons.inj shape
    have unnamed := (decimal zero x rfl).1
    have noBase : ∀ letter : Char, isNameChar letter = true → (x == letter) = false := by
      intro letter named
      apply beq_eq_false_iff_ne.mpr
      rintro rfl
      rw [unnamed] at named
      cases named
    have hexadecimal := noBase 'x' rfl
    have hexadecimalToo := noBase 'X' rfl
    have octal := noBase 'o' rfl
    have octalToo := noBase 'O' rfl
    have binary := noBase 'b' rfl
    have binaryToo := noBase 'B' rfl
    simp only [hexadecimal, hexadecimalToo, octal, octalToo, binary, binaryToo, Bool.or_false,
      Bool.false_eq_true, if_false]
    rfl
  · rename_i shape
    cases shape
    cases digit
  · rfl

theorem readNumeral_digits (ends : EndsDigits rest) {n : Nat}
    (few : (decimalDigits n).length ≤ integerDigitLimit) :
    readNumeral (decimalDigits n ++ rest) = some (.int n, rest) := by
  have run := digitRun_digits ends fun c member => isDigit_of_mem_decimalDigits (n := n) member
  obtain ⟨c, others, shape⟩ := List.exists_cons_of_ne_nil (decimalDigits_ne_nil n)
  have digit : c.isDigit = true := by
    apply isDigit_of_mem_decimalDigits (n := n)
    rw [shape]
    exact List.mem_cons_self
  have decimal : c = '0' → EndsDigits (others ++ rest) := by
    rintro rfl
    have zero : n = 0 := head_decimalDigits n (by rw [shape]; rfl)
    subst zero
    cases shape
    exact ends
  rw [shape] at run
  rw [shape, List.cons_append, readNumeral_cons digit decimal]
  rw [← List.cons_append, run, Option.bind_some, ← shape]
  exact decimalNumeral_digits ends few

end Digits

end TorchArchive.Script
