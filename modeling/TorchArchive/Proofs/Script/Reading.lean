import Mathlib.Data.List.Forall2
import TorchArchive.Script.Grammar.Parser

/-!
# Reading tokens

What a parser makes of a row of tokens, whatever lines they stand in.  The laws of the
combinators are stated in the direction in which a text is read: a parser takes the
tokens in front of it to those that are left.
-/

namespace TorchArchive.Script

/-- The tokens that are left, without their lines. -/
def Tokens.tokens (left : Tokens) : List Token := left.list.map (·.token)

namespace Parser

variable {α β : Type} {parser : Parser α} {before between after : List Token}

/-- In front of the tokens `before` a parser has a result as described and leaves the tokens
`after`. -/
def Parses (parser : Parser α) (before : List Token) (result : α → Prop)
    (after : List Token) : Prop :=
  ∀ left : Tokens, left.tokens = before →
    ∃ a next, parser left = some (a, next) ∧ result a ∧ next.tokens = after

/-- In front of the tokens `before` a parser has the result `a` and leaves the tokens
`after`. -/
abbrev Reads (parser : Parser α) (before : List Token) (a : α) (after : List Token) : Prop :=
  parser.Parses before (· = a) after

/-- A parser fails in front of the given tokens. -/
def Fails (parser : Parser α) (before : List Token) : Prop :=
  ∀ left : Tokens, left.tokens = before → parser left = none

/-! ## Sequences -/

theorem reads_pure (a : α) (tokens : List Token) :
    (pure a : Parser α).Reads tokens a tokens := by
  intro left shown
  exact ⟨a, left, rfl, rfl, shown⟩

theorem Parses.pure {a : α} {result : α → Prop} (tokens : List Token) (holds : result a) :
    (pure a : Parser α).Parses tokens result tokens := by
  intro left shown
  exact ⟨a, left, rfl, holds, shown⟩

theorem Parses.imp {first second : α → Prop} (taken : parser.Parses before first after)
    (implies : ∀ a, first a → second a) : parser.Parses before second after := by
  intro left shown
  obtain ⟨a, rest, ran, holds, shown⟩ := taken left shown
  exact ⟨a, rest, ran, implies a holds, shown⟩

theorem Parses.bind {next : α → Parser β} {first : α → Prop} {second : β → Prop}
    (taken : parser.Parses before first between)
    (followed : ∀ a, first a → (next a).Parses between second after) :
    (parser >>= next).Parses before second after := by
  intro left shown
  obtain ⟨a, rest, ran, holds, shown⟩ := taken left shown
  obtain ⟨b, last, ranNext, holdsNext, shownNext⟩ := followed a holds rest shown
  refine ⟨b, last, ?_, holdsNext, shownNext⟩
  change (parser left).bind _ = _
  rw [ran]
  exact ranNext

theorem Reads.bind {next : α → Parser β} {a : α} {second : β → Prop}
    (taken : parser.Reads before a between) (followed : (next a).Parses between second after) :
    (parser >>= next).Parses before second after := by
  apply Parses.bind taken
  rintro _ rfl
  exact followed

/-- What is done if a condition that was read holds. -/
theorem Reads.bind_true {condition : Parser Bool} {yes no : Parser α} {result : α → Prop}
    (taken : condition.Reads before true between) (followed : yes.Parses between result after) :
    (condition >>= fun holds => if holds = true then yes else no).Parses before result after :=
  taken.bind followed

theorem Reads.bind_false {condition : Parser Bool} {yes no : Parser α} {result : α → Prop}
    (taken : condition.Reads before false between) (followed : no.Parses between result after) :
    (condition >>= fun holds => if holds = true then yes else no).Parses before result after :=
  taken.bind followed

theorem Parses.map {first : α → Prop} (f : α → β) (taken : parser.Parses before first after) :
    (f <$> parser).Parses before (fun b => ∃ a, first a ∧ b = f a) after := by
  rw [map_eq_pure_bind]
  exact taken.bind fun a holds => Parses.pure after ⟨a, holds, rfl⟩

theorem Reads.map {a : α} (f : α → β) (taken : parser.Reads before a after) :
    (f <$> parser).Reads before (f a) after := by
  rw [map_eq_pure_bind]
  exact taken.bind (reads_pure (f a) after)

theorem Fails.bind (fails : parser.Fails before) (next : α → Parser β) :
    (parser >>= next).Fails before := by
  intro left shown
  change (parser left).bind _ = _
  rw [fails left shown]
  rfl

theorem Parses.bind_fails {next : α → Parser β} {result : α → Prop}
    (taken : parser.Parses before result between)
    (fails : ∀ a, result a → (next a).Fails between) : (parser >>= next).Fails before := by
  intro left shown
  obtain ⟨a, rest, ran, holds, shown⟩ := taken left shown
  change (parser left).bind _ = _
  rw [ran]
  exact fails a holds rest shown

theorem Reads.bind_fails {next : α → Parser β} {a : α} (taken : parser.Reads before a between)
    (fails : (next a).Fails between) : (parser >>= next).Fails before := by
  apply Parses.bind_fails taken
  rintro _ rfl
  exact fails

theorem Fails.map (fails : parser.Fails before) (f : α → β) : (f <$> parser).Fails before := by
  rw [map_eq_pure_bind]
  exact fails.bind _

theorem fails_failure (tokens : List Token) : (failure : Parser α).Fails tokens := fun _ _ => rfl

/-! ## Alternatives -/

theorem Parses.orElse {result : α → Prop} (taken : parser.Parses before result after)
    (other : Parser α) : (parser <|> other).Parses before result after := by
  intro left shown
  obtain ⟨a, rest, ran, holds, shown⟩ := taken left shown
  refine ⟨a, rest, ?_, holds, shown⟩
  change (parser left <|> other left) = _
  rw [ran]
  rfl

theorem Fails.orElse_eq {other : Parser α} (fails : parser.Fails before) {left : Tokens}
    (shown : left.tokens = before) : (parser <|> other) left = other left := by
  change (parser left <|> other left) = _
  rw [fails left shown]
  rfl

theorem Fails.orElse {other : Parser α} {result : α → Prop} (fails : parser.Fails before)
    (taken : other.Parses before result after) :
    (parser <|> other).Parses before result after := by
  intro left shown
  rw [fails.orElse_eq shown]
  exact taken left shown

theorem Fails.orElse_fails {other : Parser α} (fails : parser.Fails before)
    (failsToo : other.Fails before) : (parser <|> other).Fails before := by
  intro left shown
  rw [fails.orElse_eq shown]
  exact failsToo left shown

theorem Reads.perhaps {a : α} (taken : parser.Reads before a after) :
    (perhaps parser).Reads before (some a) after :=
  (taken.map some).orElse _

theorem Fails.perhaps (fails : parser.Fails before) :
    (perhaps parser).Reads before none before :=
  (fails.map some).orElse (reads_pure none before)

/-! ## Single tokens -/

theorem take_cons (choose : Token → Option α) (lexeme : Lexeme) (others : List Lexeme)
    (bound : Nat) (length_le : (lexeme :: others).length ≤ bound) :
    take choose ⟨lexeme :: others, bound, length_le⟩ =
      (choose lexeme.token).map fun a =>
        (a, ⟨others, bound - 1, Nat.le_sub_one_of_lt length_le⟩) := by
  simp only [take, bind, StateT.bind, get, getThe, MonadStateOf.get, StateT.get, pure,
    Option.bind, Tokens.next?]
  cases choose lexeme.token <;> rfl

theorem reads_take {choose : Token → Option α} {token : Token} {a : α}
    (chosen : choose token = some a) (rest : List Token) :
    (take choose).Reads (token :: rest) a rest := by
  rintro ⟨list, bound, length_le⟩ shown
  cases list with
  | nil => cases shown
  | cons lexeme others =>
      obtain ⟨rfl, rfl⟩ := List.cons.inj shown
      refine ⟨a, ⟨others, bound - 1, Nat.le_sub_one_of_lt length_le⟩, ?_, rfl, rfl⟩
      rw [take_cons, chosen]
      rfl

theorem fails_take {choose : Token → Option α} {tokens : List Token}
    (refused : ∀ token, tokens.head? = some token → choose token = none) :
    (take choose).Fails tokens := by
  rintro ⟨list, bound, length_le⟩ shown
  cases list with
  | nil => rfl
  | cons lexeme others =>
      subst shown
      rw [take_cons, refused lexeme.token rfl]
      rfl

theorem reads_token (wanted : Token) (rest : List Token) :
    (token wanted).Reads (wanted :: rest) () rest :=
  reads_take (if_pos rfl) rest

theorem fails_token {wanted : Token} (other : before.head? ≠ some wanted) :
    (token wanted).Fails before := by
  apply fails_take
  rintro token first
  apply if_neg
  rintro rfl
  exact other first

theorem reads_symbol (spelling : String) (rest : List Token) :
    (symbol spelling).Reads (.symbol spelling :: rest) () rest :=
  reads_token _ rest

theorem reads_keyword (word : String) (rest : List Token) :
    (keyword word).Reads (.keyword word :: rest) () rest :=
  reads_token _ rest

theorem reads_name (id : String) (rest : List Token) :
    name.Reads (.name id :: rest) id rest :=
  reads_take (by rfl) rest

theorem fails_name (other : ∀ id, before.head? ≠ some (.name id)) : name.Fails before := by
  apply fails_take
  rintro token first
  cases token with
  | name id => exact absurd first (other id)
  | _ => rfl

theorem reads_oneOf {spellings : List String} {spelling : String} (member : spelling ∈ spellings)
    (rest : List Token) :
    (oneOf spellings).Reads (.symbol spelling :: rest) spelling rest :=
  reads_take (if_pos (List.contains_iff_mem.mpr member)) rest

theorem fails_oneOf {spellings : List String}
    (other : ∀ spelling ∈ spellings, before.head? ≠ some (.symbol spelling)) :
    (oneOf spellings).Fails before := by
  apply fails_take
  rintro token first
  cases token with
  | symbol spelling =>
      apply if_neg
      intro member
      exact other spelling (List.contains_iff_mem.mp member) first
  | _ => rfl

theorem reads_perhapsSymbol (spelling : String) (rest : List Token) :
    (perhapsSymbol spelling).Reads (.symbol spelling :: rest) true rest :=
  (reads_symbol spelling rest).perhaps.bind (reads_pure true rest)

theorem reads_perhapsSymbol_of_ne {spelling : String}
    (other : before.head? ≠ some (.symbol spelling)) :
    (perhapsSymbol spelling).Reads before false before :=
  (fails_token other).perhaps.bind (reads_pure false before)

/-! ## Looking ahead -/

theorem parses_peek (tokens : List Token) :
    peek.Parses tokens (fun next => next.map (·.token) = tokens.head?) tokens := by
  rintro left rfl
  exact ⟨_, left, rfl, List.head?_map.symm, rfl⟩

theorem parses_tokenBound (tokens : List Token) :
    tokenBound.Parses tokens (fun bound => tokens.length ≤ bound) tokens := by
  rintro left rfl
  refine ⟨_, left, rfl, ?_, rfl⟩
  rw [Tokens.tokens, List.length_map]
  exact left.length_le

theorem parses_line (tokens : List Token) : line.Parses tokens (fun _ => True) tokens := by
  rintro left rfl
  exact ⟨_, left, rfl, trivial, rfl⟩

theorem reads_isNext (wanted : Token) (tokens : List Token) :
    (isNext wanted).Reads tokens (tokens.head? == some wanted) tokens := by
  rintro left rfl
  refine ⟨_, left, rfl, ?_, rfl⟩
  rw [Tokens.tokens, List.head?_map]

theorem reads_isNext_self (wanted : Token) (rest : List Token) :
    (isNext wanted).Reads (wanted :: rest) true (wanted :: rest) := by
  have next := reads_isNext wanted (wanted :: rest)
  rwa [List.head?_cons, beq_self_eq_true] at next

theorem reads_isNext_of_ne {wanted : Token} (other : before.head? ≠ some wanted) :
    (isNext wanted).Reads before false before := by
  have next := reads_isNext wanted before
  rwa [beq_eq_false_iff_ne.mpr other] at next

theorem reads_notBefore {spelling : String} (other : before.head? ≠ some (.symbol spelling)) :
    (notBefore spelling).Reads before () before :=
  (reads_isNext_of_ne other).bind_false (reads_pure () before)

/-- Whether tokens begin with a name and a symbol behind it. -/
def beginsNaming (spelling : String) : List Token → Bool
  | .name _ :: .symbol next :: _ => next == spelling
  | _ => false

theorem reads_isNameBefore (spelling : String) (tokens : List Token) :
    (isNameBefore spelling).Reads tokens (beginsNaming spelling tokens) tokens := by
  rintro ⟨list, bound, length_le⟩ rfl
  refine ⟨_, ⟨list, bound, length_le⟩, ?_, rfl, rfl⟩
  match list, length_le with
  | [], _ => rfl
  | [⟨token, _⟩], _ => cases token <;> rfl
  | ⟨first, _⟩ :: ⟨second, _⟩ :: _, _ =>
      cases first with
      | name id => cases second <;> rfl
      | _ => rfl

/-! ## Repetitions -/

/-- A parser succeeds again and again, with results of a given description, and fails in
the end. -/
inductive Repeats (parser : Parser α) (result : α → β → Prop) :
    List Token → List β → List Token → Prop where
  | done {tokens : List Token} (fails : parser.Fails tokens) :
      Repeats parser result tokens [] tokens
  | more {before between after : List Token} {b : β} {others : List β}
      (taken : parser.Parses before (result · b) between)
      (shorter : between.length < before.length)
      (further : Repeats parser result between others after) :
      Repeats parser result before (b :: others) after

section Repetition

variable {result : α → β → Prop} {bs : List β}

theorem Repeats.parses_within (repeats : Repeats parser result before bs after) {fuel : Nat}
    (enough : before.length ≤ fuel) :
    (manyWithin parser fuel).Parses before (fun as => List.Forall₂ result as bs) after := by
  induction repeats generalizing fuel with
  | done fails =>
      cases fuel with
      | zero => exact Parses.pure _ List.Forall₂.nil
      | succ fuel => exact fails.perhaps.bind (Parses.pure _ List.Forall₂.nil)
  | more taken shorter further inductionHypothesis =>
      cases fuel with
      | zero => omega
      | succ fuel =>
          apply ((taken.map some).orElse _).bind
          rintro _ ⟨a, holds, rfl⟩
          have room := Nat.le_of_lt_succ (Nat.lt_of_lt_of_le shorter enough)
          apply (inductionHypothesis room).bind
          intro others holdOthers
          exact Parses.pure _ (List.Forall₂.cons holds holdOthers)

theorem Repeats.parses_many (repeats : Repeats parser result before bs after) :
    (many parser).Parses before (fun as => List.Forall₂ result as bs) after :=
  (parses_tokenBound before).bind fun _ enough => repeats.parses_within enough

theorem Repeats.parses_some1 {b : β} (repeats : Repeats parser result before (b :: bs) after) :
    (some1 parser).Parses before (fun as => List.Forall₂ result as (b :: bs)) after := by
  cases repeats with
  | more taken shorter further =>
      apply taken.bind
      intro a holds
      apply further.parses_many.bind
      intro others holdOthers
      exact Parses.pure _ (List.Forall₂.cons holds holdOthers)

end Repetition

theorem Repeats.reads_many {as : List α} (repeats : Repeats parser Eq before as after) :
    (many parser).Reads before as after := by
  have parses := repeats.parses_many
  rwa [List.forall₂_eq_eq_eq] at parses

theorem reads_many_of_fails (fails : parser.Fails before) :
    (many parser).Reads before [] before :=
  (Repeats.done fails : Repeats parser Eq before [] before).reads_many

/-! ## Lists -/

theorem fails_separated {spelling : String} (fails : parser.Fails before) :
    (separated spelling parser).Fails before :=
  fails.bind _

/-- The rows of a list and what a parser makes of them, if they stand in front of tokens of
a given description. -/
abbrev ReadsEach (parser : Parser α) (follows : List Token → Prop) (rows : List (List Token))
    (values : List α) : Prop :=
  List.Forall₂ (fun row value => ∀ rest, follows rest → parser.Reads (row ++ rest) value rest)
    rows values

section Rows

variable {follows : List Token → Prop} {rows : List (List Token)} {values : List α}
  {spelling : String}

/-- What follows a row of a list: the next row, or what follows the list. -/
theorem follows_rows (between : ∀ rest, follows (.symbol spelling :: rest)) (last : follows after)
    (rows : List (List Token)) :
    follows (rows.flatMap (fun row => .symbol spelling :: row) ++ after) := by
  cases rows with
  | nil => exact last
  | cons next others => exact between _

/-- The rows of a list behind its first one. -/
theorem ReadsEach.repeats (each : parser.ReadsEach follows rows values)
    (between : ∀ rest, follows (.symbol spelling :: rest)) (last : follows after)
    (ends : after.head? ≠ some (.symbol spelling)) :
    Repeats (do symbol spelling; parser) Eq
      (rows.flatMap (fun row => .symbol spelling :: row) ++ after) values after := by
  induction each with
  | nil => exact Repeats.done ((fails_token ends).bind _)
  | @cons row value rows values reads each inductionHypothesis =>
      rw [List.flatMap_cons, List.append_assoc, List.cons_append]
      have taken := reads _ (follows_rows between last rows)
      refine Repeats.more ((reads_symbol spelling _).bind taken) ?_ inductionHypothesis
      have whole : ∀ rest : List Token, rest.length < (row ++ rest).length + 1 := by
        intro rest
        rw [List.length_append]
        omega
      exact whole _

/-- Rows with a token in between. -/
theorem intercalate_cons (separator : Token) (first : List Token) (rows : List (List Token)) :
    [separator].intercalate (first :: rows) =
      first ++ rows.flatMap (fun row => separator :: row) := by
  rw [List.intercalate]
  induction rows generalizing first with
  | nil => simp
  | cons next others inductionHypothesis =>
      rw [List.intersperse_cons_cons, List.flatten_cons, List.flatten_cons, inductionHypothesis]
      rfl

/-- A list with a symbol in between is read row by row. -/
theorem ReadsEach.separated (each : parser.ReadsEach follows rows values)
    (nonempty : rows ≠ []) (between : ∀ rest, follows (.symbol spelling :: rest))
    (last : follows after) (ends : after.head? ≠ some (.symbol spelling)) :
    (separated spelling parser).Reads ([.symbol spelling].intercalate rows ++ after) values
      after := by
  cases each with
  | nil => exact absurd rfl nonempty
  | @cons row value rows values reads each =>
      rw [intercalate_cons, List.append_assoc]
      apply (reads _ (follows_rows between last rows)).bind
      exact (ReadsEach.repeats each between last ends).reads_many.bind (reads_pure _ _)

theorem ReadsEach.commaList (each : parser.ReadsEach follows rows values) (nonempty : rows ≠ [])
    (between : ∀ rest, follows (.symbol "," :: rest)) (last : follows after)
    (ends : after.head? ≠ some (.symbol ",")) :
    (commaList parser).Reads ([.symbol ","].intercalate rows ++ after)
      (values, decide (1 < values.length)) after := by
  apply (ReadsEach.separated each nonempty between last ends).bind
  exact (reads_perhapsSymbol_of_ne ends).bind (reads_pure _ _)

end Rows

/-- A list of one row. -/
theorem Parses.separated_single {spelling : String} {result : α → Prop}
    (taken : parser.Parses before result after) (ends : after.head? ≠ some (.symbol spelling)) :
    (separated spelling parser).Parses before (fun as => ∃ a, result a ∧ as = [a]) after := by
  apply taken.bind
  intro a holds
  exact (reads_many_of_fails ((fails_token ends).bind _)).bind (Parses.pure after ⟨a, holds, rfl⟩)

theorem reads_separated_single {spelling : String} {a : α} (taken : parser.Reads before a after)
    (ends : after.head? ≠ some (.symbol spelling)) :
    (separated spelling parser).Reads before [a] after := by
  apply taken.bind
  exact (reads_many_of_fails ((fails_token ends).bind _)).bind (reads_pure [a] after)

theorem reads_commaList_single {a : α} (taken : parser.Reads before a after)
    (ends : after.head? ≠ some (.symbol ",")) :
    (commaList parser).Reads before ([a], false) after :=
  (reads_separated_single taken ends).bind
    ((reads_perhapsSymbol_of_ne ends).bind (reads_pure ([a], false) after))

end Parser

end TorchArchive.Script
