import TorchArchive.Archive.Container
import TorchArchive.Proofs.Escape.Laws

/-!
# Sources that archive code is not blamed for

A source that is not valid code is one that the code is blamed for.  What is left are
entries that are no text and texts with a null character.
-/

namespace TorchArchive

namespace Script

/-! ## Phrases outside of the language -/

mutual

theorem expressionOf_blames : ∀ term : Term, Blames (expressionOf term)
  | .constant _ _ | .name _ => by
      rw [expressionOf]
      exact .ok _
  | .list items | .tuple items => by
      rw [expressionOf]
      exact (expressionsOf_blames items).map _
  | .member target _ => by
      rw [expressionOf]
      exact (expressionOf_blames target).map _
  | .item target index => by
      rw [expressionOf]
      exact (expressionOf_blames target).bind fun _ =>
        (expressionOf_blames index).bind fun _ => .ok _
  | .call callee arguments keywords => by
      rw [expressionOf]
      exact (keywordsOf_blames keywords).bind fun _ =>
        (expressionOf_blames callee).bind fun _ =>
          (expressionsOf_blames arguments).bind fun _ => .ok _
  | .unary sign operand => by
      cases operand with
      | constant value marked =>
          unfold expressionOf
          split
          · exact .ok _
          · exact .ok _
          · exact .error rfl
      | _ =>
          rw [expressionOf]
          · exact .error rfl
          all_goals
            intros
            simp_all
  | .slice _ _ _ | .starred _ | .set _ | .dict _ | .binary _ _ _ | .boolean _ _
  | .compare _ _ | .conditional _ _ _ | .function _ _ | .named _ _ | .awaits _
  | .yields _ | .yieldsFrom _ | .gather _ _ _ | .gatherDict _ _ _ | .formatted => by
      rw [expressionOf]
      · exact .error rfl
      all_goals
        intros
        simp_all

theorem expressionsOf_blames : ∀ terms : List Term, Blames (expressionsOf terms)
  | [] => by
      rw [expressionsOf]
      exact .ok _
  | first :: rest => by
      rw [expressionsOf]
      exact (expressionOf_blames first).bind fun _ =>
        (expressionsOf_blames rest).bind fun _ => .ok _

theorem keywordsOf_blames :
    ∀ keywords : List (Option String × Term), Blames (keywordsOf keywords)
  | [] => by
      rw [keywordsOf]
      exact .ok _
  | (none, _) :: _ => by
      rw [keywordsOf]
      exact .error rfl
  | (some _, value) :: rest => by
      rw [keywordsOf]
      exact (expressionOf_blames value).bind fun _ =>
        (keywordsOf_blames rest).bind fun _ => .ok _

end

theorem standalone_blames (term : Term) (line : Nat) : Blames (standalone term line) := by
  unfold standalone
  split
  · exact (expressionOf_blames _).map _
  · exact .ok _
  · exact .error rfl

theorem assignmentOf_blames (target value : Term) :
    Blames (statementOf.assignmentOf target value) :=
  (expressionOf_blames target).bind fun _ => (expressionOf_blames value).bind fun _ => .ok _

mutual

theorem statementOf_blames : ∀ phrase : Phrase, Blames (statementOf phrase)
  | .pass | .returns none | .imports _ => by
      rw [statementOf]
      exact .ok _
  | .returns (some value) => by
      rw [statementOf]
      exact (expressionOf_blames value).map _
  | .functionDef _ _ body | .classDef _ _ body => by
      rw [statementOf]
      exact (statementsOf_blames body).map _
  | .annotated target none => by
      cases target with
      | name name =>
          rw [statementOf]
          exact .ok _
      | _ =>
          rw [statementOf]
          · exact .error rfl
          · intro _ same
            cases same
  | .annotated target (some value) => by
      rw [statementOf]
      exact assignmentOf_blames target value
  | .assign [target] value => by
      rw [statementOf]
      exact assignmentOf_blames target value
  | .assign [] _ | .assign (_ :: _ :: _) _ => by
      rw [statementOf]
      · exact .error rfl
      · intro _ same
        cases same
  | .branch condition taken otherwise => by
      rw [statementOf]
      exact (expressionOf_blames condition).bind fun _ =>
        (statementsOf_blames taken).bind fun _ =>
          (statementsOf_blames otherwise).bind fun _ => .ok _
  | .expression term line => by
      rw [statementOf]
      exact standalone_blames term line
  | .other form line => by
      rw [statementOf]
      exact .error rfl

theorem statementsOf_blames : ∀ phrases : List Phrase, Blames (statementsOf phrases)
  | [] => by
      rw [statementsOf]
      exact .ok _
  | first :: rest => by
      rw [statementsOf]
      exact (statementOf_blames first).bind fun _ =>
        (statementsOf_blames rest).bind fun _ => .ok _

end

end Script

/-! ## Files -/

/-- A source that is text is blamed for what is wrong with it, unless it holds a null
character. -/
theorem Program.read_blames_iff {source file : String} :
    Blames (Program.read source file) ↔ '\x00' ∉ source.toList := by
  rw [Program.read]
  by_cases null : '\x00' ∈ source.toList
  · rw [if_pos (List.contains_iff_mem.mpr null)]
    refine iff_of_false ?_ (not_not_intro null)
    intro blames
    exact Bool.noConfusion (blames _ rfl)
  · rw [if_neg (mt List.contains_iff_mem.mp null)]
    refine iff_of_true ?_ null
    split
    · exact .error rfl
    · exact (Script.statementsOf_blames _).bind fun _ => .ok _

/-- A file that is no source: no text at all, or one with a null character. -/
def Entry.Unreadable (entries : List Entry) (place : String) : Prop :=
  ∃ data, Entry.data? entries place = some data ∧
    ∀ text, String.fromUTF8? data = some text → '\x00' ∈ text.toList

/-- What is wrong with the code of an archive is blamed on it, unless its file is no
source. -/
theorem Container.program_blames_iff {folder : String} {entries : List Entry}
    {file : String} :
    Blames (Container.program folder entries file) ↔
      ¬ Entry.Unreadable entries (folder ++ file) := by
  rw [Container.program, Entry.Unreadable]
  cases found : Entry.data? entries (folder ++ file) with
  | none =>
      refine iff_of_true (Blames.error rfl) ?_
      rintro ⟨data, same, _⟩
      cases same
  | some data =>
      dsimp only
      rw [Container.decodeText]
      cases decoded : String.fromUTF8? data with
      | none =>
          refine iff_of_false ?_ (not_not_intro ⟨data, rfl, ?_⟩)
          · intro blames
            exact Bool.noConfusion (blames .encoding rfl)
          · intro text same
            rw [decoded] at same
            cases same
      | some source =>
          refine Program.read_blames_iff.trans (not_congr ?_)
          simp [decoded]

end TorchArchive
