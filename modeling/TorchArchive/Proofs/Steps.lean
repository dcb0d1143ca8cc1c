import Mathlib.Data.List.Forall2
import TorchArchive.Machine

/-!
# Steps in sequence

How a sequence of two steps ends, for steps that may fail and for steps that also
change a state: with the value of the second one, or with the fault of the first
step that fails.  A property of the state that each step keeps is kept by the
sequence, however it ends.
-/

namespace TorchArchive

section Results

variable {ε α β : Type}

theorem Except.bind_eq_ok_iff {first : Except ε α} {second : α → Except ε β}
    {result : β} :
    first >>= second = .ok result ↔
      ∃ value, first = .ok value ∧ second value = .ok result := by
  cases first with
  | error fault => simp [bind, Except.bind]
  | ok value => simp [bind, Except.bind]

theorem Except.bind_eq_error_iff {first : Except ε α} {second : α → Except ε β}
    {fault : ε} :
    first >>= second = .error fault ↔
      first = .error fault ∨
        ∃ value, first = .ok value ∧ second value = .error fault := by
  cases first with
  | error other => simp [bind, Except.bind]
  | ok value => simp [bind, Except.bind]

/-- Steps over a list yield their results in the places of the items. -/
theorem Except.mapM_eq_ok_iff {step : α → Except ε β} {items : List α}
    {results : List β} :
    items.mapM step = .ok results ↔
      List.Forall₂ (fun item result => step item = .ok result) items results := by
  induction items generalizing results with
  | nil =>
      rw [List.mapM_nil, List.forall₂_nil_left_iff]
      constructor
      · intro ends
        exact (Except.ok.inj ends).symm
      · rintro rfl
        rfl
  | cons first rest inductionHypothesis =>
      rw [List.mapM_cons, Except.bind_eq_ok_iff, List.forall₂_cons_left_iff]
      constructor
      · rintro ⟨result, endsFirst, others⟩
        obtain ⟨results, endsRest, same⟩ := Except.bind_eq_ok_iff.mp others
        cases same
        exact ⟨result, results, endsFirst, inductionHypothesis.mp endsRest, rfl⟩
      · rintro ⟨result, results, endsFirst, endsRest, rfl⟩
        refine ⟨result, endsFirst, Except.bind_eq_ok_iff.mpr ⟨results, ?_, rfl⟩⟩
        exact inductionHypothesis.mpr endsRest

/-- A step over a list that ends does so at each item. -/
theorem Except.exists_of_mapM_eq_ok {step : α → Except ε β} {items : List α}
    {results : List β} (ends : items.mapM step = .ok results) {item : α}
    (member : item ∈ items) : ∃ result, step item = .ok result := by
  obtain ⟨sameLength, pointwise⟩ := List.forall₂_iff_get.mp (mapM_eq_ok_iff.mp ends)
  obtain ⟨position, rfl⟩ := List.get_of_mem member
  exact ⟨_, pointwise position position.isLt (sameLength ▸ position.isLt)⟩

/-- An item of a list that is paired with another one has a partner. -/
theorem exists_partner {relation : α → β → Prop} {items : List α} {partners : List β}
    (pairs : List.Forall₂ relation items partners) {item : α} (member : item ∈ items) :
    ∃ partner ∈ partners, relation item partner := by
  induction pairs with
  | nil => cases member
  | @cons _ partner _ _ first _ inductionHypothesis =>
      rcases List.mem_cons.mp member with rfl | later
      · exact ⟨partner, List.mem_cons_self, first⟩
      · obtain ⟨other, inside, related⟩ := inductionHypothesis later
        exact ⟨other, List.mem_cons_of_mem _ inside, related⟩

/-- A step over a list ends if it does so at each item. -/
theorem Except.exists_mapM {step : α → Except ε β} {items : List α}
    (ends : ∀ item ∈ items, ∃ result, step item = .ok result) :
    ∃ results, items.mapM step = .ok results := by
  induction items with
  | nil => exact ⟨[], rfl⟩
  | cons first rest inductionHypothesis =>
      obtain ⟨endsFirst, endsRest⟩ := List.forall_mem_cons.mp ends
      obtain ⟨result, isResult⟩ := endsFirst
      obtain ⟨results, areResults⟩ := inductionHypothesis endsRest
      refine ⟨result :: results, ?_⟩
      rw [List.mapM_cons, isResult, areResults]
      rfl

/-- A step over a list that fails does so at an item. -/
theorem Except.exists_of_mapM_eq_error {step : α → Except ε β} {items : List α}
    {fault : ε} (fails : items.mapM step = .error fault) :
    ∃ item ∈ items, step item = .error fault := by
  induction items with
  | nil =>
      rw [List.mapM_nil] at fails
      cases fails
  | cons first rest inductionHypothesis =>
      rw [List.mapM_cons] at fails
      rcases bind_eq_error_iff.mp fails with failsFirst | ⟨result, _, failsLater⟩
      · exact ⟨first, List.mem_cons_self, failsFirst⟩
      · rcases bind_eq_error_iff.mp failsLater with failsRest | ⟨results, _, never⟩
        · obtain ⟨item, member, failsItem⟩ := inductionHypothesis failsRest
          exact ⟨item, List.mem_cons_of_mem first member, failsItem⟩
        · cases never

end Results

/-! ## Properties of the state -/

section States

variable {ε σ α β : Type}

theorem EStateM.bind_eq_ok_iff {first : EStateM ε σ α} {second : α → EStateM ε σ β}
    {state after : σ} {result : β} :
    (first >>= second) state = .ok result after ↔
      ∃ value between, first state = .ok value between ∧
        second value between = .ok result after := by
  change EStateM.bind first second state = .ok result after ↔ _
  rw [EStateM.bind]
  cases first state with
  | error fault between => simp
  | ok value between => simp

theorem EStateM.bind_eq_error_iff {first : EStateM ε σ α}
    {second : α → EStateM ε σ β} {state after : σ} {fault : ε} :
    (first >>= second) state = .error fault after ↔
      first state = .error fault after ∨
        ∃ value between, first state = .ok value between ∧
          second value between = .error fault after := by
  change EStateM.bind first second state = .error fault after ↔ _
  rw [EStateM.bind]
  cases first state with
  | error other between => simp
  | ok value between => simp

/-- Behind a first step that ends, the second one is left. -/
theorem EStateM.bind_of_ok {first : EStateM ε σ α} {second : α → EStateM ε σ β}
    {state between : σ} {value : α} (ends : first state = .ok value between) :
    (first >>= second) state = second value between := by
  change EStateM.bind first second state = _
  rw [EStateM.bind, ends]

theorem EStateM.tryCatch_eq_ok_iff {step : EStateM ε σ α}
    {handler : ε → EStateM ε σ α} {state after : σ} {result : α} :
    tryCatch step handler state = .ok result after ↔
      step state = .ok result after ∨
        ∃ fault between, step state = .error fault between ∧
          handler fault between = .ok result after := by
  change EStateM.tryCatch step handler state = .ok result after ↔ _
  rw [EStateM.tryCatch]
  cases step state with
  | error fault between =>
      simp [EStateM.Backtrackable.restore, EStateM.dummyRestore]
  | ok value between => simp

theorem EStateM.tryCatch_eq_error_iff {step : EStateM ε σ α}
    {handler : ε → EStateM ε σ α} {state after : σ} {fault : ε} :
    tryCatch step handler state = .error fault after ↔
      ∃ other between, step state = .error other between ∧
        handler other between = .error fault after := by
  change EStateM.tryCatch step handler state = .error fault after ↔ _
  rw [EStateM.tryCatch]
  cases step state with
  | error other between =>
      simp [EStateM.Backtrackable.restore, EStateM.dummyRestore]
  | ok value between => simp

theorem EStateM.ofExcept_eq_ok_iff {outcome : Except ε α} {state after : σ}
    {result : α} :
    (ofExcept outcome : EStateM ε σ α) state = .ok result after ↔
      outcome = .ok result ∧ after = state := by
  cases outcome with
  | error fault =>
      constructor
      · intro ends
        cases ends
      · rintro ⟨never, _⟩
        cases never
  | ok value =>
      simp [ofExcept, pure, EStateM.pure, eq_comm]

/-- The state that a step leaves, whether it yields a value or fails. -/
def stateAfter (step : EStateM ε σ α) (state : σ) : σ :=
  match step state with
  | .ok _ after => after
  | .error _ after => after

/-- A property of the state that a step keeps, however it ends. -/
def Keeps (property : σ → Prop) (step : EStateM ε σ α) : Prop :=
  ∀ state, property state → property (stateAfter step state)

theorem stateAfter_ok {step : EStateM ε σ α} {state after : σ} {value : α}
    (ends : step state = .ok value after) : stateAfter step state = after := by
  rw [stateAfter, ends]

theorem stateAfter_error {step : EStateM ε σ α} {state after : σ} {fault : ε}
    (ends : step state = .error fault after) : stateAfter step state = after := by
  rw [stateAfter, ends]

/-- What holds behind a sequence holds where the first step fails, and behind the second
step where it yields a value. -/
theorem stateAfter_bind {property : σ → Prop} {first : EStateM ε σ α}
    {second : α → EStateM ε σ β} {state : σ}
    (failsFirst : ∀ fault after, first state = .error fault after → property after)
    (endsFirst :
      ∀ value after, first state = .ok value after →
        property (stateAfter (second value) after)) :
    property (stateAfter (first >>= second) state) := by
  rw [stateAfter] at *
  change property (match EStateM.bind first second state with
    | .ok _ after => after
    | .error _ after => after)
  rw [EStateM.bind]
  cases ends : first state with
  | error fault after => exact failsFirst fault after ends
  | ok value after => exact endsFirst value after ends

namespace Keeps

variable {property : σ → Prop}

theorem ok {step : EStateM ε σ α} (keeps : Keeps property step) {state after : σ}
    {value : α} (ends : step state = .ok value after) (before : property state) :
    property after := by
  rw [← stateAfter_ok ends]
  exact keeps state before

theorem error {step : EStateM ε σ α} (keeps : Keeps property step) {state after : σ}
    {fault : ε} (ends : step state = .error fault after) (before : property state) :
    property after := by
  rw [← stateAfter_error ends]
  exact keeps state before

theorem pure (value : α) :
    Keeps property (Pure.pure value : EStateM ε σ α) := fun _ before => before

theorem throw (fault : ε) :
    Keeps property (MonadExcept.throw fault : EStateM ε σ α) := fun _ before => before

theorem get : Keeps property (MonadState.get : EStateM ε σ σ) :=
  fun _ before => before

theorem ofExcept (result : Except ε α) :
    Keeps property (ofExcept result : EStateM ε σ α) := by
  cases result with
  | ok value => exact pure value
  | error fault => exact throw fault

theorem modifyGet {change : σ → α × σ}
    (kept : ∀ state, property state → property (change state).2) :
    Keeps property (MonadStateOf.modifyGet change : EStateM ε σ α) :=
  fun state before => kept state before

theorem modify {change : σ → σ}
    (kept : ∀ state, property state → property (change state)) :
    Keeps property (modify change : EStateM ε σ PUnit) :=
  fun state before => kept state before

theorem bind {first : EStateM ε σ α} {second : α → EStateM ε σ β}
    (keepsFirst : Keeps property first)
    (keepsSecond : ∀ value, Keeps property (second value)) :
    Keeps property (first >>= second) := by
  intro state before
  have between := keepsFirst state before
  rw [stateAfter] at between ⊢
  change property (match EStateM.bind first second state with
    | .ok _ after => after
    | .error _ after => after)
  rw [EStateM.bind]
  cases ends : first state with
  | error fault after =>
      rw [ends] at between
      exact between
  | ok value after =>
      rw [ends] at between
      exact keepsSecond value after between

/-- What follows a step may use how the step ended. -/
theorem bind_ok {first : EStateM ε σ α} {second : α → EStateM ε σ β}
    (keepsFirst : Keeps property first)
    (keepsSecond :
      ∀ {state value after}, property state → first state = .ok value after →
        Keeps property (second value)) :
    Keeps property (first >>= second) := by
  intro state before
  refine stateAfter_bind (fun _ _ fails => keepsFirst.error fails before) ?_
  intro value after ends
  exact keepsSecond before ends after (keepsFirst.ok ends before)

theorem map {step : EStateM ε σ α} (keeps : Keeps property step) (change : α → β) :
    Keeps property (change <$> step) := by
  have mapped : change <$> step = step >>= fun value => Pure.pure (change value) :=
    map_eq_pure_bind change step
  rw [mapped]
  exact keeps.bind fun value => pure (change value)

theorem tryCatch {step : EStateM ε σ α} {handler : ε → EStateM ε σ α}
    (keepsStep : Keeps property step)
    (keepsHandler : ∀ fault, Keeps property (handler fault)) :
    Keeps property (MonadExcept.tryCatch step handler) := by
  intro state before
  have between := keepsStep state before
  rw [stateAfter] at between ⊢
  change property (match EStateM.tryCatch step handler state with
    | .ok _ after => after
    | .error _ after => after)
  rw [EStateM.tryCatch]
  cases ends : step state with
  | ok value after =>
      rw [ends] at between
      exact between
  | error fault after =>
      rw [ends] at between
      exact keepsHandler fault after between

theorem listMapM {step : α → EStateM ε σ β} (keeps : ∀ item, Keeps property (step item))
    (items : List α) : Keeps property (items.mapM step) := by
  induction items with
  | nil => exact pure []
  | cons first rest inductionHypothesis =>
      rw [List.mapM_cons]
      exact (keeps first).bind fun value =>
        inductionHypothesis.bind fun values => pure (value :: values)

theorem listForM {step : α → EStateM ε σ PUnit}
    (keeps : ∀ item, Keeps property (step item)) (items : List α) :
    Keeps property (items.forM step) := by
  induction items with
  | nil => exact pure PUnit.unit
  | cons first rest inductionHypothesis =>
      change Keeps property (step first >>= fun _ => rest.forM step)
      exact (keeps first).bind fun _ => inductionHypothesis

end Keeps

end States

end TorchArchive
