import TorchArchive.Proofs.Steps

/-!
# How steps fail

A step fails in a state with a fault of some kind.  For a sequence of steps this is
known from its parts: the first one fails, or it yields a value with which the second
one fails.  The faults of interest are those that archive code is not blamed for, which
are not caught when code is run.
-/

namespace TorchArchive

/-- A fault that archive code is not blamed for. -/
def Fault.Foreign (fault : Fault) : Prop := fault.isScriptFault = false

/-- A fault that a call of a builtin does not turn into one of archive code. -/
def Fault.Unguarded (fault : Fault) : Prop := fault.Foreign ∧ ∀ detail, fault ≠ .type detail

instance (fault : Fault) : Decidable fault.Foreign :=
  inferInstanceAs (Decidable (fault.isScriptFault = false))

theorem Fault.not_foreign {fault : Fault} (script : fault.isScriptFault = true) :
    ¬ fault.Foreign := by
  rw [Foreign, script]
  exact Bool.noConfusion

/-- A result whose fault, if it is one, archive code is blamed for. -/
def Blames {α : Type} (result : Except Fault α) : Prop :=
  ∀ fault, result = .error fault → fault.isScriptFault = true

namespace Blames

variable {α β : Type}

theorem ok (value : α) : Blames (.ok value) := fun _ same => by cases same

theorem error {fault : Fault} (script : fault.isScriptFault = true) :
    Blames (.error fault : Except Fault α) := fun _ same => by
  cases same
  exact script

theorem bind {first : Except Fault α} {second : α → Except Fault β}
    (blamesFirst : Blames first) (blamesSecond : ∀ value, Blames (second value)) :
    Blames (first >>= second) := by
  intro fault same
  rcases Except.bind_eq_error_iff.mp same with fails | ⟨value, _, fails⟩
  · exact blamesFirst fault fails
  · exact blamesSecond value fault fails

theorem map {result : Except Fault α} (blames : Blames result) (change : α → β) :
    Blames (result.map change) := by
  cases result with
  | ok value => exact ok _
  | error fault => exact error (blames fault rfl)

end Blames

variable {σ α β : Type} {kind : Fault → Prop} {state : σ}

/-- A step fails in a state with a fault of some kind. -/
def Fails (kind : Fault → Prop) (step : EStateM Fault σ α) (state : σ) : Prop :=
  ∃ fault after, step state = .error fault after ∧ kind fault

/-- A step yields a value in a state, and then a condition holds. -/
def Yields (step : EStateM Fault σ α) (condition : α → σ → Prop) (state : σ) : Prop :=
  ∃ value after, step state = .ok value after ∧ condition value after

theorem Yields.congr {step : EStateM Fault σ α} {left right : α → σ → Prop}
    (same : ∀ value after, left value after ↔ right value after) :
    Yields step left state ↔ Yields step right state :=
  exists_congr fun value => exists_congr fun after => and_congr_right' (same value after)

theorem yields_of_ok {step : EStateM Fault σ α} {condition : α → σ → Prop} {after : σ}
    {value : α} (ends : step state = .ok value after) :
    Yields step condition state ↔ condition value after := by
  constructor
  · rintro ⟨other, otherAfter, otherEnds, holds⟩
    rw [ends] at otherEnds
    cases otherEnds
    exact holds
  · intro holds
    exact ⟨value, after, ends, holds⟩

theorem Yields.map_iff {step : EStateM Fault σ α} {change : α → β}
    {condition : β → σ → Prop} :
    Yields (change <$> step) condition state ↔
      Yields step (fun value => condition (change value)) state := by
  have unfolded : (change <$> step) state =
      match step state with
      | .ok value after => .ok (change value) after
      | .error fault after => .error fault after := by
    change EStateM.map change step state = _
    rw [EStateM.map]
    cases step state with
    | ok value after => rfl
    | error fault after => rfl
  rw [Yields, Yields, unfolded]
  cases step state with
  | ok value after => simp
  | error fault after => simp

/-- A handler whose values are of no interest changes nothing. -/
theorem Yields.tryCatch_iff {step : EStateM Fault σ α}
    {handler : Fault → EStateM Fault σ α} {condition : α → σ → Prop}
    (never : ∀ fault after, ¬ Yields (handler fault) condition after) :
    Yields (tryCatch step handler) condition state ↔ Yields step condition state := by
  constructor
  · rintro ⟨value, after, ends, holds⟩
    rcases EStateM.tryCatch_eq_ok_iff.mp ends with
      here | ⟨fault, between, _, handles⟩
    · exact ⟨value, after, here, holds⟩
    · exact (never fault between ⟨value, after, handles, holds⟩).elim
  · rintro ⟨value, after, ends, holds⟩
    exact ⟨value, after, EStateM.tryCatch_eq_ok_iff.mpr (Or.inl ends), holds⟩

namespace Fails

theorem pure_iff (value : α) :
    Fails kind (pure value : EStateM Fault σ α) state ↔ False := by
  constructor
  · rintro ⟨fault, after, ends, _⟩
    cases ends
  · exact False.elim

theorem throw_iff (fault : Fault) :
    Fails kind (throw fault : EStateM Fault σ α) state ↔ kind fault := by
  constructor
  · rintro ⟨other, after, ends, holds⟩
    cases ends
    exact holds
  · intro holds
    exact ⟨fault, state, rfl, holds⟩

theorem ofExcept_iff (result : Except Fault α) :
    Fails kind (ofExcept result : EStateM Fault σ α) state ↔
      ∃ fault, result = .error fault ∧ kind fault := by
  cases result with
  | ok value =>
      refine (pure_iff value).trans ⟨False.elim, ?_⟩
      rintro ⟨fault, same, _⟩
      cases same
  | error fault =>
      refine (throw_iff fault).trans ⟨fun holds => ⟨fault, rfl, holds⟩, ?_⟩
      rintro ⟨other, same, holds⟩
      cases same
      exact holds

theorem modifyGet_iff (change : σ → α × σ) :
    Fails kind (modifyGet change : EStateM Fault σ α) state ↔ False := by
  constructor
  · rintro ⟨fault, after, ends, _⟩
    cases ends
  · exact False.elim

/-- The first of two steps fails, or the second one does with what the first yields. -/
theorem bind_iff {first : EStateM Fault σ α} {second : α → EStateM Fault σ β} :
    Fails kind (first >>= second) state ↔
      Fails kind first state ∨
        Yields first (fun value => Fails kind (second value)) state := by
  constructor
  · rintro ⟨fault, after, ends, holds⟩
    change EStateM.bind first second state = .error fault after at ends
    rw [EStateM.bind] at ends
    cases endsFirst : first state with
    | ok value between =>
        rw [endsFirst] at ends
        exact Or.inr ⟨value, between, endsFirst, fault, after, ends, holds⟩
    | error other between =>
        rw [endsFirst] at ends
        cases ends
        exact Or.inl ⟨fault, after, endsFirst, holds⟩
  · rintro (⟨fault, after, ends, holds⟩ | ⟨value, between, ends, fault, after, fails, holds⟩)
    · refine ⟨fault, after, ?_, holds⟩
      change EStateM.bind first second state = _
      rw [EStateM.bind, ends]
    · refine ⟨fault, after, ?_, holds⟩
      change EStateM.bind first second state = _
      rw [EStateM.bind, ends]
      exact fails

theorem bind_congr {first : EStateM Fault σ α} {second : α → EStateM Fault σ β}
    {now : Prop} {later : α → σ → Prop} (sameFirst : Fails kind first state ↔ now)
    (sameSecond : ∀ value after, Fails kind (second value) after ↔ later value after) :
    Fails kind (first >>= second) state ↔ now ∨ Yields first later state := by
  rw [bind_iff]
  exact or_congr sameFirst (Yields.congr sameSecond)

/-- A step that does not fail leaves it to the second one. -/
theorem bind_of_ok {first : EStateM Fault σ α} {second : α → EStateM Fault σ β}
    {value : α} {after : σ} (ends : first state = .ok value after) :
    Fails kind (first >>= second) state ↔ Fails kind (second value) after := by
  rw [bind_iff, yields_of_ok ends]
  constructor
  · rintro (⟨fault, other, fails, _⟩ | fails)
    · rw [ends] at fails
      cases fails
    · exact fails
  · exact Or.inr

theorem get_bind_iff {next : σ → EStateM Fault σ α} :
    Fails kind (get >>= next) state ↔ Fails kind (next state) state :=
  bind_of_ok (rfl : (get : EStateM Fault σ σ) state = .ok state state)

theorem modify_bind_iff {change : σ → σ} {next : PUnit → EStateM Fault σ α} :
    Fails kind (modify change >>= next) state ↔
      Fails kind (next PUnit.unit) (change state) :=
  bind_of_ok
    (rfl : (modify change : EStateM Fault σ PUnit) state = .ok .unit (change state))

theorem map_iff {step : EStateM Fault σ α} {change : α → β} :
    Fails kind (change <$> step) state ↔ Fails kind step state := by
  rw [map_eq_pure_bind, bind_iff]
  constructor
  · rintro (fails | ⟨value, after, _, fails⟩)
    · exact fails
    · exact ((pure_iff _).mp fails).elim
  · exact Or.inl

/-- Two steps that never fail do not fail in sequence. -/
theorem not_bind {first : EStateM Fault σ α} {second : α → EStateM Fault σ β}
    (noFirst : ¬ Fails kind first state)
    (noSecond : ∀ value after, ¬ Fails kind (second value) after) :
    ¬ Fails kind (first >>= second) state := by
  rw [bind_iff]
  rintro (fails | ⟨value, after, _, fails⟩)
  · exact noFirst fails
  · exact noSecond value after fails

/-- If only the first step can fail, the sequence fails as it does. -/
theorem bind_iff_first {first : EStateM Fault σ α} {second : α → EStateM Fault σ β}
    (noSecond : ∀ value after, ¬ Fails kind (second value) after) :
    Fails kind (first >>= second) state ↔ Fails kind first state := by
  rw [bind_iff]
  constructor
  · rintro (fails | ⟨value, after, _, fails⟩)
    · exact fails
    · exact (noSecond value after fails).elim
  · exact Or.inl

theorem not_pure (value : α) : ¬ Fails kind (pure value : EStateM Fault σ α) state :=
  (pure_iff value).mp

theorem not_modifyGet (change : σ → α × σ) :
    ¬ Fails kind (modifyGet change : EStateM Fault σ α) state :=
  (modifyGet_iff change).mp

/-- A handler that turns the faults of one kind into those of another, and meets the
other faults without one, fails as the step that it handles. -/
theorem tryCatch_iff {before : Fault → Prop} {step : EStateM Fault σ α}
    {handler : Fault → EStateM Fault σ α}
    (passed : ∀ fault after, before fault → Fails kind (handler fault) after)
    (met : ∀ fault after, ¬ before fault → ¬ Fails kind (handler fault) after) :
    Fails kind (tryCatch step handler) state ↔ Fails before step state := by
  have unfolded : tryCatch step handler state =
      match step state with
      | .ok value after => .ok value after
      | .error fault after => handler fault after := by
    change EStateM.tryCatch step handler state = _
    rw [EStateM.tryCatch]
    cases step state with
    | ok value after => rfl
    | error fault after => rfl
  cases ends : step state with
  | ok value after =>
      rw [ends] at unfolded
      constructor
      · rintro ⟨fault, other, fails, _⟩
        rw [unfolded] at fails
        cases fails
      · rintro ⟨fault, other, fails, _⟩
        rw [ends] at fails
        cases fails
  | error fault after =>
      rw [ends] at unfolded
      constructor
      · intro fails
        by_cases here : before fault
        · exact ⟨fault, after, ends, here⟩
        · obtain ⟨other, otherAfter, failsSo, holds⟩ := fails
          rw [unfolded] at failsSo
          exact (met fault after here ⟨other, otherAfter, failsSo, holds⟩).elim
      · rintro ⟨other, otherAfter, fails, holds⟩
        rw [ends] at fails
        cases fails
        obtain ⟨last, lastAfter, failsLast, lastHolds⟩ := passed fault after holds
        exact ⟨last, lastAfter, unfolded.trans failsLast, lastHolds⟩

end Fails

end TorchArchive
