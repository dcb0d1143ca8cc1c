import TorchArchive.Archive.Container
import TorchArchive.Proofs.Escape.Loading

/-!
# Traces that fail

A trace yields a result, or nothing if its code is blamed for a fault.  It fails with
all other faults.  So it fails if and only if the search for the function of the model
does, or the run of that function, or if what the function returns is nested too deeply.
-/

namespace TorchArchive

/-! ## What a function returns -/

/-- A value nested deeper than a depth. -/
def Heap.NestsBeyond (heap : Heap) : Nat → Value → Prop
  | 0, _ => True
  | depth + 1, value =>
      ∃ items, heap.items? value = some items ∧
        ∃ item ∈ items, heap.NestsBeyond depth item

/-- The tensors in a value are found unless it is nested too deeply. -/
theorem tensorsIn_eq_error_iff {heap : Heap} (depth : Nat) (value : Value) (fault : Fault) :
    tensorsIn heap depth value = .error fault ↔
      fault = .depth ∧ heap.NestsBeyond depth value := by
  induction depth generalizing value fault with
  | zero =>
      rw [tensorsIn, Heap.NestsBeyond, and_true]
      exact ⟨fun same => (Except.error.inj same).symm, fun same => same ▸ rfl⟩
  | succ depth inductionHypothesis =>
      rw [tensorsIn.eq_def, Heap.NestsBeyond]
      dsimp only
      split
      · refine iff_of_false (fun same => by cases same) ?_
        rintro ⟨_, items, found, _⟩
        cases found
      · split
        · rename_i items found
          rw [Except.bind_eq_error_iff]
          constructor
          · rintro (fails | ⟨_, _, never⟩)
            · obtain ⟨item, member, failsItem⟩ := Except.exists_of_mapM_eq_error fails
              obtain ⟨same, nests⟩ := (inductionHypothesis item fault).mp failsItem
              exact ⟨same, items, found, item, member, nests⟩
            · cases never
          · rintro ⟨rfl, others, foundOthers, item, member, nests⟩
            cases found.symm.trans foundOthers
            left
            cases ends : items.mapM (tensorsIn heap depth) with
            | error other =>
                obtain ⟨_, _, fails⟩ := Except.exists_of_mapM_eq_error ends
                rw [((inductionHypothesis _ other).mp fails).1]
            | ok results =>
                have fails := (inductionHypothesis item .depth).mpr ⟨rfl, nests⟩
                obtain ⟨_, endsItem⟩ := Except.exists_of_mapM_eq_ok ends member
                cases fails.symm.trans endsItem
        · rename_i atom
          refine iff_of_false (fun same => by cases same) ?_
          rintro ⟨_, items, found, _⟩
          cases atom.symm.trans found

/-! ## Traces -/

namespace Container

variable (container : Container)

/-- What the code of a container fails with beyond the code at hand. -/
def hazards : Hazards := .within container.folder container.entries Calls.depthLimit

/-- A search for the function of the model that fails: in the file that the
description names, if what it names is one. -/
def EntryHazard (machine : Machine) : Prop :=
  container.header.script.truthy = true ∧
    match container.header.script.str? with
    | some file => container.hazards.package scriptPackage (some file) machine
    | none => True

/-- A run of a function on placeholders that fails, or returns too deep a value. -/
def RunHazard (ref : Ref .function) : Machine → Prop :=
  Yields (startTrace ref) fun started between =>
    container.hazards.apply ref container.receiver started.2 between ∨
      Yields (container.calls.apply ref container.receiver started.2)
        (fun value after => after.heap.NestsBeyond Heap.nestingLimit value) between

/-- A trace that fails. -/
def TraceHazard (machine : Machine) : Prop :=
  container.EntryHazard machine ∨
    Yields container.findEntry
      (fun found after => ∃ ref, found = .function ref ∧ container.RunHazard ref after)
      machine

variable {container}

theorem hazards_of : container.hazards.Of container.calls :=
  Hazards.within_of container.folder container.entries Calls.depthLimit

theorem findEntry_iff {machine : Machine} :
    Fails Fault.Foreign container.findEntry machine ↔ container.EntryHazard machine := by
  rw [findEntry, EntryHazard]
  split
  · rename_i truthy
    rw [and_iff_right truthy]
    cases container.header.script.str? with
    | some file =>
        refine (Fails.bind_iff_first fun ref after => ?_).trans ?_
        · rw [Run.heap_bind_iff]
          exact Fails.not_pure _
        · exact hazards_of.package scriptPackage (some file) machine
    | none => exact iff_true_intro ((Fails.throw_iff _).mpr rfl)
  · rename_i falsy
    rw [Run.heap_bind_iff]
    exact iff_of_false (Fails.not_pure _) fun hazard => falsy hazard.1

theorem not_placeholders (names : List String) {machine : Machine} :
    ¬ Fails Fault.Foreign (placeholders names) machine := by
  induction names generalizing machine with
  | nil => exact Fails.not_pure _
  | cons first rest inductionHypothesis =>
      exact Fails.not_bind (Fails.not_modifyGet _) fun _ _ =>
        Fails.not_bind inductionHypothesis fun _ _ => Fails.not_pure _

theorem not_startTrace {ref : Ref .function} {machine : Machine} :
    ¬ Fails Fault.Foreign (startTrace ref) machine := by
  refine Fails.not_bind (Fails.not_modifyGet _) fun _ after => ?_
  rw [Run.heap_bind_iff]
  exact Fails.not_bind (not_placeholders _) fun _ _ => Fails.not_pure _

theorem traceFunction_iff {ref : Ref .function} {machine : Machine} :
    Fails Fault.Foreign
        (traceFunction container.calls container.receiver (.function ref)) machine ↔
      container.RunHazard ref machine := by
  rw [traceFunction, RunHazard]
  refine (Fails.bind_congr (iff_false_intro not_startTrace)
    fun started between => ?_).trans (iff_of_eq (false_or _))
  rw [Fails.bind_iff]
  refine or_congr ?_ ?_
  · -- Taking the record back keeps the fault.
    refine (Fails.tryCatch_iff ?_ ?_).trans (hazards_of.apply ref _ _ between)
    · intro fault after foreign
      rw [show fault.isScriptFault = false from foreign]
      exact (Fails.throw_iff fault).mpr foreign
    · intro fault after script
      have throws (machine : Machine) :
          ¬ Fails Fault.Foreign (throw fault : Run Value) machine :=
        (Fails.throw_iff fault).not.mpr script
      dsimp only
      split
      · exact Fails.not_bind (Fails.not_modifyGet _) fun _ _ => throws _
      · exact throws after
  · refine (Yields.tryCatch_iff ?_).trans (Yields.congr fun value after => ?_)
    · rintro fault after ⟨value, last, never, _⟩
      split at never
      · cases never
      · cases never
    · rw [Run.heap_bind_iff]
      refine (Fails.bind_iff_first fun tensors last => ?_).trans ?_
      · refine Fails.not_bind (Fails.not_modifyGet _) fun outputs later => ?_
        rw [Fails.get_bind_iff]
        exact Fails.not_pure _
      · rw [Fails.ofExcept_iff]
        simp [tensorsIn_eq_error_iff, Fault.Foreign, Fault.isScriptFault, Fault.kind]

/-- The run of the function of a model, before its faults are met. -/
theorem entryPoint_bind_iff {machine : Machine} :
    Fails Fault.Foreign
        (container.entryPoint >>= fun entryPoint => do
          return some (← traceFunction container.calls container.receiver entryPoint))
        machine ↔
      container.TraceHazard machine := by
  rw [entryPoint, bind_assoc]
  refine Fails.bind_congr findEntry_iff fun found after => ?_
  cases found with
  | function ref =>
      rw [pure_bind, Fails.bind_iff_first fun _ _ => Fails.not_pure _]
      rw [traceFunction_iff]
      simp
  | _ =>
      refine iff_of_false ?_ ?_
      · have script : Fault.noForward.isScriptFault = true := rfl
        exact not_throw script
      · rintro ⟨ref, same, _⟩
        cases same

end Container

/-! ## An item behind the end of a list -/

namespace BehindEnd

def entries : List Entry :=
  [⟨"version", "1".toUTF8⟩,
    ⟨"model.json",
      "\x7b\"mainModule\":\x7b\"torchscriptArena\":\x7b\"key\":\"m.py\"\x7d\x7d\x7d".toUTF8⟩,
    ⟨"m.py", "def forward(self):\n    x = [1]\n    x[1] = 2\n    return x\n".toUTF8⟩]

/-- Whether the container is made and its trace fails with an index. -/
def fails (start : Machine) : Bool :=
  match Container.load "model" entries start with
  | .ok container loaded =>
      match container.trace loaded with
      | .error .index _ => true
      | _ => false
  | .error _ _ => false

set_option maxRecDepth 100000 in
private theorem fails_initial : fails .initial = true := by
  rw [Machine.initial_eq]
  decide +kernel

end BehindEnd

end TorchArchive
