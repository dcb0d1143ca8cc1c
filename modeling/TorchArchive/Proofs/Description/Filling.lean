import TorchArchive.Proofs.Description.Rows
import TorchArchive.Proofs.Graph.Registration
import TorchArchive.Proofs.Package.Definitions
import TorchArchive.Proofs.Pickle.Objects

/-!
# The modules of a description

The modules are filled from a queue: each round takes a module off the queue, makes the
modules inside of it, sets its fields and puts the new modules at the end.  Modules of the
queue have no fields yet, and a round changes the fields of its own module only.  So what
stands for a row when its round is over does so at the end.
-/

namespace TorchArchive.Description

variable {before between after heap : Heap} {owner ref root : Ref .module}
  {tensors : List (Ref .tensor)} {parameters : List (String × Int)}
  {submodules : List (String × ModuleRow)}

/-! ## Modules that stand for rows -/

/-- The tensor at a place of the table. -/
def tensorAt (tensors : List (Ref .tensor)) (place : Int) : Ref .tensor :=
  tensors.getD place.toNat default

/-- The field of a parameter. -/
def parameterField (tensors : List (Ref .tensor)) (parameter : String × Int) :
    String × Value :=
  (parameter.1, .tensor (tensorAt tensors parameter.2))

/-- The field of a module inside of another one. -/
def childField (child : String × Ref .module) : String × Value := (child.1, .module child.2)

/-- The fields of a module: the modules inside come first. -/
def fieldsOf (tensors : List (Ref .tensor)) (children : List (String × Ref .module))
    (parameters : List (String × Int)) : List (String × Value) :=
  children.map childField ++ parameters.map (parameterField tensors)

mutual

/-- A module stands for a row: its fields are what the row tells. -/
def Stands (heap : Heap) (tensors : List (Ref .tensor)) : ModuleRow → Ref .module → Prop
  | .mk parameters submodules, ref =>
      ∃ children,
        (heap.module ref).fields =
            Pickle.fieldEntries (fieldsOf tensors children parameters) ∧
          StandAll heap tensors submodules children

def StandAll (heap : Heap) (tensors : List (Ref .tensor)) :
    List (String × ModuleRow) → List (String × Ref .module) → Prop
  | [], children => children = []
  | (name, row) :: rest, children =>
      ∃ child others, children = (name, child) :: others ∧ Stands heap tensors row child ∧
        StandAll heap tensors rest others

end

/-- No module stands in two fields, and the root stands in none. -/
structure Tidy (heap : Heap) (root : Ref .module) : Prop where
  rooted : heap.modules.Holds root
  held :
    ∀ {holder child : Ref .module} {name : Value},
      heap.HasField holder name (.module child) →
        heap.modules.Holds child ∧ child ≠ root
  sole :
    ∀ {holder other child : Ref .module} {name text : Value},
      heap.HasField holder name (.module child) →
        heap.HasField other text (.module child) → holder = other ∧ name = text

/-! ## Changes of one module -/

/-- All that changed are the fields of one module, and there are more modules, which have
no fields. -/
structure Refills (before after : Heap) (owner : Ref .module) : Prop where
  rest : after = { before with modules := after.modules }
  held :
    ∀ ref, before.modules.Holds ref →
      after.modules.Holds ref ∧
        (after.module ref).moduleClass = (before.module ref).moduleClass
  others : ∀ ref, ref ≠ owner → (after.module ref).fields = (before.module ref).fields

theorem Refills.refl (heap : Heap) (owner : Ref .module) : Refills heap heap owner :=
  ⟨rfl, fun _ held => ⟨held, rfl⟩, fun _ _ => rfl⟩

theorem Refills.trans (first : Refills before between owner)
    (second : Refills between after owner) : Refills before after owner where
  rest := by
    rw [second.rest, first.rest]
  held := by
    intro ref held
    obtain ⟨heldBetween, sameFirst⟩ := first.held ref held
    obtain ⟨heldAfter, sameSecond⟩ := second.held ref heldBetween
    exact ⟨heldAfter, sameSecond.trans sameFirst⟩
  others := fun ref other => (second.others ref other).trans (first.others ref other)

/-- A module that is not there has no fields. -/
theorem fields_of_not_holds (new : ¬ heap.modules.Holds ref) :
    (heap.module ref).fields = .empty := by
  rw [Heap.module, Store.get_of_not_holds _ new]
  rfl

/-- A new module has no fields. -/
theorem fields_addModule (heap : Heap) (ref : Ref .module) :
    ((heap.addModule (.fresh Heap.baseClass)).2.module ref).fields =
      (heap.module ref).fields := by
  have shown : (heap.addModule (.fresh Heap.baseClass)).2.module ref =
      if heap.modules.next = ref then .fresh Heap.baseClass else heap.module ref :=
    Store.get_add heap.modules ref _
  rw [shown]
  split
  · rename_i same
    rw [← same, fields_of_not_holds (Store.next_not_holds _)]
    rfl
  · rfl

theorem refills_addModule (heap : Heap) (owner : Ref .module) :
    Refills heap (heap.addModule (.fresh Heap.baseClass)).2 owner where
  rest := rfl
  held := by
    intro ref held
    have keeps := Store.keeps_add heap.modules (.fresh Heap.baseClass) ref held
    exact ⟨keeps.1, congrArg Module.moduleClass keeps.2⟩
  others := fun ref _ => fields_addModule heap ref

/-- A heap in which a field of a module is set. -/
def putField (heap : Heap) (owner : Ref .module) (name : String) (value : Value) : Heap :=
  heap.updateModule owner fun module =>
    { module with fields := module.fields.putName name value }

theorem refills_putField (heap : Heap) (owner : Ref .module) (name : String)
    (value : Value) : Refills heap (putField heap owner name value) owner where
  rest := rfl
  held := by
    intro ref held
    refine ⟨Store.holds_set held _ _, ?_⟩
    rw [putField, Heap.module_updateModule]
    split
    · rename_i same
      rw [same]
    · rfl
  others := by
    intro ref other
    rw [putField, Heap.module_updateModule, if_neg (Ne.symm other)]

/-- A new name is put behind the fields that there are. -/
theorem fields_putField {fields : List (String × Value)} {name : String}
    (own : (heap.module owner).fields = Pickle.fieldEntries fields)
    (new : name ∉ fields.map (·.1)) (value : Value) :
    ((putField heap owner name value).module owner).fields =
      Pickle.fieldEntries (fields ++ [(name, value)]) := by
  have unbound : Value.nameKey name ∉ Table.keys (Pickle.fieldEntries fields) := by
    rw [Table.keys, Pickle.fieldEntries, List.map_map]
    intro bound
    obtain ⟨field, member, same⟩ := List.mem_map.mp bound
    exact new (List.mem_map.mpr ⟨field, member, Pickle.nameKey_injective same⟩)
  have puts := Option.some.inj (Pickle.put?_new unbound value)
  rw [putField, Heap.module_updateModule, if_pos rfl]
  change (heap.module owner).fields.putName name value = _
  rw [own]
  refine puts.trans ?_
  rw [Pickle.addFields, Pickle.fieldEntries, Pickle.fieldEntries, Pickle.fieldEntries,
    List.map_append]

theorem setField_eq (owner : Ref .module) (name : String) (value : Value)
    (machine : Machine) :
    setField owner (.str name) value machine =
      .ok () (machine.withHeap (putField machine.heap owner name value)) := rfl

/-! ## The steps of a round -/

/-- A module that is to be filled, with its name, its definition and what this tells. -/
structure Job where
  name : String
  owner : Ref .module
  definition : Datum
  row : ModuleRow

namespace Job

def entry (job : Job) : Ref .module × Datum := (job.owner, job.definition)

def field (job : Job) : String × Ref .module := (job.name, job.owner)

end Job

/-- The modules that were made inside of another one. -/
structure Makes (before after : Heap) (submodules : List (String × ModuleRow))
    (children : List Job) : Prop where
  rows : children.map (fun child => (child.name, child.row)) = submodules
  distinct : (children.map Job.owner).Nodup
  fresh :
    ∀ child ∈ children,
      ¬ before.modules.Holds child.owner ∧ after.modules.Holds child.owner
  told : ∀ child ∈ children, Tells child.definition child.row

/-- The modules inside of a module become fields of it. -/
theorem makeSubmodules_eq {items : List Datum} (tell : TellAll items submodules)
    (machine : Machine) {fields : List (String × Value)}
    (held : machine.heap.modules.Holds owner)
    (own : (machine.heap.module owner).fields = Pickle.fieldEntries fields)
    (distinct : (fields.map (·.1) ++ submodules.map (·.1)).Nodup) :
    ∃ children after,
      makeSubmodules owner items machine =
          .ok (children.map Job.entry) (machine.withHeap after) ∧
        Refills machine.heap after owner ∧
          (after.module owner).fields =
              Pickle.fieldEntries (fields ++ (children.map Job.field).map childField) ∧
            Makes machine.heap after submodules children := by
  induction items generalizing submodules machine fields with
  | nil =>
      cases tell
      exact ⟨[], machine.heap, rfl, .refl _ _, by rw [own]; simp, rfl, List.nodup_nil,
        fun _ member => absurd member List.not_mem_nil,
        fun _ member => absurd member List.not_mem_nil⟩
  | cons definition rest inductionHypothesis =>
      obtain _ | ⟨named, tells, tellRest⟩ := tell
      rename_i name row rows
      let child := machine.heap.modules.next
      let added := (machine.heap.addModule (.fresh Heap.baseClass)).2
      let placed := putField added owner name (.module child)
      have refills : Refills machine.heap placed owner :=
        (refills_addModule machine.heap owner).trans (refills_putField added owner name _)
      have new : name ∉ fields.map (·.1) := fun member =>
        List.disjoint_of_nodup_append distinct member List.mem_cons_self
      have ownPlaced : (placed.module owner).fields =
          Pickle.fieldEntries (fields ++ [(name, .module child)]) :=
        fields_putField ((fields_addModule machine.heap owner).trans own) new _
      have distinctRest :
          ((fields ++ [(name, Value.module child)]).map (·.1) ++ rows.map (·.1)).Nodup := by
        rw [List.map_append, List.append_assoc]
        exact distinct
      obtain ⟨children, after, makes, refillsRest, ownAfter, made⟩ :=
        inductionHypothesis tellRest (machine.withHeap placed) (refills.held owner held).1
          ownPlaced distinctRest
      have childHeld : placed.modules.Holds child :=
        Store.holds_set (Store.holds_next _ _) _ _
      have childNew : ∀ other ∈ children, child ≠ other.owner := by
        rintro other member same
        exact (made.fresh other member).1 (same ▸ childHeld)
      refine ⟨⟨name, child, definition, row⟩ :: children, after, ?_,
        refills.trans refillsRest, ?_, ?_⟩
      · rw [makeSubmodules]
        refine EStateM.bind_eq_ok_iff.mpr ⟨child, machine.withHeap added, rfl, ?_⟩
        refine EStateM.bind_eq_ok_iff.mpr ⟨.str name, _,
          EStateM.ofExcept_eq_ok_iff.mpr ⟨named, rfl⟩, ?_⟩
        refine EStateM.bind_eq_ok_iff.mpr
          ⟨(), _, setField_eq owner name (.module child) _, ?_⟩
        exact EStateM.bind_eq_ok_iff.mpr ⟨_, _, makes, rfl⟩
      · rw [ownAfter, List.append_assoc]
        rfl
      · exact
          { rows := by rw [List.map_cons, made.rows]
            distinct := List.nodup_cons.mpr ⟨by
              intro member
              obtain ⟨other, inside, same⟩ := List.mem_map.mp member
              exact childNew other inside same.symm, made.distinct⟩
            fresh := List.forall_mem_cons.mpr
              ⟨⟨Store.next_not_holds _, (refillsRest.held child childHeld).1⟩,
                fun other member => ⟨fun heldBefore =>
                  (made.fresh other member).1 (refills.held _ heldBefore).1,
                  (made.fresh other member).2⟩⟩
            told := List.forall_mem_cons.mpr ⟨tells, made.told⟩ }

theorem setParameter_eq {parameter : Datum} {name : String} {place : Int}
    (tells : tellsTensor parameter = .ok true)
    (placed : neededEntry parameter tensorKey >>= integerOf = .ok place)
    (named : neededEntry parameter "name" = .ok (.str name))
    (inside : ModuleRow.IsPlace tensors.length place) (machine : Machine) :
    setParameter tensors owner parameter machine =
      .ok () (machine.withHeap
        (putField machine.heap owner name (.tensor (tensorAt tensors place)))) := by
  have short : place.toNat < tensors.length := by
    obtain ⟨low, high⟩ := inside
    omega
  have found : (if place < 0 then none else tensors[place.toNat]?) =
      some (tensorAt tensors place) := by
    rw [if_neg (Int.not_lt.mpr inside.1), tensorAt, List.getD_eq_getElem?_getD,
      List.getElem?_eq_getElem short]
    rfl
  rw [setParameter]
  refine EStateM.bind_eq_ok_iff.mpr
    ⟨true, machine, EStateM.ofExcept_eq_ok_iff.mpr ⟨tells, rfl⟩, ?_⟩
  refine EStateM.bind_eq_ok_iff.mpr
    ⟨place, machine, EStateM.ofExcept_eq_ok_iff.mpr ⟨placed, rfl⟩, ?_⟩
  simp only [found]
  exact EStateM.bind_eq_ok_iff.mpr
    ⟨.str name, machine, EStateM.ofExcept_eq_ok_iff.mpr ⟨named, rfl⟩, rfl⟩

/-- A place outside of the table is a fault of the format. -/
theorem setParameter_fails {parameter : Datum} {name : String} {place : Int}
    (tells : tellsTensor parameter = .ok true)
    (placed : neededEntry parameter tensorKey >>= integerOf = .ok place)
    (named : neededEntry parameter "name" = .ok (.str name))
    (outside : ¬ ModuleRow.IsPlace tensors.length place) (machine : Machine) :
    ∃ text,
      setParameter tensors owner parameter machine =
        .error (.tensorIndex place text) machine := by
  have missing : (if place < 0 then none else tensors[place.toNat]?) = none := by
    split
    · rfl
    · rename_i low
      refine List.getElem?_eq_none ?_
      by_contra short
      exact outside ⟨Int.not_lt.mp low, by omega⟩
  have tellsName : entry parameter "name" .none = .ok (.str name) := by
    rw [neededEntry.eq_def] at named
    split at named
    · split at named
      · rename_i datum finds
        cases named
        rw [entry, entry?, finds]
        rfl
      · cases named
    · cases named
  refine ⟨(Datum.str name).text, ?_⟩
  rw [setParameter]
  refine (EStateM.bind_of_ok (EStateM.ofExcept_eq_ok_iff.mpr ⟨tells, rfl⟩)).trans ?_
  refine (EStateM.bind_of_ok (EStateM.ofExcept_eq_ok_iff.mpr ⟨placed, rfl⟩)).trans ?_
  simp only [missing]
  exact (EStateM.bind_of_ok (EStateM.ofExcept_eq_ok_iff.mpr ⟨tellsName, rfl⟩)).trans rfl

/-- Parameters whose places are in the table become fields. -/
theorem setParameters_eq {items : List Datum} (tell : TellParameters items parameters)
    (inside : ∀ parameter ∈ parameters, ModuleRow.IsPlace tensors.length parameter.2)
    (machine : Machine) {fields : List (String × Value)}
    (own : (machine.heap.module owner).fields = Pickle.fieldEntries fields)
    (distinct : (fields.map (·.1) ++ parameters.map (·.1)).Nodup) :
    ∃ after,
      items.forM (setParameter tensors owner) machine = .ok () (machine.withHeap after) ∧
        Refills machine.heap after owner ∧
          (after.module owner).fields =
            Pickle.fieldEntries (fields ++ parameters.map (parameterField tensors)) := by
  induction tell generalizing machine fields with
  | nil => exact ⟨machine.heap, rfl, .refl _ _, by rw [own]; simp⟩
  | skip skips _ inductionHypothesis =>
      obtain ⟨after, sets, rest⟩ := inductionHypothesis inside machine own distinct
      refine ⟨after, ?_, rest⟩
      refine EStateM.bind_eq_ok_iff.mpr ⟨(), machine, ?_, sets⟩
      exact EStateM.bind_eq_ok_iff.mpr
        ⟨false, machine, EStateM.ofExcept_eq_ok_iff.mpr ⟨skips, rfl⟩, rfl⟩
  | @field parameter _ others name place tells placed named _ inductionHypothesis =>
      obtain ⟨insideHere, insideRest⟩ := List.forall_mem_cons.mp inside
      have new : name ∉ fields.map (·.1) := fun member =>
        List.disjoint_of_nodup_append distinct member List.mem_cons_self
      have ownPlaced := fields_putField own new (.tensor (tensorAt tensors place))
      have distinctRest :
          ((fields ++ [(name, Value.tensor (tensorAt tensors place))]).map (·.1) ++
            others.map (·.1)).Nodup := by
        rw [List.map_append, List.append_assoc]
        exact distinct
      obtain ⟨after, sets, refills, ownAfter⟩ := inductionHypothesis insideRest
        (machine.withHeap (putField machine.heap owner name
          (.tensor (tensorAt tensors place)))) ownPlaced distinctRest
      refine ⟨after, ?_, (refills_putField machine.heap owner name _).trans refills, ?_⟩
      · exact EStateM.bind_eq_ok_iff.mpr
          ⟨(), _, setParameter_eq tells placed named insideHere machine, sets⟩
      · rw [ownAfter, List.append_assoc]
        rfl

/-- One place outside of the table is enough to fail. -/
theorem setParameters_fails {items : List Datum} (tell : TellParameters items parameters)
    {outside : String × Int} (member : outside ∈ parameters)
    (isOutside : ¬ ModuleRow.IsPlace tensors.length outside.2) (machine : Machine) :
    ∃ fault after,
      items.forM (setParameter tensors owner) machine = .error fault after ∧
        fault.kind = .format := by
  induction tell generalizing machine with
  | nil => cases member
  | skip skips _ inductionHypothesis =>
      obtain ⟨fault, after, fails, isFormat⟩ := inductionHypothesis member machine
      refine ⟨fault, after, ?_, isFormat⟩
      refine EStateM.bind_eq_error_iff.mpr (Or.inr ⟨(), machine, ?_, fails⟩)
      exact EStateM.bind_eq_ok_iff.mpr
        ⟨false, machine, EStateM.ofExcept_eq_ok_iff.mpr ⟨skips, rfl⟩, rfl⟩
  | @field parameter _ others name place tells placed named _ inductionHypothesis =>
      by_cases inside : ModuleRow.IsPlace tensors.length place
      · rcases List.mem_cons.mp member with rfl | later
        · exact absurd inside isOutside
        · obtain ⟨fault, after, fails, isFormat⟩ := inductionHypothesis later
            (machine.withHeap (putField machine.heap owner name
              (.tensor (tensorAt tensors place))))
          exact ⟨fault, after, EStateM.bind_eq_error_iff.mpr (Or.inr
            ⟨(), _, setParameter_eq tells placed named inside machine, fails⟩), isFormat⟩
      · obtain ⟨text, fails⟩ := setParameter_fails tells placed named inside machine
        exact ⟨_, _, EStateM.bind_eq_error_iff.mpr (Or.inl fails), rfl⟩

end TorchArchive.Description
