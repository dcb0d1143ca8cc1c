import TorchArchive.Proofs.Description.Filling

/-!
# The rounds of the queue

A round takes the first module of the queue and leaves a queue of the same kind: the
modules that it made are new, have no fields and come with the rows that its own row holds.
Each round takes one module off, so as many rounds as there are rows empty the queue.  Then
every module stands for its row, unless a place outside of the table has stopped a round.
-/

namespace TorchArchive.Description

variable {before between after : Heap} {owner ref root : Ref .module}
  {tensors : List (Ref .tensor)} {parameters : List (String × Int)}
  {submodules : List (String × ModuleRow)} {job : Job} {jobs rest children : List Job}
  {machine : Machine}

/-! ## One round -/

/-- A queue: distinct modules without fields, with definitions that tell lawful rows. -/
structure Ready (heap : Heap) (jobs : List Job) : Prop where
  distinct : (jobs.map Job.owner).Nodup
  blank :
    ∀ job ∈ jobs,
      heap.modules.Holds job.owner ∧ (heap.module job.owner).fields = .empty
  told : ∀ job ∈ jobs, Tells job.definition job.row
  lawful : ∀ job ∈ jobs, job.row.Lawful

/-- What a round does: a module gets its fields, among them the modules that were made. -/
structure Round (tensors : List (Ref .tensor)) (before after : Heap) (owner : Ref .module)
    (parameters : List (String × Int)) (submodules : List (String × ModuleRow))
    (children : List Job) : Prop where
  refills : Refills before after owner
  fields :
    (after.module owner).fields =
      Pickle.fieldEntries (fieldsOf tensors (children.map Job.field) parameters)
  made : Makes before after submodules children

theorem Makes.listed (made : Makes before after submodules children) {child : Job}
    (member : child ∈ children) : (child.name, child.row) ∈ submodules := by
  rw [← made.rows]
  exact List.mem_map.mpr ⟨child, member, rfl⟩

theorem Makes.names (made : Makes before after submodules children) :
    children.map Job.name = submodules.map (·.1) := by
  rw [← made.rows, List.map_map]
  rfl

/-- A round up to the parameters. -/
theorem exists_children (ready : Ready machine.heap (job :: rest))
    (isRow : job.row = .mk parameters submodules) :
    ∃ listed children made,
      TellParameters listed parameters ∧
        (∀ fuel,
          fillModules tensors (fuel + 1) ((job :: rest).map Job.entry) machine =
            (do
              listed.forM (setParameter tensors job.owner)
              fillModules tensors fuel ((rest ++ children).map Job.entry) : Run Unit)
              (machine.withHeap made)) ∧
          Refills machine.heap made job.owner ∧
            (made.module job.owner).fields =
                Pickle.fieldEntries ((children.map Job.field).map childField) ∧
              Makes machine.heap made submodules children := by
  obtain ⟨held, blank⟩ := ready.blank job List.mem_cons_self
  have told := ready.told job List.mem_cons_self
  have lawful := ready.lawful job List.mem_cons_self
  rw [isRow] at told lawful
  obtain ⟨lists, lists', tellParameters, tellAll⟩ := told
  rename_i items listed
  have own : (machine.heap.module job.owner).fields = Pickle.fieldEntries [] := blank
  obtain ⟨children, made, makes, refills, fields, isMade⟩ :=
    makeSubmodules_eq tellAll machine held own (List.nodup_append.mp lawful.1).1
  refine ⟨listed, children, made, tellParameters, ?_, refills, fields, isMade⟩
  intro fuel
  rw [List.map_cons, Job.entry, fillModules]
  refine (EStateM.bind_of_ok (EStateM.ofExcept_eq_ok_iff.mpr ⟨lists, rfl⟩)).trans ?_
  refine (EStateM.bind_of_ok makes).trans ?_
  refine (EStateM.bind_of_ok (EStateM.ofExcept_eq_ok_iff.mpr ⟨lists', rfl⟩)).trans ?_
  rw [List.map_append]

/-- A round whose places are in the table. -/
theorem fillModules_round (ready : Ready machine.heap (job :: rest))
    (isRow : job.row = .mk parameters submodules)
    (inside : ∀ parameter ∈ parameters, ModuleRow.IsPlace tensors.length parameter.2) :
    ∃ children after,
      (∀ fuel,
        fillModules tensors (fuel + 1) ((job :: rest).map Job.entry) machine =
          fillModules tensors fuel ((rest ++ children).map Job.entry)
            (machine.withHeap after)) ∧
        Round tensors machine.heap after job.owner parameters submodules children := by
  obtain ⟨listed, children, made, tell, begins, refills, fields, isMade⟩ :=
    exists_children ready isRow
  have lawful := ready.lawful job List.mem_cons_self
  rw [isRow] at lawful
  have distinct :
      (((children.map Job.field).map childField).map (·.1) ++
        parameters.map (·.1)).Nodup := by
    have names : ((children.map Job.field).map childField).map (·.1) =
        children.map Job.name := by
      rw [List.map_map, List.map_map]
      rfl
    rw [names, isMade.names]
    exact lawful.1
  obtain ⟨after, sets, refillsAfter, fieldsAfter⟩ :=
    setParameters_eq tell inside (machine.withHeap made) fields distinct
  refine ⟨children, after, ?_, refills.trans refillsAfter, fieldsAfter, ?_⟩
  · intro fuel
    rw [begins fuel]
    exact EStateM.bind_of_ok sets
  · exact
      { isMade with
        fresh := fun child member => ⟨(isMade.fresh child member).1,
          (refillsAfter.held _ (isMade.fresh child member).2).1⟩ }

/-- A round that meets a place outside of the table. -/
theorem fillModules_round_fails (ready : Ready machine.heap (job :: rest))
    (isRow : job.row = .mk parameters submodules) {outside : String × Int}
    (member : outside ∈ parameters)
    (isOutside : ¬ ModuleRow.IsPlace tensors.length outside.2) (fuel : Nat) :
    ∃ fault after,
      fillModules tensors (fuel + 1) ((job :: rest).map Job.entry) machine =
          .error fault after ∧
        fault.kind = .format := by
  obtain ⟨listed, children, made, tell, begins, _⟩ := exists_children ready isRow
  obtain ⟨fault, after, fails, isFormat⟩ :=
    setParameters_fails tell member isOutside (machine.withHeap made)
  exact ⟨fault, after, (begins fuel).trans (EStateM.bind_eq_error_iff.mpr (Or.inl fails)),
    isFormat⟩

/-! ## What a round leaves -/

namespace Round

variable (round : Round tensors before after owner parameters submodules children)

include round

/-- A module that was there before is none of the new ones. -/
theorem ne_child (held : before.modules.Holds ref) : ∀ child ∈ children, child.owner ≠ ref :=
  fun child member same => (round.made.fresh child member).1 (same ▸ held)

/-- The next queue is of the same kind. -/
theorem ready (isRow : job.row = .mk parameters submodules) (isOwner : job.owner = owner)
    (queue : Ready before (job :: rest)) : Ready after (rest ++ children) where
  distinct := by
    rw [List.map_append, List.nodup_append]
    refine ⟨(List.nodup_cons.mp queue.distinct).2, round.made.distinct, ?_⟩
    intro left leftMember right rightMember same
    obtain ⟨other, otherMember, rfl⟩ := List.mem_map.mp leftMember
    obtain ⟨child, childMember, rfl⟩ := List.mem_map.mp rightMember
    have held := (queue.blank other (List.mem_cons_of_mem _ otherMember)).1
    exact round.ne_child held child childMember same.symm
  blank := by
    refine List.forall_mem_append.mpr ⟨fun other member => ?_, fun child member => ?_⟩
    · obtain ⟨held, blank⟩ := queue.blank other (List.mem_cons_of_mem _ member)
      have apart : other.owner ≠ owner := fun same =>
        (List.nodup_cons.mp queue.distinct).1
          (List.mem_map.mpr ⟨other, member, same.trans isOwner.symm⟩)
      exact ⟨(round.refills.held _ held).1, (round.refills.others _ apart).trans blank⟩
    · obtain ⟨new, held⟩ := round.made.fresh child member
      have ownerHeld := (queue.blank job List.mem_cons_self).1
      have apart : child.owner ≠ owner :=
        round.ne_child (isOwner ▸ ownerHeld) child member
      exact ⟨held, (round.refills.others _ apart).trans (fields_of_not_holds new)⟩
  told := List.forall_mem_append.mpr
    ⟨fun other member => queue.told other (List.mem_cons_of_mem _ member), round.made.told⟩
  lawful := by
    refine List.forall_mem_append.mpr
      ⟨fun other member => queue.lawful other (List.mem_cons_of_mem _ member),
        fun child member => ?_⟩
    have lawful := queue.lawful job List.mem_cons_self
    rw [isRow] at lawful
    exact (lawful.2.of_mem (round.made.listed member)).2

/-- The rows of the new modules are those that the module's row holds. -/
theorem count (isRow : job.row = .mk parameters submodules) (rest : List Job) :
    ((rest ++ children).map (·.row.count)).sum + 1 =
      ((job :: rest).map (·.row.count)).sum := by
  have rows : (children.map (·.row.count)).sum = ModuleRow.countAll submodules := by
    rw [ModuleRow.countAll_eq, ← round.made.rows, List.map_map]
    rfl
  rw [List.map_append, List.sum_append, rows, List.map_cons, List.sum_cons, isRow,
    ModuleRow.count]
  omega

/-- A field that holds a module was there before, or holds one of the new modules. -/
theorem field_cases {holder child : Ref .module} {name : Value}
    (field : after.HasField holder name (.module child)) :
    (holder = owner ∧ ∃ made ∈ children, name = .str made.name ∧ child = made.owner) ∨
      before.HasField holder name (.module child) := by
  by_cases same : holder = owner
  · left
    refine ⟨same, ?_⟩
    rw [same, Heap.HasField, round.fields, Entries.pairs, Table.values, Pickle.fieldEntries,
      List.map_map] at field
    obtain ⟨entry, member, isField⟩ := List.mem_map.mp field
    rcases List.mem_append.mp member with isChild | isParameter
    · obtain ⟨pair, pairMember, rfl⟩ := List.mem_map.mp isChild
      obtain ⟨made, madeMember, rfl⟩ := List.mem_map.mp pairMember
      cases isField
      exact ⟨made, madeMember, rfl, rfl⟩
    · obtain ⟨parameter, _, rfl⟩ := List.mem_map.mp isParameter
      cases isField
  · right
    rw [Heap.HasField, round.refills.others holder same] at field
    exact field

/-- New modules stand in one field each. -/
theorem tidy (tidy : Tidy before root) : Tidy after root where
  rooted := (round.refills.held root tidy.rooted).1
  held := by
    intro holder child name field
    rcases round.field_cases field with ⟨_, made, member, _, rfl⟩ | old
    · exact ⟨(round.made.fresh made member).2, round.ne_child tidy.rooted made member⟩
    · obtain ⟨held, apart⟩ := tidy.held old
      exact ⟨(round.refills.held child held).1, apart⟩
  sole := by
    intro holder other child name text first second
    rcases round.field_cases first with ⟨rfl, made, member, rfl, rfl⟩ | old
    · rcases round.field_cases second with ⟨rfl, twin, twinMember, rfl, same⟩ | old
      · have one := List.inj_on_of_nodup_map round.made.distinct member twinMember same
        exact ⟨rfl, by rw [one]⟩
      · exact absurd (tidy.held old).1 (round.made.fresh made member).1
    · rcases round.field_cases second with ⟨_, twin, twinMember, _, rfl⟩ | oldToo
      · exact absurd (tidy.held old).1 (round.made.fresh twin twinMember).1
      · exact tidy.sole old oldToo

end Round

/-! ## The whole queue -/

/-- What filling a queue comes to: its modules stand for their rows. -/
structure Filled (tensors : List (Ref .tensor)) (before after : Heap) (jobs : List Job) :
    Prop where
  rest : after = { before with modules := after.modules }
  held :
    ∀ ref, before.modules.Holds ref →
      after.modules.Holds ref ∧
        (after.module ref).moduleClass = (before.module ref).moduleClass
  others :
    ∀ ref, before.modules.Holds ref → (∀ job ∈ jobs, job.owner ≠ ref) →
      (after.module ref).fields = (before.module ref).fields
  stand : ∀ job ∈ jobs, Stands after tensors job.row job.owner
  tidy : ∀ root, Tidy before root → Tidy after root

theorem Filled.refl (tensors : List (Ref .tensor)) (heap : Heap) : Filled tensors heap heap [] :=
  ⟨rfl, fun _ held => ⟨held, rfl⟩, fun _ _ _ => rfl,
    fun _ member => absurd member List.not_mem_nil, fun _ tidy => tidy⟩

/-- Modules that stand for the rows of submodules. -/
theorem standAll_of_stand {heap : Heap}
    (rows : children.map (fun child => (child.name, child.row)) = submodules)
    (stand : ∀ child ∈ children, Stands heap tensors child.row child.owner) :
    StandAll heap tensors submodules (children.map Job.field) := by
  subst rows
  induction children with
  | nil => rfl
  | cons child others inductionHypothesis =>
      obtain ⟨stands, standRest⟩ := List.forall_mem_cons.mp stand
      exact ⟨child.owner, others.map Job.field, rfl, stands, inductionHypothesis standRest⟩

/-- A round and the rest of the queue. -/
theorem Round.filled (round : Round tensors before between job.owner parameters submodules children)
    (isRow : job.row = .mk parameters submodules) (queue : Ready before (job :: rest))
    (filled : Filled tensors between after (rest ++ children)) :
    Filled tensors before after (job :: rest) where
  rest := by
    rw [filled.rest, round.refills.rest]
  held := by
    intro ref held
    obtain ⟨heldBetween, sameBetween⟩ := round.refills.held ref held
    obtain ⟨heldAfter, sameAfter⟩ := filled.held ref heldBetween
    exact ⟨heldAfter, sameAfter.trans sameBetween⟩
  others := by
    intro ref held apart
    obtain ⟨notHere, notLater⟩ := List.forall_mem_cons.mp apart
    rw [filled.others ref (round.refills.held ref held).1
      (List.forall_mem_append.mpr ⟨notLater, round.ne_child held⟩)]
    exact round.refills.others ref (Ne.symm notHere)
  stand := by
    obtain ⟨standRest, standChildren⟩ := List.forall_mem_append.mp filled.stand
    refine List.forall_mem_cons.mpr ⟨?_, standRest⟩
    -- The module itself is not in the queue again, so its fields stay.
    have held := (queue.blank job List.mem_cons_self).1
    have notLater : ∀ other ∈ rest, other.owner ≠ job.owner := fun other member same =>
      (List.nodup_cons.mp queue.distinct).1 (List.mem_map.mpr ⟨other, member, same⟩)
    have stays := filled.others job.owner (round.refills.held _ held).1
      (List.forall_mem_append.mpr ⟨notLater, round.ne_child held⟩)
    rw [isRow]
    exact ⟨children.map Job.field, stays.trans round.fields,
      standAll_of_stand round.made.rows standChildren⟩
  tidy := fun root tidy => filled.tidy root (round.tidy tidy)

/-- A queue whose places are all in the table is filled. -/
theorem fillModules_eq :
    ∀ (fuel : Nat) {jobs : List Job} {machine : Machine},
      Ready machine.heap jobs → (jobs.map (·.row.count)).sum ≤ fuel →
      (∀ job ∈ jobs, job.row.InRange tensors.length) →
      ∃ after,
        fillModules tensors fuel (jobs.map Job.entry) machine =
            .ok () (machine.withHeap after) ∧
          Filled tensors machine.heap after jobs
  | fuel, [], machine, _, _, _ => by
      refine ⟨machine.heap, ?_, .refl tensors _⟩
      cases fuel <;> rfl
  | 0, job :: rest, _, _, enough, _ => by
      have positive := job.row.count_pos
      rw [List.map_cons, List.sum_cons] at enough
      omega
  | fuel + 1, job :: rest, machine, queue, enough, inRange => by
      cases isRow : job.row with
      | mk parameters submodules =>
          obtain ⟨here, later⟩ := List.forall_mem_cons.mp inRange
          rw [isRow] at here
          obtain ⟨inside, below⟩ := ModuleRow.inRange_mk_iff.mp here
          obtain ⟨children, between, step, round⟩ := fillModules_round queue isRow inside
          have queueNext : Ready (machine.withHeap between).heap (rest ++ children) :=
            round.ready isRow rfl queue
          have counts := round.count isRow rest
          have inRangeNext :
              ∀ other ∈ rest ++ children, other.row.InRange tensors.length :=
            List.forall_mem_append.mpr
              ⟨later, fun child member => below _ (round.made.listed member)⟩
          obtain ⟨after, fills, filled⟩ :=
            fillModules_eq fuel queueNext (by omega) inRangeNext
          exact ⟨after, (step fuel).trans fills, round.filled isRow queue filled⟩

/-- A queue with a place outside of the table fails. -/
theorem fillModules_fails :
    ∀ (fuel : Nat) {jobs : List Job} {machine : Machine},
      Ready machine.heap jobs → (jobs.map (·.row.count)).sum ≤ fuel →
      (∃ job ∈ jobs, ¬ job.row.InRange tensors.length) →
      ∃ fault after,
        fillModules tensors fuel (jobs.map Job.entry) machine = .error fault after ∧
          fault.kind = .format
  | _, [], _, _, _, ⟨_, member, _⟩ => absurd member List.not_mem_nil
  | 0, job :: rest, _, _, enough, _ => by
      have positive := job.row.count_pos
      rw [List.map_cons, List.sum_cons] at enough
      omega
  | fuel + 1, job :: rest, machine, queue, enough, ⟨outside, member, isOutside⟩ => by
      cases isRow : job.row with
      | mk parameters submodules =>
          by_cases inside :
              ∀ parameter ∈ parameters, ModuleRow.IsPlace tensors.length parameter.2
          · obtain ⟨children, between, step, round⟩ := fillModules_round queue isRow inside
            have queueNext : Ready (machine.withHeap between).heap (rest ++ children) :=
              round.ready isRow rfl queue
            have counts := round.count isRow rest
            have outsideNext :
                ∃ other ∈ rest ++ children, ¬ other.row.InRange tensors.length := by
              rcases List.mem_cons.mp member with rfl | later
              · rw [isRow] at isOutside
                have notBelow := not_and.mp (mt ModuleRow.inRange_mk_iff.mpr isOutside) inside
                simp only [not_forall] at notBelow
                obtain ⟨entry, listed, notInRange⟩ := notBelow
                rw [← round.made.rows] at listed
                obtain ⟨child, childMember, rfl⟩ := List.mem_map.mp listed
                exact ⟨child, List.mem_append_right _ childMember, notInRange⟩
              · exact ⟨outside, List.mem_append_left _ later, isOutside⟩
            obtain ⟨fault, after, fails, isFormat⟩ :=
              fillModules_fails fuel queueNext (by omega) outsideNext
            exact ⟨fault, after, (step fuel).trans fails, isFormat⟩
          · simp only [not_forall] at inside
            obtain ⟨parameter, parameterMember, notPlace⟩ := inside
            exact fillModules_round_fails queue isRow parameterMember notPlace fuel

end TorchArchive.Description
