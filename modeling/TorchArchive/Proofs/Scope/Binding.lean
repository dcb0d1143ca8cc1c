import TorchArchive.Proofs.Scope.Paths
import TorchArchive.Proofs.Steps

/-!
# Binding dotted names

A dotted name is bound at the end of its path, and packages are made for what the path lacks,
one after the other.  A binding that is refused is refused before anything that was there has
changed.  If no place for bindings is reached in two ways, a binding that is made is seen
under the name that was bound, and under no name that leads elsewhere.
-/

namespace TorchArchive

namespace Heap

variable {heap after : Heap} {scope : Scope}

/-! ## One step after the other -/

/-- Sets a member, and changes nothing if that is refused. -/
def setStep (owner : Value) (name : String) (value : Value) : EStateM Fault Heap Unit :=
  fun heap =>
    match heap.setMember owner name value with
    | .ok after => .ok () after
    | .error fault => .error fault heap

theorem setStep_of_ok {owner value : Value} {name : String}
    (set : heap.setMember owner name value = .ok after) :
    setStep owner name value heap = .ok () after := by
  rw [setStep, set]

theorem setStep_of_error {owner value : Value} {name : String} {fault : Fault}
    (refused : heap.setMember owner name value = .error fault) :
    setStep owner name value heap = .error fault heap := by
  rw [setStep, refused]

/-- Sets a member at the end of a path in steps, each of which changes the heap. -/
def setSteps (owner : Value) (done : String) (value : Value) :
    List String → EStateM Fault Heap Unit
  | [] => pure ()
  | [last] => setStep owner last value
  | part :: rest => do
      let path := done ++ "." ++ part
      let child := (← get).findMember owner part
      if isVacant child then
        let ref ← modifyGet (·.addPackage path)
        setStep owner part (.package ref)
        setSteps (.package ref) path value rest
      else setSteps child path value rest

/-- Binds a dotted name in steps. -/
def bindSteps (scope : Scope) (name : String) (value : Value) : EStateM Fault Heap Unit :=
  match nameParts name with
  | [] => pure ()
  | [single] => modify (·.bindIn scope single value)
  | first :: rest => do
      let owner := (← get).lookup scope first
      if isVacant owner then
        let ref ← modifyGet (·.addPackage first)
        modify (·.bindIn scope first (.package ref))
        setSteps (.package ref) first value rest
      else setSteps owner first value rest

section

variable {owner : Value} {done : String} {value : Value} {part : String} {rest : List String}
  {ref : Ref .package} {grown : Heap}

theorem setPath_vacant (some : rest ≠ [])
    (vacant : isVacant (heap.findMember owner part) = true)
    (made : heap.addPackage (done ++ "." ++ part) = (ref, grown)) :
    heap.setPath owner done value (part :: rest) =
      grown.setMember owner part (.package ref) >>= fun between =>
        between.setPath (.package ref) (done ++ "." ++ part) value rest := by
  cases rest with
  | nil => exact absurd rfl some
  | cons next others => simp only [setPath, vacant, if_true, made]

theorem setPath_occupied (some : rest ≠ [])
    (occupied : ¬ isVacant (heap.findMember owner part) = true) :
    heap.setPath owner done value (part :: rest) =
      heap.setPath (heap.findMember owner part) (done ++ "." ++ part) value rest := by
  cases rest with
  | nil => exact absurd rfl some
  | cons next others => simp only [setPath, occupied, if_false, Bool.false_eq_true]

theorem setSteps_cons (some : rest ≠ []) :
    setSteps owner done value (part :: rest) heap =
      (if isVacant (heap.findMember owner part) then do
          let ref ← modifyGet (·.addPackage (done ++ "." ++ part))
          setStep owner part (.package ref)
          setSteps (.package ref) (done ++ "." ++ part) value rest
        else setSteps (heap.findMember owner part) (done ++ "." ++ part) value rest :
        EStateM Fault Heap Unit) heap := by
  cases rest with
  | nil => exact absurd rfl some
  | cons next others => rfl

theorem setSteps_vacant (some : rest ≠ [])
    (vacant : isVacant (heap.findMember owner part) = true)
    (made : heap.addPackage (done ++ "." ++ part) = (ref, grown)) :
    setSteps owner done value (part :: rest) heap =
      (do
        setStep owner part (.package ref)
        setSteps (.package ref) (done ++ "." ++ part) value rest :
        EStateM Fault Heap Unit) grown := by
  rw [setSteps_cons some, if_pos vacant]
  refine EStateM.bind_of_ok ?_
  change EStateM.Result.ok (heap.addPackage (done ++ "." ++ part)).1
    (heap.addPackage (done ++ "." ++ part)).2 = _
  rw [made]

theorem setSteps_occupied (some : rest ≠ [])
    (occupied : ¬ isVacant (heap.findMember owner part) = true) :
    setSteps owner done value (part :: rest) heap =
      setSteps (heap.findMember owner part) (done ++ "." ++ part) value rest heap := by
  rw [setSteps_cons some, if_neg occupied]

end

/-! ## Packages for a path -/

/-- A path of new packages leads to a value, and nowhere else. -/
def LeadsOnly (heap : Heap) (start : Value) (path : List String) (value : Value) : Prop :=
  heap.follow start path = value ∧
    ∀ other, ¬ path <+: other → ¬ other <+: path → heap.follow start other = .missing

/-- A package without members in a heap. -/
structure IsBare (heap : Heap) (ref : Ref .package) : Prop where
  held : heap.packages.Holds ref
  members : heap.tables.Holds (heap.package ref).members
  bare : ∀ name, heap.read (.table (heap.package ref).members) name = none

theorem members_new (heap : Heap) (name : String) (cell : Cell) (key : String) (value : Value) :
    (((heap.addPackage name).2.write cell key value).package
      (heap.addPackage name).1).members = heap.tables.next := by
  have alters := alters_write (heap.addPackage name).2 cell key value
  have held : (heap.addPackage name).2.packages.Holds (heap.addPackage name).1 :=
    Store.holds_next heap.packages _
  rw [(alters.packages _ held).2, members_addPackage]

theorem ne_next_of_holdsCell {cell : Cell} (held : heap.HoldsCell cell) :
    cell ≠ .table heap.tables.next := by
  rintro rfl
  exact Store.next_not_holds heap.tables held

/-- A new package is bare, also behind a write to what was there before. -/
theorem isBare_new (heap : Heap) (name : String) {cell : Cell} (held : heap.HoldsCell cell)
    (key : String) (value : Value) :
    ((heap.addPackage name).2.write cell key value).IsBare (heap.addPackage name).1 := by
  have alters := alters_write (heap.addPackage name).2 cell key value
  refine ⟨(alters.packages _ (Store.holds_next heap.packages _)).1, ?_, ?_⟩
  · rw [members_new]
    exact alters.holds (.table _) (Store.holds_next heap.tables .empty)
  · intro other
    rw [members_new, read_write, if_neg fun same => ne_next_of_holdsCell held same.1,
      read_addPackage]

theorem findMember_package (heap : Heap) (ref : Ref .package) (name : String) :
    heap.findMember (.package ref) name =
      (heap.read (.table (heap.package ref).members) name).getD .missing := rfl

theorem leadsOnly_nil (heap : Heap) (value : Value) : heap.LeadsOnly value [] value :=
  ⟨rfl, fun _ apart _ => absurd List.nil_prefix apart⟩

/-- A package with one member leads on to that, and nowhere else. -/
theorem LeadsOnly.cons {ref : Ref .package} {part : String} {rest : List String}
    {child value : Value} (leads : heap.LeadsOnly child rest value)
    (bound : heap.read (.table (heap.package ref).members) part = some child)
    (others :
      ∀ name, name ≠ part → heap.read (.table (heap.package ref).members) name = none) :
    heap.LeadsOnly (.package ref) (part :: rest) value := by
  have shown : heap.findMember (.package ref) part = child := by
    rw [findMember_package, bound, Option.getD_some]
  constructor
  · rw [follow_cons, shown]
    exact leads.1
  · intro other behind before
    cases other with
    | nil => exact absurd List.nil_prefix before
    | cons first further =>
        rw [follow_cons]
        by_cases same : first = part
        · rw [same, List.prefix_cons_inj] at behind before
          rw [same, shown]
          exact leads.2 further behind before
        · rw [findMember_package, others first same, Option.getD_none, follow_missing]

/-- Both ways to set a member at the end of a path end in the same heap. -/
def Sets (heap : Heap) (owner : Value) (done : String) (value : Value) (parts : List String)
    (after : Heap) : Prop :=
  heap.setPath owner done value parts = .ok after ∧
    setSteps owner done value parts heap = .ok () after

/-- What binding the rest of a path in a new package leaves, when the package was bound in a
cell before. -/
structure Grafted (heap : Heap) (cell : Cell) (key : String) (tail : List String)
    (value child : Value) (after : Heap) : Prop where
  alters : Alters (fun other name => other = cell ∧ name = key) heap after
  read : after.read cell key = some child
  leads : after.LeadsOnly child tail value

/-- In a bare package every path can be bound, and what was there is left alone. -/
def BindsBare (done : String) (value : Value) (parts : List String) : Prop :=
  ∀ (heap : Heap) (ref : Ref .package), heap.IsBare ref →
    ∃ after, heap.Sets (.package ref) done value parts after ∧
      Alters (fun cell _ => cell = .table (heap.package ref).members) heap after ∧
      after.LeadsOnly (.package ref) parts value

theorem BindsBare.graft {done : String} {value : Value} {tail : List String}
    (binds : BindsBare done value tail) (heap : Heap) {cell : Cell} (held : heap.HoldsCell cell)
    (key name : String) :
    ∃ after,
      ((heap.addPackage name).2.write cell key (.package (heap.addPackage name).1)).Sets
        (.package (heap.addPackage name).1) done value tail after ∧
      heap.Grafted cell key tail value (.package (heap.addPackage name).1) after := by
  have adds := heap.alters_addPackage name
  have writes :=
    alters_write (heap.addPackage name).2 cell key (.package (heap.addPackage name).1)
  have bare := isBare_new heap name held key (.package (heap.addPackage name).1)
  obtain ⟨after, sets, altersNew, leads⟩ := binds _ _ bare
  rw [members_new] at altersNew
  refine ⟨after, sets, ?_, ?_, leads⟩
  · apply ((adds.trans writes).trans altersNew).mono
    rintro other part heldOther ((never | touches) | isNew)
    · exact never.elim
    · exact touches
    · exact absurd isNew (ne_next_of_holdsCell heldOther)
  · rw [altersNew.reads cell key (writes.holds cell (adds.holds cell held))
      (ne_next_of_holdsCell held), read_write, if_pos ⟨rfl, rfl⟩]

theorem bindsBare (value : Value) (parts : List String) (some : parts ≠ []) :
    ∀ done, BindsBare done value parts := by
  induction parts with
  | nil => exact absurd rfl some
  | cons part rest inductionHypothesis =>
      intro done heap ref bare
      generalize isCell : Cell.table (heap.package ref).members = cell
      have held : heap.HoldsCell cell := isCell ▸ bare.members
      by_cases last : rest = []
      · have alters := alters_write heap cell part value
        have members := (alters.packages ref bare.held).2
        subst last
        refine ⟨heap.write cell part value, ?_, ?_, ?_⟩
        · rw [← isCell]
          exact ⟨rfl, rfl⟩
        · exact alters.mono fun _ _ _ touches => touches.1
        · apply (leadsOnly_nil _ value).cons
          · rw [members, isCell, read_write, if_pos ⟨rfl, rfl⟩]
          · intro name other
            rw [members, isCell, read_write, if_neg fun same => other same.2.symm, ← isCell]
            exact bare.bare name
      · have vacant : isVacant (heap.findMember (.package ref) part) = true := by
          rw [findMember_package, bare.bare]
          rfl
        let path := done ++ "." ++ part
        have adds := heap.alters_addPackage path
        obtain ⟨after, sets, grafted⟩ := (inductionHypothesis last path).graft heap held part path
        have set : (heap.addPackage path).2.setMember (.package ref) part
            (.package (heap.addPackage path).1) =
            .ok ((heap.addPackage path).2.write cell part
              (.package (heap.addPackage path).1)) := by
          rw [setMember_eq, cell?, (adds.packages ref bare.held).2, isCell]
        have members := (grafted.alters.packages ref bare.held).2
        refine ⟨after, ⟨?_, ?_⟩, ?_, ?_⟩
        · rw [setPath_vacant last vacant rfl]
          exact Except.bind_eq_ok_iff.mpr ⟨_, set, sets.1⟩
        · rw [setSteps_vacant last vacant rfl]
          exact EStateM.bind_eq_ok_iff.mpr ⟨(), _, setStep_of_ok set, sets.2⟩
        · exact grafted.alters.mono fun _ _ _ touches => touches.1
        · apply grafted.leads.cons
          · rw [members, isCell]
            exact grafted.read
          · intro name other
            rw [members, isCell, grafted.alters.reads cell name held fun same => other same.2,
              ← isCell]
            exact bare.bare name

/-! ## Bindings that are made, and bindings that are refused -/

/-- What comes of a binding: a refusal before anything has changed, or one more binding in a
cell that the front of the name leads to. -/
inductive Bound (heap : Heap) (scope : Scope) (parts : List String) (value : Value) :
    Except Fault Heap → EStateM.Result Fault Heap Unit → Prop where
  | refused {fault : Fault} {after : Heap} (kind : fault.kind = .unknownSymbol)
      (keeps : heap.Keeps after) : Bound heap scope parts value (.error fault) (.error fault after)
  | made {after : Heap} {front tail : List String} {key : String} {cell : Cell} {child : Value}
      (split : parts = front ++ key :: tail)
      (found : heap.cellOf? scope (heap.owner? scope front) = some cell)
      (grafted : heap.Grafted cell key tail value child after)
      (vacant : tail ≠ [] → isVacant (heap.reach scope (front ++ [key])) = true) :
      Bound heap scope parts value (.ok after) (.ok () after)

theorem Grafted.write (heap : Heap) (cell : Cell) (key : String) (value : Value) :
    heap.Grafted cell key [] value value (heap.write cell key value) where
  alters := heap.alters_write cell key value
  read := by rw [read_write, if_pos ⟨rfl, rfl⟩]
  leads := leadsOnly_nil _ value

theorem keeps_addPackage (heap : Heap) (name : String) : heap.Keeps (heap.addPackage name).2 :=
  { Keeps.refl heap with
    tables := Store.keeps_add _ _
    packages := Store.keeps_add _ _ }

theorem setMember_cases (heap : Heap) (target : Value) (name : String) (value : Value) :
    (∃ cell, heap.cell? target = some cell ∧
        heap.setMember target name value = .ok (heap.write cell name value)) ∨
      (heap.cell? target = none ∧
        ∃ fault : Fault, fault.kind = .unknownSymbol ∧
          heap.setMember target name value = .error fault) := by
  rw [setMember_eq]
  cases heap.cell? target with
  | none => exact .inr ⟨rfl, _, rfl, rfl⟩
  | some cell => exact .inl ⟨cell, rfl, rfl⟩

/-- The induction is on what is left of the path; what it has led to so far is no vacant
place. -/
theorem setSteps_bound (forest : heap.IsForest scope) (value : Value) (rest : List String) :
    ∀ (done : String) (front : List String), front ≠ [] → rest ≠ [] → Dotless (front ++ rest) →
      Bound heap scope (front ++ rest) value
        (heap.setPath (heap.reach scope front) done value rest)
        (setSteps (heap.reach scope front) done value rest heap) := by
  induction rest with
  | nil => exact fun _ _ _ some => absurd rfl some
  | cons part rest inductionHypothesis =>
      intro done front started _ dotless
      have owner : heap.owner? scope front = some (heap.reach scope front) :=
        owner?_of_ne_nil started
      have held := forest.holdsValue_reach started dotless.of_append
      have child := reach_snoc heap scope front part
      rw [owner] at child
      change heap.reach scope (front ++ [part]) = heap.findMember _ part at child
      generalize isTarget : heap.reach scope front = target at owner held child
      by_cases last : rest = []
      · subst last
        rw [setPath, setSteps]
        rcases heap.setMember_cases target part value with ⟨cell, found, set⟩ | ⟨_, fault, refused⟩
        · rw [set, setStep_of_ok set]
          apply Bound.made rfl _ (.write heap cell part value) (absurd rfl)
          rw [owner]
          exact found
        · rw [refused.2, setStep_of_error refused.2]
          exact .refused refused.1 (.refl heap)
      · by_cases vacant : isVacant (heap.findMember target part) = true
        · let path := done ++ "." ++ part
          have adds := heap.alters_addPackage path
          have made : heap.addPackage path = ((heap.addPackage path).1, (heap.addPackage path).2) :=
            rfl
          rw [setPath_vacant last vacant made, setSteps_vacant last vacant made]
          rcases (heap.addPackage path).2.setMember_cases target part
              (.package (heap.addPackage path).1) with ⟨cell, found, set⟩ | ⟨_, fault, refused⟩
          · rw [adds.cell? held] at found
            obtain ⟨others, shows⟩ := mem_cells_of_cell? found
            have heldCell := held.2 cell (shows ▸ List.mem_cons_self)
            obtain ⟨after, sets, grafted⟩ :=
              (bindsBare value rest last path).graft heap heldCell part path
            rw [EStateM.bind_of_ok (setStep_of_ok set), sets.2,
              Except.bind_eq_ok_iff.mpr ⟨_, set, sets.1⟩]
            apply Bound.made rfl _ grafted
            · intro _
              rw [child]
              exact vacant
            · rw [owner]
              exact found
          · rw [EStateM.bind_eq_error_iff.mpr (.inl (setStep_of_error refused.2)),
              Except.bind_eq_error_iff.mpr (.inl refused.2)]
            exact .refused refused.1 (heap.keeps_addPackage path)
        · rw [setPath_occupied last vacant, setSteps_occupied last vacant, ← child]
          have further := inductionHypothesis (done ++ "." ++ part) (front ++ [part])
            (by simp) last (by simpa using dotless)
          simpa using further

section

variable {name first : String} {rest : List String} {value : Value} {ref : Ref .package}
  {grown : Heap}

theorem bindQualified_vacant (parts : nameParts name = first :: rest) (some : rest ≠ [])
    (vacant : isVacant (heap.lookup scope first) = true)
    (made : heap.addPackage first = (ref, grown)) :
    heap.bindQualified scope name value =
      (grown.bindIn scope first (.package ref)).setPath (.package ref) first value rest := by
  cases rest with
  | nil => exact absurd rfl some
  | cons next others => simp only [bindQualified, parts, vacant, if_true, made]

theorem bindQualified_occupied (parts : nameParts name = first :: rest) (some : rest ≠ [])
    (occupied : ¬ isVacant (heap.lookup scope first) = true) :
    heap.bindQualified scope name value =
      heap.setPath (heap.lookup scope first) first value rest := by
  cases rest with
  | nil => exact absurd rfl some
  | cons next others => simp only [bindQualified, parts, occupied, if_false, Bool.false_eq_true]

theorem bindSteps_cons (parts : nameParts name = first :: rest) (some : rest ≠ []) :
    bindSteps scope name value heap =
      (if isVacant (heap.lookup scope first) then do
          let ref ← modifyGet (·.addPackage first)
          modify (·.bindIn scope first (.package ref))
          setSteps (.package ref) first value rest
        else setSteps (heap.lookup scope first) first value rest :
        EStateM Fault Heap Unit) heap := by
  rw [bindSteps, parts]
  cases rest with
  | nil => exact absurd rfl some
  | cons next others => rfl

theorem bindSteps_vacant (parts : nameParts name = first :: rest) (some : rest ≠ [])
    (vacant : isVacant (heap.lookup scope first) = true)
    (made : heap.addPackage first = (ref, grown)) :
    bindSteps scope name value heap =
      setSteps (.package ref) first value rest (grown.bindIn scope first (.package ref)) := by
  rw [bindSteps_cons parts some, if_pos vacant]
  change setSteps (.package (heap.addPackage first).1) first value rest
    ((heap.addPackage first).2.bindIn scope first (.package (heap.addPackage first).1)) = _
  rw [made]

theorem bindSteps_occupied (parts : nameParts name = first :: rest) (some : rest ≠ [])
    (occupied : ¬ isVacant (heap.lookup scope first) = true) :
    bindSteps scope name value heap =
      setSteps (heap.lookup scope first) first value rest heap := by
  rw [bindSteps_cons parts some, if_neg occupied]

end

theorem bindSteps_bound (forest : heap.IsForest scope) (name : String) (value : Value) :
    Bound heap scope (nameParts name) value (heap.bindQualified scope name value)
      (bindSteps scope name value heap) := by
  have dotless := dotless_nameParts name
  cases parts : nameParts name with
  | nil => exact absurd parts (nameParts_ne_nil name)
  | cons first rest =>
      rw [parts] at dotless
      by_cases single : rest = []
      · subst single
        rw [bindQualified, bindSteps, parts]
        exact .made (List.nil_append _).symm rfl
          (.write heap (.table scope.inner.table) first value) (absurd rfl)
      · by_cases vacant : isVacant (heap.lookup scope first) = true
        · have made : heap.addPackage first = ((heap.addPackage first).1, (heap.addPackage first).2) :=
            rfl
          rw [bindQualified_vacant parts single vacant made,
            bindSteps_vacant parts single vacant made]
          have held : heap.HoldsCell (.table scope.inner.table) :=
            forest.framesHeld scope.inner List.mem_cons_self
          obtain ⟨after, sets, grafted⟩ :=
            (bindsBare value rest single first).graft heap held first first
          have path : ((heap.addPackage first).2.bindIn scope first
              (.package (heap.addPackage first).1)).setPath
                (.package (heap.addPackage first).1) first value rest = .ok after := sets.1
          have steps : setSteps (.package (heap.addPackage first).1) first value rest
              ((heap.addPackage first).2.bindIn scope first
                (.package (heap.addPackage first).1)) = .ok () after := sets.2
          rw [path, steps]
          exact .made (List.nil_append _).symm rfl grafted fun _ => vacant
        · rw [bindQualified_occupied parts single vacant, bindSteps_occupied parts single vacant]
          exact setSteps_bound forest value rest first [first] (List.cons_ne_nil _ _) single dotless

/-! ## What a binding shows -/

/-- What was bound in the first cell of a place is found there. -/
theorem IsForest.memberOf_of_read (forest : heap.IsForest scope) {path : List String}
    (dotless : Dotless path) {cell : Cell} {key : String} {child : Value}
    {touched : Cell → String → Prop}
    (found : heap.cellOf? scope (heap.owner? scope path) = some cell)
    (alters : Alters touched heap after) (read : after.read cell key = some child) :
    after.memberOf scope (heap.owner? scope path) key = child := by
  by_cases start : path = []
  · rw [start] at found ⊢
    cases found
    change after.lookup scope key = child
    rw [lookup_of_plain forest.plain, Scope.frames, List.map_cons, List.findSome?_cons, read]
    rfl
  · rw [owner?_of_ne_nil start] at found ⊢
    have held := forest.holdsValue_reach start dotless
    have foundAfter := (alters.cell? held).trans found
    obtain ⟨others, shows⟩ := mem_cells_of_cell? foundAfter
    change after.findMember (heap.reach scope path) key = child
    rw [findMember, member?_of_cell? foundAfter, shows, List.findSome?_cons, read]
    rfl

/-- What the binding of a dotted name comes to.  It is refused for a symbol that is unknown,
and all objects are as they were, or the name is bound, and other names that are not on the
same path stand for what they did.  Step by step it comes to the same. -/
inductive Lawful (heap : Heap) (scope : Scope) (name : String) (value : Value) :
    Except Fault Heap → Prop where
  | refused {fault : Fault} {after : Heap} (unknown : fault.kind = .unknownSymbol)
      (steps : bindSteps scope name value heap = .error fault after)
      (unchanged : heap.Keeps after) : Lawful heap scope name value (.error fault)
  | bound {after : Heap} (steps : bindSteps scope name value heap = .ok () after)
      (same : after.lookupQualified scope name = value)
      (others :
        ∀ other, ¬ nameParts name <+: nameParts other → ¬ nameParts other <+: nameParts name →
          after.lookupQualified scope other = heap.lookupQualified scope other) :
      Lawful heap scope name value (.ok after)

/-- Names that are bound are found, and no others change. -/
theorem bindQualified_lawful (forest : heap.IsForest scope) (name : String) (value : Value) :
    heap.Lawful scope name value (heap.bindQualified scope name value) := by
  have bound := bindSteps_bound forest name value
  have dotless := dotless_nameParts name
  generalize outcome : heap.bindQualified scope name value = result at bound
  generalize steps : bindSteps scope name value heap = stepped at bound
  cases bound with
  | refused kind keeps => exact .refused kind steps keeps
  | @made after front tail key cell child split found grafted vacant =>
      rw [split] at dotless
      have frontDotless := dotless.of_append
      have alters := grafted.alters
      have sameFront : after.reach scope front = heap.reach scope front := by
        apply forest.reach_of_alters frontDotless found alters frontDotless
        intro longer
        have length := longer.length_le
        simp only [List.length_append, List.length_singleton] at length
        omega
      have sameOwner : after.owner? scope front = heap.owner? scope front := by
        rw [owner?, owner?, sameFront]
      have leads : after.reach scope (front ++ [key]) = child := by
        rw [reach_snoc, sameOwner]
        exact forest.memberOf_of_read frontDotless found alters grafted.read
      have further (rest : List String) :
          after.reach scope ((front ++ [key]) ++ rest) = after.follow child rest := by
        rw [reach_append (by simp), leads]
      have path : front ++ key :: tail = (front ++ [key]) ++ tail := by simp
      refine .bound steps ?_ ?_
      · rw [lookupQualified_eq_reach, split, path, further]
        exact grafted.leads.1
      · intro other behind before
        rw [lookupQualified_eq_reach, lookupQualified_eq_reach]
        by_cases through : front ++ [key] <+: nameParts other
        · obtain ⟨rest, parts⟩ := through
          rw [split, path, ← parts, List.prefix_append_right_inj] at behind before
          have unbound : tail ≠ [] := fun done => behind (done ▸ List.nil_prefix)
          have some : rest ≠ [] := fun done => before (done ▸ List.nil_prefix)
          rw [← parts, further, grafted.leads.2 rest behind before, reach_append (by simp),
            follow_of_isVacant heap (vacant unbound) some]
        · exact forest.reach_of_alters frontDotless found alters (dotless_nameParts other) through

/-! ## Values that lead on to plain values only -/

theorem cells_of_isPlain (heap : Heap) {value : Value} (plain : isPlain value = true) :
    heap.cells value = [] := by
  cases value with
  | atom _ | tuple _ | list _ | function _ | method _ => rfl
  | _ => cases plain

theorem isPlain_follow (heap : Heap) (rest : List String) {value : Value}
    (plain : isPlain value = true) : isPlain (heap.follow value rest) = true := by
  induction rest generalizing value with
  | nil => exact plain
  | cons part rest inductionHypothesis =>
      rw [follow_cons]
      exact inductionHypothesis (isPlain_findMember heap plain part)

theorem cell?_of_cells_eq_nil {value : Value} (bare : heap.cells value = []) :
    heap.cell? value = none := by
  cases found : heap.cell? value with
  | none => rfl
  | some cell =>
      obtain ⟨others, shows⟩ := mem_cells_of_cell? found
      rw [bare] at shows
      cases shows

end Heap

namespace OnePackage

open Heap

/-- A package with a member, bound in a scope. -/
def heap : Heap :=
  { (default : Heap) with
    tables := (Store.empty.add (Table.empty.insert "a" (.package ⟨0⟩))).add
      (Table.empty.insert "x" (.int 1))
    packages := Store.empty.add ⟨"a", none, ⟨1⟩⟩ }

def scope : Scope := ⟨⟨⟨0⟩, none⟩, []⟩

theorem lookup_eq (name : String) :
    heap.lookup scope name = if "a" = name then .package ⟨0⟩ else .missing := by
  rw [lookup_of_plain (by decide)]
  change ([Cell.table ⟨0⟩].findSome? (heap.read · name)).getD Value.missing = _
  have found : heap.read (.table ⟨0⟩) name = if "a" = name then some (.package ⟨0⟩) else none :=
    Table.get?_insert .empty "a" name (Value.package ⟨0⟩)
  rw [List.findSome?_singleton, found]
  split <;> rfl

theorem findMember_eq (name : String) :
    heap.findMember (.package ⟨0⟩) name = if "x" = name then .int 1 else .missing := by
  change ((Table.empty.insert "x" (Value.int 1)).get? name).getD .missing = _
  rw [Table.get?_insert]
  split <;> rfl

/-- The package is the only value that has members. -/
theorem cells_reach (parts : List String) :
    parts = ["a"] ∨ heap.cells (heap.reach scope parts) = [] := by
  cases parts with
  | nil => exact .inr rfl
  | cons first rest =>
      rw [reach, lookup_eq]
      split
      · rename_i isFirst
        cases rest with
        | nil => exact .inl (by rw [isFirst])
        | cons part rest =>
            right
            apply cells_of_isPlain
            rw [follow_cons, findMember_eq]
            apply isPlain_follow
            split <;> rfl
      · right
        rw [follow_missing]
        rfl

theorem reach_a : heap.reach scope ["a"] = .package ⟨0⟩ := by
  rw [reach, lookup_eq, if_pos rfl]
  rfl

theorem holdsValue_of_cells_eq_nil {value : Value} (bare : heap.cells value = []) :
    heap.HoldsValue value := by
  constructor
  · rintro ref rfl
    cases bare
  · rw [bare]
    exact fun _ inside => absurd inside List.not_mem_nil

theorem isForest : heap.IsForest scope where
  plain := by decide
  framesHeld := by decide
  held := by
    intro name
    rw [lookupQualified_eq_reach]
    rcases cells_reach (nameParts name) with parts | bare
    · rw [parts, reach_a]
      constructor
      · rintro ref ⟨⟩
        decide
      · intro cell inside
        rw [List.mem_singleton.mp inside]
        change heap.tables.Holds ⟨1⟩
        decide
    · exact holdsValue_of_cells_eq_nil bare
  apart := by
    intro name other distinct cell found inside
    rw [lookupQualified_eq_reach] at found inside
    rcases cells_reach (nameParts name) with parts | bare
    · rcases cells_reach (nameParts other) with otherParts | bare
      · exact distinct (nameParts_injective (parts.trans otherParts.symm))
      · rw [bare] at inside
        exact List.not_mem_nil inside
    · rw [cell?_of_cells_eq_nil bare] at found
      cases found
  framesApart := by
    intro frame member name inside
    rw [lookupQualified_eq_reach] at inside
    rcases cells_reach (nameParts name) with parts | bare
    · rw [parts, reach_a] at inside
      revert frame
      decide
    · rw [bare] at inside
      exact List.not_mem_nil inside

/-- Two packages are made in front of the value. -/
theorem bindQualified_lawful_inside :
    heap.IsForest scope ∧ heap.Lawful scope "a.b.c" (.int 2)
      (heap.bindQualified scope "a.b.c" (.int 2)) :=
  ⟨isForest, bindQualified_lawful isForest "a.b.c" (.int 2)⟩

end OnePackage

namespace ClassAndInstance

open Heap

/-- A class and an instance of it, bound under two names. -/
def heap : Heap :=
  { (default : Heap) with
    tables :=
      (Store.empty.add
        ((Table.empty.insert "C" (.moduleClass ⟨0⟩)).insert "m" (.module ⟨0⟩))).add .empty
    moduleClasses := Store.empty.add ⟨"p", "C", ⟨1⟩⟩
    modules := Store.empty.add (.fresh ⟨0⟩) }

def scope : Scope := ⟨⟨⟨0⟩, none⟩, []⟩

theorem lookup_eq (name : String) :
    heap.lookup scope name =
      if "m" = name then .module ⟨0⟩ else if "C" = name then .moduleClass ⟨0⟩ else .missing := by
  rw [lookup_of_plain (by decide)]
  change ([Cell.table ⟨0⟩].findSome? (heap.read · name)).getD Value.missing = _
  have found : heap.read (.table ⟨0⟩) name =
      if "m" = name then some (.module ⟨0⟩)
      else if "C" = name then some (.moduleClass ⟨0⟩) else none := by
    change ((Table.empty.insert "C" (Value.moduleClass ⟨0⟩)).insert "m" (.module ⟨0⟩)).get? name = _
    rw [Table.get?_insert, Table.get?_insert, Table.get?_empty]
  rw [List.findSome?_singleton, found]
  split
  · rfl
  · split <;> rfl

theorem cells_reach (parts : List String) :
    parts = ["C"] ∨ parts = ["m"] ∨ heap.cells (heap.reach scope parts) = [] := by
  cases parts with
  | nil => exact .inr (.inr rfl)
  | cons first rest =>
      rw [reach, lookup_eq]
      split
      · rename_i isFirst
        cases rest with
        | nil => exact .inr (.inl (by rw [isFirst]))
        | cons part rest =>
            right; right
            rw [follow_cons]
            change heap.cells (heap.follow .missing rest) = []
            rw [follow_missing]
            rfl
      · split
        · rename_i isFirst
          cases rest with
          | nil => exact .inl (by rw [isFirst])
          | cons part rest =>
              right; right
              rw [follow_cons]
              change heap.cells (heap.follow .missing rest) = []
              rw [follow_missing]
              rfl
        · right; right
          rw [follow_missing]
          rfl

theorem reach_C : heap.reach scope ["C"] = .moduleClass ⟨0⟩ := by
  rw [reach, lookup_eq]
  rfl

theorem reach_m : heap.reach scope ["m"] = .module ⟨0⟩ := by
  rw [reach, lookup_eq]
  rfl

theorem reached_once (name other : String) (cell : Cell)
    (found : heap.cell? (heap.lookupQualified scope name) = some cell)
    (foundOther : heap.cell? (heap.lookupQualified scope other) = some cell) : name = other := by
  rw [lookupQualified_eq_reach] at found foundOther
  apply nameParts_injective
  rcases cells_reach (nameParts name) with parts | parts | bare
  · rcases cells_reach (nameParts other) with otherParts | otherParts | bare
    · exact parts.trans otherParts.symm
    · rw [parts, reach_C] at found
      rw [otherParts, reach_m] at foundOther
      cases found
      cases foundOther
    · rw [cell?_of_cells_eq_nil bare] at foundOther
      cases foundOther
  · rcases cells_reach (nameParts other) with otherParts | otherParts | bare
    · rw [parts, reach_m] at found
      rw [otherParts, reach_C] at foundOther
      cases found
      cases foundOther
    · exact parts.trans otherParts.symm
    · rw [cell?_of_cells_eq_nil bare] at foundOther
      cases foundOther
  · rw [cell?_of_cells_eq_nil bare] at found
    cases found

theorem not_missing (cell : Cell) (key : String) : heap.read cell key ≠ some .missing := by
  cases cell with
  | table ref =>
      change Table.get? (Store.get (Store.add (Store.add _ _) _) ref) key ≠ _
      rw [Store.get_add, Store.get_add]
      split
      · rintro ⟨⟩
      · split
        · rw [Table.get?_insert, Table.get?_insert]
          split
          · rintro ⟨⟩
          · split <;> rintro ⟨⟩
        · rintro ⟨⟩
  | dict ref => rintro ⟨⟩
  | fields ref =>
      change (Module.fields (Store.get (Store.add _ _) ref)).getName? key ≠ _
      rw [Store.get_add]
      split <;> rintro ⟨⟩

/-- The frame inside, which holds what the class has, is empty. -/
theorem reach_push (parts : List String) :
    heap.reach (scope.push ⟨1⟩) parts = heap.reach scope parts := by
  cases parts with
  | nil => rfl
  | cons first rest =>
      rw [reach, reach, lookup_of_plain (by decide), lookup_of_plain (by decide)]
      rfl

/-- A binding is seen under a name that leads elsewhere, although no container is reached
under two names. -/
def SeenElsewhere (scope : Scope) (name other : String) (value : Value) : Prop :=
  (∀ frame ∈ scope.frames, frame.package = none) ∧
    (∀ first second cell, heap.cell? (heap.lookupQualified scope first) = some cell →
      heap.cell? (heap.lookupQualified scope second) = some cell → first = second) ∧
    (∀ cell key, heap.read cell key ≠ some .missing) ∧ value ≠ .missing ∧
    ¬ nameParts name <+: nameParts other ∧ ¬ nameParts other <+: nameParts name ∧
    ∃ after, heap.bindQualified scope name value = .ok after ∧
      after.lookupQualified scope other ≠ heap.lookupQualified scope other

/-- What is bound in the class is seen through its instance, too, and what is bound in a frame
that is the table of the class is seen in the class. -/
theorem exists_seenElsewhere :
    SeenElsewhere scope "C.x" "m.x" (.int 1) ∧
      SeenElsewhere (scope.push ⟨1⟩) "x" "C.x" (.int 1) := by
  have partsC : nameParts "C.x" = ["C", "x"] := by decide +kernel
  have partsM : nameParts "m.x" = ["m", "x"] := by decide +kernel
  have parts : nameParts "x" = ["x"] := by decide +kernel
  have present : Value.int 1 ≠ .missing := fun same => by cases same
  constructor
  · refine ⟨by decide, reached_once, not_missing, present, ?_, ?_,
      heap.bind ⟨1⟩ "x" (.int 1), ?_, ?_⟩
    · rw [partsC, partsM]
      decide
    · rw [partsC, partsM]
      decide
    · rw [bindQualified, partsC]
      rfl
    · rw [lookupQualified_eq_reach, lookupQualified_eq_reach, partsM]
      intro same
      have shown : Value.int 1 = Value.missing := same
      cases shown
  · refine ⟨by decide, ?_, not_missing, present, ?_, ?_, heap.bind ⟨1⟩ "x" (.int 1), ?_, ?_⟩
    · intro first second
      rw [lookupQualified_eq_reach, lookupQualified_eq_reach, reach_push, reach_push,
        ← lookupQualified_eq_reach, ← lookupQualified_eq_reach]
      exact reached_once first second
    · rw [parts, partsC]
      decide
    · rw [parts, partsC]
      decide
    · rw [bindQualified, parts]
      rfl
    · rw [lookupQualified_eq_reach, lookupQualified_eq_reach, partsC]
      intro same
      have shown : Value.int 1 = Value.missing := same
      cases shown

end ClassAndInstance

end TorchArchive
