import TorchArchive.Proofs.Graph.Registration

/-!
# Registration comes to an end

Registration fails only at a field whose name is no string and at a tensor whose form
cannot be shown.  Where the modules that a root leads to have neither, it finds these
modules and no others, and all that it changes are marks.
-/

namespace TorchArchive

/-! ## Fields by name -/

namespace Entries

/-- Entries under strings, as code sets them: each string once, and under its own key. -/
structure ByName (entries : Entries) : Prop where
  named :
    ∀ key name value, (key, (name, value)) ∈ entries.entries →
      ∃ text, key = Value.nameKey text ∧ name = .str text
  distinct : (Table.keys entries).Nodup

variable {entries : Entries}

theorem ByName.empty : ByName Table.empty where
  named := by
    intro key name value member
    cases member
  distinct := List.nodup_nil

theorem ByName.putName (byName : entries.ByName) (text : String) (value : Value) :
    (entries.putName text value).ByName where
  named := by
    intro key name other member
    rcases Table.mem_insert member with ⟨rfl, same⟩ | old
    · refine ⟨text, rfl, ?_⟩
      cases first : Table.get? entries (Value.nameKey text) with
      | none =>
          rw [first] at same
          exact congrArg Prod.fst same
      | some entry =>
          rw [first] at same
          obtain ⟨text', sameKey, named⟩ :=
            byName.named _ entry.1 entry.2 (Table.mem_of_get? first)
          have sameText : text = text' := by
            injection sameKey with sameAtom
            injection sameAtom with sameStr
            injection sameStr
          rw [sameText, ← named]
          exact congrArg Prod.fst same
    · exact byName.named key name other old
  distinct := by
    rw [Entries.putName, Entries.put, Table.keys_insert]
    split
    · exact byName.distinct
    · rename_i new
      have apart : ∀ key ∈ Table.keys entries, key ≠ Value.nameKey text := by
        rintro key member rfl
        exact new member
      exact List.nodup_append.mpr ⟨byName.distinct, List.nodup_singleton _,
        fun key member other last => (List.mem_singleton.mp last) ▸ apart key member⟩

theorem ByName.exists_text (byName : entries.ByName) {name value : Value}
    (member : (name, value) ∈ entries.pairs) : ∃ text, name = .str text := by
  obtain ⟨⟨key, entry⟩, inside, rfl⟩ := List.mem_map.mp member
  obtain ⟨text, _, named⟩ := byName.named key _ _ inside
  exact ⟨text, named⟩

/-- Looking a name up finds the value of the field with that name. -/
theorem ByName.getName?_eq (byName : entries.ByName) {text : String} {value : Value}
    (member : (.str text, value) ∈ entries.pairs) :
    entries.getName? text = some value := by
  obtain ⟨⟨key, entry⟩, inside, rfl⟩ := List.mem_map.mp member
  obtain ⟨other, rfl, named⟩ := byName.named key _ _ inside
  have same : text = other := by
    injection named with sameAtom
    injection sameAtom
  rw [getName?, same, Table.get?_of_mem byName.distinct inside]
  rfl

end Entries

namespace Heap

/-! ## Tensors that can be shown -/

/-- A tensor of the usual form: its data stand in a storage, if anywhere, and its size
can be gone through, if it has one. -/
structure IsViewable (heap : Heap) (tensor : Ref .tensor) : Prop where
  storage :
    (heap.tensor tensor).storage = .none ∨
      ∃ storage, (heap.tensor tensor).storage = .storage storage
  size :
    (heap.tensor tensor).size = .none ∨
      ∃ items, heap.iterate? (heap.tensor tensor).size = some items

variable {heap before after : Heap}

theorem IsViewable.exists_initializer {tensor : Ref .tensor}
    (viewable : heap.IsViewable tensor) (displayLimit : Datum) :
    ∃ view, heap.initializer tensor displayLimit = .ok view := by
  have parts : ∃ parts, heap.storageParts (heap.tensor tensor).storage = .ok parts := by
    rcases viewable.storage with none | ⟨storage, stored⟩
    · exact ⟨_, by rw [none]; rfl⟩
    · exact ⟨_, by rw [stored]; rfl⟩
  obtain ⟨parts, reads⟩ := parts
  rw [initializer]
  dsimp only
  rw [reads]
  rcases viewable.size with none | ⟨items, sized⟩
  · rw [none]
    exact ⟨_, rfl⟩
  · rw [iterate, sized]
    simp only [Bind.bind, Except.bind]
    by_cases unsized : (heap.tensor tensor).size.isNone = true
    · rw [if_pos unsized]
      exact ⟨_, rfl⟩
    · rw [if_neg unsized]
      exact ⟨_, rfl⟩

/-! ## Marks -/

/-- All that changed are marks: places, parents and identifiers of modules, owners and
views of tensors. -/
structure OnlyMarks (before after : Heap) : Prop where
  lists : after.lists = before.lists
  dicts : after.dicts = before.dicts
  storages : after.storages = before.storages
  tensors :
    ∀ ref, ∃ owner view,
      after.tensor ref = { before.tensor ref with owner, initializer := view }
  fields : ∀ ref, (after.module ref).fields = (before.module ref).fields

namespace OnlyMarks

theorem refl (heap : Heap) : heap.OnlyMarks heap :=
  ⟨rfl, rfl, rfl, fun _ => ⟨_, _, rfl⟩, fun _ => rfl⟩

theorem trans {between : Heap} (first : before.OnlyMarks between)
    (second : between.OnlyMarks after) : before.OnlyMarks after where
  lists := second.lists.trans first.lists
  dicts := second.dicts.trans first.dicts
  storages := second.storages.trans first.storages
  tensors := by
    intro ref
    obtain ⟨_, _, early⟩ := first.tensors ref
    obtain ⟨owner, view, late⟩ := second.tensors ref
    refine ⟨owner, view, ?_⟩
    rw [late, early]
  fields := fun ref => (second.fields ref).trans (first.fields ref)

theorem module (heap : Heap) (ref : Ref .module) (change : Module → Module)
    (kept : (change (heap.module ref)).fields = (heap.module ref).fields) :
    heap.OnlyMarks (heap.updateModule ref change) where
  lists := rfl
  dicts := rfl
  storages := rfl
  tensors := fun _ => ⟨_, _, rfl⟩
  fields := by
    intro other
    rw [module_updateModule]
    split
    · rename_i same
      rw [← same]
      exact kept
    · rfl

theorem tensor (heap : Heap) (ref : Ref .tensor) (owner : Option Int)
    (view : Option Initializer) :
    heap.OnlyMarks (heap.updateTensor ref ({ · with owner, initializer := view })) where
  lists := rfl
  dicts := rfl
  storages := rfl
  tensors := by
    intro other
    rw [tensor_updateTensor]
    split
    · rename_i same
      exact ⟨owner, view, by rw [same]⟩
    · exact ⟨_, _, rfl⟩
  fields := fun _ => rfl

variable (marks : before.OnlyMarks after)

include marks

theorem list (ref : Ref .list) : after.list ref = before.list ref :=
  congrArg (fun lists => lists.get ref) marks.lists

theorem outputs (ref : Ref .tensor) :
    (after.tensor ref).outputs = (before.tensor ref).outputs := by
  obtain ⟨_, _, same⟩ := marks.tensors ref
  rw [same]

theorem iterate? (value : Value) : after.iterate? value = before.iterate? value := by
  cases value with
  | list ref => exact congrArg some (marks.list ref)
  | dict ref =>
      have same : after.dict ref = before.dict ref :=
        congrArg (fun dicts => dicts.get ref) marks.dicts
      rw [Heap.iterate?, Heap.iterate?, same]
  | atom content => cases content <;> rfl
  | _ => rfl

theorem viewable {ref : Ref .tensor} (viewable : before.IsViewable ref) :
    after.IsViewable ref := by
  obtain ⟨_, _, same⟩ := marks.tensors ref
  constructor
  · rw [same]
    exact viewable.storage
  · rw [same, marks.iterate?]
    exact viewable.size

end OnlyMarks

/-! ## What a root leads to -/

/-- The modules that a root leads to through open fields. -/
inductive Reaches (heap : Heap) (root : Ref .module) : Ref .module → Prop
  | root : Reaches heap root root
  | field {holder child : Ref .module} {name : Value} :
      Reaches heap root holder → heap.HasField holder name (.module child) →
      IsOpenField name → Reaches heap root child

/-- Below a root, fields have names, and tensors can be shown. -/
structure Regular (heap : Heap) (root : Ref .module) : Prop where
  byName : ∀ ref, heap.Reaches root ref → (heap.module ref).fields.ByName
  viewable :
    ∀ ref name tensor, heap.Reaches root ref →
      heap.HasField ref name (.tensor tensor) → heap.IsViewable tensor

end Heap

namespace Registration

variable {start : Heap} {root : Ref .module} {registration after : Registration}
  {displayLimit : Datum}

/-! ## What registration keeps -/

/-- A property that is kept where a tensor in a field gets an owner and where a module
gets a place. -/
structure Kept (start : Heap) (displayLimit : Datum) (property : Registration → Prop) :
    Prop where
  fields :
    ∀ {registration : Registration}, property registration →
      ∀ ref, (registration.heap.module ref).fields = (start.module ref).fields
  tensor :
    ∀ {before after : Registration} {owner : Option Int} {tensor : Ref .tensor}
      {holder : Ref .module} {name : Value},
      start.HasField holder name (.tensor tensor) →
      addTensor displayLimit owner before tensor = .ok after →
        property before → property after
  module :
    ∀ {before : Registration} (child : Ref .module) (parent : Option Int)
      (identifier : Option String),
      property before → property (before.push child parent identifier)

section Keeping

variable {property : Registration → Prop} (kept : Kept start displayLimit property)

include kept

/-- The fields of a module keep the property, and the modules that are found through
them stand in open ones. -/
theorem addFields_keeps {place : Option Int} {holder : Ref .module} :
    ∀ (fields : List (Value × Value)) {registration after : Registration}
      {found : List (Ref .module)},
      (∀ entry ∈ fields, start.HasField holder entry.1 entry.2) →
      addFields displayLimit place registration fields = .ok (found, after) →
      property registration →
      property after ∧
        ∀ child ∈ found, ∃ name, IsOpenField name ∧ (name, .module child) ∈ fields
  | [], registration, after, found, _, adds, before => by
      rw [addFields] at adds
      cases adds
      exact ⟨before, fun _ member => by cases member⟩
  | (name, value) :: rest, registration, after, found, fields, adds, before => by
      obtain ⟨field, fieldsRest⟩ := List.forall_mem_cons.mp fields
      have later {between : Registration} {others : List (Ref .module)}
          (holds : property between)
          (addsRest :
            addFields displayLimit place between rest = .ok (others, after)) :
          property after ∧
            ∀ child ∈ others, ∃ field, IsOpenField field ∧
              (field, .module child) ∈ (name, value) :: rest := by
        obtain ⟨holdsAfter, inside⟩ := addFields_keeps rest fieldsRest addsRest holds
        refine ⟨holdsAfter, ?_⟩
        intro child member
        obtain ⟨field, isOpen, stands⟩ := inside child member
        exact ⟨field, isOpen, List.mem_cons_of_mem _ stands⟩
      cases value with
      | tensor tensor =>
          rw [addFields] at adds
          obtain ⟨between, addsTensor, addsRest⟩ := Except.bind_eq_ok_iff.mp adds
          exact later (kept.tensor field addsTensor before) addsRest
      | module child =>
          rw [addFields] at adds
          obtain ⟨apart, decides, addsRest⟩ := Except.bind_eq_ok_iff.mp adds
          split at addsRest
          · exact later before addsRest
          · rename_i new
            obtain ⟨notApart, unplaced⟩ := not_or.mp (mt (Bool.or_eq_true _ _).mpr new)
            rw [add_eq _ _ (Option.not_isSome_iff_eq_none.mp unplaced)] at addsRest
            obtain ⟨⟨others, last⟩, addsOthers, same⟩ :=
              Except.bind_eq_ok_iff.mp addsRest
            cases same
            obtain ⟨holds, inside⟩ :=
              later (kept.module child place name.str? before) addsOthers
            refine ⟨holds, ?_⟩
            intro other member
            rcases List.mem_cons.mp member with rfl | deeper
            · have isOpen := (isApart_eq_ok decides).mp (eq_false_of_ne_true notApart)
              exact ⟨name, isOpen, List.mem_cons_self⟩
            · exact inside other deeper
      | _ =>
          rw [addFields] at adds
          · exact later before adds
          · intro _ _ same
            cases same
          · intro _ _ same
            cases same

theorem addQueue_keeps :
    ∀ (fuel : Nat) {queue : List (Ref .module)} {registration after : Registration},
      addQueue displayLimit fuel queue registration = .ok after →
        property registration → property after
  | fuel, [], registration, after, adds, before => by
      have same : registration = after := by
        cases fuel with
        | zero => exact Except.ok.inj adds
        | succ fuel => exact Except.ok.inj adds
      exact same ▸ before
  | 0, _ :: _, registration, after, adds, before => by
      cases adds
      exact before
  | fuel + 1, ref :: queue, registration, after, adds, before => by
      rw [addQueue] at adds
      obtain ⟨⟨found, between⟩, addsFields, addsQueue⟩ := Except.bind_eq_ok_iff.mp adds
      rw [kept.fields before ref] at addsFields
      obtain ⟨holds, _⟩ := addFields_keeps kept _ (fun _ member => member) addsFields before
      exact addQueue_keeps fuel addsQueue holds

theorem addRoot_keeps (unmarked : start.Unmarked)
    (adds : (begin start).addRoot displayLimit root = .ok registration)
    (before : property (begin start)) : property registration := by
  have unplaced : ((begin start).heap.module root).index = none :=
    (unmarked.modules root).1
  rw [addRoot, add_eq none none unplaced] at adds
  exact addQueue_keeps kept _ adds (kept.module root none none before)

end Keeping

theorem push_marks (registration : Registration) (child : Ref .module)
    (parent : Option Int) (identifier : Option String) :
    registration.heap.OnlyMarks (registration.push child parent identifier).heap :=
  .module _ child _ rfl

/-- Registration changes nothing but marks. -/
theorem marks_kept (start : Heap) :
    Kept start displayLimit fun registration => start.OnlyMarks registration.heap where
  fields := fun marks => marks.fields
  tensor := by
    intro before after owner tensor _ _ _ adds marks
    rw [addTensor] at adds
    dsimp only at adds
    split at adds
    · cases adds
      exact marks
    · obtain ⟨view, _, same⟩ := Except.bind_eq_ok_iff.mp adds
      cases same
      exact marks.trans (.tensor _ tensor owner (some view))
  module := by
    intro before child parent identifier marks
    exact marks.trans (push_marks before child parent identifier)

theorem addRoot_marks (unmarked : start.Unmarked)
    (adds : (begin start).addRoot displayLimit root = .ok registration) :
    start.OnlyMarks registration.heap :=
  addRoot_keeps (marks_kept start) unmarked adds (.refl start)

/-! ## Registration ends -/

theorem exists_isApart (heap : Heap) {name : Value} {text : String}
    (named : name = .str text) : ∃ apart, isApart heap name = .ok apart := by
  rw [named]
  exact ⟨_, rfl⟩

theorem exists_addTensor (owner : Option Int) {tensor : Ref .tensor}
    (viewable : registration.heap.IsViewable tensor) :
    ∃ after, addTensor displayLimit owner registration tensor = .ok after := by
  rw [addTensor]
  dsimp only
  split
  · exact ⟨_, rfl⟩
  · obtain ⟨view, makes⟩ := viewable.exists_initializer displayLimit
    rw [makes]
    exact ⟨_, rfl⟩

/-- The fields of a module can be registered if they have names and tensors among them
can be shown. -/
theorem exists_addFields {place : Option Int} {holder : Ref .module} :
    ∀ (fields : List (Value × Value)) {registration : Registration},
      start.OnlyMarks registration.heap →
      (∀ entry ∈ fields, start.HasField holder entry.1 entry.2) →
      (∀ name value, (name, value) ∈ fields → ∃ text, name = .str text) →
      (∀ name tensor, (name, .tensor tensor) ∈ fields → start.IsViewable tensor) →
      ∃ result, addFields displayLimit place registration fields = .ok result
  | [], registration, _, _, _, _ => ⟨_, by rw [addFields]⟩
  | (name, value) :: rest, registration, marks, fields, named, viewable => by
      obtain ⟨field, fieldsRest⟩ := List.forall_mem_cons.mp fields
      have ends {between : Registration} (marksBetween : start.OnlyMarks between.heap) :
          ∃ result, addFields displayLimit place between rest = .ok result :=
        exists_addFields rest marksBetween fieldsRest
          (fun field other member => named field other (List.mem_cons_of_mem _ member))
          (fun field other member => viewable field other (List.mem_cons_of_mem _ member))
      cases value with
      | tensor tensor =>
          have shows := marks.viewable (viewable name tensor List.mem_cons_self)
          obtain ⟨between, adds⟩ := exists_addTensor place shows
          obtain ⟨result, endsRest⟩ := ends ((marks_kept start).tensor field adds marks)
          refine ⟨result, ?_⟩
          rw [addFields, adds]
          exact endsRest
      | module child =>
          obtain ⟨text, isText⟩ := named name _ List.mem_cons_self
          obtain ⟨apart, decides⟩ := exists_isApart registration.heap isText
          rw [addFields, decides]
          by_cases done :
              (apart || (registration.heap.module child).index.isSome) = true
          · obtain ⟨result, endsRest⟩ := ends marks
            refine ⟨result, ?_⟩
            simp only [bind, Except.bind, if_pos done]
            exact endsRest
          · have unplaced := (not_or.mp (mt (Bool.or_eq_true _ _).mpr done)).2
            have pushed := marks.trans (push_marks _ child place name.str?)
            obtain ⟨⟨others, last⟩, endsRest⟩ := ends pushed
            refine ⟨(child :: others, last), ?_⟩
            simp only [bind, Except.bind, if_neg done,
              add_eq place name.str? (Option.not_isSome_iff_eq_none.mp unplaced)]
            exact congrArg (Except.bind · fun result =>
              .ok (child :: result.1, result.2)) endsRest
      | _ =>
          obtain ⟨result, endsRest⟩ := ends marks
          refine ⟨result, ?_⟩
          rw [addFields]
          · exact endsRest
          · intro _ _ same
            cases same
          · intro _ _ same
            cases same

theorem exists_addQueue (regular : start.Regular root) :
    ∀ (fuel : Nat) {queue : List (Ref .module)} {registration : Registration},
      start.OnlyMarks registration.heap → (∀ ref ∈ queue, start.Reaches root ref) →
      ∃ after, addQueue displayLimit fuel queue registration = .ok after
  | 0, _, registration, _, _ => ⟨registration, rfl⟩
  | fuel + 1, [], registration, _, _ => ⟨registration, rfl⟩
  | fuel + 1, ref :: queue, registration, marks, reached => by
      obtain ⟨reachesRef, reachesQueue⟩ := List.forall_mem_cons.mp reached
      have byName := regular.byName ref reachesRef
      have endsFields : ∃ result,
          addFields displayLimit
            ((registration.heap.module ref).index.map fun n => (n : Int)) registration
            (start.module ref).fields.pairs = .ok result :=
        exists_addFields _ marks (fun _ member => member)
          (fun _ _ member => byName.exists_text member)
          (fun name tensor member => regular.viewable ref name tensor reachesRef member)
      obtain ⟨⟨found, between⟩, addsFields⟩ := endsFields
      obtain ⟨marksBetween, inside⟩ :=
        addFields_keeps (marks_kept start) _ (fun _ member => member) addsFields marks
      have reachesFound : ∀ child ∈ found, start.Reaches root child := by
        intro child member
        obtain ⟨name, isOpen, field⟩ := inside child member
        exact .field reachesRef field isOpen
      obtain ⟨after, addsQueue⟩ := exists_addQueue regular fuel
        marksBetween (List.forall_mem_append.mpr ⟨reachesQueue, reachesFound⟩)
      refine ⟨after, ?_⟩
      rw [addQueue, marks.fields ref, addsFields]
      exact addsQueue

/-- From a heap without marks, what a root leads to can be registered. -/
theorem exists_addRoot {heap : Heap} (unmarked : heap.Unmarked)
    (regular : heap.Regular root) (displayLimit : Datum) :
    ∃ registration, (begin heap).addRoot displayLimit root = .ok registration := by
  have unplaced : ((begin heap).heap.module root).index = none :=
    (unmarked.modules root).1
  rw [addRoot, add_eq none none unplaced]
  refine exists_addQueue regular _
    (push_marks (begin heap) root none none) ?_
  intro ref member
  rw [List.mem_singleton.mp member]
  exact .root

/-! ## What registration finds -/

/-- The modules that are found are those that the root leads to. -/
theorem Sound.mem_iff_reaches (sound : registration.Sound start root)
    (covered :
      ∀ ref ∈ registration.tree.modules, registration.CoversModule start ref)
    (ref : Ref .module) :
    ref ∈ registration.tree.modules ↔ start.Reaches root ref := by
  constructor
  · intro member
    obtain ⟨place, listed⟩ := List.getElem?_of_mem member
    clear member
    revert ref
    induction place using Nat.strongRecOn with
    | ind place inductionHypothesis =>
        intro ref listed
        by_cases same : ref = root
        · rw [same]
          exact .root
        · obtain ⟨above, parent, name, order, parentListed, _, _, isOpen, field⟩ :=
            sound.found place ref listed same
          exact .field (inductionHypothesis above order parent parentListed) field isOpen
  · intro reaches
    induction reaches with
    | root => exact List.mem_of_getElem? sound.first
    | @field holder child name _ field isOpen inductionHypothesis =>
        have found := (covered holder inductionHypothesis name _ field).2 child rfl isOpen
        obtain ⟨place, index⟩ := Option.isSome_iff_exists.mp found
        exact List.mem_of_getElem? ((sound.placed place child).mpr index)

end Registration

end TorchArchive
