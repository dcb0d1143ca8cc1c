import TorchArchive.Proofs.Package.Loading

/-!
# Places of packages and classes

Every package that is bound below the outermost scope carries the dotted name of the place
that it is bound at, however its name was claimed: as the package of some code, on the way
to a longer name, or below a class.  So what a package is bound to in another one is always
told from the names of the two.
-/

namespace TorchArchive

/-- Where packages and classes stand: under which dotted names, and with which tables of
members. -/
abbrev Places := Value → String → Ref .table → Prop

namespace Places

/-- Whatever stands somewhere still does. -/
def Within (before after : Places) : Prop :=
  ∀ ⦃value path table⦄, before value path table → after value path table

/-- One more package or class at a place. -/
def add (places : Places) (value : Value) (path : String) (table : Ref .table) : Places :=
  fun other otherPath otherTable =>
    places other otherPath otherTable ∨
      (other = value ∧ otherPath = path ∧ otherTable = table)

/-- A value that may be bound at a place: what stands there, or what has no members. -/
def Fit (places : Places) (path : String) (value : Value) : Prop :=
  Heap.isPlain value = true ∨ ∃ table, places value path table

variable {before between after : Places} {path : String} {value : Value}

theorem Within.refl (places : Places) : places.Within places := fun _ _ _ stands => stands

theorem Within.trans (first : before.Within between) (second : between.Within after) :
    before.Within after := fun _ _ _ stands => second (first stands)

theorem within_add (places : Places) (value : Value) (path : String) (table : Ref .table) :
    places.Within (places.add value path table) := fun _ _ _ => Or.inl

theorem add_self (places : Places) (value : Value) (path : String) (table : Ref .table) :
    places.add value path table value path table := Or.inr ⟨rfl, rfl, rfl⟩

theorem Fit.mono (fit : before.Fit path value) (within : before.Within after) :
    after.Fit path value := by
  rcases fit with plain | ⟨table, stands⟩
  · exact .inl plain
  · exact .inr ⟨table, within stands⟩

end Places

namespace Heap

/-- A package with its name and its members, or a class with its members. -/
inductive Owns (heap : Heap) : Value → String → Ref .table → Prop where
  | package (ref : Ref .package) (held : heap.packages.Holds ref) :
      Owns heap (.package ref) (heap.package ref).name (heap.package ref).members
  | moduleClass (ref : Ref .moduleClass) (path : String)
      (held : heap.moduleClasses.Holds ref) :
      Owns heap (.moduleClass ref) path (heap.moduleClass ref).members

/-- A heap in which everything below the outermost scope stands at its place, apart from
what builtins are bound to.  In a package the names of builtins are left to packages. -/
structure Placed (heap : Heap) (builtins : String → Option Value) (root : Ref .table)
    (places : Places) : Prop where
  owns : ∀ {value path table}, places value path table → heap.Owns value path table
  held : ∀ {value path table}, places value path table → heap.tables.Holds table
  inner : ∀ {value path table}, places value path table → table ≠ root
  distinct :
    ∀ {value path other otherPath table}, places value path table →
      places other otherPath table → value = other ∧ path = otherPath
  members :
    ∀ {value path table name member}, places value path table →
      (heap.table table).get? name = some member → places.Fit (path ++ "." ++ name) member
  reserved :
    ∀ {ref path table name member}, places (.package ref) path table →
      builtins name ≠ none → (heap.table table).get? name = some member →
        ∃ child, member = .package child
  rootHeld : heap.tables.Holds root
  bound :
    ∀ {name value}, builtins name = some value →
      (heap.table root).get? name = some value
  unbound :
    ∀ {name value}, builtins name = none → (heap.table root).get? name = some value →
      places.Fit name value

variable {heap after : Heap} {builtins : String → Option Value} {root : Ref .table}
  {places : Places} {value : Value} {path : String} {table : Ref .table}

theorem Owns.package_eq {ref : Ref .package} (owns : heap.Owns (.package ref) path table) :
    (heap.package ref).name = path ∧ (heap.package ref).members = table := by
  generalize isPackage : Value.package ref = value at owns
  cases owns with
  | package _ held =>
      cases isPackage
      exact ⟨rfl, rfl⟩
  | moduleClass => cases isPackage

theorem Owns.grows {opened : Ref .table → Prop} (owns : heap.Owns value path table)
    (grows : heap.Grows opened after) : after.Owns value path table := by
  cases owns with
  | package ref held =>
      obtain ⟨heldAfter, members, name⟩ := grows.packages ref held
      rw [← members, ← name]
      exact .package ref heldAfter
  | moduleClass ref path held =>
      obtain ⟨heldAfter, same⟩ := grows.moduleClasses ref held
      rw [← same]
      exact .moduleClass ref path heldAfter

namespace Placed

/-! ## Single changes -/

/-- New objects have no place. -/
theorem grows (placed : heap.Placed builtins root places)
    (grows : heap.Grows (fun _ => False) after) : after.Placed builtins root places := by
  have same {table : Ref .table} (held : heap.tables.Holds table) :
      after.table table = heap.table table := (grows.tables table held).2 id
  constructor
  case owns => exact fun stands => (placed.owns stands).grows grows
  case held => exact fun stands => (grows.tables _ (placed.held stands)).1
  case inner => exact placed.inner
  case distinct => exact placed.distinct
  case members =>
    intro value path table name member stands isMember
    rw [same (placed.held stands)] at isMember
    exact placed.members stands isMember
  case reserved =>
    intro ref path table name member stands isBuiltin isMember
    rw [same (placed.held stands)] at isMember
    exact placed.reserved stands isBuiltin isMember
  case rootHeld => exact (grows.tables root placed.rootHeld).1
  case bound =>
    intro name value isBuiltin
    rw [same placed.rootHeld]
    exact placed.bound isBuiltin
  case unbound =>
    intro name value noBuiltin isBound
    rw [same placed.rootHeld] at isBound
    exact placed.unbound noBuiltin isBound

/-- A new package or class stands anywhere, as long as it has no members. -/
theorem add (placed : heap.Placed builtins root places)
    (grows : heap.Grows (fun _ => False) after)
    (owns : after.Owns value path heap.tables.next)
    (held : after.tables.Holds heap.tables.next)
    (empty : after.table heap.tables.next = .empty) :
    after.Placed builtins root (places.add value path heap.tables.next) := by
  have grown := placed.grows grows
  have within := places.within_add value path heap.tables.next
  have new {other : Value} {otherPath : String} (stands : places other otherPath heap.tables.next) :
      False := Store.next_not_holds _ (placed.held stands)
  constructor
  case owns =>
    rintro _ _ _ (old | ⟨rfl, rfl, rfl⟩)
    · exact grown.owns old
    · exact owns
  case held =>
    rintro _ _ _ (old | ⟨rfl, rfl, rfl⟩)
    · exact grown.held old
    · exact held
  case inner =>
    rintro _ _ _ (old | ⟨rfl, rfl, rfl⟩)
    · exact placed.inner old
    · rintro rfl
      exact Store.next_not_holds _ placed.rootHeld
  case distinct =>
    rintro _ _ _ _ _ (old | ⟨rfl, rfl, rfl⟩) (other | ⟨rfl, rfl, same⟩)
    · exact placed.distinct old other
    · exact (new (same ▸ old)).elim
    · exact (new other).elim
    · exact ⟨rfl, rfl⟩
  case members =>
    rintro _ _ _ name member (old | ⟨rfl, rfl, rfl⟩) isMember
    · exact (grown.members old isMember).mono within
    · rw [empty] at isMember
      cases isMember
  case reserved =>
    rintro _ _ _ name member (old | ⟨_, _, rfl⟩) isBuiltin isMember
    · exact grown.reserved old isBuiltin isMember
    · rw [empty] at isMember
      cases isMember
  case rootHeld => exact grown.rootHeld
  case bound => exact grown.bound
  case unbound => exact fun noBuiltin isBound => (grown.unbound noBuiltin isBound).mono within

theorem addPackage (placed : heap.Placed builtins root places) (name : String) :
    (heap.addPackage name).2.Placed builtins root
      (places.add (.package (heap.addPackage name).1) name heap.tables.next) := by
  have shown : (heap.addPackage name).2.package heap.packages.next =
      ⟨name, none, heap.tables.next⟩ := Store.get_add_next heap.packages _
  have owns := @Owns.package (heap.addPackage name).2 heap.packages.next
    (Store.holds_next heap.packages _)
  rw [shown] at owns
  exact placed.add (heap.grows_addPackage _ name) owns (Store.holds_next heap.tables _)
    (Store.get_add_next heap.tables _)

theorem addModuleClass (placed : heap.Placed builtins root places) (module name path : String) :
    (heap.addModuleClass module name).2.Placed builtins root
      (places.add (.moduleClass (heap.addModuleClass module name).1) path
        heap.tables.next) := by
  have shown : (heap.addModuleClass module name).2.moduleClass heap.moduleClasses.next =
      ⟨module, name, heap.tables.next⟩ := Store.get_add_next heap.moduleClasses _
  have owns := @Owns.moduleClass (heap.addModuleClass module name).2 heap.moduleClasses.next
    path (Store.holds_next heap.moduleClasses _)
  rw [shown] at owns
  exact placed.add (heap.grows_addModuleClass _ module name) owns
    (Store.holds_next heap.tables _) (Store.get_add_next heap.tables _)

/-- A binding in a package or class. -/
theorem bind (placed : heap.Placed builtins root places) {name : String} {member : Value}
    (stands : places value path table) (fit : places.Fit (path ++ "." ++ name) member)
    (allowed :
      ∀ ref, value = .package ref → builtins name ≠ none →
        ∃ child, member = .package child) :
    (heap.bind table name member).Placed builtins root places := by
  have grows := heap.grows_bind (· = table) rfl name member
  have rootKept : (heap.bind table name member).table root = heap.table root := by
    rw [table_bind, if_neg (placed.inner stands)]
  constructor
  case owns => exact fun stands => (placed.owns stands).grows grows
  case held => exact fun stands => heap.holds_bind (placed.held stands) name member
  case inner => exact placed.inner
  case distinct => exact placed.distinct
  case members =>
    intro other otherPath otherTable otherName found otherStands isMember
    rw [table_bind] at isMember
    split at isMember
    · rename_i same
      subst same
      obtain ⟨-, rfl⟩ := placed.distinct stands otherStands
      rw [Table.get?_insert] at isMember
      split at isMember
      · rename_i same
        cases isMember
        exact same ▸ fit
      · exact placed.members otherStands isMember
    · exact placed.members otherStands isMember
  case reserved =>
    intro ref otherPath otherTable otherName found otherStands isBuiltin isMember
    rw [table_bind] at isMember
    split at isMember
    · rename_i same
      subst same
      obtain ⟨isPackage, -⟩ := placed.distinct stands otherStands
      rw [Table.get?_insert] at isMember
      split at isMember
      · rename_i same
        cases isMember
        exact allowed ref isPackage (same ▸ isBuiltin)
      · exact placed.reserved otherStands isBuiltin isMember
    · exact placed.reserved otherStands isBuiltin isMember
  case rootHeld => exact heap.holds_bind placed.rootHeld name member
  case bound =>
    intro name value isBuiltin
    rw [rootKept]
    exact placed.bound isBuiltin
  case unbound =>
    intro name value noBuiltin isBound
    rw [rootKept] at isBound
    exact placed.unbound noBuiltin isBound

/-- A binding in the outermost scope, under no name of a builtin. -/
theorem bindRoot (placed : heap.Placed builtins root places) {name : String} {value : Value}
    (noBuiltin : builtins name = none) (fit : places.Fit name value) :
    (heap.bind root name value).Placed builtins root places := by
  have grows := heap.grows_bind (· = root) rfl name value
  have kept {other : Value} {path : String} {table : Ref .table}
      (stands : places other path table) :
      (heap.bind root name value).table table = heap.table table := by
    rw [table_bind, if_neg (Ne.symm (placed.inner stands))]
  constructor
  case owns => exact fun stands => (placed.owns stands).grows grows
  case held => exact fun stands => heap.holds_bind (placed.held stands) name value
  case inner => exact placed.inner
  case distinct => exact placed.distinct
  case members =>
    intro other path table otherName member stands isMember
    rw [kept stands] at isMember
    exact placed.members stands isMember
  case reserved =>
    intro ref path table otherName member stands isBuiltin isMember
    rw [kept stands] at isMember
    exact placed.reserved stands isBuiltin isMember
  case rootHeld => exact heap.holds_bind placed.rootHeld name value
  case bound =>
    intro other found isBuiltin
    rw [table_bind, if_pos rfl, Table.get?_insert, if_neg]
    · exact placed.bound isBuiltin
    · rintro rfl
      rw [noBuiltin] at isBuiltin
      cases isBuiltin
  case unbound =>
    intro other found noBuiltin isBound
    rw [table_bind, if_pos rfl, Table.get?_insert] at isBound
    split at isBound
    · rename_i same
      cases isBound
      exact same ▸ fit
    · exact placed.unbound noBuiltin isBound

/-! ## Walks -/

/-- A member of what stands at a place may be bound where the path continues. -/
theorem fit_findMember (placed : heap.Placed builtins root places) (fit : places.Fit path value)
    (name : String) : places.Fit (path ++ "." ++ name) (heap.findMember value name) := by
  rcases fit with plain | ⟨table, stands⟩
  · exact .inl (isPlain_findMember heap plain name)
  · have shown : heap.findMember value name = ((heap.table table).get? name).getD .missing := by
      cases placed.owns stands with
      | package ref held => rfl
      | moduleClass ref path held => rfl
    rw [shown]
    cases isMember : (heap.table table).get? name with
    | none => exact .inl rfl
    | some member => exact placed.members stands isMember

theorem fit_follow (placed : heap.Placed builtins root places) (parts : List String)
    (fit : places.Fit path value) :
    places.Fit (parts.foldl (fun path part => path ++ "." ++ part) path)
      (heap.follow value parts) := by
  induction parts generalizing path value with
  | nil => exact fit
  | cons part rest inductionHypothesis =>
      rw [follow]
      split
      · exact .inl rfl
      · exact inductionHypothesis (placed.fit_findMember fit part)

/-- What the outermost scope binds, beside builtins, stands under its name. -/
theorem fit_lookup (placed : heap.Placed builtins root places) {name : String}
    (noBuiltin : builtins name = none) :
    places.Fit name (heap.lookup (.outermost root) name) := by
  have shown : heap.lookup (.outermost root) name =
      ((heap.table root).get? name).getD .missing := by
    rw [lookup, Scope.outermost, Scope.frames, search]
    cases (heap.table root).get? name with
    | none => rfl
    | some value => rfl
  rw [shown]
  cases isBound : (heap.table root).get? name with
  | none => exact .inl rfl
  | some value => exact placed.unbound noBuiltin isBound

/-- A dotted name is the path of its parts. -/
theorem foldl_of_nameParts {name first : String} {rest : List String}
    (split : nameParts name = first :: rest) :
    rest.foldl (fun path part => path ++ "." ++ part) first = name := by
  have joined (rest : List String) (first : String) :
      rest.foldl (fun path part => path ++ "." ++ part) first =
        ".".intercalate (first :: rest) := by
    induction rest generalizing first with
    | nil => rfl
    | cons part rest inductionHypothesis => exact inductionHypothesis _
  rw [joined, ← split]
  exact intercalate_nameParts name

/-- A dotted name that does not begin like a builtin leads to what stands at its place. -/
theorem fit_lookupQualified (placed : heap.Placed builtins root places) {name : String}
    (noBuiltin : ∀ first ∈ (nameParts name).head?, builtins first = none) :
    places.Fit name (heap.lookupQualified (.outermost root) name) := by
  rw [lookupQualified]
  split
  · exact .inl rfl
  · rename_i first rest split
    have fit := placed.fit_follow rest
      (placed.fit_lookup (noBuiltin first (by rw [split]; rfl)))
    rw [foldl_of_nameParts split] at fit
    exact fit

/-- A member is set only in what stands at a place. -/
theorem setMember (placed : heap.Placed builtins root places) {name : String}
    {child : Ref .package} (fit : places.Fit path value)
    (fitChild : places.Fit (path ++ "." ++ name) (.package child))
    (sets : heap.setMember value name (.package child) = .ok after) :
    after.Placed builtins root places := by
  rcases fit with plain | ⟨table, stands⟩
  · cases value with
    | atom _ | tuple _ | list _ | function _ | method _ => cases sets
    | _ => cases plain
  · have binds := placed.bind stands fitChild fun _ _ _ => ⟨child, rfl⟩
    cases placed.owns stands with
    | package ref held =>
        cases sets
        exact binds
    | moduleClass ref path held =>
        cases sets
        exact binds

/-- A package is bound at its place, with packages on the way that stand at theirs. -/
theorem setPath {child : Ref .package} {name : String} :
    ∀ (parts : List String) {heap : Heap} {places : Places} {path : String} {value : Value},
      heap.Placed builtins root places → places.Fit path value →
        places.Fit name (.package child) →
          parts.foldl (fun path part => path ++ "." ++ part) path = name →
            heap.setPath value path (.package child) parts = .ok after →
              ∃ more, places.Within more ∧ after.Placed builtins root more
  | [], heap, places, path, value, placed, fit, fitChild, leads, sets => by
      cases sets
      exact ⟨places, .refl _, placed⟩
  | [last], heap, places, path, value, placed, fit, fitChild, leads, sets => by
      subst leads
      exact ⟨places, .refl _, placed.setMember fit fitChild sets⟩
  | part :: next :: rest, heap, places, path, value, placed, fit, fitChild, leads, sets => by
      have fitMember := placed.fit_findMember fit part
      rw [Heap.setPath] at sets
      · split at sets
        · obtain ⟨between, setsMember, setsPath⟩ := Except.bind_eq_ok_iff.mp sets
          have made := placed.addPackage (path ++ "." ++ part)
          have within := places.within_add (.package (heap.addPackage (path ++ "." ++ part)).1)
            (path ++ "." ++ part) heap.tables.next
          have fitMade :
              (places.add (.package (heap.addPackage (path ++ "." ++ part)).1)
                (path ++ "." ++ part) heap.tables.next).Fit (path ++ "." ++ part)
                (.package (heap.addPackage (path ++ "." ++ part)).1) :=
            .inr ⟨_, places.add_self _ _ _⟩
          have bound := made.setMember (fit.mono within) fitMade setsMember
          obtain ⟨more, withinMore, placedMore⟩ := setPath (next :: rest) bound fitMade
            (fitChild.mono within) leads setsPath
          exact ⟨more, within.trans withinMore, placedMore⟩
        · exact setPath (next :: rest) placed fitMember fitChild leads sets
      · exact fun never => by cases never

theorem bindQualified (placed : heap.Placed builtins root places) {name : String}
    {child : Ref .package}
    (noBuiltin : ∀ first ∈ (nameParts name).head?, builtins first = none)
    (fitChild : places.Fit name (.package child))
    (binds : heap.bindQualified (.outermost root) name (.package child) = .ok after) :
    ∃ more, places.Within more ∧ after.Placed builtins root more := by
  rw [Heap.bindQualified] at binds
  split at binds
  · cases binds
    exact ⟨places, .refl _, placed⟩
  · rename_i single split
    cases binds
    have same : single = name := foldl_of_nameParts split
    have free := noBuiltin single (by rw [split]; rfl)
    exact ⟨places, .refl _, placed.bindRoot free (same ▸ fitChild)⟩
  · rename_i first rest _ split
    have free := noBuiltin first (by rw [split]; rfl)
    have leads := foldl_of_nameParts split
    dsimp only at binds
    split at binds
    · have made := placed.addPackage first
      have within := places.within_add (.package (heap.addPackage first).1) first
        heap.tables.next
      have fitMade :
          (places.add (.package (heap.addPackage first).1) first heap.tables.next).Fit first
            (.package (heap.addPackage first).1) :=
        .inr ⟨_, places.add_self _ _ _⟩
      obtain ⟨more, withinMore, placedMore⟩ :=
        (made.bindRoot free fitMade).setPath rest fitMade (fitChild.mono within) leads binds
      exact ⟨more, within.trans withinMore, placedMore⟩
    · exact placed.setPath rest (placed.fit_lookup free) fitChild leads binds

/-! ## Lookups -/

/-- What a package binds to a name of a builtin is a package below it. -/
theorem isSubpackage (placed : heap.Placed builtins root places) {ref : Ref .package}
    (stands : places (.package ref) path table) {name : String} {member : Value}
    (isBuiltin : builtins name ≠ none)
    (isMember : (heap.table table).get? name = some member) :
    heap.isSubpackage ⟨table, some path⟩ member = true := by
  obtain ⟨child, rfl⟩ := placed.reserved stands isBuiltin isMember
  rcases placed.members stands isMember with never | ⟨_, standsChild⟩
  · cases never
  · obtain ⟨named, -⟩ := (placed.owns standsChild).package_eq
    have text : (path ++ "." ++ name).toList = (path ++ ".").toList ++ name.toList :=
      String.toList_append
    change (path ++ ".").toList.isPrefixOf (heap.package child).name.toList = true
    rw [named, text, List.isPrefixOf_iff_prefix]
    exact List.prefix_append _ _

/-- Behind frames that do not bind it, the name of a builtin is looked up in the outermost
scope, also where the package has a package of that name below it. -/
theorem search_builtin (placed : heap.Placed builtins root places) {ref : Ref .package}
    (stands : places (.package ref) path table) {name : String}
    (isBuiltin : builtins name = some value) :
    ∀ (frames : List Frame), (∀ frame ∈ frames, (heap.table frame.table).get? name = none) →
      heap.search name .missing (frames ++ [⟨table, some path⟩, ⟨root, none⟩]) = value
  | [], _ => by
      have isBound := placed.bound isBuiltin
      have found (fallback : Value) : heap.search name fallback [⟨root, none⟩] = value := by
        rw [search, isBound]
        rfl
      rw [List.nil_append, search]
      cases isMember : (heap.table table).get? name with
      | none => exact found _
      | some member =>
          have below := placed.isSubpackage stands
            (by rw [isBuiltin]; exact Option.some_ne_none value) isMember
          dsimp only
          rw [if_pos below]
          exact found _
  | frame :: rest, free => by
      obtain ⟨freeFirst, freeRest⟩ := List.forall_mem_cons.mp free
      rw [List.cons_append, search, freeFirst]
      exact placed.search_builtin stands isBuiltin rest freeRest

end Placed

end Heap

end TorchArchive
