import Mathlib.Data.List.Forall2
import Mathlib.Data.List.Pairwise
import Mathlib.Data.List.Perm.Subperm
import TorchArchive.Proofs.Folding.Call

/-!
# Folding accounts for every call and every module

Folding goes through the calls once and gives each module to the first call that
qualifies for it.  The number of folds, the calls that name a module and the
modules that get hidden agree, and nothing else changes.
-/

namespace TorchArchive

namespace Folding

/-! ## What may change -/

/-- Between two heaps, modules got hidden and nothing else happened to modules and
tensors. -/
structure OnlyHides (before after : Heap) : Prop where
  tensors : ∀ ref, after.tensor ref = before.tensor ref
  modules :
    ∀ ref,
      after.module ref =
        { before.module ref with hidden := (after.module ref).hidden }
  kept :
    ∀ ref, (before.module ref).hidden = true → (after.module ref).hidden = true

/-- An argument of a call that a module was folded into: if its name is that of a
parameter, the parameter is the module's and the argument has its initializer. -/
inductive Bound (heap : Heap) (parameters : Table String (Ref .tensor))
    (place : Nat) : TraceArgument → TraceArgument → Prop
  | parameter {argument : TraceArgument} {tensor : Ref .tensor} :
      parameters.get? argument.id = some tensor →
      (heap.tensor tensor).owner = some (place : Int) →
      Bound heap parameters place argument
        { argument with initializer := (heap.tensor tensor).initializer }
  | other {argument : TraceArgument} :
      parameters.get? argument.id = none →
      Bound heap parameters place argument argument

/-- What folding makes of a call. -/
inductive Outcome (tree : ModuleTree) (parameters : Table String (Ref .tensor))
    (heap : Heap) : TraceNode → TraceNode → Prop
  | kept {node : TraceNode} :
      node.module = none →
      Outcome tree parameters heap node node
  | folded {node : TraceNode} {place : Nat} {ref : Ref .module}
      {inputs : List (List TraceArgument)} :
      Qualifies tree parameters heap node place ref →
      List.Forall₂ (List.Forall₂ (Bound heap parameters place)) node.inputs inputs →
      Outcome tree parameters heap node { node with inputs, module := some place }

/-- The accounts of folding modules into calls. -/
structure Accounts (tree : ModuleTree) (parameters : Table String (Ref .tensor))
    (heap : Heap) (nodes : List TraceNode) (folding : Folding) : Prop where
  /-- Calls stay in their places. -/
  outcomes : List.Forall₂ (Outcome tree parameters heap) nodes folding.nodes
  changes : OnlyHides heap folding.heap
  /-- The folds are the calls that name a module. -/
  named : folding.count = folding.nodes.countP fun node => node.module.isSome
  /-- The folds are the modules that got hidden. -/
  hid :
    folding.count =
      tree.modules.countP fun ref =>
        (folding.heap.module ref).hidden && !(heap.module ref).hidden
  /-- No module is named twice. -/
  exclusive : (folding.nodes.filterMap fun node => node.module).Nodup
  /-- A module that is named was not hidden before, and is hidden now. -/
  spared :
    ∀ node ∈ folding.nodes, ∀ place, node.module = some place →
      ∃ ref, tree.modules[place]? = some ref ∧
        (heap.module ref).hidden = false ∧
          (folding.heap.module ref).hidden = true
  /-- A call that qualifies for a module goes without it only if the module was
  hidden before or an earlier call got it. -/
  greedy :
    ∀ earlier node later, folding.nodes = earlier ++ node :: later →
      node.module = none →
        ∀ place ref, Qualifies tree parameters heap node place ref →
          (heap.module ref).hidden = true ∨
            ∃ other ∈ earlier, other.module = some place

variable {tree : ModuleTree} {parameters : Table String (Ref .tensor)}
  {heap other : Heap} {node : TraceNode} {place : Nat} {ref : Ref .module}

namespace OnlyHides

theorem refl (heap : Heap) : OnlyHides heap heap :=
  ⟨fun _ => rfl, fun _ => rfl, fun _ hidden => hidden⟩

theorem trans {last : Heap} (first : OnlyHides heap other)
    (second : OnlyHides other last) : OnlyHides heap last where
  tensors ref := (second.tensors ref).trans (first.tensors ref)
  modules ref := by
    rw [second.modules ref, first.modules ref]
  kept ref hidden := second.kept ref (first.kept ref hidden)

theorem hide (heap : Heap) (ref : Ref .module) :
    OnlyHides heap (Folding.hide heap ref) where
  tensors _ := rfl
  modules tested := by
    rw [Folding.hide, Heap.module_updateModule]
    split
    · rename_i same
      rw [same]
    · rfl
  kept tested hidden := by
    rw [Folding.hide, Heap.module_updateModule]
    split
    · rfl
    · exact hidden

variable (changes : OnlyHides heap other)

include changes

theorem index (ref : Ref .module) :
    (other.module ref).index = (heap.module ref).index := by
  rw [changes.modules ref]

theorem parent (ref : Ref .module) :
    (other.module ref).parent = (heap.module ref).parent := by
  rw [changes.modules ref]

theorem fields (ref : Ref .module) :
    (other.module ref).fields = (heap.module ref).fields := by
  rw [changes.modules ref]

theorem placed (placed : tree.Placed heap) : tree.Placed other := by
  intro place ref found
  rw [changes.index ref]
  exact placed place ref found

theorem ownersPlaced (owned : OwnersPlaced tree parameters heap) :
    OwnersPlaced tree parameters other := by
  intro id tensor resolves owner ownerEquality
  rw [changes.tensors tensor] at ownerEquality
  exact owned id tensor resolves owner ownerEquality

theorem qualifiedName (place : Option Int) :
    tree.qualifiedName other place = tree.qualifiedName heap place := by
  apply ModuleTree.qualifiedName_congr
  · intro ref
    rw [changes.modules ref]
  · intro ref
    rw [changes.modules ref]

theorem qualifies_iff :
    Qualifies tree parameters other node place ref ↔
      Qualifies tree parameters heap node place ref := by
  have counts := Heap.parameterCount_congr (changes.fields ref)
  constructor
  · intro qualifies
    refine ⟨qualifies.found, qualifies.consumes, ?_, ?_⟩
    · intro tensor member
      rw [← changes.tensors tensor]
      exact qualifies.owned tensor member
    · exact qualifies.count.trans counts
  · intro qualifies
    refine ⟨qualifies.found, qualifies.consumes, ?_, ?_⟩
    · intro tensor member
      rw [changes.tensors tensor]
      exact qualifies.owned tensor member
    · exact qualifies.count.trans counts.symm

theorem bound {before after : TraceArgument}
    (bound : Bound other parameters place before after) :
    Bound heap parameters place before after := by
  cases bound with
  | parameter resolves owner =>
      rw [changes.tensors] at owner ⊢
      exact .parameter resolves owner
  | other unresolved =>
      exact .other unresolved

theorem outcome {before after : TraceNode}
    (outcome : Outcome tree parameters other before after) :
    Outcome tree parameters heap before after := by
  cases outcome with
  | kept unnamed =>
      exact .kept unnamed
  | folded qualifies inputs =>
      refine .folded (changes.qualifies_iff.mp qualifies) ?_
      refine inputs.imp fun _ _ arguments => ?_
      exact arguments.imp fun _ _ bound => changes.bound bound

end OnlyHides

/-! ## One more call in front -/

/-- The arguments of a call that a module is folded into. -/
theorem bound_inputs (qualifies : Qualifies tree parameters heap node place ref) :
    List.Forall₂ (List.Forall₂ (Bound heap parameters place)) node.inputs
      (bindArguments heap parameters node).inputs := by
  simp only [bindArguments, List.forall₂_map_right_iff, List.forall₂_same]
  intro arguments argumentsMember argument argumentMember
  split
  · rename_i tensor resolves
    refine .parameter resolves (qualifies.owned tensor ?_)
    exact List.mem_filterMap.mpr
      ⟨argument, List.mem_flatten.mpr ⟨arguments, argumentsMember, argumentMember⟩,
        resolves⟩
  · rename_i unresolved
    exact .other unresolved

private theorem countP_eq_succ {items : List (Ref .module)}
    {tested weaker : Ref .module → Bool} (nodup : items.Nodup) (member : ref ∈ items)
    (holds : tested ref = true) (fails : weaker ref = false)
    (others : ∀ item, item ≠ ref → tested item = weaker item) :
    items.countP tested = items.countP weaker + 1 := by
  induction items with
  | nil =>
      cases member
  | cons first rest inductionHypothesis =>
      obtain ⟨absent, restNodup⟩ := List.nodup_cons.mp nodup
      rcases List.mem_cons.mp member with rfl | later
      · have same : rest.countP tested = rest.countP weaker := by
          apply List.countP_congr
          intro item itemMember
          rw [others item fun equality => absent (equality ▸ itemMember)]
        simp [holds, fails, same]
      · have different : first ≠ ref := fun equality => absent (equality ▸ later)
        have counted := inductionHypothesis restNodup later
        simp only [List.countP_cons, others first different, counted]
        omega

namespace Accounts

theorem done (heap : Heap) :
    Accounts tree parameters heap [] ⟨heap, [], [], none⟩ where
  outcomes := .nil
  changes := .refl heap
  named := rfl
  hid := by
    symm
    rw [List.countP_eq_zero.mpr]
    · rfl
    · simp
  exclusive := List.nodup_nil
  spared := by simp
  greedy := by simp

variable {rest : List TraceNode} {folding : Folding}

/-- A call in front that nothing is folded into. -/
theorem keep (accounts : Accounts tree parameters heap rest folding)
    (unnamed : node.module = none)
    (late :
      ∀ place ref, Qualifies tree parameters heap node place ref →
        (heap.module ref).hidden = true) :
    Accounts tree parameters heap (node :: rest)
      { folding with nodes := node :: folding.nodes } where
  outcomes := .cons (.kept unnamed) accounts.outcomes
  changes := accounts.changes
  named := by
    simpa [Folding.count, unnamed] using accounts.named
  hid := accounts.hid
  exclusive := by
    simpa [unnamed] using accounts.exclusive
  spared := by
    intro member membership place equality
    rcases List.mem_cons.mp membership with rfl | later
    · rw [unnamed] at equality
      cases equality
    · exact accounts.spared member later place equality
  greedy := by
    intro earlier tested later split untested place ref qualifies
    cases earlier with
    | nil =>
        obtain ⟨rfl, _⟩ := List.cons.inj split
        exact Or.inl (late place ref qualifies)
    | cons first others =>
        obtain ⟨_, tail⟩ := List.cons.inj split
        rcases accounts.greedy others tested later tail untested place ref qualifies
          with hidden | ⟨other, member, names⟩
        · exact Or.inl hidden
        · exact Or.inr ⟨other, List.mem_cons_of_mem first member, names⟩

/-- A call in front that a module is folded into, which is hidden from then on. -/
theorem fold (placed : tree.Placed heap)
    (accounts : Accounts tree parameters (hide heap ref) rest folding)
    (qualifies : Qualifies tree parameters heap node place ref)
    (shown : (heap.module ref).hidden = false) (event : Event) :
    Accounts tree parameters heap (node :: rest)
      { folding with
        nodes := folded heap parameters node place :: folding.nodes
        events := event :: folding.events } := by
  have hides := OnlyHides.hide heap ref
  have hiddenNow : ((hide heap ref).module ref).hidden = true := by
    simp [hide]
  have unaffected :
      ∀ item, item ≠ ref → (hide heap ref).module item = heap.module item := by
    intro item different
    simp [hide, different.symm]
  constructor
  case outcomes =>
    refine .cons (.folded qualifies (bound_inputs qualifies)) ?_
    exact accounts.outcomes.imp fun _ _ outcome => hides.outcome outcome
  case changes =>
    exact hides.trans accounts.changes
  case named =>
    have named := accounts.named
    simp only [Folding.count] at named
    simp [Folding.count, folded, named]
  case hid =>
    have hid := accounts.hid
    simp only [Folding.count] at hid
    simp only [Folding.count, List.length_cons, hid]
    symm
    apply countP_eq_succ placed.nodup
      (List.mem_of_getElem? qualifies.found)
    · simp [accounts.changes.kept ref hiddenNow, shown]
    · simp [hiddenNow]
    · intro item different
      rw [unaffected item different]
  case exclusive =>
    refine List.nodup_cons.mpr ⟨?_, accounts.exclusive⟩
    intro again
    obtain ⟨named, member, names⟩ := List.mem_filterMap.mp again
    obtain ⟨other, found, notHidden, _⟩ := accounts.spared named member place names
    have same := Option.some.inj (found.symm.trans qualifies.found)
    rw [same, hiddenNow] at notHidden
    cases notHidden
  case spared =>
    intro named membership tested names
    rcases List.mem_cons.mp membership with rfl | later
    · cases names
      exact ⟨ref, qualifies.found, shown, accounts.changes.kept ref hiddenNow⟩
    · obtain ⟨other, found, notHidden, hidden⟩ :=
        accounts.spared named later tested names
      refine ⟨other, found, ?_, hidden⟩
      cases before : (heap.module other).hidden with
      | false => rfl
      | true =>
          rw [hides.kept other before] at notHidden
          cases notHidden
  case greedy =>
    intro earlier tested later split unnamed testedPlace testedRef candidate
    cases earlier with
    | nil =>
        obtain ⟨rfl, _⟩ := List.cons.inj split
        cases unnamed
    | cons first others =>
        obtain ⟨rfl, tail⟩ := List.cons.inj split
        rcases accounts.greedy others tested later tail unnamed testedPlace testedRef
            (hides.qualifies_iff.mpr candidate)
          with hidden | ⟨other, member, names⟩
        · by_cases same : testedRef = ref
          · subst same
            have places := placed.place_unique candidate.found qualifies.found
            subst places
            exact Or.inr ⟨_, List.mem_cons_self, rfl⟩
          · rw [unaffected testedRef same] at hidden
            exact Or.inl hidden
        · exact Or.inr ⟨other, List.mem_cons_of_mem _ member, names⟩

/-- The folds are as many as the modules that got hidden, and no two name the same
one, so each of these modules is named. -/
theorem exists_named {nodes : List TraceNode} (placed : tree.Placed heap)
    (accounts : Accounts tree parameters heap nodes folding)
    (member : ref ∈ tree.modules) (shown : (heap.module ref).hidden = false)
    (hidden : (folding.heap.module ref).hidden = true) :
    ∃ node ∈ folding.nodes, ∃ place, node.module = some place ∧
      tree.modules[place]? = some ref := by
  let gotHidden := fun ref =>
    (folding.heap.module ref).hidden && !(heap.module ref).hidden
  let named := folding.nodes.filterMap fun node => node.module
  let placeOf := fun ref => (heap.module ref).index.getD 0
  have subset : named ⊆ (tree.modules.filter gotHidden).map placeOf := by
    intro place inside
    obtain ⟨node, nodeMember, names⟩ := List.mem_filterMap.mp inside
    obtain ⟨other, found, before, after⟩ := accounts.spared node nodeMember place names
    refine List.mem_map.mpr ⟨other, List.mem_filter.mpr ?_, ?_⟩
    · exact ⟨List.mem_of_getElem? found, by simp [gotHidden, before, after]⟩
    · simp only [placeOf, placed place other found, Option.getD_some]
  have lengths : ((tree.modules.filter gotHidden).map placeOf).length = named.length := by
    rw [List.length_map, ← List.countP_eq_length_filter, ← accounts.hid, accounts.named,
      List.length_filterMap_eq_countP]
  have all := (List.Nodup.subperm accounts.exclusive subset).perm_of_length_le
    (Nat.le_of_eq lengths)
  obtain ⟨place, found⟩ := List.getElem?_of_mem member
  have place_mem : place ∈ named := by
    refine all.mem_iff.mpr (List.mem_map.mpr ⟨ref, List.mem_filter.mpr ?_, ?_⟩)
    · exact ⟨member, by simp [gotHidden, shown, hidden]⟩
    · simp only [placeOf, placed place ref found, Option.getD_some]
  obtain ⟨node, nodeMember, names⟩ := List.mem_filterMap.mp place_mem
  exact ⟨node, nodeMember, place, names, found⟩

/-- A module is named by one call only. -/
theorem named_unique {nodes : List TraceNode}
    (accounts : Accounts tree parameters heap nodes folding) {left right : TraceNode}
    (leftMember : left ∈ folding.nodes) (rightMember : right ∈ folding.nodes)
    (leftNames : left.module = some place) (rightNames : right.module = some place) :
    left = right := by
  by_contra different
  have symmetric : Std.Symm fun left right : TraceNode =>
      ∀ first, left.module = some first →
        ∀ second, right.module = some second → first ≠ second :=
    ⟨fun _ _ apart first one second two same => apart second two first one same.symm⟩
  have distinct := List.pairwise_filterMap.mp accounts.exclusive
  have apart := distinct.forall leftMember rightMember different
  exact apart place leftNames place rightNames rfl

end Accounts

/-! ## All calls -/

theorem foldNodes_accounts_of_faultless (owned : OwnersPlaced tree parameters heap)
    (placed : tree.Placed heap) {nodes : List TraceNode}
    (unnamed : ∀ node ∈ nodes, node.module = none)
    (faultless : (foldNodes tree parameters heap nodes).fault = none) :
    Accounts tree parameters heap nodes (foldNodes tree parameters heap nodes) := by
  induction nodes generalizing heap with
  | nil =>
      exact .done heap
  | cons node rest inductionHypothesis =>
      obtain ⟨nodeUnnamed, restUnnamed⟩ := List.forall_mem_cons.mp unnamed
      rw [foldNodes] at faultless ⊢
      by_cases candidate : ∃ place ref, Qualifies tree parameters heap node place ref
      · obtain ⟨place, ref, qualifies⟩ := candidate
        cases hidden : (heap.module ref).hidden with
        | true =>
            simp only [foldNode_of_hidden qualifies hidden] at faultless ⊢
            refine (inductionHypothesis owned placed restUnnamed faultless).keep
              nodeUnnamed ?_
            intro tested other candidate
            obtain ⟨_, rfl⟩ := qualifies.unique candidate
            exact hidden
        | false =>
            rw [foldNode_of_shown placed qualifies hidden] at faultless ⊢
            have hides := OnlyHides.hide heap ref
            cases named : tree.qualifiedName heap (some (place : Int)) with
            | error fault =>
                rw [named] at faultless
                cases faultless
            | ok name =>
                rw [named] at faultless
                refine .fold placed ?_ qualifies hidden (.folding name node.operator)
                exact inductionHypothesis (hides.ownersPlaced owned)
                  (hides.placed placed) restUnnamed faultless
      · have never : ∀ place ref, ¬ Qualifies tree parameters heap node place ref :=
          fun place ref qualifies => candidate ⟨place, ref, qualifies⟩
        simp only [foldNode_of_not_qualifies owned never] at faultless ⊢
        refine (inductionHypothesis owned placed restUnnamed faultless).keep
          nodeUnnamed ?_
        intro place ref qualifies
        exact absurd qualifies (never place ref)

/-- Folding fails only where a module of the tree has no name. -/
theorem foldNodes_fault (owned : OwnersPlaced tree parameters heap)
    (placed : tree.Placed heap) {nodes : List TraceNode} {fault : Fault}
    (fails : (foldNodes tree parameters heap nodes).fault = some fault) :
    ∃ place : Nat, place < tree.size ∧
      tree.qualifiedName heap (some (place : Int)) = .error fault := by
  induction nodes generalizing heap with
  | nil =>
      cases fails
  | cons node rest inductionHypothesis =>
      rw [foldNodes] at fails
      by_cases candidate : ∃ place ref, Qualifies tree parameters heap node place ref
      · obtain ⟨place, ref, qualifies⟩ := candidate
        cases hidden : (heap.module ref).hidden with
        | true =>
            simp only [foldNode_of_hidden qualifies hidden] at fails
            exact inductionHypothesis owned placed fails
        | false =>
            rw [foldNode_of_shown placed qualifies hidden] at fails
            have hides := OnlyHides.hide heap ref
            cases named : tree.qualifiedName heap (some (place : Int)) with
            | error other =>
                rw [named] at fails
                cases fails
                exact ⟨place, ModuleTree.place_lt qualifies.found, named⟩
            | ok name =>
                rw [named] at fails
                obtain ⟨unnamed, inside, nameless⟩ :=
                  inductionHypothesis (hides.ownersPlaced owned)
                    (hides.placed placed) fails
                rw [hides.qualifiedName] at nameless
                exact ⟨unnamed, inside, nameless⟩
      · have never : ∀ place ref, ¬ Qualifies tree parameters heap node place ref :=
          fun place ref qualifies => candidate ⟨place, ref, qualifies⟩
        simp only [foldNode_of_not_qualifies owned never] at fails
        exact inductionHypothesis owned placed fails

theorem foldNodes_faultless (owned : OwnersPlaced tree parameters heap)
    (placed : tree.Placed heap) (rooted : tree.Rooted heap) (nodes : List TraceNode) :
    (foldNodes tree parameters heap nodes).fault = none := by
  cases fails : (foldNodes tree parameters heap nodes).fault with
  | none =>
      rfl
  | some fault =>
      obtain ⟨place, inside, nameless⟩ := foldNodes_fault owned placed fails
      obtain ⟨name, named⟩ := rooted.qualifiedName_ok inside
      rw [named] at nameless
      cases nameless

/-- Folding fails only where a module of the tree has no name, which cannot be in a
tree whose parents stand before their modules.  When it does not fail, its accounts
are exact. -/
theorem foldNodes_accounts (owned : OwnersPlaced tree parameters heap)
    (placed : tree.Placed heap) {nodes : List TraceNode}
    (unnamed : ∀ node ∈ nodes, node.module = none) :
    ((foldNodes tree parameters heap nodes).fault = none →
        Accounts tree parameters heap nodes
          (foldNodes tree parameters heap nodes)) ∧
      (∀ fault, (foldNodes tree parameters heap nodes).fault = some fault →
        ∃ place : Nat, place < tree.size ∧
          tree.qualifiedName heap (some (place : Int)) = .error fault) ∧
        (tree.Rooted heap → (foldNodes tree parameters heap nodes).fault = none) := by
  refine ⟨?_, ?_, ?_⟩
  · exact foldNodes_accounts_of_faultless owned placed unnamed
  · intro fault fails
    exact foldNodes_fault owned placed fails
  · intro rooted
    exact foldNodes_faultless owned placed rooted nodes

/-! ## A linear layer

Two calls consume the weight and the bias of one layer below the root. -/

/-- The layer below the root, with its two tensors as parameters. -/
def linearHeap : Heap :=
  let tensor : Tensor := { Tensor.blank default with owner := some 1 }
  let root : Module := { Module.fresh default with index := some 0 }
  let layer : Module :=
    { Module.fresh default with
      fields :=
        (Entries.putName .empty "weight" (.tensor ⟨0⟩)).putName "bias" (.tensor ⟨1⟩)
      index := some 1
      parent := some 0
      identifier := some "linear" }
  { (default : Heap) with
    tensors := ⟨#[tensor, tensor]⟩
    modules := ⟨#[root, layer]⟩ }

def linearTree : ModuleTree := ⟨[⟨0⟩, ⟨1⟩]⟩

def linearParameters : Table String (Ref .tensor) :=
  .ofList [("1", ⟨0⟩), ("2", ⟨1⟩)]

/-- A call that consumes a value and both tensors. -/
def linearCall (value : String) : TraceNode :=
  ⟨"addmm", "torch.addmm",
    [[⟨value, ⟨2⟩, none⟩], [⟨"1", ⟨0⟩, none⟩], [⟨"2", ⟨1⟩, none⟩]],
    [], [], none⟩

private theorem linearTree_cases {place : Nat} {ref : Ref .module}
    (found : linearTree.modules[place]? = some ref) :
    place = 0 ∧ ref = ⟨0⟩ ∨ place = 1 ∧ ref = ⟨1⟩ := by
  rcases place with _ | _ | place
  · exact Or.inl ⟨rfl, (Option.some.inj found).symm⟩
  · exact Or.inr ⟨rfl, (Option.some.inj found).symm⟩
  · cases found

private theorem linear_owned :
    OwnersPlaced linearTree linearParameters linearHeap := by
  intro id tensor resolves owner ownerEquality
  have known : tensor = ⟨0⟩ ∨ tensor = ⟨1⟩ := by
    simp only [linearParameters, Table.ofList, Table.insertAll, List.foldl_cons,
      List.foldl_nil, Table.get?_insert, Table.get?_empty] at resolves
    split at resolves
    · exact Or.inr (Option.some.inj resolves).symm
    · split at resolves
      · exact Or.inl (Option.some.inj resolves).symm
      · cases resolves
  refine ⟨1, ?_, by decide⟩
  rcases known with rfl | rfl
  · exact (Option.some.inj ownerEquality).symm
  · exact (Option.some.inj ownerEquality).symm

private theorem linear_placed : linearTree.Placed linearHeap := by
  intro place ref found
  rcases linearTree_cases found with ⟨rfl, rfl⟩ | ⟨rfl, rfl⟩
  · rfl
  · rfl

private theorem linear_rooted : linearTree.Rooted linearHeap := by
  intro place ref found parent parentEquality
  rcases linearTree_cases found with ⟨rfl, rfl⟩ | ⟨rfl, rfl⟩
  · cases parentEquality
  · exact ⟨0, (Option.some.inj parentEquality).symm, by decide⟩

/-- The first of two calls gets the layer. -/
theorem foldNodes_accounts_linear :
    OwnersPlaced linearTree linearParameters linearHeap ∧
      linearTree.Placed linearHeap ∧
        Accounts linearTree linearParameters linearHeap
          [linearCall "x", linearCall "y"]
          (foldNodes linearTree linearParameters linearHeap
            [linearCall "x", linearCall "y"]) := by
  have unnamed : ∀ node ∈ [linearCall "x", linearCall "y"], node.module = none := by
    decide
  have accounts := foldNodes_accounts linear_owned linear_placed unnamed
  exact ⟨linear_owned, linear_placed, accounts.1 (accounts.2.2 linear_rooted)⟩

example :
    ((foldNodes linearTree linearParameters linearHeap
        [linearCall "x", linearCall "y"]).nodes.map fun node => node.module) =
      [some 1, none] := by
  decide

end Folding

end TorchArchive
