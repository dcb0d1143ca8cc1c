import TorchArchive.Graph.Construction
import TorchArchive.Proofs.Steps

/-!
# What a store keeps changes no answer

A store is faithful to its catalogue if the attributes that it keeps are those of the
catalogue.  An inquiry mirrors what the catalogue says if it ends as the catalogue does,
and leaves the store faithful, whether it ends with an answer or fails.
-/

namespace TorchArchive

namespace SchemaStore

/-- A store of a catalogue that keeps nothing but attributes of the catalogue. -/
structure Faithful (catalogue : Catalogue) (store : SchemaStore) : Prop where
  same : store.catalogue = catalogue
  kept :
    ∀ operator attributes, store.kept.get? operator = some attributes →
      catalogue.attributes operator = .ok attributes

variable {catalogue : Catalogue} {store : SchemaStore}

theorem ofCatalogue_faithful (catalogue : Catalogue) :
    (ofCatalogue catalogue).Faithful catalogue where
  same := rfl
  kept _ _ found := nomatch found

/-- A store stays faithful when it keeps the attributes of one more operator. -/
theorem Faithful.keep (faithful : store.Faithful catalogue) {operator : String}
    {attributes : List (Datum × Datum)}
    (told : catalogue.attributes operator = .ok attributes) :
    Faithful catalogue
      { store with kept := store.kept.insert operator attributes } where
  same := faithful.same
  kept := by
    intro other found isFound
    rw [Table.get?_insert] at isFound
    split at isFound
    · rename_i same
      cases isFound
      exact same ▸ told
    · exact faithful.kept other found isFound

/-! ## Inquiries that mirror a catalogue -/

section Mirrors

variable {α β : Type}

/-- An inquiry ends as the catalogue does and leaves the store faithful. -/
def Mirrors (catalogue : Catalogue) (inquiry : Inquiry α) (outcome : Except Fault α) :
    Prop :=
  ∀ store : SchemaStore, store.Faithful catalogue →
    ∃ after, after.Faithful catalogue ∧
      inquiry store =
        match outcome with
        | .ok value => .ok value after
        | .error fault => .error fault after

namespace Mirrors

theorem pure (value : α) : Mirrors catalogue (Pure.pure value) (.ok value) :=
  fun store faithful => ⟨store, faithful, rfl⟩

theorem ofExcept (outcome : Except Fault α) :
    Mirrors catalogue (ofExcept outcome) outcome := by
  intro store faithful
  cases outcome with
  | ok value => exact ⟨store, faithful, rfl⟩
  | error fault => exact ⟨store, faithful, rfl⟩

theorem bind {first : Inquiry α} {second : α → Inquiry β} {outcome : Except Fault α}
    {next : α → Except Fault β} (mirrorsFirst : Mirrors catalogue first outcome)
    (mirrorsSecond : ∀ value, Mirrors catalogue (second value) (next value)) :
    Mirrors catalogue (first >>= second) (outcome >>= next) := by
  intro store faithful
  obtain ⟨between, faithfulBetween, ends⟩ := mirrorsFirst store faithful
  cases outcome with
  | error fault =>
      exact ⟨between, faithfulBetween, EStateM.bind_eq_error_iff.mpr (.inl ends)⟩
  | ok value =>
      rw [EStateM.bind_of_ok ends]
      exact mirrorsSecond value between faithfulBetween

/-- An inquiry that goes on with the catalogue. -/
theorem withCatalogue {inquiry : SchemaStore → Inquiry α} {outcome : Except Fault α}
    (mirrors : ∀ store : SchemaStore, store.Faithful catalogue →
      Mirrors catalogue (inquiry store) outcome) :
    Mirrors catalogue (get >>= inquiry) outcome :=
  fun store faithful => mirrors store faithful store faithful

theorem listMapM {step : α → Inquiry β} {plain : α → Except Fault β}
    (mirrors : ∀ item, Mirrors catalogue (step item) (plain item)) (items : List α) :
    Mirrors catalogue (items.mapM step) (items.mapM plain) := by
  induction items with
  | nil => exact pure []
  | cons first rest inductionHypothesis =>
      rw [List.mapM_cons, List.mapM_cons]
      exact (mirrors first).bind fun value =>
        inductionHypothesis.bind fun values => pure (value :: values)

end Mirrors

end Mirrors

/-! ## Questions -/

theorem attributes_mirrors (operator : String) :
    Mirrors catalogue (attributes operator) (catalogue.attributes operator) := by
  refine Mirrors.withCatalogue fun store faithful => ?_
  cases found : store.kept.get? operator with
  | some attributes =>
      rw [faithful.kept operator attributes found]
      exact Mirrors.pure attributes
  | none =>
      dsimp only
      rw [faithful.same]
      cases told : catalogue.attributes operator with
      | error fault => exact fun other faithfulOther => ⟨other, faithfulOther, rfl⟩
      | ok attributes => exact fun other _ => ⟨_, faithful.same ▸ faithful.keep told, rfl⟩

theorem attribute?_mirrors (operator name : String) :
    Mirrors catalogue (attribute? operator name) (catalogue.attribute? operator name) :=
  (attributes_mirrors operator).bind fun _ => Mirrors.pure _

end SchemaStore

namespace Catalogue

/-- What a catalogue says to a question. -/
def answer (catalogue : Catalogue) : SchemaQuestion → Except Fault (Option Datum)
  | .schema operator => .ok (catalogue.schema? operator)
  | .attributeSchema operator name => catalogue.attribute? operator name
  | .documentation operator => catalogue.documentation operator

end Catalogue

namespace SchemaStore

variable {catalogue : Catalogue}

theorem ask_mirrors (question : SchemaQuestion) :
    Mirrors catalogue (ask question) (catalogue.answer question) := by
  cases question with
  | schema operator =>
      refine Mirrors.withCatalogue fun store faithful => ?_
      rw [faithful.same]
      exact Mirrors.pure _
  | attributeSchema operator name => exact attribute?_mirrors operator name
  | documentation operator =>
      refine Mirrors.withCatalogue fun store faithful => ?_
      rw [faithful.same]
      exact Mirrors.ofExcept _

end SchemaStore

/-! ## Nodes of calls -/

theorem inquireNode_mirrors (heap : Heap) (tree : ModuleTree) (catalogue : Catalogue)
    (call : TraceNode) :
    SchemaStore.Mirrors catalogue (inquireNode heap tree call)
      (callNode heap tree catalogue call) := by
  refine SchemaStore.Mirrors.withCatalogue fun store faithful => ?_
  rw [faithful.same]
  refine (SchemaStore.Mirrors.ofExcept _).bind fun node => ?_
  refine (SchemaStore.Mirrors.listMapM (fun entry => ?_) call.attributes).bind
    fun attributes => .pure _
  exact (SchemaStore.attribute?_mirrors call.operator entry.1).bind fun schema =>
    .ofExcept _

/-- One store that is asked for all calls gives the nodes that the catalogue gives. -/
theorem callNodes_eq (heap : Heap) (tree : ModuleTree) (catalogue : Catalogue)
    (calls : List TraceNode) :
    callNodes heap tree catalogue calls = calls.mapM (callNode heap tree catalogue) := by
  obtain ⟨after, _, ends⟩ :=
    SchemaStore.Mirrors.listMapM (inquireNode_mirrors heap tree catalogue) calls _
      (SchemaStore.ofCatalogue_faithful catalogue)
  rw [callNodes, ends]
  cases calls.mapM (callNode heap tree catalogue) with
  | ok nodes => rfl
  | error fault => rfl

/-! ## Steps of a desk -/

namespace SchemaDesk

variable {catalogue : Catalogue} {desk : SchemaDesk}

/-- No step makes the store of a desk unfaithful. -/
theorem step_faithful (faithful : desk.store.Faithful catalogue) (step : SchemaStep) :
    (desk.step step).2.store.Faithful catalogue := by
  cases step with
  | ask question =>
      obtain ⟨after, faithfulAfter, ends⟩ :=
        SchemaStore.ask_mirrors question desk.store faithful
      rw [SchemaDesk.step, ends]
      cases catalogue.answer question with
      | ok answer => exact faithfulAfter
      | error fault => exact faithfulAfter
  | change place edit =>
      rw [SchemaDesk.step]
      split
      · exact faithful
      · exact faithful

theorem after_faithful (faithful : desk.store.Faithful catalogue)
    (steps : List SchemaStep) : (desk.after steps).store.Faithful catalogue := by
  induction steps generalizing desk with
  | nil => exact faithful
  | cons first rest inductionHypothesis =>
      exact inductionHypothesis (step_faithful faithful first)

/-- A faithful store says what the catalogue says. -/
theorem step_ask (faithful : desk.store.Faithful catalogue) (question : SchemaQuestion) :
    (desk.step (.ask question)).1 = catalogue.answer question := by
  obtain ⟨after, _, ends⟩ := SchemaStore.ask_mirrors question desk.store faithful
  rw [SchemaDesk.step, ends]
  cases catalogue.answer question with
  | ok answer => rfl
  | error fault => rfl

/-- Whatever was asked and changed before, a question is answered as the catalogue
answers it. -/
theorem answer_after (catalogue : Catalogue) (steps : List SchemaStep)
    (question : SchemaQuestion) :
    (((ofCatalogue catalogue).after steps).step (.ask question)).1 =
      catalogue.answer question :=
  step_ask (after_faithful (SchemaStore.ofCatalogue_faithful catalogue) steps) question

end SchemaDesk

end TorchArchive
