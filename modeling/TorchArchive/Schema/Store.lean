import TorchArchive.Schema.Catalogue

/-!
Stores of schemas: catalogues that are asked many times. A store goes through the
attributes of an operator when one of them is asked for first and keeps them from
then on. Documentations are handed out as copies, which may be changed.
-/

namespace TorchArchive

/-- A catalogue with the attributes that were kept, by operator. -/
structure SchemaStore where
  catalogue : Catalogue
  kept : Table String (List (Datum × Datum))

/-- A step that asks a store and may fail. -/
abbrev Inquiry := EStateM Fault SchemaStore

namespace SchemaStore

/-- A store that was not asked yet. -/
def ofCatalogue (catalogue : Catalogue) : SchemaStore := ⟨catalogue, .empty⟩

instance : Inhabited SchemaStore := ⟨ofCatalogue .empty⟩

/-- The attributes of an operator, each with its name. A failure is not kept. -/
def attributes (operator : String) : Inquiry (List (Datum × Datum)) := do
  let store ← get
  match store.kept.get? operator with
  | some attributes => return attributes
  | none =>
      let attributes ← ofExcept (store.catalogue.attributes operator)
      set { store with kept := store.kept.insert operator attributes }
      return attributes

/-- The schema of an operator's attribute: the last one of its name. -/
def attribute? (operator name : String) : Inquiry (Option Datum) := do
  return Datum.lookup name (← attributes operator).reverse

end SchemaStore

/-! ## Questions and copies -/

/-- What a store can be asked for. -/
inductive SchemaQuestion where
  | schema (operator : String)
  | attributeSchema (operator name : String)
  | documentation (operator : String)

/-- Asks a store. -/
def SchemaStore.ask : SchemaQuestion → Inquiry (Option Datum)
  | .schema operator => return (← get).catalogue.schema? operator
  | .attributeSchema operator name => attribute? operator name
  | .documentation operator => do
      ofExcept ((← get).catalogue.documentation operator)

/-- A store with what it handed out as documentations, the last one first. -/
structure SchemaDesk where
  store : SchemaStore
  copies : List Datum

/-- A question to a store, or a change of a copy that it handed out. -/
inductive SchemaStep where
  | ask (question : SchemaQuestion)
  | change (place : Nat) (edit : Datum → Except Fault Datum)

namespace SchemaDesk

/-- A desk whose store was not asked yet. -/
def ofCatalogue (catalogue : Catalogue) : SchemaDesk := ⟨.ofCatalogue catalogue, []⟩

/-- The copies with an answer, if it was handed out as a copy. -/
def handOut (copies : List Datum) (answer : Option Datum) : SchemaQuestion → List Datum
  | .documentation _ => answer.getD .none :: copies
  | .schema _ | .attributeSchema _ _ => copies

/-- What a step yields: the answer to a question, or the copy as it was changed. -/
def step (desk : SchemaDesk) : SchemaStep → Except Fault (Option Datum) × SchemaDesk
  | .ask question =>
      match SchemaStore.ask question desk.store with
      | .ok answer store => (.ok answer, ⟨store, handOut desk.copies answer question⟩)
      | .error fault store => (.error fault, ⟨store, desk.copies⟩)
  | .change place edit =>
      match edit ((desk.copies[place]?).getD .none) with
      | .ok changed => (.ok (some changed), ⟨desk.store, desk.copies.set place changed⟩)
      | .error fault => (.error fault, desk)

/-- The desk after some steps. -/
def after (desk : SchemaDesk) (steps : List SchemaStep) : SchemaDesk :=
  steps.foldl (fun desk step => (desk.step step).2) desk

end SchemaDesk

end TorchArchive
