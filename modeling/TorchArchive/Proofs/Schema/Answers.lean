import TorchArchive.Proofs.Archive.Reporting
import TorchArchive.Proofs.Json
import TorchArchive.Proofs.Schema.Inquiries

/-!
# What a store of schemas answers

The answers of a store are told by the document that it was made from: an operator has
the schema of the last item of its name that has one, and an attribute is described by
the last entry of its name among the attributes of that schema.  What was asked before,
and what became of the copies that were handed out, has no part in it.
-/

namespace TorchArchive

/-! ## Tables of lists -/

namespace Table

variable {κ α : Type} [DecidableEq κ]

/-- What a key is bound to is bound to it by the last pair of the key. -/
theorem get?_ofList (pairs : List (κ × α)) (key : κ) :
    (ofList pairs).get? key =
      (pairs.filterMap fun pair => if pair.1 = key then some pair.2 else none).getLast? := by
  induction pairs using List.reverseRecOn with
  | nil => rfl
  | append_singleton pairs last inductionHypothesis =>
      have bound : ofList (pairs ++ [last]) = (ofList pairs).insert last.1 last.2 := by
        rw [ofList, insertAll, List.foldl_append]
        rfl
      rw [bound, get?_insert, inductionHypothesis, List.filterMap_append]
      by_cases same : last.1 = key
      · simp [same]
      · simp [same]

end Table

/-! ## What documents tell -/

namespace Catalogue

/-- The schema that an item gives to an operator, if it is not empty. -/
def schemaIn (operator : String) (item : Datum) : Option Datum :=
  if (item.get? "name").bind Datum.str? = some operator then
    (item.get? "schema").filter Datum.truthy
  else none

/-- The schema of the last item that gives one to an operator. -/
def lastSchema (items : List Datum) (operator : String) : Option Datum :=
  (items.filterMap (schemaIn operator)).getLast?

/-- The last entry of a name. -/
def lastNamed (listed : List Datum) (name : String) : Option Datum :=
  (listed.filter fun entry => (entry.get? "name").bind Datum.str? = some name).getLast?

/-- The schema that the items of a document give to an operator. The empty name has
none. -/
def schemaOf (items : List Datum) (operator : String) : Option Datum :=
  if operator = "" then none else lastSchema items operator

/-- A schema that is an object and lists attributes that are objects, if it lists any.
Their names, as far as they have some, can be keys. -/
structure ListsAttributes (schema : Datum) (listed : List Datum) : Prop where
  isObject : ∃ ordered fields, schema = .dict ordered fields
  lists :
    (schema.get? "attributes" = none ∧ listed = []) ∨
      schema.get? "attributes" = some (.list listed)
  objects : ∀ entry ∈ listed, ∃ ordered fields, entry = .dict ordered fields
  keys : ∀ entry ∈ listed, ∀ name, entry.get? "name" = some name → isName name = true

/-! ## Schemas of operators -/

/-- An empty schema gives nothing, and neither does a schema for a name that is empty or no
string. -/
private theorem takenFor_gives {name schema : Datum} {taken : Option (String × Datum)}
    (takes :
      (if !name.truthy || !schema.truthy then .ok none
        else if !isName name then .error (.type "unhashable type")
        else .ok (name.str?.map fun name => (name, schema)) :
          Except Fault (Option (String × Datum))) = .ok taken)
    (operator : String) :
    (taken.bind fun pair => if pair.1 = operator then some pair.2 else none) =
      if operator = "" then none
      else if name.str? = some operator then Option.filter Datum.truthy (some schema)
      else none := by
  cases full : schema.truthy with
  | false =>
      rw [full, Bool.not_false, Bool.or_true, if_pos rfl] at takes
      cases takes
      simp [Option.filter, full]
  | true =>
      simp only [Option.filter, full, Bool.not_true, Bool.or_false] at takes ⊢
      cases text : name.str? with
      | none =>
          rw [text, Option.map_none] at takes
          have nothing : taken = none := by grind
          simp [nothing]
      | some told =>
          have named : name = .str told := Datum.str?_eq_some_iff.mp text
          have counts : name.truthy = !told.isEmpty := by rw [named]; rfl
          have canName : isName name = true := by rw [named]; rfl
          rw [text, Option.map_some, counts, canName] at takes
          by_cases empty : told = ""
          · subst empty
            cases takes
            simp [eq_comm]
          · simp only [Bool.not_not, String.isEmpty_iff, empty] at takes
            cases takes
            by_cases asked : told = operator
            · simp [← asked, empty]
            · simp [asked]

/-- What is taken from an item is the schema that it gives, unless it is for the empty
name. -/
theorem operatorOf_gives {item : Datum} {taken : Option (String × Datum)}
    (takes : operatorOf item = .ok taken) (operator : String) :
    (taken.bind fun pair => if pair.1 = operator then some pair.2 else none) =
      if operator = "" then none else schemaIn operator item := by
  rw [schemaIn]
  cases item with
  | dict ordered fields =>
      rw [operatorOf] at takes
      cases ofName : (Datum.dict ordered fields).get? "name" with
      | none =>
          simp only [ofName] at takes
          cases takes
          simp
      | some name =>
          cases ofSchema : (Datum.dict ordered fields).get? "schema" with
          | none =>
              simp only [ofName, ofSchema] at takes
              cases takes
              simp
          | some schema =>
              simp only [ofName, ofSchema] at takes
              exact takenFor_gives takes operator
  | _ => cases takes

/-- The operators of a document that is no empty list, and of one that is. -/
theorem ofDatum_list_eq_ok_iff {items : List Datum} {catalogue : Catalogue} :
    ofDatum (.list items) = .ok catalogue ↔
      ∃ operators, items.mapM operatorOf = .ok operators ∧
        catalogue = ⟨Table.ofList (operators.filterMap id)⟩ := by
  cases items with
  | nil =>
      have made : ofDatum (.list []) = .ok empty := rfl
      have taken : ([] : List Datum).mapM operatorOf = .ok [] := rfl
      rw [made, taken]
      constructor
      · intro same
        cases same
        exact ⟨[], rfl, rfl⟩
      · rintro ⟨operators, same, rfl⟩
        cases same
        rfl
  | cons first rest =>
      have made : ofDatum (.list (first :: rest)) =
          ((first :: rest).mapM operatorOf >>= fun operators =>
            .ok ⟨Table.ofList (operators.filterMap id)⟩) := rfl
      rw [made, Except.bind_eq_ok_iff]
      constructor
      · rintro ⟨operators, taken, same⟩
        cases same
        exact ⟨operators, taken, rfl⟩
      · rintro ⟨operators, taken, rfl⟩
        exact ⟨operators, taken, rfl⟩

private theorem filterMap_given {items : List Datum}
    {operators : List (Option (String × Datum))}
    (taken : List.Forall₂ (fun item found => operatorOf item = .ok found) items operators)
    (operator : String) :
    (operators.filterMap fun found => found.bind fun pair =>
        if pair.1 = operator then some pair.2 else none) =
      items.filterMap fun item =>
        if operator = "" then none else schemaIn operator item := by
  induction taken with
  | nil => rfl
  | cons takes _ inductionHypothesis =>
      rw [List.filterMap_cons, List.filterMap_cons, operatorOf_gives takes operator,
        inductionHypothesis]

/-- A catalogue gives an operator the schema that the items give it. -/
theorem schema?_of_made {items : List Datum} {catalogue : Catalogue}
    (made : ofDatum (.list items) = .ok catalogue) (operator : String) :
    catalogue.schema? operator = schemaOf items operator := by
  obtain ⟨operators, taken, rfl⟩ := ofDatum_list_eq_ok_iff.mp made
  rw [schema?, Table.get?_ofList, List.filterMap_filterMap]
  have given := filterMap_given (Except.mapM_eq_ok_iff.mp taken) operator
  change (operators.filterMap fun found => found.bind fun pair =>
    if pair.1 = operator then some pair.2 else none).getLast? = _
  rw [given, schemaOf]
  by_cases unnamed : operator = ""
  · simp [unnamed]
  · simp [unnamed, lastSchema]

/-! ## Attributes -/

/-- The last entry under a string that it tells as its name. -/
private theorem lookup_reverse (name : String) (pairs : List (Datum × Datum)) :
    Datum.lookup name pairs.reverse =
      ((pairs.filter fun pair => pair.1.str? = some name).map (·.2)).getLast? := by
  induction pairs using List.reverseRecOn with
  | nil => rfl
  | append_singleton pairs last inductionHypothesis =>
      rw [List.reverse_append, List.reverse_singleton, List.singleton_append, Datum.lookup,
        inductionHypothesis]
      by_cases same : last.1.str? = some name
      · simp [same]
      · simp [same]

variable {catalogue : Catalogue} {operator : String} {schema : Datum} {listed : List Datum}

/-- The attributes that a schema lists are gone through one by one. -/
theorem attributes_of_lists (told : catalogue.schema? operator = some schema)
    (lists : ListsAttributes schema listed) :
    catalogue.attributes operator =
      listed.mapM fun item => do return (← attributeName item, item) := by
  obtain ⟨ordered, fields, rfl⟩ := lists.isObject
  have entry : catalogue.entry? operator "attributes" =
      .ok ((Datum.dict ordered fields).get? "attributes") := by
    rw [ entry?, told]
  rw [attributes, entry]
  obtain ⟨missing, rfl⟩ | found := lists.lists
  · rw [missing]
    rfl
  · rw [found]
    rfl

theorem attributeName_of_lists (lists : ListsAttributes schema listed) {entry : Datum}
    (member : entry ∈ listed) :
    attributeName entry =
      match entry.get? "name" with
      | some name => .ok name
      | none => .error (.key (quotedText "name")) := by
  obtain ⟨ordered, fields, rfl⟩ := lists.objects entry member
  rw [attributeName]
  cases ofName : (Datum.dict ordered fields).get? "name" with
  | none => rfl
  | some name => simp [lists.keys _ member name ofName]

private theorem mapM_ok_of_forall {α β : Type} {step : α → Except Fault β} {value : α → β}
    {items : List α} (ends : ∀ item ∈ items, step item = .ok (value item)) :
    items.mapM step = .ok (items.map value) := by
  rw [Except.mapM_eq_ok_iff, List.forall₂_map_right_iff, List.forall₂_same]
  exact ends

/-- An attribute is the last one of its name, if all have names. -/
theorem attribute?_of_named (told : catalogue.schema? operator = some schema)
    (lists : ListsAttributes schema listed)
    (named : ∀ entry ∈ listed, entry.get? "name" ≠ none) (name : String) :
    catalogue.attribute? operator name = .ok (lastNamed listed name) := by
  have attributes : catalogue.attributes operator =
      .ok (listed.map fun entry => ((entry.get? "name").getD .none, entry)) := by
    rw [attributes_of_lists told lists]
    refine mapM_ok_of_forall fun entry member => ?_
    rw [attributeName_of_lists lists member]
    cases ofName : entry.get? "name" with
    | none => exact absurd ofName (named entry member)
    | some name => rfl
  rw [attribute?, attributes]
  change Except.ok (Datum.lookup name _) = _
  rw [lookup_reverse, List.filter_map, List.map_map, lastNamed]
  congr 2
  refine (List.map_id' _).trans (List.filter_congr fun entry member => ?_)
  cases ofName : entry.get? "name" with
  | none => exact absurd ofName (named entry member)
  | some name => simp [ofName]

/-- Nothing is known of any attribute if one has no name. -/
theorem attribute?_of_unnamed (told : catalogue.schema? operator = some schema)
    (lists : ListsAttributes schema listed) {entry : Datum} (member : entry ∈ listed)
    (unnamed : entry.get? "name" = none) (name : String) :
    catalogue.attribute? operator name = .error (.key (quotedText "name")) := by
  have attributes : catalogue.attributes operator = .error (.key (quotedText "name")) := by
    rw [attributes_of_lists told lists]
    cases ends : listed.mapM fun item => do return (← attributeName item, item) with
    | ok attributes =>
        obtain ⟨pair, names⟩ := Except.exists_of_mapM_eq_ok ends member
        rw [attributeName_of_lists lists member, unnamed] at names
        cases names
    | error fault =>
        obtain ⟨other, isOther, fails⟩ := Except.exists_of_mapM_eq_error ends
        rw [attributeName_of_lists lists isOther] at fails
        cases ofName : other.get? "name" with
        | none =>
            rw [ofName] at fails
            cases fails
            rfl
        | some name =>
            rw [ofName] at fails
            cases fails
  rw [attribute?, attributes]
  rfl

/-! ## Answers -/

/-- What the items of a document tell about an operator.  Without a schema nothing is known
of it.  If all attributes of the schema have names, the last one of a name is told, and if
one has none, nothing but that.  A documentation is a copy of the schema with the name of
the operator in it. -/
structure Tells (items : List Datum) (operator : String)
    (answer : SchemaQuestion → Except Fault (Option Datum)) : Prop where
  schema : answer (.schema operator) = .ok (schemaOf items operator)
  unknown : schemaOf items operator = none →
    (∀ name, answer (.attributeSchema operator name) = .ok none) ∧
      answer (.documentation operator) = .ok none
  attributes : ∀ schema listed, schemaOf items operator = some schema →
    ListsAttributes schema listed → (∀ entry ∈ listed, entry.get? "name" ≠ none) →
      ∀ name, answer (.attributeSchema operator name) = .ok (lastNamed listed name)
  unnamed : ∀ schema listed, schemaOf items operator = some schema →
    ListsAttributes schema listed → (∃ entry ∈ listed, entry.get? "name" = none) →
      ∀ name, answer (.attributeSchema operator name) = .error (.key (quotedText "name"))
  documentation : ∀ ordered fields, schemaOf items operator = some (.dict ordered fields) →
    ∃ copy, answer (.documentation operator) = .ok (some copy) ∧
      copy = (Datum.dict ordered fields).insert (.str "name") (.str operator) ∧
      ∀ name, copy.get? name =
        if "name" = name then some (.str operator) else (Datum.dict ordered fields).get? name

/-- A catalogue answers as its document tells. -/
theorem tells_answer {items : List Datum} (made : ofDatum (.list items) = .ok catalogue)
    (operator : String) : Tells items operator catalogue.answer := by
  have told := schema?_of_made made operator
  constructor
  case schema => rw [answer, told]
  case unknown =>
    intro unknown
    rw [unknown] at told
    constructor
    · intro name
      rw [answer, attribute?, attributes, entry?, told]
      rfl
    · rw [answer, documentation, told]
  case attributes =>
    intro schema listed found lists named name
    exact attribute?_of_named (told.trans found) lists named name
  case unnamed =>
    rintro schema listed found lists ⟨entry, member, unnamed⟩ name
    exact attribute?_of_unnamed (told.trans found) lists member unnamed name
  case documentation =>
    intro ordered fields found
    refine ⟨_, ?_, rfl, fun name => Datum.get?_insert_str ordered fields "name" name _⟩
    rw [answer, documentation, told, found]
    rfl

/-- A document that lists items gives a catalogue exactly when they are entries. -/
theorem ofDatum_list_ok_iff (items : List Datum) :
    (∃ catalogue, ofDatum (.list items) = .ok catalogue) ↔ ∀ item ∈ items, IsEntry item := by
  rw [ofDatum_ok_iff]
  constructor
  · intro listing item member
    have full : (Datum.list items).truthy = true := by
      cases items with
      | nil => cases member
      | cons => rfl
    obtain ⟨_, same, entries⟩ := listing full
    cases same
    exact entries item member
  · exact fun entries _ => ⟨items, rfl, entries⟩

/-- The catalogue of a text that is a document. -/
theorem read_eq_ofDatum {document : String} {datum : Datum}
    (reads : Json.read document = .ok datum) : read document = ofDatum datum := by
  have full : document.isEmpty = false := by
    rw [← Bool.not_eq_true, String.isEmpty_iff]
    rintro rfl
    have refused : (Json.read "").isOk = false := by decide +kernel
    rw [reads] at refused
    cases refused
  rw [read, full, reads]
  rfl

end Catalogue

namespace SchemaDesk

/-- What a desk answers to a question. -/
def answer (desk : SchemaDesk) (question : SchemaQuestion) : Except Fault (Option Datum) :=
  (desk.step (.ask question)).1

/-- A document that is a list gives a store exactly when its items are entries, and whatever
was asked of the store, and was done to the copies that it handed out, it answers as it did
when it was new, and as the items tell. -/
theorem answers_told {document : String} {items : List Datum}
    (reads : Json.read document = .ok (.list items)) :
    ((∃ catalogue, Catalogue.read document = .ok catalogue) ↔
        ∀ item ∈ items, Catalogue.IsEntry item) ∧
      ∀ catalogue, Catalogue.read document = .ok catalogue →
        ∀ steps : List SchemaStep,
          (∀ question, ((ofCatalogue catalogue).after steps).answer question =
            (ofCatalogue catalogue).answer question) ∧
          ∀ operator,
            Catalogue.Tells items operator ((ofCatalogue catalogue).after steps).answer := by
  rw [Catalogue.read_eq_ofDatum reads]
  refine ⟨Catalogue.ofDatum_list_ok_iff items, fun catalogue made steps => ?_⟩
  have answers : ((ofCatalogue catalogue).after steps).answer = catalogue.answer :=
    funext fun question => answer_after catalogue steps question
  have fresh : (ofCatalogue catalogue).answer = catalogue.answer :=
    funext fun question => answer_after catalogue [] question
  rw [answers, fresh]
  exact ⟨fun _ => rfl, Catalogue.tells_answer made⟩

end SchemaDesk

namespace RepeatedNames

/-- An operator that is listed twice, with an attribute that is listed twice. -/
def text : String :=
  "[\x7b\"name\":\"a\",\"schema\":\x7b\"category\":\"c\"\x7d\x7d," ++
    "\x7b\"name\":\"a\",\"schema\":\x7b\"attributes\":" ++
    "[\x7b\"name\":\"x\",\"default\":1\x7d,\x7b\"name\":\"x\",\"default\":2\x7d]\x7d\x7d]"

def described (default : Int) : Datum :=
  .fields [("name", .str "x"), ("default", .int default)]

def listed : List Datum := [described 1, described 2]

def schema : Datum := .fields [("attributes", .list listed)]

def items : List Datum :=
  [.fields [("name", .str "a"), ("schema", .fields [("category", .str "c")])],
    .fields [("name", .str "a"), ("schema", schema)]]

set_option maxRecDepth 100000 in
private theorem reads_items : Json.reads text (.list items) = true := by
  have spelled : text.toList = _ := Spells.append (.append .literal .literal) .literal
  rw [Json.reads, Json.read, spelled]
  decide +kernel

theorem listsAttributes_listed : Catalogue.ListsAttributes schema listed where
  isObject := ⟨_, _, rfl⟩
  lists := .inr rfl
  objects := by
    rw [listed, List.forall_mem_cons, List.forall_mem_singleton]
    exact ⟨⟨_, _, rfl⟩, ⟨_, _, rfl⟩⟩
  keys := by
    rw [listed, List.forall_mem_cons, List.forall_mem_singleton]
    constructor
    · rintro name found
      cases found
      rfl
    · rintro name found
      cases found
      rfl

/-- The last schema of the operator counts, and its last attribute of the name. -/
theorem answers_told_repeated :
    Json.read text = .ok (.list items) ∧
      ∃ catalogue, Catalogue.read text = .ok catalogue ∧
        ∀ steps : List SchemaStep,
          ((SchemaDesk.ofCatalogue catalogue).after steps).answer (.schema "a") =
              .ok (some schema) ∧
            ((SchemaDesk.ofCatalogue catalogue).after steps).answer (.attributeSchema "a" "x") =
              .ok (some (described 2)) := by
  have reads := Json.read_of_reads reads_items
  obtain ⟨builds, tells⟩ := SchemaDesk.answers_told reads
  have entries : ∀ item ∈ items, Catalogue.IsEntry item := by
    rw [items, List.forall_mem_cons, List.forall_mem_singleton]
    constructor
    · refine ⟨_, _, rfl, fun name schema ofName _ _ _ => ?_⟩
      cases ofName
      rfl
    · refine ⟨_, _, rfl, fun name schema ofName _ _ _ => ?_⟩
      cases ofName
      rfl
  obtain ⟨catalogue, made⟩ := builds.mpr entries
  refine ⟨reads, catalogue, made, fun steps => ?_⟩
  have told := (tells catalogue made steps).2 "a"
  have found : Catalogue.schemaOf items "a" = some schema := by rfl
  refine ⟨told.schema.trans (congrArg Except.ok found), ?_⟩
  refine (told.attributes schema listed found listsAttributes_listed ?_ "x").trans ?_
  · rw [listed, List.forall_mem_cons, List.forall_mem_singleton]
    exact ⟨nofun, nofun⟩
  · rfl

end RepeatedNames

namespace OddSchemas

/-- A schema for the empty name, a schema with a number among its attributes and a schema
that is a number. -/
def text : String :=
  "[\x7b\"name\":\"\",\"schema\":\x7b\"category\":\"c\"\x7d\x7d," ++
    "\x7b\"name\":\"a\",\"schema\":\x7b\"attributes\":[5]\x7d\x7d," ++
    "\x7b\"name\":\"b\",\"schema\":7\x7d]"

def schema : Datum := .fields [("category", .str "c")]

def listing : Datum := .fields [("attributes", .list [.int 5])]

def items : List Datum :=
  [.fields [("name", .str ""), ("schema", schema)],
    .fields [("name", .str "a"), ("schema", listing)],
    .fields [("name", .str "b"), ("schema", .int 7)]]

def catalogue : Catalogue := ⟨Table.ofList [("a", listing), ("b", .int 7)]⟩

set_option maxRecDepth 100000 in
private theorem reads_items : Json.reads text (.list items) = true := by
  have spelled : text.toList = _ := Spells.append (.append .literal .literal) .literal
  rw [Json.reads, Json.read, spelled]
  decide +kernel

/-- What such a store answers is not what its items tell: the schema of the empty name is
passed over, an attribute without a name is refused for what it is instead, and there is no
documentation of a number. -/
theorem exists_untold :
    Json.read text = .ok (.list items) ∧
      (∀ item ∈ items, ∃ ordered fields, item = .dict ordered fields) ∧
      Catalogue.read text = .ok catalogue ∧
      (Catalogue.lastSchema items "" = some schema ∧
        (SchemaDesk.ofCatalogue catalogue).answer (.schema "") = .ok none) ∧
      (Catalogue.lastSchema items "a" = some listing ∧
        (SchemaDesk.ofCatalogue catalogue).answer (.attributeSchema "a" "x") =
          .error (.type "'int' object is not subscriptable")) ∧
      Catalogue.lastSchema items "b" = some (.int 7) ∧
        (SchemaDesk.ofCatalogue catalogue).answer (.documentation "b") =
          .error (.type "'int' object does not support item assignment") := by
  have reads := Json.read_of_reads reads_items
  refine ⟨reads, ?_, ?_, ⟨rfl, rfl⟩, ⟨rfl, rfl⟩, rfl, rfl⟩
  · rw [items, List.forall_mem_cons, List.forall_mem_cons, List.forall_mem_singleton]
    exact ⟨⟨_, _, rfl⟩, ⟨_, _, rfl⟩, ⟨_, _, rfl⟩⟩
  · rw [Catalogue.read_eq_ofDatum reads]
    rfl

end OddSchemas

end TorchArchive
