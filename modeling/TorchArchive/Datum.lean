import TorchArchive.Value

/-!
Data: pure trees. They are what documents hold, and what is left of a value once
it can no longer change. `Datum.written` and `Datum.text` are the two texts of a
tree; `Datum.equals` compares by contents.
-/

namespace TorchArchive

/-- A tree of data. -/
inductive Datum where
  | atom (a : Atom)
  | list (items : List Datum)
  | tuple (items : List Datum)
  | dict (ordered : Bool) (entries : List (Datum × Datum))
  | set (frozen : Bool) (items : List Datum)
  /-- An object, by the name of its type, its written form and itself. -/
  | object (typeName written : String) (handle : Value)
  /-- A container inside itself, by its abbreviated form. -/
  | cycle (written : String)

namespace Datum

def none : Datum := atom .none
def bool (b : Bool) : Datum := atom (.bool b)
def int (n : Int) : Datum := atom (.int n)
def float (x : Binary64) : Datum := atom (.float x)
def str (s : String) : Datum := atom (.str s)

instance : Inhabited Datum := ⟨none⟩

/-- A dictionary with strings for keys. -/
def fields (entries : List (String × Datum)) : Datum :=
  dict false (entries.map fun entry => (str entry.1, entry.2))

def isNone : Datum → Bool
  | atom .none => true
  | _ => false

/-- The string that a datum is. -/
def str? : Datum → Option String
  | atom (.str s) => some s
  | _ => Option.none

/-- The items of a list or a tuple. -/
def items? : Datum → Option (List Datum)
  | list items => some items
  | tuple items => some items
  | _ => Option.none

/-- The name of the type of a datum. -/
def typeName : Datum → String
  | atom a => a.typeName
  | list _ => "list"
  | tuple _ => "tuple"
  | dict ordered _ => if ordered then "OrderedDict" else "dict"
  | set frozen _ => if frozen then "frozenset" else "set"
  | object name _ _ => name
  | cycle _ => "list"

/-- Whether a datum counts as true. -/
def truthy : Datum → Bool
  | atom a => a.truthy
  | list items | tuple items | set _ items => !items.isEmpty
  | dict _ entries => !entries.isEmpty
  | object _ _ _ | cycle _ => true

/-- The number that a datum counts as. -/
def numeric? : Datum → Option Number
  | atom a => a.numeric?
  | _ => Option.none

/-- The integer that a datum counts as. -/
def integer? : Datum → Option Int
  | atom a => a.integer?
  | _ => Option.none

/-! ## Size -/

mutual

/-- The number of parts of a datum, itself included. -/
def size : Datum → Nat
  | list items | tuple items | set _ items => sizeOfItems items + 1
  | dict _ entries => sizeOfEntries entries + 1
  | atom _ | object _ _ _ | cycle _ => 1

private def sizeOfItems : List Datum → Nat
  | [] => 0
  | item :: rest => size item + sizeOfItems rest

private def sizeOfEntries : List (Datum × Datum) → Nat
  | [] => 0
  | (key, value) :: rest => size key + size value + sizeOfEntries rest

end

theorem size_pos (datum : Datum) : 0 < datum.size := by
  cases datum <;> rw [size] <;> exact Nat.succ_pos _

theorem size_list (items : List Datum) :
    (list items).size = (items.map size).foldr (· + ·) 0 + 1 := by
  rw [size]
  congr 1
  induction items with
  | nil => rfl
  | cons first rest ih => rw [sizeOfItems, ih, List.map_cons, List.foldr_cons]

theorem size_tuple (items : List Datum) :
    (tuple items).size = (items.map size).foldr (· + ·) 0 + 1 := by
  rw [← size_list, size, size]

theorem size_dict (ordered : Bool) (entries : List (Datum × Datum)) :
    (dict ordered entries).size =
      (entries.map fun entry => entry.1.size + entry.2.size).foldr (· + ·) 0 + 1 := by
  rw [size]
  congr 1
  induction entries with
  | nil => rfl
  | cons first rest ih => rw [sizeOfEntries, ih, List.map_cons, List.foldr_cons]

/-! ## Text -/

/-- Puts commas between texts. -/
def commaSeparated (texts : List String) : String := ", ".intercalate texts

/-- A tuple of one item keeps its comma. -/
private def tupleText : List String → String
  | [single] => "(" ++ single ++ ",)"
  | texts => "(" ++ commaSeparated texts ++ ")"

mutual

/-- The form in which a datum is written in code. -/
def written : Datum → String
  | atom a => a.written
  | list items => "[" ++ commaSeparated (writtenItems items) ++ "]"
  | tuple items => tupleText (writtenItems items)
  | dict false entries =>
      "\x7b" ++ commaSeparated (writtenEntries ": " entries) ++ "\x7d"
  | dict true [] => "OrderedDict()"
  | dict true entries =>
      "OrderedDict([" ++
        commaSeparated
          ((writtenEntries ", " entries).map fun text => "(" ++ text ++ ")") ++
        "])"
  | set false [] => "set()"
  | set true [] => "frozenset()"
  | set false items => "\x7b" ++ commaSeparated (writtenItems items) ++ "\x7d"
  | set true items =>
      "frozenset(\x7b" ++ commaSeparated (writtenItems items) ++ "\x7d)"
  | object _ text _ => text
  | cycle text => text

private def writtenItems : List Datum → List String
  | [] => []
  | item :: rest => written item :: writtenItems rest

private def writtenEntries (separator : String) :
    List (Datum × Datum) → List String
  | [] => []
  | (key, value) :: rest =>
      (written key ++ separator ++ written value) ::
        writtenEntries separator rest

end

/-- The plain text of a datum. -/
def text : Datum → String
  | atom a => a.text
  | datum => datum.written

/-! ## Equality -/

mutual

/-- Equality by contents: sequences of one type item by item, dictionaries as
maps unless both keep an order, objects by identity. -/
def equals : Datum → Datum → Bool
  | atom a, atom b => a.equals b
  | list a, list b => equalItems a b
  | tuple a, tuple b => equalItems a b
  | set _ a, set _ b => a.length == b.length && heldItems a b
  | dict ordered a, dict ordered' b =>
      if ordered && ordered' then equalEntries a b
      else a.length == b.length && heldEntries a b
  | object _ _ a, object _ _ b => a.identical b
  | _, _ => false

def equalItems : List Datum → List Datum → Bool
  | [], [] => true
  | a :: as, b :: bs => equals a b && equalItems as bs
  | _, _ => false

def heldItems : List Datum → List Datum → Bool
  | [], _ => true
  | a :: as, bs => bs.any (fun b => equals a b) && heldItems as bs

def equalEntries : List (Datum × Datum) → List (Datum × Datum) → Bool
  | [], [] => true
  | (k, v) :: as, (l, w) :: bs =>
      equals k l && equals v w && equalEntries as bs
  | _, _ => false

def heldEntries : List (Datum × Datum) → List (Datum × Datum) → Bool
  | [], _ => true
  | (k, v) :: as, bs =>
      bs.any (fun entry => equals k entry.1 && equals v entry.2) &&
        heldEntries as bs

end

/-! ## Dictionaries -/

/-- The value under a string in a list of entries. -/
def lookup (name : String) : List (Datum × Datum) → Option Datum
  | [] => Option.none
  | (key, value) :: rest =>
      if key.str? = some name then some value else lookup name rest

/-- The value under a string of a dictionary. -/
def get? (datum : Datum) (name : String) : Option Datum :=
  match datum with
  | dict _ entries => lookup name entries
  | _ => Option.none

private def bind (key value : Datum) :
    List (Datum × Datum) → List (Datum × Datum)
  | [] => [(key, value)]
  | (k, v) :: rest =>
      if k.equals key then (k, value) :: rest else (k, v) :: bind key value rest

/-- Binds a key of a dictionary, in its old place if it has one. -/
def insert (datum key value : Datum) : Datum :=
  match datum with
  | dict ordered entries => dict ordered (bind key value entries)
  | _ => datum

/-- What equals a string is the string. -/
theorem equals_str_iff (datum : Datum) (s : String) :
    datum.equals (str s) = true ↔ datum.str? = some s := by
  cases datum with
  | atom a =>
      rw [str, equals, Atom.equals]
      cases a <;> simp only [Atom.canonical, str?] <;> try split
      all_goals simp
  | _ => simp [str, equals, str?]

theorem str?_eq_some_iff {datum : Datum} {s : String} :
    datum.str? = some s ↔ datum = str s := by
  cases datum with
  | atom a => cases a <;> simp [str?, str]
  | _ => simp [str?, str]

private theorem lookup_bind (name key : String) (value : Datum)
    (entries : List (Datum × Datum)) :
    lookup name (bind (str key) value entries) =
      if key = name then some value else lookup name entries := by
  induction entries with
  | nil => simp [bind, lookup, str, str?]
  | cons entry rest ih =>
      obtain ⟨k, v⟩ := entry
      rw [bind]
      by_cases same : k.equals (str key) = true
      · rw [if_pos same, lookup, lookup, (equals_str_iff k key).mp same]
        by_cases wanted : key = name <;> simp [wanted]
      · rw [if_neg same, lookup, lookup, ih]
        rw [equals_str_iff] at same
        by_cases here : k.str? = some name
        · have other : key ≠ name := fun equality => same (equality ▸ here)
          rw [if_pos here, if_pos here, if_neg other]
        · rw [if_neg here, if_neg here]

/-- A dictionary with a string bound tells the new value under it and what it told
under all others. -/
theorem get?_insert_str (ordered : Bool) (entries : List (Datum × Datum))
    (key name : String) (value : Datum) :
    ((dict ordered entries).insert (str key) value).get? name =
      if key = name then some value else (dict ordered entries).get? name :=
  lookup_bind name key value entries

/-- The dictionary of a list of entries; the last of several entries with one
key counts. -/
def dictOfEntries (entries : List (Datum × Datum)) : Datum :=
  entries.foldl (fun datum entry => datum.insert entry.1 entry.2)
    (dict false [])

end Datum

end TorchArchive
