/-!
# TOML documents

The values of a TOML document, and how a document is put together from its lines. A table may be
named by a header, come about on the way to another table, or be spelled out by dotted keys; which of
these it was decides what may still be added to it (`Origin`). The building operations are partial
because a document must not define anything twice.
-/

namespace AuditTrail.Toml

/-- A value. Floats and moments are kept as nothing more than that. -/
inductive Value
  | string (text : String)
  | integer (value : Int)
  | float
  | boolean (value : Bool)
  /-- A date, a time, or both. -/
  | moment
  | array (items : List Value)
  | table (entries : List (String × Value))

/-- How a table came about. -/
inductive Origin
  /-- By a header of its own. -/
  | header
  /-- On the way to a table with a header. -/
  | implied
  /-- By a dotted key. -/
  | dotted
  deriving DecidableEq, Repr

/-- What a key stands for while a document is read. -/
inductive Item
  | value (v : Value)
  | table (origin : Origin) (entries : List (String × Item))
  /-- The elements of an array of tables, the latest one first. -/
  | tables (elements : List (List (String × Item)))

/-- The keys of a table under construction, in order. -/
abbrev Entries := List (String × Item)

namespace Entries

/-- Puts an item in the place of a key. -/
def put (key : String) (item : Item) (es : Entries) : Entries :=
  if es.any fun e => e.1 == key then es.map fun e => if e.1 = key then (key, item) else e
  else es ++ [(key, item)]

/-- Changes the table that a path of keys leads to. Tables on the way are made where there are none,
and an array of tables is entered at its latest element. -/
def modifyAt (f : Entries → Option Entries) : (path : List String) → Entries → Option Entries
  | [], es => f es
  | key :: path, es =>
    match es.lookup key with
    | none => (modifyAt f path []).map fun inner => es.put key (.table .implied inner)
    | some (.table origin inner) =>
      (modifyAt f path inner).map fun inner => es.put key (.table origin inner)
    | some (.tables (latest :: others)) =>
      (modifyAt f path latest).map fun latest => es.put key (.tables (latest :: others))
    | some _ => none

/-- Gives a dotted key a value. The tables on the way may be those of other dotted keys, but none
that has a header. -/
def define (path : List String) (key : String) (v : Value) (es : Entries) : Option Entries :=
  match path with
  | [] => if es.any fun e => e.1 == key then none else some (es.put key (.value v))
  | first :: rest =>
    match es.lookup first with
    | none => (define rest key v []).map fun inner => es.put first (.table .dotted inner)
    | some (.table origin inner) =>
      if origin = .header ∨ (rest.isEmpty ∧ origin ≠ .dotted) then none
      else (define rest key v inner).map fun inner => es.put first (.table origin inner)
    | some (.tables (latest :: others)) =>
      if rest.isEmpty then none
      else (define rest key v latest).map fun latest => es.put first (.tables (latest :: others))
    | some _ => none

/-- Opens the table of a header. It may have been implied before, but not had a header. -/
def openTable (path : List String) (key : String) : Entries → Option Entries :=
  modifyAt (fun es =>
    match es.lookup key with
    | none => some (es.put key (.table .header []))
    | some (.table .implied inner) => some (es.put key (.table .header inner))
    | some _ => none) path

/-- Opens a new element of an array of tables. -/
def openElement (path : List String) (key : String) : Entries → Option Entries :=
  modifyAt (fun es =>
    match es.lookup key with
    | none => some (es.put key (.tables [[]]))
    | some (.tables elements) => some (es.put key (.tables ([] :: elements)))
    | some _ => none) path

end Entries

mutual

/-- The value that an item has come to. -/
def Item.finish : Item → Value
  | .value v => v
  | .table _ entries => .table (finishEntries entries)
  | .tables elements => .array (finishElements elements).reverse
termination_by structural item => item

/-- The values of keys. -/
def finishEntries : List (String × Item) → List (String × Value)
  | [] => []
  | (key, item) :: rest => (key, item.finish) :: finishEntries rest
termination_by structural es => es

/-- The elements of an array of tables. -/
def finishElements : List (List (String × Item)) → List Value
  | [] => []
  | entries :: rest => .table (finishEntries entries) :: finishElements rest
termination_by structural es => es

end

/-! ## Reading records -/

namespace Value

/-- The text of a string. -/
def text? : Value → Option String
  | .string s => some s
  | _ => none

/-- The truth value of a boolean. -/
def bool? : Value → Option Bool
  | .boolean b => some b
  | _ => none

/-- The number of an integer that is not negative. -/
def natural? : Value → Option Nat
  | .integer (.ofNat n) => some n
  | _ => none

/-- What a value has for the fields of a record: a table has them by name, an array in their declared
order, and a moment has none. -/
def fields? (names : List String) : Value → Option (String → Option Value)
  | .table entries => some fun name => entries.lookup name
  | .array items => some fun name => (names.zip items).lookup name
  | .moment => some fun _ => none
  | _ => none

end Value

end AuditTrail.Toml
