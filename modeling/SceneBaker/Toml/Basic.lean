import SceneBaker.Number.Double

/-! # TOML values

Values of a TOML document and the tables that its statements build. A table may be defined once; the
tables on the way to a header or a dotted key come into being by themselves, and `Item` remembers
how, because that decides what may still be added to them.
-/

namespace SceneBaker.Toml

open Number

inductive Value where
  | string (text : String)
  | integer (value : Int)
  | float (value : Double)
  | boolean (value : Bool)
  | datetime
  | array (values : List Value)
  | table (entries : List (String × Value))

/-- How a table came into being. -/
inductive Origin where
  /-- By its own header. -/
  | header
  /-- On the way to the header of another table. -/
  | path
  /-- By a dotted key. -/
  | dotted
deriving DecidableEq

/-- An entry of a table while the document is read. -/
inductive Item where
  | value (leaf : Value)
  | table (origin : Origin) (entries : List (String × Item))
  /-- An array of tables, the latest first. -/
  | tables (elements : List (List (String × Item)))

/-- One statement of a document. -/
inductive Statement where
  | header (path : List String)
  | arrayHeader (path : List String)
  | assign (path : List String) (value : Value)

abbrev Entries : Type := List (String × Item)

namespace Entries

def find? (entries : Entries) (key : String) : Option Item := List.lookup key entries

/-- Replace an entry, or add it at the end. -/
def put (entries : Entries) (key : String) (item : Item) : Entries :=
  if (entries.find? key).isSome then
    entries.map fun entry => if entry.1 == key then (key, item) else entry
  else entries ++ [(key, item)]

/-- Change the table at the end of a path with `change`, which also sees how that table came into
being. Missing tables on the way are made; tables with a header are closed to dotted keys, and the
latest element of an array of tables stands for the array. -/
def update (dotted : Bool) (change : Origin → Entries → Option Entries) :
    (path : List String) → Origin → Entries → Option Entries
  | [], origin, entries => change origin entries
  | key :: path, _, entries =>
    match entries.find? key with
    | none => do
      let made := if dotted then Origin.dotted else Origin.path
      return entries.put key (.table made (← update dotted change path made []))
    | some (.table origin inner) =>
      if dotted && origin == .header then none
      else do return entries.put key (.table origin (← update dotted change path origin inner))
    | some (.tables (latest :: earlier)) =>
      if dotted then none
      else do
        return entries.put key (.tables ((← update dotted change path .header latest) :: earlier))
    | some _ => none

/-- Add a value under a new key. A dotted key may only add to tables made by dotted keys. -/
def assign (entries : Entries) (path : List String) (value : Value) : Option Entries :=
  let above := path.dropLast
  let add (origin : Origin) (inner : Entries) : Option Entries := do
    let key ← path.getLast?
    if (inner.find? key).isSome || (!above.isEmpty && origin != .dotted) then none
    else return inner ++ [(key, .value value)]
  entries.update true add above .header

/-- Open a table that has no header yet. -/
def openTable (entries : Entries) (path : List String) : Option Entries :=
  let add (_ : Origin) (inner : Entries) : Option Entries := do
    let key ← path.getLast?
    match inner.find? key with
    | none => return inner.put key (.table .header [])
    | some (.table .path old) => return inner.put key (.table .header old)
    | some _ => none
  entries.update false add path.dropLast .header

/-- Open a new element of an array of tables. -/
def openElement (entries : Entries) (path : List String) : Option Entries :=
  let add (_ : Origin) (inner : Entries) : Option Entries := do
    let key ← path.getLast?
    match inner.find? key with
    | none => return inner.put key (.tables [[]])
    | some (.tables elements) => return inner.put key (.tables ([] :: elements))
    | some _ => none
  entries.update false add path.dropLast .header

/-- Assign below the table that is open. Its path leads through tables that exist. -/
def assignAt (entries : Entries) (current path : List String) (value : Value) : Option Entries :=
  entries.update false (fun _ inner => assign inner path value) current .header

/-- Carry out statements; `current` is the path of the open table. -/
def run : (current : List String) → List Statement → Entries → Option Entries
  | _, [], entries => some entries
  | _, .header path :: rest, entries => do run path rest (← entries.openTable path)
  | _, .arrayHeader path :: rest, entries => do run path rest (← entries.openElement path)
  | current, .assign path value :: rest, entries => do
    run current rest (← entries.assignAt current path value)

end Entries

mutual

/-- The value that an item stands for once the document is complete. -/
def Item.toValue : Item → Value
  | .value leaf => leaf
  | .table _ entries => .table (Item.toEntries entries)
  | .tables elements => .array (Item.toTables elements).reverse

def Item.toEntries : List (String × Item) → List (String × Value)
  | [] => []
  | (key, item) :: rest => (key, item.toValue) :: Item.toEntries rest

def Item.toTables : List (List (String × Item)) → List Value
  | [] => []
  | entries :: rest => .table (Item.toEntries entries) :: Item.toTables rest

end

end SceneBaker.Toml
