import SolidityModel.Toml.Value

/-!
# Building TOML tables

The statements of a document set values at dotted keys, open tables by a header,
and add tables to an array of tables.  Nothing may be defined twice: a header may
open a table only once, though it may come after headers of tables inside it, and
a dotted key may only add to tables that dotted keys have made.
-/

namespace SolidityModel

namespace Toml

/-- A line of a document that holds more than white space and a comment. -/
inductive Statement where
  /-- A value at a dotted key of the current table. -/
  | pair (path : List String) (value : Value)
  /-- The header of a table, which becomes the current one. -/
  | table (path : List String)
  /-- The header of one more table in an array, which becomes the current one. -/
  | tableInArray (path : List String)
  deriving Inhabited

/-- How a table came about. -/
inductive TableOrigin where
  /-- A header opened it. -/
  | header
  /-- The header of a table inside it implied it. -/
  | implied
  /-- A dotted key made it. -/
  | dotted
  deriving DecidableEq

/-- What stands under a key while a document is being read. -/
inductive Node where
  /-- A value, to which nothing can be added. -/
  | value (value : Value)
  | table (origin : TableOrigin) (entries : List (String × Node))
  /-- An array of tables. -/
  | tables (elements : List (List (String × Node)))
  deriving Inhabited

/-- A table while a document is being read. -/
abbrev Entries := List (String × Node)

namespace Entries

/-- The node under a key. -/
def get? (key : String) : Entries → Option Node
  | [] => none
  | (other, node) :: rest => if key = other then some node else get? key rest

/-- Put a node under a key, in its place if there is one and at the end
otherwise. -/
def set (key : String) (node : Node) : Entries → Entries
  | [] => [(key, node)]
  | (other, kept) :: rest =>
      if key = other then (key, node) :: rest else (other, kept) :: set key node rest

end Entries

namespace Table

/-- Change the last table of an array. -/
def changeLast? (change : Entries → Option Entries) : List Entries → Option (List Entries)
  | [] => none
  | [last] => (change last).map fun last => [last]
  | element :: rest => (changeLast? change rest).map (element :: ·)

/-- Set a value at a dotted key.  The tables on the way must be open to dotted keys,
and the one that takes the value must have been made by one. -/
def assign? (value : Value) : List String → Entries → Option Entries
  | [], _ => none
  | [key], entries =>
      match entries.get? key with
      | some _ => none
      | none => some (entries.set key (.value value))
  | key :: next :: path, entries =>
      match entries.get? key with
      | none =>
          (assign? value (next :: path) []).map fun inner =>
            entries.set key (.table .dotted inner)
      | some (.table origin inner) =>
          if origin = .dotted ∨ (origin = .implied ∧ path ≠ []) then
            (assign? value (next :: path) inner).map fun inner =>
              entries.set key (.table origin inner)
          else none
      | some (.tables elements) =>
          if path = [] then none
          else
            (changeLast? (assign? value (next :: path)) elements).map fun elements =>
              entries.set key (.tables elements)
      | some (.value _) => none

/-- Change the table at a path of headers, going into the last table of an array
and making the tables that are not there. -/
def changeAt? (change : Entries → Option Entries) : List String → Entries → Option Entries
  | [], entries => change entries
  | key :: path, entries =>
      match entries.get? key with
      | none =>
          (changeAt? change path []).map fun inner => entries.set key (.table .implied inner)
      | some (.table origin inner) =>
          (changeAt? change path inner).map fun inner => entries.set key (.table origin inner)
      | some (.tables elements) =>
          (changeLast? (changeAt? change path) elements).map fun elements =>
            entries.set key (.tables elements)
      | some (.value _) => none

/-- Open the table of a key by its header. -/
def openTable? (key : String) (entries : Entries) : Option Entries :=
  match entries.get? key with
  | none => some (entries.set key (.table .header []))
  | some (.table .implied inner) => some (entries.set key (.table .header inner))
  | some _ => none

/-- Add a table to the array of a key. -/
def addTable? (key : String) (entries : Entries) : Option Entries :=
  match entries.get? key with
  | none => some (entries.set key (.tables [[]]))
  | some (.tables elements) => some (entries.set key (.tables (elements ++ [[]])))
  | some _ => none

/-- Apply a change of the last key of a path in the table of the keys before it. -/
def atLast? (change : String → Entries → Option Entries) (path : List String)
    (root : Entries) : Option Entries :=
  match path.getLast? with
  | none => none
  | some key => changeAt? (change key) path.dropLast root

/-- The document so far, and the path of its current table. -/
structure State where
  root : Entries
  current : List String

/-- Carry out one statement. -/
def step? (state : State) : Statement → Option State
  | .pair path value =>
      (changeAt? (assign? value path) state.current state.root).map fun root =>
        { state with root }
  | .table path => (atLast? openTable? path state.root).map fun root => ⟨root, path⟩
  | .tableInArray path => (atLast? addTable? path state.root).map fun root => ⟨root, path⟩

mutual

/-- The value of a node. -/
def valueOf : Node → Value
  | .value value => value
  | .table _ entries => .table (fieldsOf entries)
  | .tables elements => .array (elementsOf elements)

/-- The fields of a table. -/
def fieldsOf : List (String × Node) → List (String × Value)
  | [] => []
  | (key, node) :: rest => (key, valueOf node) :: fieldsOf rest

/-- The tables of an array. -/
def elementsOf : List (List (String × Node)) → List Value
  | [] => []
  | entries :: rest => .table (fieldsOf entries) :: elementsOf rest

end

/-- The fields of the table that statements build. -/
def ofStatements? (statements : List Statement) : Option (List (String × Value)) :=
  (statements.foldlM step? ⟨[], []⟩).map fun state => fieldsOf state.root

/-- The fields of an inline table with the given pairs. -/
def ofPairs? (pairs : List (List String × Value)) : Option (List (String × Value)) :=
  ofStatements? (pairs.map fun (path, value) => .pair path value)

end Table

end Toml

end SolidityModel
