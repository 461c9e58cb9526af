/-!
# Tables

The tree that a text in TOML describes, and the rules by which its lines may extend it: a table is
stated once, a key is given once, and a dotted key may only enter tables that dotted keys made.

* `Table.put` gives a value to a key.
* `Table.state` and `Table.append` state a table and add a table to a list of tables.
-/

namespace DocumentClient.Toml

inductive Origin where
  /-- By a line of its own. -/
  | stated
  /-- By the line of a table inside it. -/
  | implied
  /-- By a dotted key. -/
  | dotted
deriving DecidableEq, Repr

/-- A value in a table. Of floats and moments only their kind is kept. -/
inductive Node where
  | text (s : String)
  | integer (n : Int)
  | boolean (b : Bool)
  | float
  | moment
  | array (items : List Node)
  /-- A table between braces, which cannot be extended. -/
  | inline (members : List (String × Node))
  | table (origin : Origin) (members : List (String × Node))
  /-- A list of tables, each added by a line of its own. -/
  | tables (elements : List (List (String × Node)))
deriving Repr

abbrev Table := List (String × Node)

namespace Table

/-- Gives a member a new value in its place. -/
def change (name : String) (node : Node) (t : Table) : Table :=
  t.map fun member => if member.1 = name then (name, node) else member

/-- Adds a member at the end, unless there is one of that name. -/
def add (name : String) (node : Node) (t : Table) : Option Table :=
  if (t.lookup name).isSome then none else some (t ++ [(name, node)])

def changeLast (change : Table → Option Table) (elements : List Table) : Option (List Table) := do
  let last ← elements.getLast?
  let last' ← change last
  return elements.dropLast ++ [last']

/-- Gives a value to the key at the end of a path of tables. Tables on the way are made or have been
made by dotted keys; the way may also lead through the last of a list of tables or through an implied
table, but not end there. -/
def put (name : String) (node : Node) : List String → Table → Option Table
  | [], t => t.add name node
  | part :: path, t =>
    match t.lookup part with
    | none => do
      let inner ← put name node path []
      t.add part (.table .dotted inner)
    | some (.table origin inner) => do
      guard (origin = .dotted ∨ (origin = .implied ∧ path ≠ []))
      let inner' ← put name node path inner
      return t.change part (.table origin inner')
    | some (.tables elements) => do
      guard (path ≠ [])
      let elements' ← changeLast (put name node path) elements
      return t.change part (.tables elements')
    | some _ => none

/-- Changes the table at the end of a path. Tables that are missing on the way are implied. -/
def within (change : Table → Option Table) : List String → Table → Option Table
  | [], t => change t
  | part :: path, t =>
    match t.lookup part with
    | none => do
      let inner ← within change path []
      t.add part (.table .implied inner)
    | some (.table origin inner) => do
      let inner' ← within change path inner
      return t.change part (.table origin inner')
    | some (.tables elements) => do
      let elements' ← changeLast (within change path) elements
      return t.change part (.tables elements')
    | some _ => none

/-- States a table, which may only have been implied before. -/
def state (name : String) (t : Table) : Option Table :=
  match t.lookup name with
  | none => t.add name (.table .stated [])
  | some (.table .implied members) => some (t.change name (.table .stated members))
  | some _ => none

/-- Adds an empty table to a list of tables. -/
def append (name : String) (t : Table) : Option Table :=
  match t.lookup name with
  | none => t.add name (.tables [[]])
  | some (.tables elements) => some (t.change name (.tables (elements ++ [[]])))
  | some _ => none

end Table

end DocumentClient.Toml
