import ByteCursor.Toml.Value

/-!
# Building tables

The lines of a document add to tables one by one.  A key-value line gives a value to a key, whose
dots name tables on the way; a header line opens a table that the lines after it add to.

What may be reopened depends on the origin of a table: a name never changes its value, and a
table with a header line is never entered by a dotted key from outside.
-/

namespace ByteCursor.Toml

namespace Table

/-- Give a value to a name, in the place of its earlier value if it has one. -/
def set (name : String) (value : Value) : Table → Table
  | [] => [(name, value)]
  | (other, old) :: rest =>
      if other = name then (name, value) :: rest else (other, old) :: set name value rest

end Table

/-- Change the last element of a list of tables. -/
def editLast (edit : Table → Option Table) : List Table → Option (List Table)
  | [] => none
  | [last] => do
      let changed ← edit last
      some [changed]
  | first :: second :: rest => do
      let changed ← editLast edit (second :: rest)
      some (first :: changed)

namespace Value

/-- Change the table that a value is, or the last of the tables that it is.  A table in braces is
complete and does not change. -/
def editTable (edit : Table → Option Table) : Value → Option Value
  | .table .closed _ => none
  | .table origin entries => do
      let changed ← edit entries
      some (.table origin changed)
  | .tables elements => do
      let changed ← editLast edit elements
      some (.tables changed)
  | _ => none

/-- A dotted key may enter a table that no header line opened.  The table that holds the value
itself must come from dotted keys. -/
def isOpenToKeys (holdsValue : Bool) : Value → Bool
  | .table .dotted _ => true
  | .table .implied _ | .tables _ => !holdsValue
  | _ => false

end Value

namespace Table

/-- Give a value to a key for the first time, in the table that the dots before the key name. -/
def assign (key : String) (value : Value) : (parents : List String) → Table → Option Table
  | [], table => if (table.lookup key).isSome then none else some (table.set key value)
  | parent :: rest, table =>
      match table.lookup parent with
      | none => do
          let child ← assign key value rest []
          some (table.set parent (.table .dotted child))
      | some found =>
          if found.isOpenToKeys rest.isEmpty then do
            let changed ← found.editTable (assign key value rest)
            some (table.set parent changed)
          else none

/-- Change the table that a path names.  Tables on the way that do not exist are implied. -/
def within (edit : Table → Option Table) : (path : List String) → Table → Option Table
  | [], table => edit table
  | parent :: rest, table =>
      match table.lookup parent with
      | none => do
          let child ← within edit rest []
          some (table.set parent (.table .implied child))
      | some found => do
          let changed ← found.editTable (within edit rest)
          some (table.set parent changed)

/-- Open a table for a header line.  The table is new or was only implied so far. -/
def openTable (name : String) (table : Table) : Option Table :=
  match table.lookup name with
  | none => some (table.set name (.table .header []))
  | some (.table .implied entries) => some (table.set name (.table .header entries))
  | some _ => none

/-- Open the next of several tables of one name for a header line in double brackets. -/
def openElement (name : String) (table : Table) : Option Table :=
  match table.lookup name with
  | none => some (table.set name (.tables [[]]))
  | some (.tables elements) => some (table.set name (.tables (elements ++ [[]])))
  | some _ => none

end Table

end ByteCursor.Toml
