import ByteCursor.Toml.Entry

/-!
# Documents

A document consists of lines.  A line holds an entry, a header or nothing, and may end with a
comment.  The statements of the lines are added to the root table one after the other.

`Document.read?` refuses a text that is no sequence of lines or whose statements contradict each
other.
-/

namespace ByteCursor.Toml

/-- What a line says. -/
inductive Statement where
  /-- A value of the table that is open. -/
  | entry (entry : Entry)
  /-- The header of a table. -/
  | table (key : Key)
  /-- The header of the next of several tables. -/
  | element (key : Key)
  deriving Repr

/-- The tables read so far and the path of the table that is open. -/
structure Draft where
  /-- The root table. -/
  root : Table := []
  /-- The names that lead from the root to the open table. -/
  openPath : List String := []
  deriving Repr

namespace Draft

/-- Add what a line says. -/
def add (draft : Draft) : Statement → Option Draft
  | .entry entry => do
      let root ← draft.root.within (fun table => entry.addTo table) draft.openPath
      some { draft with root := root }
  | .table key => do
      let root ← draft.root.within (Table.openTable key.name) key.parents
      some { root := root, openPath := key.parents ++ [key.name] }
  | .element key => do
      let root ← draft.root.within (Table.openElement key.name) key.parents
      some { root := root, openPath := key.parents ++ [key.name] }

end Draft

/-- The root table that statements build. -/
def Table.ofStatements? (statements : List Statement) : Option Table := do
  let draft ← statements.foldlM Draft.add {}
  some draft.root

namespace Parser

/-- A header line without its end. -/
def header : Parser Statement :=
  (do
    word ['[', '[']
    let key ← key
    word [']', ']']
    pure (.element key)) <|>
  (do
    char '['
    let key ← key
    char ']'
    pure (.table key))

/-- What a line says, without its end.  Only a line that begins with the end of a line or with a
comment says nothing. -/
def statement : Parser (Option Statement) := do
  match ← peek with
  | none | some '#' | some '\n' | some '\r' => pure none
  | some '[' => some <$> header
  | some _ => (fun entry => some (.entry entry)) <$> entry

/-- A line with its end. -/
def line : Parser (Option Statement) := do
  blanks
  let said ← statement
  lineEnd
  pure said

/-- All lines of a text with at most so many lines. -/
def linesWithin : (count : Nat) → List Char → Option (List Statement)
  | _, [] => some []
  | 0, _ :: _ => none
  | count + 1, text => do
      let (said, rest) ← line text
      let others ← linesWithin count rest
      some (said.toList ++ others)

end Parser

namespace Document

/-- The mark that may stand before the first line. -/
def byteOrderMark : Char := '\ufeff'

/-- A text without the mark before its first line. -/
def withoutMark (text : List Char) : List Char :=
  match text with
  | [] => []
  | first :: rest => if first = byteOrderMark then rest else text

/-- What the lines of a text say. -/
def statements? (text : List Char) : Option (List Statement) :=
  Parser.linesWithin text.length text

/-- Read a document. -/
def read? (text : String) : Option Table := do
  let statements ← statements? (withoutMark text.toList)
  Table.ofStatements? statements

end Document

end ByteCursor.Toml
