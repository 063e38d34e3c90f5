import ByteCursor.Toml.Datetime
import ByteCursor.Toml.Table

/-!
# Entries: keys and their values

An entry gives a value to a key.  A key is one or more names with dots between them, and a value
may hold further entries in braces.

Brackets and braces nest up to a fixed depth, so values are parsed by recursion on the depth that
is left.
-/

namespace ByteCursor.Toml

/-- A key: the names before the last dot, and the name after it. -/
structure Key where
  /-- The names of the tables on the way. -/
  parents : List String
  /-- The name in the last of these tables. -/
  name : String
  deriving DecidableEq, Repr

/-- A key with its value. -/
structure Entry where
  key : Key
  value : Value
  deriving Repr

namespace Entry

/-- Add an entry to a table. -/
def addTo (table : Table) (entry : Entry) : Option Table :=
  table.assign entry.key.name entry.value entry.key.parents

end Entry

/-- The table of entries in braces. -/
def Table.ofEntries? (entries : List Entry) : Option Table := entries.foldlM Entry.addTo []

/-- The names of a key are fewer than this. -/
def keyLimit : Nat := 80

/-- Brackets and braces nest at most this deep. -/
def nestingLimit : Nat := 79

/-- A character of a name without quotes. -/
def isBareChar (character : Char) : Bool :=
  ('A' ≤ character && character ≤ 'Z') || ('a' ≤ character && character ≤ 'z') ||
    isDigit character || character = '-' || character = '_'

namespace Parser

/-- A name of a key. -/
def name : Parser String := do
  let characters ← basicString <|> literalString <|> takeSome isBareChar
  pure (String.ofList characters)

/-- A key. -/
def key : Parser Key := do
  let names ← sepBySome (blanks *> name <* blanks) (char '.')
  match names.getLast? with
  | some last =>
      if names.length < keyLimit then pure { parents := names.dropLast, name := last }
      else failure
  | none => failure

/-- A key with its value, for a given parser of values. -/
def entryOf (value : Parser Value) : Parser Entry := do
  let key ← key
  char '='
  blanks
  let value ← value
  pure { key := key, value := value }

/-- Values in brackets.  They may stand on several lines, and a comma may follow the last. -/
def arrayOf (value : Parser Value) : Parser Value := do
  char '['
  let elements ← sepEndBy (gap *> value <* gap) (char ',')
  gap
  char ']'
  pure (.array elements)

/-- Entries in braces on one line. -/
def inlineTableOf (value : Parser Value) : Parser Value := do
  char '\x7b'
  let entries ← sepBy (blanks *> entryOf value <* blanks) (char ',')
  blanks
  char '\x7d'
  match Table.ofEntries? entries with
  | some table => pure (.table .closed table)
  | none => failure

/-- A truth value. -/
def boolean : Parser Bool :=
  (do word ['t', 'r', 'u', 'e']; pure true) <|> (do word ['f', 'a', 'l', 's', 'e']; pure false)

/-- A value that holds no other values. -/
def scalar : Parser Value :=
  (.string <$> string) <|> (.boolean <$> boolean) <|> (.datetime <$> datetime) <|>
    (.float <$> float) <|> (.integer <$> integer)

/-- A value that nests at most so deep. -/
def value : (depth : Nat) → Parser Value
  | 0 => scalar
  | depth + 1 => scalar <|> arrayOf (value depth) <|> inlineTableOf (value depth)

/-- A key with its value. -/
def entry : Parser Entry := entryOf (value nestingLimit)

end Parser

end ByteCursor.Toml
