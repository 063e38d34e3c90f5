/-!
# Parsers of characters

A parser takes characters from the front of a text and may refuse it.  A refused alternative
gives the characters back, so alternatives are tried on the same text.

Repetition is counted: it ends after as many rounds as the text has characters, which is enough
for every parser that takes a character in each round.
-/

namespace ByteCursor.Toml

/-- A parser takes characters from the front of a text or refuses it. -/
abbrev Parser := StateT (List Char) Option

namespace Parser

variable {α β : Type}

/-- The next character, which is not taken. -/
def peek : Parser (Option Char) := fun text => some (text.head?, text)

/-- Take one character of a class. -/
def satisfy (inClass : Char → Bool) : Parser Char
  | [] => none
  | head :: rest => if inClass head then some (head, rest) else none

/-- Take one given character. -/
def char (expected : Char) : Parser Unit
  | [] => none
  | head :: rest => if head = expected then some ((), rest) else none

/-- Take the given characters. -/
def word (expected : List Char) : Parser Unit := expected.forM char

/-- Take the longest run of characters of a class. -/
def takeWhile (inClass : Char → Bool) : Parser (List Char) :=
  fun text => some (text.takeWhile inClass, text.dropWhile inClass)

/-- Take the longest run of characters of a class, which must not be empty. -/
def takeSome (inClass : Char → Bool) : Parser (List Char) := do
  let run ← takeWhile inClass
  if run.isEmpty then failure else pure run

/-- Accept the end of the text. -/
def atEnd : Parser Unit
  | [] => some ((), [])
  | _ :: _ => none

/-- Repeat a parser until it refuses, but at most so many times. -/
def manyWithin (item : Parser α) : (rounds : Nat) → Parser (List α)
  | 0 => pure []
  | rounds + 1 => do
      match ← optional item with
      | none => pure []
      | some value => do
          let values ← manyWithin item rounds
          pure (value :: values)

/-- Repeat a parser until it refuses. -/
def many (item : Parser α) : Parser (List α) := fun text => manyWithin item text.length text

/-- Items with separators between them, and perhaps one after the last, at most so many. -/
def sepEndByWithin (item : Parser α) (separator : Parser Unit) : (rounds : Nat) → Parser (List α)
  | 0 => pure []
  | rounds + 1 => do
      match ← optional item with
      | none => pure []
      | some value =>
          match ← optional separator with
          | none => pure [value]
          | some _ => do
              let values ← sepEndByWithin item separator rounds
              pure (value :: values)

/-- Items with separators between them, and perhaps one after the last. -/
def sepEndBy (item : Parser α) (separator : Parser Unit) : Parser (List α) :=
  fun text => sepEndByWithin item separator text.length text

/-- At least one item, with separators between the items. -/
def sepBySome (item : Parser α) (separator : Parser Unit) : Parser (List α) := do
  let first ← item
  let others ← many (separator *> item)
  pure (first :: others)

/-- Items with separators between them. -/
def sepBy (item : Parser α) (separator : Parser Unit) : Parser (List α) :=
  sepBySome item separator <|> pure []

end Parser

end ByteCursor.Toml
