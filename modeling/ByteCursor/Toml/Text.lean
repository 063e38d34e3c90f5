import ByteCursor.Toml.Parser

/-!
# Blanks, comments and strings

The characters of a document fall into classes; which class a string or a comment may hold is
fixed by how it is delimited.  Strings in double quotes have escapes, strings in single quotes
have none, and both come on one line or, with three quotes, on several.

In a string on several lines one or two quotes stand for themselves, also right before the three
quotes that end it.
-/

namespace ByteCursor.Toml

/-- A space or a tab. -/
def isBlank (character : Char) : Bool := character = ' ' || character = '\t'

/-- A character beyond ASCII. -/
def isWide (character : Char) : Bool := 0x80 ≤ character.toNat

/-- A printable ASCII character. -/
def isPrintable (character : Char) : Bool := 0x20 ≤ character.toNat && character.toNat ≤ 0x7e

/-- What may stand in a comment. -/
def isCommentChar (character : Char) : Bool :=
  character = '\t' || isPrintable character || isWide character

/-- What stands for itself between double quotes. -/
def isBasicChar (character : Char) : Bool :=
  isCommentChar character && character ≠ '"' && character ≠ '\\'

/-- What stands for itself between single quotes. -/
def isLiteralChar (character : Char) : Bool := isCommentChar character && character ≠ '\''

/-- The value of a hexadecimal digit. -/
def hexDigit? (character : Char) : Option Nat :=
  if '0' ≤ character ∧ character ≤ '9' then some (character.toNat - 0x30)
  else if 'a' ≤ character ∧ character ≤ 'f' then some (character.toNat - 0x61 + 10)
  else if 'A' ≤ character ∧ character ≤ 'F' then some (character.toNat - 0x41 + 10)
  else none

/-- The number that digits write in a base. -/
def numeral (base : Nat) (digits : List Char) : Nat :=
  (digits.filterMap hexDigit?).foldl (fun number digit => number * base + digit) 0

namespace Parser

/-- Blanks. -/
def blanks : Parser Unit := do
  let _ ← takeWhile isBlank
  pure ()

/-- The end of a line: a line feed, which a carriage return may precede. -/
def newline : Parser Unit := char '\n' <|> word ['\r', '\n']

/-- A comment, without the end of its line. -/
def comment : Parser Unit := do
  char '#'
  let _ ← takeWhile isCommentChar
  pure ()

/-- What may end a line: blanks and a comment, then the end of the line or of the text. -/
def lineEnd : Parser Unit := do
  blanks
  let _ ← optional comment
  newline <|> atEnd

/-- A blank or the end of a line. -/
def space : Parser Unit := (do let _ ← satisfy isBlank) <|> newline

/-- Blanks, comments and ends of lines. -/
def gap : Parser Unit := do
  let _ ← many (space <|> comment)

/-- A given number of hexadecimal digits, which write a character. -/
def codePoint (count : Nat) : Parser Char := fun text =>
  let digits := text.take count
  let code := numeral 16 digits
  if digits.length = count && digits.all (fun digit => (hexDigit? digit).isSome) &&
      decide code.isValidChar then
    some (Char.ofNat code, text.drop count)
  else none

/-- An escape in a string, after its backslash. -/
def escape : Parser Char := do
  match ← satisfy (fun _ => true) with
  | 'b' => pure '\x08'
  | 't' => pure '\t'
  | 'n' => pure '\n'
  | 'f' => pure '\x0c'
  | 'r' => pure '\r'
  | '"' => pure '"'
  | '\\' => pure '\\'
  | 'u' => codePoint 4
  | 'U' => codePoint 8
  | _ => failure

/-- A character between double quotes, which may be escaped. -/
def basicChar : Parser Char := satisfy isBasicChar <|> (char '\\' *> escape)

/-- A character between single quotes. -/
def literalChar : Parser Char := satisfy isLiteralChar

/-- A string in double quotes on one line. -/
def basicString : Parser (List Char) := char '"' *> many basicChar <* char '"'

/-- A string in single quotes on one line. -/
def literalString : Parser (List Char) := char '\'' *> many literalChar <* char '\''

/-- A character of a string on several lines. -/
def single (character : Parser Char) : Parser (List Char) := do
  let character ← character
  pure [character]

/-- The end of a line in a string, which stands for a line feed. -/
def lineFeed : Parser (List Char) := do
  newline
  pure ['\n']

/-- One or two quotes in a string on several lines. -/
def innerQuotes (quote : Char) : Parser (List Char) := do
  let quotes ← takeSome (· = quote)
  if quotes.length < 3 then pure quotes else failure

/-- The quotes that end a string on several lines, with those that still belong to it. -/
def closingQuotes (quote : Char) : Parser (List Char) := fun text =>
  let quotes := (text.take 5).takeWhile (· = quote)
  if 3 ≤ quotes.length then some (quotes.drop 3, text.drop quotes.length) else none

/-- A backslash at the end of a line, which joins the text after the blank lines that follow. -/
def continuation : Parser (List Char) := do
  char '\\'
  blanks
  newline
  let _ ← many space
  pure []

/-- A string on several lines between three quotes.  A line end right after the quotes does not
count. -/
def multiLine (quote : Char) (piece : Parser (List Char)) : Parser (List Char) := do
  word [quote, quote, quote]
  let _ ← optional newline
  let pieces ← many (piece <|> lineFeed <|> innerQuotes quote)
  let last ← closingQuotes quote
  pure (pieces.flatten ++ last)

/-- A string in three double quotes. -/
def multiLineBasicString : Parser (List Char) := multiLine '"' (single basicChar <|> continuation)

/-- A string in three single quotes. -/
def multiLineLiteralString : Parser (List Char) := multiLine '\'' (single literalChar)

/-- A string. -/
def string : Parser String := do
  let characters ←
    multiLineBasicString <|> multiLineLiteralString <|> basicString <|> literalString
  pure (String.ofList characters)

end Parser

end ByteCursor.Toml
