import ByteCursor.Toml.Text
import ByteCursor.Toml.Value

/-!
# Numbers

An integer is decimal with an optional sign, or hexadecimal, octal or binary without one, and
fits 64 bits in two's complement.  A float has a fraction, an exponent or both, or is a special
value.  Single underscores may stand between digits.

A float is kept as an exact decimal.  It is refused if it is positive and so large that no finite
double is nearest to it.
-/

namespace ByteCursor.Toml

/-- A decimal digit. -/
def isDigit (character : Char) : Bool := '0' ≤ character && character ≤ '9'

/-- The least integer that is too large for 64 bits in two's complement. -/
def integerLimit : Nat := Nat.pow 2 63

/-- The least number that is too large for the nearest double to be finite: it lies halfway
between the greatest finite double and the next power of two. -/
def floatLimit : Nat := (Nat.pow 2 54 - 1) * Nat.pow 2 970

/-- A mantissa times a power of ten reaches `floatLimit`.  The number of digits decides this
unless the number lies between the powers 308 and 309 of ten. -/
def reachesFloatLimit (mantissa : Nat) (exponent : Int) : Bool :=
  let magnitude := (Nat.toDigits 10 mantissa).length + exponent
  if mantissa = 0 || magnitude < 309 then false
  else if 309 < magnitude then true
  else floatLimit * Nat.pow 10 (-exponent).toNat ≤ mantissa * Nat.pow 10 exponent.toNat

namespace FloatNumber

/-- The number is positive and too large for a finite double. -/
def isTooLarge : FloatNumber → Bool
  | finite isNegative mantissa exponent => !isNegative && reachesFloatLimit mantissa exponent
  | _ => false

end FloatNumber

namespace Parser

/-- One digit of a class and more, with single underscores between digits. -/
def digitGroups (inClass : Char → Bool) : Parser (List Char) := do
  let first ← satisfy inClass
  let others ← many (satisfy inClass <|> (char '_' *> satisfy inClass))
  pure (first :: others)

/-- A sign; the result tells whether it is a minus. -/
def sign : Parser Bool := (do char '-'; pure true) <|> (do char '+'; pure false)

/-- The digits of a decimal integer, which do not begin with a zero unless there is only one. -/
def decimalDigits : Parser (List Char) := do
  match ← peek with
  | some '0' => do
      char '0'
      pure ['0']
  | _ => digitGroups isDigit

/-- A decimal integer. -/
def decimalInteger : Parser Int := do
  let isNegative := (← optional sign).getD false
  let magnitude := numeral 10 (← decimalDigits)
  let value : Int := if isNegative then -magnitude else magnitude
  if -integerLimit ≤ value && value < integerLimit then pure value else failure

/-- An integer in another base, which a mark announces. -/
def markedInteger (mark : List Char) (base : Nat) : Parser Int := do
  word mark
  let digits ← digitGroups fun character => (hexDigit? character).any (· < base)
  let magnitude := numeral base digits
  if magnitude < integerLimit then pure (magnitude : Int) else failure

/-- An integer. -/
def integer : Parser Int :=
  markedInteger ['0', 'x'] 16 <|> markedInteger ['0', 'o'] 8 <|> markedInteger ['0', 'b'] 2 <|>
    decimalInteger

/-- The digits after the point of a float. -/
def fraction : Parser (List Char) := char '.' *> digitGroups isDigit

/-- The exponent of a float. -/
def exponent : Parser Int := do
  char 'e' <|> char 'E'
  let isNegative := (← optional sign).getD false
  let magnitude := numeral 10 (← digitGroups isDigit)
  pure (if isNegative then -magnitude else magnitude)

/-- A float in decimals. -/
def decimalFloat : Parser FloatNumber := do
  let isNegative := (← optional sign).getD false
  let whole ← decimalDigits
  let places ← optional fraction
  let power ← optional exponent
  if places.isNone && power.isNone then failure
  else
    let digits := whole ++ places.getD []
    pure (.finite isNegative (numeral 10 digits) (power.getD 0 - (places.getD []).length))

/-- A float that is no decimal. -/
def specialFloat : Parser FloatNumber := do
  let isNegative := (← optional sign).getD false
  (do word ['i', 'n', 'f']; pure (.infinite isNegative)) <|>
    (do word ['n', 'a', 'n']; pure (.undefined isNegative))

/-- A float. -/
def float : Parser FloatNumber := do
  let number ← decimalFloat <|> specialFloat
  if number.isTooLarge then failure else pure number

end Parser

end ByteCursor.Toml
