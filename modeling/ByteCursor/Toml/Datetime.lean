import ByteCursor.Toml.Number

/-!
# Dates and times

A date is `YYYY-MM-DD` and a time `HH:MM:SS` with an optional fraction of the second.  A time
stands alone or after a date, and after a date it may be followed by an offset.

Days are those of the Gregorian calendar, and the second may be 60.
-/

namespace ByteCursor.Toml

/-- A year with a 29th of February. -/
def isLeapYear (year : Nat) : Bool := year % 4 = 0 && (year % 100 ≠ 0 || year % 400 = 0)

/-- The number of days of a month. -/
def daysOfMonth (year month : Nat) : Nat :=
  if month = 2 then (if isLeapYear year then 29 else 28)
  else if month = 4 || month = 6 || month = 9 || month = 11 then 30
  else 31

namespace Date

/-- The date is in the calendar. -/
def isValid (date : Date) : Bool :=
  1 ≤ date.month && date.month ≤ 12 &&
    1 ≤ date.day && date.day ≤ daysOfMonth date.year date.month

end Date

namespace Parser

/-- A number of exactly `count` digits. -/
def fixedDigits (count : Nat) : Parser Nat := fun text =>
  let digits := text.take count
  if digits.length = count && digits.all isDigit then some (numeral 10 digits, text.drop count)
  else none

/-- A number of two digits that is at most `greatest`. -/
def twoDigits (greatest : Nat) : Parser Nat := do
  let number ← fixedDigits 2
  if number ≤ greatest then pure number else failure

/-- A date. -/
def date : Parser Date := do
  let year ← fixedDigits 4
  char '-'
  let month ← fixedDigits 2
  char '-'
  let day ← fixedDigits 2
  let date : Date := { year := year, month := month, day := day }
  if date.isValid then pure date else failure

/-- The digits of a fraction of a second. -/
def secondFraction : Parser (List Char) := char '.' *> takeSome isDigit

/-- A time. -/
def time : Parser Time := do
  let hour ← twoDigits 23
  char ':'
  let minute ← twoDigits 59
  char ':'
  let second ← twoDigits 60
  let fraction ← optional secondFraction
  pure { hour := hour, minute := minute, second := second, fraction := fraction.getD [] }

/-- The offset of a time, or `Z` for none. -/
def offset : Parser Offset :=
  (do
    char 'Z' <|> char 'z'
    pure { minutes := 0 }) <|>
  (do
    let isNegative ← sign
    let hours ← twoDigits 23
    char ':'
    let minutes ← twoDigits 59
    let total : Int := hours * 60 + minutes
    pure { minutes := if isNegative then -total else total })

/-- What stands between a date and its time. -/
def timeMark : Parser Unit := char 'T' <|> char 't' <|> char ' '

/-- A time after a date, with its offset. -/
def timeOfDay : Parser (Time × Option Offset) := do
  timeMark
  let time ← time
  let offset ← optional offset
  pure (time, offset)

/-- A date, a time or both. -/
def datetime : Parser Datetime :=
  (do
    let date ← date
    match ← optional timeOfDay with
    | some (time, offset) => pure (.both date time offset)
    | none => pure (.date date)) <|>
  (do
    let time ← time
    pure (.time time))

end Parser

end ByteCursor.Toml
