/-!
# Values of a document

A document is a table: names with values, each name once.  Tables remember how they came about,
because that decides which later lines may add to them.

Numbers and dates are kept as written: a finite float is an exact decimal.
-/

namespace ByteCursor.Toml

/-- A day of the calendar. -/
structure Date where
  year : Nat
  month : Nat
  day : Nat
  deriving DecidableEq, Repr

/-- A time of the day. -/
structure Time where
  /-- The hour. -/
  hour : Nat
  /-- The minute. -/
  minute : Nat
  /-- The second, which is 60 in a leap second. -/
  second : Nat
  /-- The digits after the point of the second. -/
  fraction : List Char
  deriving DecidableEq, Repr

/-- How far a time is from universal time, in minutes. -/
structure Offset where
  /-- The minutes that were added to universal time. -/
  minutes : Int
  deriving DecidableEq, Repr

/-- A date, a time, or both with an optional offset. -/
inductive Datetime where
  /-- A day. -/
  | date (date : Date)
  /-- A time of an unknown day. -/
  | time (time : Time)
  /-- A time of a day. -/
  | both (date : Date) (time : Time) (offset : Option Offset)
  deriving DecidableEq, Repr

/-- A floating-point number. -/
inductive FloatNumber where
  /-- A decimal: the mantissa times a power of ten. -/
  | finite (isNegative : Bool) (mantissa : Nat) (exponent : Int)
  /-- An infinity. -/
  | infinite (isNegative : Bool)
  /-- Not a number. -/
  | undefined (isNegative : Bool)
  deriving DecidableEq, Repr

/-- How a table came about. -/
inductive Origin where
  /-- It was written in braces and is complete. -/
  | closed
  /-- It has a header line of its own. -/
  | header
  /-- It is named by the header line of a table in it. -/
  | implied
  /-- It is named by a dotted key of a value in it. -/
  | dotted
  deriving DecidableEq, Repr

/-- A value of a document. -/
inductive Value where
  /-- A text. -/
  | string (value : String)
  /-- An integer. -/
  | integer (value : Int)
  /-- A floating-point number. -/
  | float (value : FloatNumber)
  /-- A truth value. -/
  | boolean (value : Bool)
  /-- A date or a time. -/
  | datetime (value : Datetime)
  /-- Values in brackets. -/
  | array (elements : List Value)
  /-- Names with values. -/
  | table (origin : Origin) (entries : List (String × Value))
  /-- Tables of which each has a header line in double brackets. -/
  | tables (elements : List (List (String × Value)))
  deriving Repr

instance : Inhabited Value := ⟨.boolean false⟩

/-- The names of a table with their values, in the order in which the names first came up. -/
abbrev Table := List (String × Value)

end ByteCursor.Toml
