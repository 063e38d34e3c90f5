import ByteCursor.Toml.Document
import Mathlib.Algebra.Group.Nat.Defs
import Mathlib.Algebra.Ring.Int.Defs

/-!
# The grammar of documents

Which texts are documents and what they say, apart from any parser.  Each judgement tells what a
text writes and follows the rule of its name in the grammar of TOML 1.0.

The grammar leaves to its readers how deep values nest, how many names a key has and how large a
float is.  These limits are parameters, so that every document is within some limits.
-/

namespace ByteCursor.Toml

/-- What a reader of documents can hold. -/
structure Limits where
  /-- Brackets and braces nest at most so deep. -/
  nesting : Nat
  /-- The names of a key are fewer than this. -/
  names : Nat
  /-- The floats that can be held. -/
  Holds : FloatNumber → Prop

/-! ## Blanks and comments -/

/-- No control character other than the tab. -/
def IsPlain (character : Char) : Prop :=
  character = '\t' ∨ 0x20 ≤ character.toNat ∧ character.toNat ≠ 0x7f

instance : DecidablePred IsPlain := fun _ => inferInstanceAs (Decidable (_ ∨ _ ∧ _))

/-- Spaces and tabs. -/
def IsBlanks (text : List Char) : Prop := ∀ character ∈ text, character = ' ' ∨ character = '\t'

/-- The end of a line. -/
inductive IsNewline : List Char → Prop where
  | short : IsNewline ['\n']
  | long : IsNewline ['\r', '\n']

/-- A comment, or nothing. -/
inductive IsRemark : List Char → Prop where
  | nothing : IsRemark []
  | comment {text : List Char} (isPlain : ∀ character ∈ text, IsPlain character) :
      IsRemark ('#' :: text)

/-- Blanks and ends of lines. -/
inductive IsSpace : List Char → Prop where
  | nil : IsSpace []
  | blank {character : Char} {more : List Char} (isBlank : character = ' ' ∨ character = '\t')
      (later : IsSpace more) : IsSpace (character :: more)
  | newline {ending more : List Char} (isNewline : IsNewline ending) (later : IsSpace more) :
      IsSpace (ending ++ more)

/-- Blanks and ends of lines, with a comment before some of the ends. -/
inductive IsGap : List Char → Prop where
  | nil : IsGap []
  | blank {character : Char} {more : List Char} (isBlank : character = ' ' ∨ character = '\t')
      (later : IsGap more) : IsGap (character :: more)
  | line {remark ending more : List Char} (isRemark : IsRemark remark)
      (isNewline : IsNewline ending) (later : IsGap more) : IsGap (remark ++ (ending ++ more))

/-! ## Strings -/

/-- A digit of a base. -/
def IsDigitOf (base : Nat) (character : Char) : Prop :=
  ∃ value, hexDigit? character = some value ∧ value < base

/-- The characters behind a backslash that stand for one character each. -/
def escapes : List (Char × Char) :=
  [('b', '\x08'), ('t', '\t'), ('n', '\n'), ('f', '\x0c'), ('r', '\r'), ('"', '"'), ('\\', '\\')]

/-- An escape without its backslash. -/
inductive WritesEscape : List Char → Char → Prop where
  | mark {mark character : Char} (known : (mark, character) ∈ escapes) :
      WritesEscape [mark] character
  | code {mark character : Char} {digits : List Char}
      (announced : (mark, digits.length) ∈ [('u', 4), ('U', 8)])
      (hexadecimal : ∀ digit ∈ digits, IsDigitOf 16 digit)
      (code : numeral 16 digits = character.toNat) : WritesEscape (mark :: digits) character

/-- A character between double quotes. -/
inductive WritesBasic : List Char → Char → Prop where
  | plain {character : Char} (isPlain : IsPlain character) (noQuote : character ≠ '"')
      (noEscape : character ≠ '\\') : WritesBasic [character] character
  | escape {text : List Char} {character : Char} (writes : WritesEscape text character) :
      WritesBasic ('\\' :: text) character

/-- A character between single quotes. -/
inductive WritesLiteral : List Char → Char → Prop where
  | plain {character : Char} (isPlain : IsPlain character) (noQuote : character ≠ '\'') :
      WritesLiteral [character] character

/-- Characters one after the other. -/
inductive WritesRun (Item : List Char → Char → Prop) : List Char → List Char → Prop where
  | nil : WritesRun Item [] []
  | cons {text more characters : List Char} {character : Char} (isItem : Item text character)
      (later : WritesRun Item more characters) :
      WritesRun Item (text ++ more) (character :: characters)

/-- Characters that stand for themselves. -/
theorem writesRun_singles {Item : List Char → Char → Prop} {text : List Char}
    (singles : ∀ character ∈ text, Item [character] character) : WritesRun Item text text := by
  induction text with
  | nil => exact .nil
  | cons head tail ih =>
      obtain ⟨first, later⟩ := List.forall_mem_cons.mp singles
      exact .cons first (ih later)

/-- A backslash at the end of a line with the blank lines behind it. -/
inductive IsJoin : List Char → Prop where
  | mk {blanks ending space : List Char} (areBlanks : IsBlanks blanks)
      (isNewline : IsNewline ending) (isSpace : IsSpace space) :
      IsJoin ('\\' :: (blanks ++ (ending ++ space)))

/-- The inside of a string on several lines.  Up to two quotes stand for themselves, and nothing of
the space behind a join is left for the text behind it. -/
inductive WritesLines (quote : Char) (Item : List Char → Char → Prop) (Join : List Char → Prop) :
    List Char → List Char → Prop where
  | last {quotes : List Char} (few : quotes ∈ [[], [quote], [quote, quote]]) :
      WritesLines quote Item Join quotes quotes
  | item {text more characters : List Char} {character : Char} (isItem : Item text character)
      (later : WritesLines quote Item Join more characters) :
      WritesLines quote Item Join (text ++ more) (character :: characters)
  | newline {ending more characters : List Char} (isNewline : IsNewline ending)
      (later : WritesLines quote Item Join more characters) :
      WritesLines quote Item Join (ending ++ more) ('\n' :: characters)
  | quotes {quotes more characters : List Char} (few : quotes ∈ [[quote], [quote, quote]])
      (apart : more.head? ∉ [none, some quote])
      (later : WritesLines quote Item Join more characters) :
      WritesLines quote Item Join (quotes ++ more) (quotes ++ characters)
  | join {text more characters : List Char} (isJoin : Join text)
      (apart : more.head? ∉ [some ' ', some '\t', some '\n', some '\r'])
      (later : WritesLines quote Item Join more characters) :
      WritesLines quote Item Join (text ++ more) characters

/-- A string between three quotes.  The end of a line right behind the first three is dropped. -/
inductive WritesBlock (quote : Char) (Item : List Char → Char → Prop) (Join : List Char → Prop) :
    List Char → List Char → Prop where
  | sameLine {text characters : List Char} (apart : text.head? ∉ [some '\n', some '\r'])
      (lines : WritesLines quote Item Join text characters) :
      WritesBlock quote Item Join
        ([quote, quote, quote] ++ (text ++ [quote, quote, quote])) characters
  | nextLine {ending text characters : List Char} (isNewline : IsNewline ending)
      (lines : WritesLines quote Item Join text characters) :
      WritesBlock quote Item Join
        ([quote, quote, quote] ++ (ending ++ (text ++ [quote, quote, quote]))) characters

/-- A string in double quotes on one line. -/
inductive WritesBasicString : List Char → List Char → Prop where
  | mk {text characters : List Char} (run : WritesRun WritesBasic text characters) :
      WritesBasicString ('"' :: (text ++ ['"'])) characters

/-- A string in single quotes on one line. -/
inductive WritesLiteralString : List Char → List Char → Prop where
  | mk {text characters : List Char} (run : WritesRun WritesLiteral text characters) :
      WritesLiteralString ('\'' :: (text ++ ['\''])) characters

/-- A string. -/
inductive WritesString : List Char → List Char → Prop where
  | basic {text characters : List Char} (basic : WritesBasicString text characters) :
      WritesString text characters
  | literal {text characters : List Char} (literal : WritesLiteralString text characters) :
      WritesString text characters
  | basicBlock {text characters : List Char}
      (block : WritesBlock '"' WritesBasic IsJoin text characters) : WritesString text characters
  | literalBlock {text characters : List Char}
      (block : WritesBlock '\'' WritesLiteral (fun _ => False) text characters) :
      WritesString text characters

/-! ## Numbers -/

/-- Digits of a base, with single underscores between them. -/
inductive WritesDigits (base : Nat) : List Char → List Char → Prop where
  | last {digit : Char} (isDigit : IsDigitOf base digit) : WritesDigits base [digit] [digit]
  | next {digit : Char} {text digits : List Char} (isDigit : IsDigitOf base digit)
      (later : WritesDigits base text digits) : WritesDigits base (digit :: text) (digit :: digits)
  | underscore {digit : Char} {text digits : List Char} (isDigit : IsDigitOf base digit)
      (later : WritesDigits base text digits) :
      WritesDigits base (digit :: '_' :: text) (digit :: digits)

/-- Decimal digits without a leading zero. -/
def WritesDecimal (text digits : List Char) : Prop :=
  WritesDigits 10 text digits ∧ (digits.head? = some '0' → text = ['0'])

/-- A sign, or nothing; a minus makes a number negative. -/
inductive WritesSign : List Char → Bool → Prop where
  | nothing : WritesSign [] false
  | plus : WritesSign ['+'] false
  | minus : WritesSign ['-'] true

/-- The number of a sign and a magnitude. -/
def signed (isNegative : Bool) (magnitude : Nat) : Int :=
  if isNegative then -magnitude else magnitude

/-- An integer of 64 bits. -/
inductive WritesInteger : List Char → Int → Prop where
  | decimal {sign text digits : List Char} {isNegative : Bool}
      (hasSign : WritesSign sign isNegative) (writes : WritesDecimal text digits)
      (fits : -2 ^ 63 ≤ signed isNegative (numeral 10 digits) ∧
        signed isNegative (numeral 10 digits) < 2 ^ 63) :
      WritesInteger (sign ++ text) (signed isNegative (numeral 10 digits))
  | based {mark : Char} {base : Nat} {text digits : List Char}
      (announced : (mark, base) ∈ [('x', 16), ('o', 8), ('b', 2)])
      (writes : WritesDigits base text digits) (fits : numeral base digits < 2 ^ 63) :
      WritesInteger ('0' :: mark :: text) (numeral base digits)

/-- The places behind the point of a float, or nothing. -/
inductive WritesPlaces : List Char → List Char → Prop where
  | nothing : WritesPlaces [] []
  | places {text digits : List Char} (writes : WritesDigits 10 text digits) :
      WritesPlaces ('.' :: text) digits

/-- The exponent of a float, or nothing. -/
inductive WritesPower : List Char → Int → Prop where
  | nothing : WritesPower [] 0
  | power {mark : Char} {sign text digits : List Char} {isNegative : Bool}
      (isMark : mark = 'e' ∨ mark = 'E') (hasSign : WritesSign sign isNegative)
      (writes : WritesDigits 10 text digits) :
      WritesPower (mark :: (sign ++ text)) (signed isNegative (numeral 10 digits))

/-- A float.  A decimal one has places or an exponent. -/
inductive WritesFloat : List Char → FloatNumber → Prop where
  | decimal {sign whole places power wholeDigits placeDigits : List Char} {isNegative : Bool}
      {exponent : Int} (hasSign : WritesSign sign isNegative)
      (hasWhole : WritesDecimal whole wholeDigits) (hasPlaces : WritesPlaces places placeDigits)
      (hasPower : WritesPower power exponent) (noInteger : places ++ power ≠ []) :
      WritesFloat (sign ++ (whole ++ (places ++ power)))
        (.finite isNegative (numeral 10 (wholeDigits ++ placeDigits))
          (exponent - placeDigits.length))
  | infinite {sign : List Char} {isNegative : Bool} (hasSign : WritesSign sign isNegative) :
      WritesFloat (sign ++ ['i', 'n', 'f']) (.infinite isNegative)
  | undefined {sign : List Char} {isNegative : Bool} (hasSign : WritesSign sign isNegative) :
      WritesFloat (sign ++ ['n', 'a', 'n']) (.undefined isNegative)

/-! ## Dates and times -/

/-- A number of `count` decimal digits. -/
structure WritesFixed (count : Nat) (text : List Char) (number : Nat) : Prop where
  length : text.length = count
  decimal : ∀ digit ∈ text, IsDigitOf 10 digit
  number : numeral 10 text = number

/-- A day of the calendar. -/
inductive WritesDate : List Char → Date → Prop where
  | mk {year month day : List Char} {date : Date} (hasYear : WritesFixed 4 year date.year)
      (hasMonth : WritesFixed 2 month date.month) (hasDay : WritesFixed 2 day date.day)
      (inYear : 1 ≤ date.month ∧ date.month ≤ 12)
      (inMonth : 1 ≤ date.day ∧ date.day ≤ daysOfMonth date.year date.month) :
      WritesDate (year ++ '-' :: (month ++ '-' :: day)) date

/-- The fraction of a second, or nothing. -/
inductive WritesFraction : List Char → List Char → Prop where
  | nothing : WritesFraction [] []
  | fraction {digits : List Char} (nonempty : digits ≠ [])
      (decimal : ∀ digit ∈ digits, IsDigitOf 10 digit) : WritesFraction ('.' :: digits) digits

/-- A time of the day. -/
inductive WritesTime : List Char → Time → Prop where
  | mk {hour minute second fraction : List Char} {time : Time}
      (hasHour : WritesFixed 2 hour time.hour) (hasMinute : WritesFixed 2 minute time.minute)
      (hasSecond : WritesFixed 2 second time.second)
      (inDay : time.hour ≤ 23 ∧ time.minute ≤ 59 ∧ time.second ≤ 60)
      (hasFraction : WritesFraction fraction time.fraction) :
      WritesTime (hour ++ ':' :: (minute ++ ':' :: (second ++ fraction))) time

/-- The offset of a time, or nothing. -/
inductive WritesOffset : List Char → Option Offset → Prop where
  | nothing : WritesOffset [] none
  | universal {mark : Char} (isMark : mark = 'Z' ∨ mark = 'z') :
      WritesOffset [mark] (some { minutes := 0 })
  | numeric {sign : Char} {hours minutes : List Char} {isNegative : Bool} {hour minute : Nat}
      (hasSign : WritesSign [sign] isNegative) (hasHours : WritesFixed 2 hours hour)
      (hasMinutes : WritesFixed 2 minutes minute) (inDay : hour ≤ 23 ∧ minute ≤ 59) :
      WritesOffset (sign :: (hours ++ ':' :: minutes))
        (some { minutes := signed isNegative (hour * 60 + minute) })

/-- A date, a time or both. -/
inductive WritesDatetime : List Char → Datetime → Prop where
  | date {text : List Char} {date : Date} (writes : WritesDate text date) :
      WritesDatetime text (.date date)
  | time {text : List Char} {time : Time} (writes : WritesTime text time) :
      WritesDatetime text (.time time)
  | both {day clock zone : List Char} {mark : Char} {date : Date} {time : Time}
      {offset : Option Offset} (hasDate : WritesDate day date)
      (isMark : mark = 'T' ∨ mark = 't' ∨ mark = ' ') (hasTime : WritesTime clock time)
      (hasOffset : WritesOffset zone offset) :
      WritesDatetime (day ++ mark :: (clock ++ zone)) (.both date time offset)

/-! ## Keys and values -/

/-- A name of a key. -/
inductive WritesName : List Char → String → Prop where
  | bare {text : List Char} (nonempty : text ≠ [])
      (bare : ∀ character ∈ text, character.isAlphanum ∨ character = '-' ∨ character = '_') :
      WritesName text (String.ofList text)
  | basic {text characters : List Char} (basic : WritesBasicString text characters) :
      WritesName text (String.ofList characters)
  | literal {text characters : List Char} (literal : WritesLiteralString text characters) :
      WritesName text (String.ofList characters)

/-- Names with dots between them. -/
inductive WritesNames : List Char → List String → Prop where
  | last {text : List Char} {name : String} (hasName : WritesName text name) :
      WritesNames text [name]
  | dot {text before behind more : List Char} {name : String} {names : List String}
      (hasName : WritesName text name) (blanksBefore : IsBlanks before)
      (blanksBehind : IsBlanks behind) (later : WritesNames more names) :
      WritesNames (text ++ (before ++ '.' :: (behind ++ more))) (name :: names)

/-- A key. -/
structure WritesKey (limits : Limits) (text : List Char) (key : Key) : Prop where
  names : WritesNames text (key.parents ++ [key.name])
  short : (key.parents ++ [key.name]).length < limits.names

section Nested

variable (limits : Limits) (Inner : List Char → Value → Prop)

/-- A value that holds no other values. -/
inductive WritesScalar : List Char → Value → Prop where
  | string {text characters : List Char} (writes : WritesString text characters) :
      WritesScalar text (.string (String.ofList characters))
  | boolean (switch : Bool) : WritesScalar (toString switch).toList (.boolean switch)
  | datetime {text : List Char} {datetime : Datetime} (writes : WritesDatetime text datetime) :
      WritesScalar text (.datetime datetime)
  | float {text : List Char} {number : FloatNumber} (writes : WritesFloat text number)
      (holds : limits.Holds number) : WritesScalar text (.float number)
  | integer {text : List Char} {number : Int} (writes : WritesInteger text number) :
      WritesScalar text (.integer number)

/-- Values with commas between them and perhaps one behind the last, and gaps around them. -/
inductive WritesElements : List Char → List Value → Prop where
  | nil : WritesElements [] []
  | last {before text behind : List Char} {value : Value} (gapBefore : IsGap before)
      (inner : Inner text value) (gapBehind : IsGap behind) :
      WritesElements (before ++ (text ++ behind)) [value]
  | comma {before text behind more : List Char} {value : Value} {values : List Value}
      (gapBefore : IsGap before) (inner : Inner text value) (gapBehind : IsGap behind)
      (later : WritesElements more values) :
      WritesElements (before ++ (text ++ (behind ++ ',' :: more))) (value :: values)

/-- A key with its value. -/
inductive WritesEntry : List Char → Entry → Prop where
  | mk {key before behind text : List Char} {entry : Entry}
      (hasKey : WritesKey limits key entry.key) (blanksBefore : IsBlanks before)
      (blanksBehind : IsBlanks behind) (inner : Inner text entry.value) :
      WritesEntry (key ++ (before ++ '=' :: (behind ++ text))) entry

/-- Entries with commas between them, and blanks around them. -/
inductive WritesEntries : List Char → List Entry → Prop where
  | last {before text behind : List Char} {entry : Entry} (blanksBefore : IsBlanks before)
      (hasEntry : WritesEntry limits Inner text entry) (blanksBehind : IsBlanks behind) :
      WritesEntries (before ++ (text ++ behind)) [entry]
  | comma {before text behind more : List Char} {entry : Entry} {entries : List Entry}
      (blanksBefore : IsBlanks before) (hasEntry : WritesEntry limits Inner text entry)
      (blanksBehind : IsBlanks behind) (later : WritesEntries more entries) :
      WritesEntries (before ++ (text ++ (behind ++ ',' :: more))) (entry :: entries)

/-- A value whose elements or entries are given by `Inner`. -/
inductive WritesNested : List Char → Value → Prop where
  | scalar {text : List Char} {value : Value} (writes : WritesScalar limits text value) :
      WritesNested text value
  | array {text gap : List Char} {values : List Value} (elements : WritesElements Inner text values)
      (isGap : IsGap gap) : WritesNested ('[' :: (text ++ (gap ++ [']']))) (.array values)
  | emptyTable {blanks : List Char} (areBlanks : IsBlanks blanks) :
      WritesNested ('\x7b' :: (blanks ++ ['\x7d'])) (.table .closed [])
  | table {text : List Char} {entries : List Entry} {table : Table}
      (hasEntries : WritesEntries limits Inner text entries)
      (builds : Table.ofEntries? entries = some table) :
      WritesNested ('\x7b' :: (text ++ ['\x7d'])) (.table .closed table)

end Nested

/-- A value that nests at most so deep. -/
def WritesValue (limits : Limits) : (depth : Nat) → List Char → Value → Prop
  | 0 => WritesScalar limits
  | depth + 1 => WritesNested limits (WritesValue limits depth)

theorem writesValue_of_scalar {limits : Limits} (depth : Nat) {text : List Char} {value : Value}
    (writes : WritesScalar limits text value) : WritesValue limits depth text value := by
  cases depth with
  | zero => exact writes
  | succ depth => exact .scalar writes

/-! ## Lines -/

section Lines

variable (limits : Limits)

/-- What a line says, without the blanks around it. -/
inductive WritesStatement : List Char → Statement → Prop where
  | entry {text : List Char} {entry : Entry}
      (writes : WritesEntry limits (WritesValue limits limits.nesting) text entry) :
      WritesStatement text (.entry entry)
  | table {before text behind : List Char} {key : Key} (blanksBefore : IsBlanks before)
      (hasKey : WritesKey limits text key) (blanksBehind : IsBlanks behind) :
      WritesStatement ('[' :: (before ++ (text ++ (behind ++ [']'])))) (.table key)
  | element {before text behind : List Char} {key : Key} (blanksBefore : IsBlanks before)
      (hasKey : WritesKey limits text key) (blanksBehind : IsBlanks behind) :
      WritesStatement ('[' :: '[' :: (before ++ (text ++ (behind ++ [']', ']'])))) (.element key)

/-- A line without its end. -/
inductive WritesLine : List Char → Option Statement → Prop where
  | silent {blanks remark : List Char} (areBlanks : IsBlanks blanks) (isRemark : IsRemark remark) :
      WritesLine (blanks ++ remark) none
  | speaks {before text behind remark : List Char} {statement : Statement}
      (blanksBefore : IsBlanks before)
      (writes : WritesStatement limits text statement) (blanksBehind : IsBlanks behind)
      (isRemark : IsRemark remark) :
      WritesLine (before ++ (text ++ (behind ++ remark))) (some statement)

/-- The lines of a document. -/
inductive WritesStatements : List Char → List Statement → Prop where
  | last {text : List Char} {said : Option Statement} (line : WritesLine limits text said) :
      WritesStatements text said.toList
  | newline {text ending more : List Char} {said : Option Statement} {statements : List Statement}
      (line : WritesLine limits text said) (isNewline : IsNewline ending)
      (later : WritesStatements more statements) :
      WritesStatements (text ++ (ending ++ more)) (said.toList ++ statements)

/-- The whole document, before which a byte order mark may stand. -/
inductive WritesDocument : List Char → List Statement → Prop where
  | plain {text : List Char} {statements : List Statement}
      (lines : WritesStatements limits text statements) : WritesDocument text statements
  | marked {text : List Char} {statements : List Statement}
      (lines : WritesStatements limits text statements) :
      WritesDocument (Document.byteOrderMark :: text) statements

end Lines

/-! ## Values under plain names -/

section Plain

variable {limits : Limits} {name : String}
  (short : 1 < limits.names) (nonempty : name.toList ≠ [])
  (bare : ∀ character ∈ name.toList,
    character.isAlphanum ∨ character = '-' ∨ character = '_')

include short nonempty bare

theorem writesKey_plain : WritesKey limits name.toList { parents := [], name := name } := by
  have hasName := WritesName.bare nonempty bare
  rw [String.ofList_toList] at hasName
  exact ⟨.last hasName, short⟩

/-- An equals sign between spaces gives a value to a name. -/
theorem writesEntry_plain {Inner : List Char → Value → Prop} {text : List Char} {value : Value}
    (inner : Inner text value) :
    WritesEntry limits Inner (name.toList ++ ([' '] ++ '=' :: ([' '] ++ text)))
      { key := { parents := [], name := name }, value := value } := by
  have space : IsBlanks [' '] := by simp [IsBlanks]
  exact .mk (writesKey_plain short nonempty bare) space space inner

theorem writesLine_plain {text : List Char} {value : Value}
    (inner : WritesValue limits limits.nesting text value) :
    WritesLine limits (name.toList ++ ([' '] ++ '=' :: ([' '] ++ text)))
      (some (.entry { key := { parents := [], name := name }, value := value })) := by
  have noBlanks : IsBlanks [] := nofun
  have writes := WritesLine.speaks noBlanks
    (.entry (writesEntry_plain short nonempty bare inner)) noBlanks .nothing
  simpa using writes

end Plain

namespace Document

/-- The text is a document of the table. -/
def Writes (limits : Limits) (text : String) (table : Table) : Prop :=
  ∃ statements, WritesDocument limits text.toList statements ∧
    Table.ofStatements? statements = some table

end Document

end ByteCursor.Toml
