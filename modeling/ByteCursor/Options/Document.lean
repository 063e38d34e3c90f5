import ByteCursor.Options
import ByteCursor.Toml.Document

/-!
# Options in documents

Options are read from three names of the root table of a document and written as three lines.
A name that is missing leaves its default, and every other name is ignored; but the whole
document must be readable.
-/

namespace ByteCursor

namespace Toml.Value

/-- A table or an array without contents. -/
def isEmptyContainer : Toml.Value → Bool
  | .table _ entries => entries.isEmpty
  | .array elements => elements.isEmpty
  | _ => false

/-- The truth value that a value is. -/
def boolean? : Toml.Value → Option Bool
  | .boolean value => some value
  | _ => none

end Toml.Value

namespace Toml.Table

/-- What a name of a table says, or the default if the table does not have the name.  The reader
may refuse the value. -/
def read? {α : Type} (table : Table) (name : String) (default : α) (reader : Value → Option α) :
    Option α :=
  match table.lookup name with
  | none => some default
  | some value => reader value

end Toml.Table

namespace Narrowing

/-- The name of a mode. -/
def name : Narrowing → String
  | strict => "strict"
  | permissive => "permissive"

/-- The mode of a name. -/
def ofName? (text : String) : Option Narrowing :=
  if text = strict.name then some strict
  else if text = permissive.name then some permissive
  else none

/-- The mode that a value gives: by its name, or as the only name of a table, which must not have
contents. -/
def ofValue? : Toml.Value → Option Narrowing
  | .string text => ofName? text
  | .table _ [(text, content)] => if content.isEmptyContainer then ofName? text else none
  | _ => none

@[simp] theorem ofName_name (mode : Narrowing) : ofName? mode.name = some mode := by
  cases mode <;> decide

end Narrowing

namespace Options

/-- The name of the narrowing mode in a document. -/
def narrowingName : String := "narrowing"

/-- The name of the switch for spaces in a document. -/
def hexTrimSpacesName : String := "hex-trim-spaces"

/-- The name of the switch for `0x` in a document. -/
def hexPrefixName : String := "hex-prefix"

/-- The options that a table gives. -/
def ofTable? (table : Toml.Table) : Option Options := do
  let base : Options := {}
  let narrowing ← table.read? narrowingName base.narrowing Narrowing.ofValue?
  let hexTrimSpaces ← table.read? hexTrimSpacesName base.hexTrimSpaces Toml.Value.boolean?
  let hexPrefix ← table.read? hexPrefixName base.hexPrefix Toml.Value.boolean?
  some { narrowing := narrowing, hexTrimSpaces := hexTrimSpaces, hexPrefix := hexPrefix }

/-- A document that gives no options. -/
inductive DocumentError where
  /-- The text is no document, or a name has a value that is no option. -/
  | unreadable
  deriving DecidableEq, Repr

/-- The text shown for an error. -/
def DocumentError.message : DocumentError → String
  | unreadable => "parsing cursor options"

/-- The options that a document gives to a reader of documents. -/
def ofDocumentBy (read? : String → Option Toml.Table) (text : String) :
    Except DocumentError Options :=
  match (read? text).bind ofTable? with
  | some options => .ok options
  | none => .error .unreadable

/-- The options that a document gives. -/
def ofDocument (text : String) : Except DocumentError Options :=
  ofDocumentBy Toml.Document.read? text

/-- The line of the narrowing mode. -/
def narrowingLine (options : Options) : String :=
  narrowingName ++ " = \"" ++ options.narrowing.name ++ "\""

/-- The line of the switch for spaces. -/
def hexTrimSpacesLine (options : Options) : String :=
  hexTrimSpacesName ++ " = " ++ toString options.hexTrimSpaces

/-- The line of the switch for `0x`. -/
def hexPrefixLine (options : Options) : String :=
  hexPrefixName ++ " = " ++ toString options.hexPrefix

/-- The lines that give the options, each name on a line. -/
def lines (options : Options) : List String :=
  [options.narrowingLine, options.hexTrimSpacesLine, options.hexPrefixLine]

/-- The document that gives the options. -/
def toDocument (options : Options) : String :=
  String.join (options.lines.map (· ++ "\n"))

end Options

end ByteCursor
