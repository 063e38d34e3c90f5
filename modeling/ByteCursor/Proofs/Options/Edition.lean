import ByteCursor.Proofs.Options.Document

/-!
# Edited documents

The lines that options are written as may be put in another order, dropped and spread among blank
lines and comments.  The document still gives the options of the lines that are left and the
defaults of the others, as long as no line is there twice.
-/

namespace ByteCursor.Options

open Toml (Statement)

/-- The options that have lines of their own. -/
inductive Field where
  | narrowing
  | hexTrimSpaces
  | hexPrefix
  deriving DecidableEq, Repr

namespace Field

/-- The line of a field in the written options. -/
def line (options : Options) : Field → String
  | narrowing => options.narrowingLine
  | hexTrimSpaces => options.hexTrimSpacesLine
  | hexPrefix => options.hexPrefixLine

/-- The name of a field in a document. -/
def name : Field → String
  | narrowing => narrowingName
  | hexTrimSpaces => hexTrimSpacesName
  | hexPrefix => hexPrefixName

/-- The value of a field in a document. -/
def value (options : Options) : Field → Toml.Value
  | narrowing => .string options.narrowing.name
  | hexTrimSpaces => .boolean options.hexTrimSpaces
  | hexPrefix => .boolean options.hexPrefix

/-- The entry of a field in a table. -/
def entry (options : Options) (field : Field) : String × Toml.Value :=
  (field.name, field.value options)

/-- The text behind the equals sign in the line of a field. -/
def written (options : Options) : Field → List Char
  | narrowing => '"' :: options.narrowing.name.toList ++ ['"']
  | hexTrimSpaces => (toString options.hexTrimSpaces).toList
  | hexPrefix => (toString options.hexPrefix).toList

end Field

/-- The options of some fields, with the defaults of the others. -/
def restrict (options : Options) (kept : List Field) : Options where
  narrowing := if .narrowing ∈ kept then options.narrowing else .strict
  hexTrimSpaces := if .hexTrimSpaces ∈ kept then options.hexTrimSpaces else true
  hexPrefix := if .hexPrefix ∈ kept then options.hexPrefix else true

namespace Edition

/-- A line of an edited document, without its end. -/
inductive Line where
  /-- The line that the field has in the written options. -/
  | entry (field : Field)
  /-- Spaces and tabs, or nothing. -/
  | blank (run : List Char) (isBlank : ∀ character ∈ run, character = ' ' ∨ character = '\t')
  /-- A comment with the printable text behind its mark. -/
  | comment (run : List Char)
      (isPrintable : ∀ character ∈ run,
        character = '\t' ∨ 0x20 ≤ character.toNat ∧ character.toNat ≠ 0x7f)

/-- How a line ends. -/
inductive Ending where
  | lineFeed
  | carriageReturn
  deriving DecidableEq, Repr

namespace Line

/-- The text of a line. -/
def text (options : Options) : Line → List Char
  | entry field => (field.line options).toList
  | blank run _ => run
  | comment run _ => '#' :: run

/-- The field that a line keeps. -/
def field? : Line → Option Field
  | entry field => some field
  | blank _ _ | comment _ _ => none

end Line

/-- The characters that end a line. -/
def Ending.text : Ending → List Char
  | lineFeed => ['\n']
  | carriageReturn => ['\r', '\n']

end Edition

/-- An edited document: the lines that have an end, and the text behind them, which may be empty. -/
structure Edition where
  /-- A byte order mark stands before the first line. -/
  hasMark : Bool
  /-- The lines with their ends. -/
  lines : List (Edition.Line × Edition.Ending)
  /-- The line that ends with the text. -/
  last : Edition.Line

namespace Edition

/-- The lines of a document, with the options' own lines for the fields. -/
def body (edition : Edition) (options : Options) : List Char :=
  edition.lines.flatMap (fun (line, ending) => line.text options ++ ending.text) ++
    edition.last.text options

/-- The edited document of the options. -/
def text (edition : Edition) (options : Options) : String :=
  String.ofList (if edition.hasMark then Toml.Document.byteOrderMark :: edition.body options
    else edition.body options)

/-- The fields whose lines are left, as often and in the order in which they come. -/
def kept (edition : Edition) : List Field :=
  (edition.lines.map Prod.fst ++ [edition.last]).filterMap Line.field?

/-- The document without any change. -/
def unchanged : Edition where
  hasMark := false
  lines := [(.entry .narrowing, .lineFeed), (.entry .hexTrimSpaces, .lineFeed),
    (.entry .hexPrefix, .lineFeed)]
  last := .blank [] nofun

end Edition

variable {options : Options}

/-! ## The line of a field -/

namespace Field

theorem name_injective : Function.Injective name := by
  intro field other same
  cases field <;> cases other <;> first | rfl | exact absurd same (by decide)

theorem toList_line (field : Field) (options : Options) :
    (field.line options).toList =
      field.name.toList ++ ([' '] ++ '=' :: ([' '] ++ field.written options)) := by
  cases field <;>
    simp [line, narrowingLine, hexTrimSpacesLine, hexPrefixLine, name, written]

theorem writesScalar (field : Field) (options : Options) :
    Toml.WritesScalar Toml.Document.limits (field.written options) (field.value options) := by
  cases field with
  | narrowing =>
      have plain : ∀ character ∈ options.narrowing.name.toList,
          Toml.IsPlain character ∧ character ≠ '"' ∧ character ≠ '\\' := by
        cases options.narrowing <;> exact List.all_iff_forall_prop.mp rfl
      have written : Toml.WritesScalar Toml.Document.limits (written options narrowing)
          (.string (String.ofList options.narrowing.name.toList)) :=
        .string (.basic (.mk (Toml.writesRun_singles fun character member =>
          have ⟨isPlain, noQuote, noEscape⟩ := plain character member
          .plain isPlain noQuote noEscape)))
      rwa [String.ofList_toList] at written
  | hexTrimSpaces => exact .boolean options.hexTrimSpaces
  | hexPrefix => exact .boolean options.hexPrefix

end Field

/-! ## The lines of a document -/

namespace Edition

theorem Ending.isNewline (ending : Ending) : Toml.IsNewline ending.text := by
  cases ending with
  | lineFeed => exact .short
  | carriageReturn => exact .long

theorem Line.writes (line : Line) (options : Options) :
    Toml.WritesLine Toml.Document.limits (line.text options)
      (line.field?.map fun field => .plain (field.entry options)) := by
  have noBlanks : Toml.IsBlanks [] := nofun
  cases line with
  | entry field =>
      rw [text, field.toList_line]
      have bare : ∀ character ∈ field.name.toList,
          character.isAlphanum ∨ character = '-' ∨ character = '_' := by
        cases field <;> exact List.all_iff_forall_prop.mp rfl
      exact Toml.writesLine_plain (by decide) (by cases field <;> decide) bare
        (Toml.writesValue_of_scalar _ (field.writesScalar options))
  | blank run isBlank =>
      have writes : Toml.WritesLine Toml.Document.limits (run ++ []) none :=
        .silent isBlank .nothing
      rwa [List.append_nil] at writes
  | comment run isPrintable => exact .silent noBlanks (.comment isPrintable)

/-- A document is its last line, or its first line before a document of the other lines. -/
theorem body_cons (hasMark : Bool) (line : Line) (ending : Ending) (lines : List (Line × Ending))
    (last : Line) (options : Options) :
    (Edition.mk hasMark ((line, ending) :: lines) last).body options =
      line.text options ++ (ending.text ++ (Edition.mk hasMark lines last).body options) := by
  rw [body, List.flatMap_cons, List.append_assoc, List.append_assoc]
  rfl

theorem kept_cons (hasMark : Bool) (line : Line) (ending : Ending) (lines : List (Line × Ending))
    (last : Line) :
    (Edition.mk hasMark ((line, ending) :: lines) last).kept =
      line.field?.toList ++ (Edition.mk hasMark lines last).kept := by
  cases line <;> rfl

theorem kept_last (hasMark : Bool) (last : Line) :
    (Edition.mk hasMark [] last).kept = last.field?.toList := by
  cases last <;> rfl

/-- The statements of the entries of fields. -/
def said (options : Options) (fields : List Field) : List Statement :=
  fields.map fun field => .plain (field.entry options)

theorem Line.toList_said (line : Line) (options : Options) :
    (line.field?.map fun field => Statement.plain (field.entry options)).toList =
      said options line.field?.toList := by
  cases line <;> rfl

/-- Only the lines of fields say anything. -/
theorem writesStatements_body (edition : Edition) (options : Options) :
    Toml.WritesStatements Toml.Document.limits (edition.body options)
      (said options edition.kept) := by
  rcases edition with ⟨hasMark, lines, last⟩
  induction lines with
  | nil =>
      rw [kept_last, ← Line.toList_said]
      exact .last (last.writes options)
  | cons entry lines ih =>
      rcases entry with ⟨line, ending⟩
      rw [body_cons, kept_cons, said, List.map_append, ← said, ← Line.toList_said]
      exact .newline (line.writes options) ending.isNewline ih

theorem writesDocument_text (edition : Edition) (options : Options) :
    Toml.WritesDocument Toml.Document.limits (edition.text options).toList
      (said options edition.kept) := by
  rw [text, String.toList_ofList]
  split
  next => exact .marked (edition.writesStatements_body options)
  next => exact .plain (edition.writesStatements_body options)

theorem read?_text (edition : Edition) (options : Options) :
    Toml.Document.read? (edition.text options) =
      if edition.kept.Nodup then some (edition.kept.map (Field.entry options)) else none := by
  have names : Toml.Table.names (edition.kept.map (Field.entry options)) =
      edition.kept.map Field.name := List.map_map
  have distinct : (edition.kept.map Field.name).Nodup ↔ edition.kept.Nodup :=
    List.nodup_map_iff Field.name_injective
  have built := Toml.Table.ofStatements?_plain (edition.kept.map (Field.entry options))
  rw [List.map_map, names] at built
  rw [Toml.Document.read?_eq (edition.writesDocument_text options)]
  exact built.trans (if_congr distinct rfl rfl)

end Edition

/-! ## The options of an edited document -/

theorem tells_kept {α : Type} {Means : Toml.Value → α → Prop} {kept : List Field}
    {default given : α} (field : Field) (means : Means (field.value options) given) :
    Toml.Table.Tells (kept.map (Field.entry options)) field.name default Means
      (if field ∈ kept then given else default) := by
  split
  next present => exact .given (List.mem_map_of_mem present) means
  next dropped =>
      apply Toml.Table.Tells.missing
      intro value member
      obtain ⟨other, present, same⟩ := List.mem_map.mp member
      cases Field.name_injective (congrArg Prod.fst same)
      exact dropped present

theorem restrict_givenBy (options : Options) (kept : List Field) :
    (options.restrict kept).GivenBy (kept.map (Field.entry options)) where
  narrowing := tells_kept .narrowing
    ⟨options.narrowing.name, Narrowing.mem_variants_iff.mpr rfl, .inl rfl⟩
  hexTrimSpaces := tells_kept .hexTrimSpaces rfl
  hexPrefix := tells_kept .hexPrefix rfl

theorem restrict_of_complete {kept : List Field} (complete : ∀ field, field ∈ kept) :
    options.restrict kept = options := by
  rw [restrict, if_pos (complete _), if_pos (complete _), if_pos (complete _)]

theorem ofDocument_text (options : Options) {edition : Edition} (once : edition.kept.Nodup) :
    ofDocument (edition.text options) = .ok (options.restrict edition.kept) := by
  have read := edition.read?_text options
  rw [if_pos once] at read
  have distinct : (Toml.Table.names (edition.kept.map (Field.entry options))).Nodup := by
    rw [Toml.Table.names, List.map_map]
    exact (List.nodup_map_iff Field.name_injective).mpr once
  exact (ofDocumentBy_eq_ok_iff read distinct).mpr (restrict_givenBy options edition.kept)

theorem ofDocument_text_of_repeated (options : Options) {edition : Edition}
    (repeated : ¬ edition.kept.Nodup) :
    ofDocument (edition.text options) = .error .unreadable := by
  rw [ofDocument, ofDocumentBy, edition.read?_text options, if_neg repeated]
  rfl

theorem text_unchanged (options : Options) :
    Edition.unchanged.text options = options.toDocument := by
  apply String.toList_inj.mp
  simp [Edition.text, Edition.body, Edition.unchanged, toDocument, String.join, lines,
    Edition.Line.text, Edition.Ending.text, Field.line]

/-- A document of the options in which lines moved, were dropped or came between blank lines and
comments gives what is left of the options, and refuses a line that is there twice.  If nothing is
dropped, the options are all there and are written as before. -/
theorem edited_documents_give_options (options : Options) (edition : Edition) :
    Edition.unchanged.text options = options.toDocument ∧
      (edition.kept.Nodup →
        ofDocument (edition.text options) = .ok (options.restrict edition.kept)) ∧
      (¬ edition.kept.Nodup → ofDocument (edition.text options) = .error .unreadable) ∧
      (edition.kept.Nodup → (∀ field, field ∈ edition.kept) →
        ofDocument (edition.text options) = .ok options ∧
          (ofDocument (edition.text options)).map toDocument = .ok options.toDocument) := by
  refine ⟨text_unchanged options, ofDocument_text options, ofDocument_text_of_repeated options, ?_⟩
  intro once complete
  rw [ofDocument_text options once, restrict_of_complete complete]
  exact ⟨rfl, rfl⟩

/-- Two of three lines with a comment and blanks, all three in another order, and one line twice. -/
theorem edited_documents_give_options_shuffled :
    let options : Options := ⟨.permissive, false, false⟩
    ∃ shorter turned repeating : Edition,
      shorter.text options =
          "\ufeff# é\t#\r\nhex-prefix = false\n \t\r\nnarrowing = \"permissive\"" ∧
        shorter.kept = [.hexPrefix, .narrowing] ∧
        ofDocument (shorter.text options) = .ok { narrowing := .permissive, hexPrefix := false } ∧
        turned.kept = [.hexPrefix, .hexTrimSpaces, .narrowing] ∧
        ofDocument (turned.text options) = .ok options ∧
        repeating.kept = [.hexPrefix, .hexPrefix] ∧
        ofDocument (repeating.text options) = .error .unreadable := by
  intro options
  let remark : Edition.Line := .comment [' ', 'é', '\t', '#'] (by simp)
  let blanks : Edition.Line := .blank [' ', '\t'] (by simp)
  let shorter : Edition :=
    ⟨true, [(remark, .carriageReturn), (.entry .hexPrefix, .lineFeed), (blanks, .carriageReturn)],
      .entry .narrowing⟩
  let turned : Edition :=
    ⟨false, [(.entry .hexPrefix, .carriageReturn), (.entry .hexTrimSpaces, .lineFeed),
      (.entry .narrowing, .carriageReturn)], remark⟩
  let repeating : Edition := ⟨false, [(.entry .hexPrefix, .lineFeed)], .entry .hexPrefix⟩
  have once : shorter.kept.Nodup := by decide
  have turnedOnce : turned.kept.Nodup := by decide
  have complete (field : Field) : field ∈ turned.kept := by cases field <;> decide
  have twice : ¬ repeating.kept.Nodup := by decide
  exact ⟨shorter, turned, repeating, by decide, rfl,
    (edited_documents_give_options options shorter).2.1 once, rfl,
    ((edited_documents_give_options options turned).2.2.2 turnedOnce complete).1, rfl,
    (edited_documents_give_options options repeating).2.2.1 twice⟩

end ByteCursor.Options
