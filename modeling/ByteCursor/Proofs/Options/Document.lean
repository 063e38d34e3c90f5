import ByteCursor.Options.Document
import ByteCursor.Proofs.Toml.Document
import ByteCursor.Proofs.Toml.Table

/-!
# The options that a document gives

A document gives options by three entries of its root table, each of them apart from the others.
An entry that is missing leaves its default, and one whose value is no option refuses the whole
document.  Nothing else in the document matters: neither its other entries, which may hold the same
names, nor the order of the entries.

This holds for any reader of documents, so for one that holds more than `Document.read?` as well.
-/

namespace ByteCursor

namespace Toml

/-! ## How values are read into fields -/

/-- A table or an array without contents. -/
def Value.IsEmpty (value : Value) : Prop := (∃ origin, value = .table origin []) ∨ value = .array []

/-- The value selects a variant of an enumeration: it is the name of the variant, or a table with
this name alone, and nothing in the value of it. -/
def Value.Selects (value : Value) (variant : String) : Prop :=
  value = .string variant ∨
    ∃ origin content, value = .table origin [(variant, content)] ∧ content.IsEmpty

/-- The value is a mode. -/
def Value.IsMode (value : Value) (mode : Narrowing) : Prop :=
  ∃ variant, (variant, mode) ∈ [("strict", Narrowing.strict), ("permissive", .permissive)] ∧
    value.Selects variant

/-- The value is a switch. -/
def Value.IsSwitch (value : Value) (switch : Bool) : Prop := value = .boolean switch

variable {α : Type} {Means : Value → α → Prop} {table : Table} {name : String} {default result : α}

/-- An enumeration of variants without contents is read from what selects one of them. -/
structure ReadsVariants (read? : Value → Option α) (variants : List (String × α)) : Prop where
  /-- A variant that is selected is read. -/
  selected : ∀ {value variant result}, (variant, result) ∈ variants → value.Selects variant →
    read? value = some result
  /-- What selects no variant is refused. -/
  others : ∀ {value result}, read? value = some result →
    ∃ variant, (variant, result) ∈ variants ∧ value.Selects variant

/-- A field of a structure is read from the entry of its name and has a default. -/
structure ReadsField (read? : Table → Option α) (name : String) (default : α)
    (Means : Value → α → Prop) : Prop where
  /-- A missing entry leaves the default. -/
  missing : ∀ {table}, name ∉ table.names → read? table = some default
  /-- The value of the entry is the field or refuses the structure. -/
  given : ∀ {table value}, table.names.Nodup → (name, value) ∈ table → ∀ result,
    read? table = some result ↔ Means value result

/-- What the table tells under a name: the meaning of the value that stands there, or the default if
the name is missing. -/
inductive Table.Tells (table : Table) (name : String) (default : α) (Means : Value → α → Prop) :
    α → Prop where
  | missing (absent : ∀ value, (name, value) ∉ table) : Tells table name default Means default
  | given {value : Value} {result : α} (member : (name, value) ∈ table)
      (means : Means value result) : Tells table name default Means result

namespace Table

theorem readsField_read? {reader : Value → Option α}
    (reads : ∀ value result, reader value = some result ↔ Means value result) :
    ReadsField (fun table => table.read? name default reader) name default Means where
  missing := by
    intro table absent
    simp only [read?, lookup_eq_none_iff.mpr absent]
  given := by
    intro table value distinct member result
    simp only [read?, (lookup_eq_some_iff distinct).mpr member, reads]

/-- Where names are distinct, a field is what the table tells under its name. -/
theorem tells_iff {read? : Table → Option α} (field : ReadsField read? name default Means)
    (distinct : table.names.Nodup) :
    read? table = some result ↔ table.Tells name default Means result := by
  constructor
  · intro read
    by_cases present : name ∈ table.names
    · obtain ⟨⟨_, value⟩, member, rfl⟩ := List.mem_map.mp present
      exact .given member ((field.given distinct member result).mp read)
    · cases (field.missing present).symm.trans read
      exact .missing fun value member => present (mem_names_of_mem member)
  · intro tells
    cases tells with
    | given member means => exact (field.given distinct member result).mpr means
    | missing absent =>
        apply field.missing
        intro present
        obtain ⟨⟨_, value⟩, member, rfl⟩ := List.mem_map.mp present
        exact absent value member

theorem Tells.congr {other : Table} (tells : table.Tells name default Means result)
    (same : ∀ value, (name, value) ∈ table ↔ (name, value) ∈ other) :
    other.Tells name default Means result := by
  cases tells with
  | missing absent => exact .missing fun value member => absent value ((same value).mpr member)
  | given member means => exact .given ((same _).mp member) means

end Table

namespace Value

theorem boolean?_eq_some_iff {value : Value} {switch : Bool} :
    value.boolean? = some switch ↔ value.IsSwitch switch := by
  rw [IsSwitch]
  cases value with
  | boolean value => simp [boolean?]
  | _ => exact iff_of_false nofun nofun

theorem isEmptyContainer_iff {value : Value} : value.isEmptyContainer = true ↔ value.IsEmpty := by
  rw [IsEmpty]
  cases value with
  | table origin entries => simp [isEmptyContainer]
  | array elements => simp [isEmptyContainer]
  | _ => exact iff_of_false nofun (by simp)

end Value

end Toml

namespace Narrowing

theorem ofName?_eq_some_iff {text : String} {mode : Narrowing} :
    ofName? text = some mode ↔ text = mode.name := by
  constructor
  · intro named
    rw [ofName?] at named
    split at named
    next isStrict =>
        cases named
        exact isStrict
    next =>
        split at named
        next isPermissive =>
            cases named
            exact isPermissive
        next => cases named
  · rintro rfl
    exact ofName_name mode

theorem mem_variants_iff {text : String} {mode : Narrowing} :
    (text, mode) ∈ [("strict", strict), ("permissive", permissive)] ↔ text = mode.name := by
  cases mode <;> simp [name]

theorem readsVariants_ofValue? :
    Toml.ReadsVariants ofValue? [("strict", strict), ("permissive", permissive)] where
  selected := by
    intro value variant mode known selects
    obtain rfl := mem_variants_iff.mp known
    obtain rfl | ⟨origin, content, rfl, empty⟩ := selects
    · exact ofName_name mode
    · rw [ofValue?, if_pos (Toml.Value.isEmptyContainer_iff.mpr empty)]
      exact ofName_name mode
  others := by
    intro value mode read
    refine ⟨mode.name, mem_variants_iff.mpr rfl, ?_⟩
    rw [ofValue?.eq_def] at read
    split at read
    next text =>
        rw [ofName?_eq_some_iff.mp read]
        exact .inl rfl
    next origin text content =>
        split at read
        next empty =>
            rw [ofName?_eq_some_iff.mp read]
            exact .inr ⟨origin, content, rfl, Toml.Value.isEmptyContainer_iff.mp empty⟩
        next => cases read
    next => cases read

theorem ofValue?_eq_some_iff {value : Toml.Value} {mode : Narrowing} :
    ofValue? value = some mode ↔ value.IsMode mode := by
  constructor
  · exact fun read => readsVariants_ofValue?.others read
  · rintro ⟨variant, known, selects⟩
    exact readsVariants_ofValue?.selected known selects

end Narrowing

namespace Options

/-- The table gives the options, each by an entry of its own. -/
structure GivenBy (options : Options) (table : Toml.Table) : Prop where
  narrowing : table.Tells "narrowing" .strict Toml.Value.IsMode options.narrowing
  hexTrimSpaces : table.Tells "hex-trim-spaces" true Toml.Value.IsSwitch options.hexTrimSpaces
  hexPrefix : table.Tells "hex-prefix" true Toml.Value.IsSwitch options.hexPrefix

/-- The tables have the same entries under the names of options, wherever these stand. -/
def SameEntries (table other : Toml.Table) : Prop :=
  ∀ name ∈ ["narrowing", "hex-trim-spaces", "hex-prefix"], ∀ value,
    (name, value) ∈ table ↔ (name, value) ∈ other

variable {table : Toml.Table} {options : Options}

theorem SameEntries.symm {other : Toml.Table} (same : SameEntries table other) :
    SameEntries other table := fun name known value => (same name known value).symm

theorem read_narrowing_iff (distinct : table.names.Nodup) {mode : Narrowing} :
    table.read? narrowingName .strict Narrowing.ofValue? = some mode ↔
      table.Tells "narrowing" .strict Toml.Value.IsMode mode :=
  Toml.Table.tells_iff (Toml.Table.readsField_read? fun _ _ => Narrowing.ofValue?_eq_some_iff)
    distinct

theorem read_switch_iff (distinct : table.names.Nodup) {name : String} {switch : Bool} :
    table.read? name true Toml.Value.boolean? = some switch ↔
      table.Tells name true Toml.Value.IsSwitch switch :=
  Toml.Table.tells_iff (Toml.Table.readsField_read? fun _ _ => Toml.Value.boolean?_eq_some_iff)
    distinct

theorem ofTable?_eq_some_iff (distinct : table.names.Nodup) :
    ofTable? table = some options ↔ options.GivenBy table := by
  constructor
  · intro read
    obtain ⟨narrowing, readNarrowing, read⟩ := Option.bind_eq_some_iff.mp read
    obtain ⟨hexTrimSpaces, readSpaces, read⟩ := Option.bind_eq_some_iff.mp read
    obtain ⟨hexPrefix, readPrefix, made⟩ := Option.bind_eq_some_iff.mp read
    cases made
    exact ⟨(read_narrowing_iff distinct).mp readNarrowing,
      (read_switch_iff distinct).mp readSpaces, (read_switch_iff distinct).mp readPrefix⟩
  · intro given
    have readNarrowing := (read_narrowing_iff distinct).mpr given.narrowing
    have readSpaces := (read_switch_iff distinct).mpr given.hexTrimSpaces
    have readPrefix := (read_switch_iff distinct).mpr given.hexPrefix
    exact Option.bind_eq_some_iff.mpr ⟨_, readNarrowing, Option.bind_eq_some_iff.mpr ⟨_, readSpaces,
      Option.bind_eq_some_iff.mpr ⟨_, readPrefix, rfl⟩⟩⟩

section Reader

variable {read? : String → Option Toml.Table} {text : String}

/-- A document that is read gives what its table does. -/
theorem ofDocumentBy_eq (read : read? text = some table) :
    ofDocumentBy read? text = match ofTable? table with
      | some options => .ok options
      | none => .error .unreadable := by
  rw [ofDocumentBy, read]
  rfl

theorem ofDocumentBy_eq_ok_iff (read : read? text = some table) (distinct : table.names.Nodup) :
    ofDocumentBy read? text = .ok options ↔ options.GivenBy table := by
  rw [← ofTable?_eq_some_iff distinct, ofDocumentBy_eq read]
  cases ofTable? table with
  | none => exact iff_of_false nofun nofun
  | some given => rw [Except.ok.injEq, Option.some_inj]

end Reader

end Options

end ByteCursor
