import ByteCursor.Proofs.Session.Script

/-!
# Streams of records

A record is written behind a marker as fields between commas, and any octets may stand between
records as long as they do not look like the marker or go on a number.  The calls of this module
read one record; repeated once for each record they read a whole stream back.
-/

namespace ByteCursor

/-- What a record holds. -/
structure Record where
  id : UInt16
  flags : UInt32
  label : String
  level : Int8
  deriving DecidableEq, Repr

namespace Record

/-- The octets `+EVT:` before every record. -/
def marker : Bytes := [0x2b, 0x45, 0x56, 0x54, 0x3a]

/-- The comma between fields. -/
def comma : UInt8 := 0x2c

/-- The calls that read one record. -/
def calls : List Call :=
  [.skipPastPattern marker, .trimSpaces, .readDecimal .u16, .skipByte comma,
    .readHex .u32 .big, .skipByte comma, .readTextUntil comma, .readDecimal .i8]

/-- One way to write a record behind octets without a marker. -/
structure Line where
  record : Record
  /-- The octets before the marker. -/
  junk : Bytes
  /-- The number of spaces before the identifier. -/
  idSpaces : Nat
  /-- The number of spaces before the flags. -/
  flagSpaces : Nat
  /-- The flags are written behind a mark. -/
  isMarked : Bool
  /-- The digits of the flags. -/
  flagDigits : Bytes
  marker_absent : ¬ marker <:+: junk
  comma_absent : ',' ∉ record.label.toList
  flagDigits_mem : ∀ digit ∈ flagDigits, Hexadecimal.IsDigit digit
  flagDigits_length : 1 ≤ flagDigits.length ∧ flagDigits.length ≤ 8
  flagDigits_number : Hexadecimal.number flagDigits = record.flags.toNat

namespace Line

variable {rest : Bytes}

/-- The flags as they are written. -/
def flagNumeral (line : Line) : Hexadecimal.Numeral where
  spaces := List.replicate line.flagSpaces 0x20
  mark := if line.isMarked then Hexadecimal.mark else []
  digits := line.flagDigits

/-- The octets of a line. -/
def octets (line : Line) : Bytes :=
  line.junk ++ marker ++ List.replicate line.idSpaces 0x20 ++
    Bytes.ofString (toString line.record.id) ++ comma :: line.flagNumeral.octets ++
    comma :: Bytes.ofString line.record.label ++
    comma :: Bytes.ofString (toString line.record.level)

/-- The replies that tell the record of a line. -/
def replies (line : Line) : List Reply :=
  [.nothing, .count line.idSpaces, .integer line.record.id.toNat, .nothing,
    .integer line.record.flags.toNat, .nothing, .text line.record.label,
    .integer line.record.level.toInt]

/-! ## The fields -/

theorem startsApart_comma (text : Bytes) : Decimal.StartsApart (comma :: text) := by
  rw [Decimal.startsApart_cons]
  simp [Decimal.IsDigit, comma]

theorem holds_id (id : UInt16) : IntType.u16.Holds id.toNat := by
  have below := id.toNat_lt
  constructor
  · exact Int.natCast_nonneg _
  · change (id.toNat : Int) ≤ 65535
    omega

theorem holds_level (level : Int8) : IntType.i8.Holds level.toInt :=
  ⟨level.le_toInt, level.toInt_le⟩

theorem splitsOff_flagNumeral (line : Line) (text : Bytes) :
    line.flagNumeral.SplitsOff {} (line.flagNumeral.octets ++ comma :: text)
      (comma :: text) where
  text_eq := rfl
  spaces_mem := fun _ => List.eq_of_mem_replicate
  spaces_allowed := fun trims => by cases trims
  mark_mem := by
    cases marked : line.isMarked with
    | false => exact .inl (by simp [flagNumeral, marked])
    | true => exact .inr (by simp [flagNumeral, marked])
  mark_skipped := by
    intro _ _
    apply Hexadecimal.not_mark_isPrefix _ line.flagDigits_mem
    · simp [comma]
    · exact List.length_pos_iff.mp line.flagDigits_length.1
  digits_ne_nil := List.length_pos_iff.mp line.flagDigits_length.1
  digits_mem := line.flagDigits_mem
  digits_length := line.flagDigits_length.2
  digits_longest := by
    intro _ byte next
    cases next
    decide

/-- An identifier starts with a digit. -/
theorem exists_digit_id (id : UInt16) :
    ∃ digit digits, Bytes.ofString (toString id) = digit :: digits ∧ Decimal.IsDigit digit := by
  have shown : Bytes.ofString (toString id) = Decimal.digitsOf id.toNat :=
    Decimal.ofString_repr id.toNat
  rcases List.exists_cons_of_ne_nil (Decimal.digitsOf_ne_nil id.toNat) with
    ⟨digit, digits, same⟩
  refine ⟨digit, digits, shown.trans same, ?_⟩
  exact Decimal.isDigit_of_mem_digitsOf (same ▸ List.mem_cons_self)

/-! ## One record -/

/-- The calls read one line and stop right behind it. -/
theorem script (line : Line) (apart : Decimal.StartsApart rest) :
    Session.Script {} rest (calls.map .call) line.octets line.replies := by
  have same : line.octets =
      (line.junk ++ marker) ++ (List.replicate line.idSpaces 0x20 ++
        (Bytes.ofString (toString line.record.id) ++ ([comma] ++ (line.flagNumeral.octets ++
          ([comma] ++ ((Bytes.ofString line.record.label ++ [comma]) ++
            (Bytes.ofString (toString line.record.level) ++ []))))))) := by
    simp [octets]
  rw [same]
  refine .cons ?search (.cons ?spaces (.cons ?id (.cons ?comma (.cons ?flags (.cons ?again
    (.cons ?label (.cons ?level .nil)))))))
  case search => exact Step.reads_skipPastPattern (by decide) line.marker_absent
  case spaces =>
    rcases exists_digit_id line.record.id with ⟨digit, digits, shown, isDigit⟩
    apply Step.reads_trimSpaces
    · rw [shown]
      rfl
    · rintro rfl
      exact absurd isDigit (by simp [Decimal.IsDigit])
  case id => exact Step.reads_readDecimal_canonical (holds_id _) (startsApart_comma _)
  case comma => exact Step.reads_skipByte comma
  case flags =>
    rw [← line.flagDigits_number]
    exact Step.reads_readHex_word (line.splitsOff_flagNumeral _)
  case again => exact Step.reads_skipByte comma
  case label =>
    apply Step.reads_readTextUntil
    have commaEq : comma = Bytes.ofAscii ',' := by decide
    rw [commaEq, Bytes.ofAscii_mem_ofString_iff (by decide)]
    exact line.comma_absent
  case level => exact Step.reads_readDecimal_canonical (holds_level _) apart

/-- A line behind a number does not go on the number, if its junk does not. -/
theorem startsApart_octets (line : Line) (apart : Decimal.StartsApart line.junk) (text : Bytes) :
    Decimal.StartsApart (line.octets ++ text) := by
  intro byte next
  cases junkEq : line.junk with
  | nil =>
      simp only [octets, junkEq, marker, List.nil_append, List.cons_append, List.head?_cons]
        at next
      cases next
      simp [Decimal.IsDigit]
  | cons first others =>
      apply apart byte
      simp only [octets, junkEq, List.cons_append, List.head?_cons] at next ⊢
      exact next

end Line

/-! ## Streams -/

variable {lines : List Line} {tail : Bytes}

/-- The octets of lines that do not go on the numbers before them. -/
theorem startsApart_lines (apart : ∀ line ∈ lines, Decimal.StartsApart line.junk)
    (tailApart : Decimal.StartsApart tail) :
    Decimal.StartsApart (lines.flatMap Line.octets ++ tail) := by
  cases lines with
  | nil => exact tailApart
  | cons line rest =>
      rw [List.flatMap_cons, List.append_assoc]
      exact line.startsApart_octets (apart line List.mem_cons_self) _

/-- The calls for one record, once for each line, read all lines. -/
theorem script_lines (apart : ∀ line ∈ lines.tail, Decimal.StartsApart line.junk)
    (tailApart : Decimal.StartsApart tail) :
    Session.Script {} tail ((List.replicate lines.length calls).flatten.map .call)
      (lines.flatMap Line.octets) (lines.flatMap Line.replies) := by
  induction lines with
  | nil => exact .nil
  | cons line rest ih =>
      have restApart : ∀ line ∈ rest.tail, Decimal.StartsApart line.junk := fun line member =>
        apart line (List.mem_of_mem_tail member)
      rw [List.length_cons, List.replicate_succ, List.flatten_cons, List.map_append,
        List.flatMap_cons, List.flatMap_cons]
      exact (line.script (startsApart_lines apart tailApart)).append (ih restApart)

/-- A stream of written records is read back: no call fails, the replies tell the records in
their order, and the octets behind the last record are left.  One more search for a record fails
and does not move. -/
theorem streams_read_back {session : Session} (reachable : session.Reachable)
    (isDefault : session.cursor.options = {}) (lines : List Line) (tail : Bytes)
    (apart : ∀ line ∈ lines.tail, Decimal.StartsApart line.junk)
    (tailApart : Decimal.StartsApart tail) (tailAbsent : ¬ marker <:+: tail)
    (unread : session.cursor.remaining = lines.flatMap Line.octets ++ tail) :
    let outcome := session.run ((List.replicate lines.length calls).flatten.map .call)
    let search : Step := .call (.skipPastPattern marker)
    outcome.1.map Answer.result = (lines.flatMap Line.replies).map .ok ∧
      outcome.2.cursor.remaining = tail ∧
      (outcome.2.answer search).result =
        .error (.error (.parse "skip until substr" outcome.2.cursor.position)) ∧
      (outcome.2.after search).cursor = outcome.2.cursor := by
  intro outcome search
  rcases (script_lines apart tailApart).run reachable.valid isDefault unread with
    ⟨results, stopped⟩
  have left : outcome.2.cursor.remaining = tail := by
    rw [stopped, Cursor.remaining_pass, unread, List.drop_left]
  have absent : ¬ marker <:+: outcome.2.cursor.remaining := by
    rw [left]
    exact tailAbsent
  have laterValid : outcome.2.Valid := reachable.valid.run _
  exact ⟨results, left, Step.misses_skipPastPattern (by decide) laterValid absent⟩

/-- The text `+EVT: 7,0x1F,ok,-5`. -/
def Line.marked : Line where
  record := { id := 7, flags := 0x1f, label := "ok", level := -5 }
  junk := []
  idSpaces := 1
  flagSpaces := 0
  isMarked := true
  flagDigits := [0x31, 0x46]
  marker_absent := by decide
  comma_absent := by decide
  flagDigits_mem := by
    rw [List.forall_mem_cons, List.forall_mem_singleton]
    decide
  flagDigits_length := by decide
  flagDigits_number := by decide

/-- The text `;+EVT:42,1F,ok,-5`. -/
def Line.unmarked : Line :=
  { Line.marked with
    record := { Line.marked.record with id := 42 }
    junk := [0x3b]
    idSpaces := 0
    isMarked := false
    marker_absent := by decide }

/-- The text `+EVT: 7,0x1F,ok,-5;+EVT:42,1F,ok,-5` is read up to its line feed. -/
theorem streams_read_back_pair :
    let text : Bytes :=
      [0x2b, 0x45, 0x56, 0x54, 0x3a, 0x20, 0x37, 0x2c, 0x30, 0x78, 0x31, 0x46, 0x2c, 0x6f, 0x6b,
        0x2c, 0x2d, 0x35, 0x3b, 0x2b, 0x45, 0x56, 0x54, 0x3a, 0x34, 0x32, 0x2c, 0x31, 0x46, 0x2c,
        0x6f, 0x6b, 0x2c, 0x2d, 0x35, 0x0a]
    let session : Session := { cursor := { bytes := text, position := 0, options := {} } }
    let outcome := session.run ((List.replicate 2 calls).flatten.map .call)
    session.Reachable ∧
      outcome.1.map Answer.result =
        [.nothing, .count 1, .integer 7, .nothing, .integer 31, .nothing, .text "ok",
          .integer (-5), .nothing, .count 0, .integer 42, .nothing, .integer 31, .nothing,
          .text "ok", .integer (-5)].map .ok ∧
      outcome.2.cursor.remaining = [0x0a] := by
  intro text session outcome
  have reachable : session.Reachable := .ofText (by decide) (by decide) {}
  have unread : session.cursor.remaining =
      [Line.marked, Line.unmarked].flatMap Line.octets ++ [0x0a] := by
    simp only [List.flatMap_cons, List.flatMap_nil, Line.octets, Bytes.ofString_eq_flatMap]
    decide
  rcases streams_read_back reachable rfl [Line.marked, Line.unmarked] [0x0a]
    (by simp [Decimal.StartsApart, Decimal.IsDigit, Line.unmarked])
    (by simp [Decimal.StartsApart, Decimal.IsDigit]) (by decide) unread with
    ⟨results, left, -⟩
  exact ⟨reachable, results, left⟩

end Record

end ByteCursor
