import ByteCursor.Proofs.Toml.Datetime
import ByteCursor.Proofs.Toml.Key

/-!
# Keys and values of the grammar

The alternatives of a value are told apart by how it begins, a date from a number by what stands
behind its first digits, and a float from an integer by its places or its exponent.  Nested values
are read if the values in them are, so the proof follows the depth.
-/

namespace ByteCursor.Toml

variable {text rest digits : List Char}

/-- What `Document.read?` can hold. -/
def Document.limits : Limits where
  nesting := nestingLimit
  names := keyLimit
  Holds := fun number => number.isTooLarge = false

theorem EndsValue.no_hyphen_or_colon (ends : EndsValue rest) :
    rest.head? ∉ [some '-', some ':'] := by
  have noHyphen : rest.head? ≠ some '-' := ends.head?_ne (by decide)
  have noColon : rest.head? ≠ some ':' := ends.head?_ne (by decide)
  simp [noHyphen, noColon]

namespace Parser

/-! ## Numbers are no dates -/

theorem isUndated_of_stops (stops : Stops isDigit text) : IsUndated text := by
  intro nonempty
  cases text with
  | nil => exact absurd rfl nonempty
  | cons head tail =>
      rw [List.takeWhile_cons, stops head rfl] at nonempty
      exact absurd rfl nonempty

theorem isUndated_sign_append {sign : List Char} {isNegative : Bool}
    (hasSign : WritesSign sign isNegative) (undated : IsUndated rest) :
    IsUndated (sign ++ rest) := by
  cases hasSign with
  | nothing => exact undated
  | plus | minus => exact isUndated_of_stops (stops_cons rfl rest)

theorem isUndated_digits_append (writes : WritesDigits 10 text digits) (stops : Stops isDigit rest)
    (apart : rest.head? ∉ [some '-', some ':']) : IsUndated (text ++ rest) := by
  have behind : ((text ++ rest).dropWhile isDigit).head? ∈ [some '_', rest.head?] := by
    induction writes with
    | last digit =>
        rw [Bytes.dropWhile_append_of_boundary (by simpa using isDigit_iff.mpr digit) stops]
        simp
    | next digit _ ih =>
        rw [List.cons_append, List.dropWhile_cons, isDigit_iff.mpr digit]
        exact ih
    | underscore digit =>
        rw [List.cons_append, List.dropWhile_cons, isDigit_iff.mpr digit]
        exact List.mem_cons_self
  intro _
  simp only [List.mem_cons, List.not_mem_nil, or_false] at behind
  obtain same | same := behind
  · rw [same]
    decide
  · rwa [same]

theorem isUndated_integer_append {number : Int} (writes : WritesInteger text number)
    (ends : EndsValue rest) : IsUndated (text ++ rest) := by
  cases writes with
  | decimal hasSign writes =>
      have undated :=
        isUndated_digits_append writes.1 (ends.stops (by decide)) ends.no_hyphen_or_colon
      rw [List.append_assoc]
      exact isUndated_sign_append hasSign undated
  | based announced =>
      simp only [List.mem_cons, Prod.mk.injEq, List.not_mem_nil, or_false] at announced
      obtain ⟨rfl, -⟩ | ⟨rfl, -⟩ | ⟨rfl, -⟩ := announced <;> simp [IsUndated, isDigit]

theorem isUndated_float_append {number : FloatNumber} (writes : WritesFloat text number)
    (ends : EndsValue rest) : IsUndated (text ++ rest) := by
  cases writes with
  | @decimal sign whole places power _ _ _ _ hasSign hasWhole hasPlaces hasPower =>
      have behind : Stops isDigit (places ++ (power ++ rest)) ∧
          (places ++ (power ++ rest)).head? ∉ [some '-', some ':'] := by
        cases hasPlaces with
        | places => exact ⟨stops_cons rfl _, by simp⟩
        | nothing =>
            cases hasPower with
            | nothing => exact ⟨ends.stops (by decide), ends.no_hyphen_or_colon⟩
            | power isMark => obtain rfl | rfl := isMark <;> exact ⟨stops_cons rfl _, by simp⟩
      simp only [List.append_assoc]
      exact isUndated_sign_append hasSign (isUndated_digits_append hasWhole.1 behind.1 behind.2)
  | infinite hasSign | undefined hasSign =>
      rw [List.append_assoc]
      exact isUndated_sign_append hasSign (isUndated_of_stops (stops_cons rfl _))

/-! ## Scalars -/

/-- A text that begins as a number or a date does. -/
def StartsNumber (text : List Char) : Prop :=
  ∃ first tail, text = first :: tail ∧ (IsDigitOf 10 first ∨ first ∈ ['+', '-', 'i', 'n'])

theorem StartsNumber.head?_ne (starts : StartsNumber text) {other : Char}
    (noDigit : isDigit other = false) (apart : other ∉ ['+', '-', 'i', 'n']) (rest : List Char) :
    (text ++ rest).head? ≠ some other := by
  obtain ⟨first, tail, rfl, isStart⟩ := starts
  rintro ⟨⟩
  obtain digit | member := isStart
  · exact absurd (isDigit_iff.mpr digit) (by simp [noDigit])
  · exact apart member

theorem startsNumber_sign_append {sign : List Char} {isNegative : Bool}
    (hasSign : WritesSign sign isNegative) (starts : StartsNumber text) :
    StartsNumber (sign ++ text) := by
  cases hasSign with
  | nothing => exact starts
  | plus | minus => exact ⟨_, _, rfl, .inr (by decide)⟩

theorem startsNumber_digits (writes : WritesDigits 10 text digits) (rest : List Char) :
    StartsNumber (text ++ rest) := by
  obtain ⟨first, tail, rfl, isDigit⟩ := writes.exists_head
  exact ⟨first, _, rfl, .inl isDigit⟩

theorem startsNumber_fixed {count number : Nat} (writes : WritesFixed count text number)
    (positive : count ≠ 0) (rest : List Char) : StartsNumber (text ++ rest) := by
  have nonempty : text ≠ [] := by
    rintro rfl
    exact positive writes.length.symm
  obtain ⟨first, tail, rfl⟩ := List.exists_cons_of_ne_nil nonempty
  exact ⟨first, _, rfl, .inl (writes.decimal first List.mem_cons_self)⟩

theorem startsNumber_integer {number : Int} (writes : WritesInteger text number) :
    StartsNumber text := by
  cases writes with
  | decimal hasSign writes =>
      have starts := startsNumber_digits writes.1 []
      rw [List.append_nil] at starts
      exact startsNumber_sign_append hasSign starts
  | based => exact ⟨_, _, rfl, .inl ⟨0, rfl, by decide⟩⟩

theorem startsNumber_float {number : FloatNumber} (writes : WritesFloat text number) :
    StartsNumber text := by
  cases writes with
  | decimal hasSign hasWhole =>
      exact startsNumber_sign_append hasSign (startsNumber_digits hasWhole.1 _)
  | infinite hasSign | undefined hasSign =>
      exact startsNumber_sign_append hasSign ⟨_, _, rfl, .inr (by decide)⟩

theorem startsNumber_datetime {moment : Datetime} (writes : WritesDatetime text moment) :
    StartsNumber text := by
  cases writes with
  | date writes =>
      obtain ⟨hasYear, -, -, -, -⟩ := writes
      exact startsNumber_fixed hasYear (by decide) _
  | time writes =>
      obtain ⟨hasHour, -, -, -, -⟩ := writes
      exact startsNumber_fixed hasHour (by decide) _
  | both hasDate =>
      obtain ⟨hasYear, -, -, -, -⟩ := hasDate
      rw [List.append_assoc]
      exact startsNumber_fixed hasYear (by decide) _

theorem string_of_head? (noBasic : text.head? ≠ some '"') (noLiteral : text.head? ≠ some '\'') :
    string text = none := by
  have noBasicBlock : multiLineBasicString text = none :=
    bind_of_none (bind_of_none (char_of_head?_ne noBasic))
  have noLiteralBlock : multiLineLiteralString text = none :=
    bind_of_none (bind_of_none (char_of_head?_ne noLiteral))
  have noBasicString : basicString text = none :=
    seqLeft_of_none (seqRight_of_none (char_of_head?_ne noBasic))
  have noLiteralString : literalString text = none :=
    seqLeft_of_none (seqRight_of_none (char_of_head?_ne noLiteral))
  exact bind_of_none <| (orElse_of_none noBasicBlock).trans <|
    (orElse_of_none noLiteralBlock).trans <| (orElse_of_none noBasicString).trans noLiteralString

theorem boolean_of_head? (noTrue : text.head? ≠ some 't') (noFalse : text.head? ≠ some 'f') :
    boolean text = none :=
  (orElse_of_none (bind_of_none (bind_of_none (char_of_head?_ne noTrue)))).trans
    (bind_of_none (bind_of_none (char_of_head?_ne noFalse)))

/-- What begins as a number is neither a string nor a truth value. -/
theorem scalar_of_startsNumber (starts : StartsNumber text) (rest : List Char) :
    scalar (text ++ rest) =
      ((.datetime <$> datetime) <|> (.float <$> float) <|> (.integer <$> integer) : Parser Value)
        (text ++ rest) := by
  have noString := string_of_head? (starts.head?_ne rfl (by decide) rest)
    (starts.head?_ne rfl (by decide) rest)
  have noBoolean := boolean_of_head? (starts.head?_ne rfl (by decide) rest)
    (starts.head?_ne rfl (by decide) rest)
  rw [scalar, orElse_of_none (map_of_none noString), orElse_of_none (map_of_none noBoolean)]

theorem scalar_append {value : Value} (writes : WritesScalar Document.limits text value)
    (ends : EndsValue rest) : scalar (text ++ rest) = some (value, rest) := by
  cases writes with
  | string writes =>
      have apart : EndsString rest := by
        have noBasic : rest.head? ≠ some '"' := ends.head?_ne (by decide)
        have noLiteral : rest.head? ≠ some '\'' := ends.head?_ne (by decide)
        simp [EndsString, noBasic, noLiteral]
      exact orElse_of_some (map_of_some (string_append writes apart))
  | boolean switch => cases switch <;> rfl
  | datetime writes =>
      rw [scalar_of_startsNumber (startsNumber_datetime writes)]
      exact orElse_of_some (map_of_some (datetime_append writes ends))
  | float writes holds =>
      have noDate := datetime_of_isUndated (isUndated_float_append writes ends)
      rw [scalar_of_startsNumber (startsNumber_float writes), orElse_of_none (map_of_none noDate)]
      exact orElse_of_some (map_of_some (float_append writes holds ends))
  | integer writes =>
      have noDate := datetime_of_isUndated (isUndated_integer_append writes ends)
      have noFloat := float_of_integer writes ends
      rw [scalar_of_startsNumber (startsNumber_integer writes), orElse_of_none (map_of_none noDate),
        orElse_of_none (map_of_none noFloat)]
      exact map_of_some (integer_append writes ends)

end Parser

/-! ## What stands around nested values -/

/-- The text begins with neither a blank, the end of a line nor a comment. -/
def StartsValue (text : List Char) : Prop :=
  ∃ first tail, text = first :: tail ∧ first ∉ [' ', '\t', '\n', '\r', '#']

theorem StartsValue.endsGap (starts : StartsValue text) (rest : List Char) :
    Parser.EndsGap (text ++ rest) := by
  obtain ⟨first, tail, rfl, apart⟩ := starts
  simpa [Parser.EndsGap] using apart

theorem StartsValue.stops_isBlank (starts : StartsValue text) (rest : List Char) :
    Parser.Stops isBlank (text ++ rest) := by
  have apart := starts.endsGap rest
  exact Parser.stops_isBlank (head?_ne_of_not_mem apart (by simp))
    (head?_ne_of_not_mem apart (by simp))

theorem StartsValue.ne_nil (starts : StartsValue text) : text ≠ [] := by
  obtain ⟨first, tail, rfl, -⟩ := starts
  exact List.cons_ne_nil first tail

theorem isBlank_of_mem_valueEnds {last : Char} (isEnd : last ∈ valueEnds) :
    isBlank last = false := by
  have noBlank : ∀ last ∈ valueEnds, isBlank last = false := List.all_iff_forall_prop.mp rfl
  exact noBlank last isEnd

theorem EndsValue.of_mem {last : Char} (isEnd : last ∈ valueEnds) (rest : List Char) :
    EndsValue (last :: rest) := by
  intro next found
  rw [List.dropWhile_cons, isBlank_of_mem_valueEnds isEnd] at found
  cases found
  exact isEnd

theorem EndsValue.blanks_append {blanks : List Char} (areBlanks : IsBlanks blanks)
    (ends : EndsValue rest) : EndsValue (blanks ++ rest) := by
  rw [EndsValue, List.dropWhile_append_of_pos areBlanks.all_isBlank]
  exact ends

theorem EndsValue.gap_append {gap : List Char} (isGap : IsGap gap) (ends : EndsValue rest) :
    EndsValue (gap ++ rest) := by
  induction isGap with
  | nil => exact ends
  | blank isBlank _ ih =>
      rw [EndsValue, List.cons_append, List.dropWhile_cons, isBlank_iff.mpr isBlank]
      exact ih
  | line isRemark isNewline =>
      cases isRemark with
      | comment => exact .of_mem (by decide) _
      | nothing => cases isNewline <;> exact .of_mem (by decide) _

theorem IsGap.append {gap more : List Char} (isGap : IsGap gap) (later : IsGap more) :
    IsGap (gap ++ more) := by
  induction isGap with
  | nil => exact later
  | blank isBlank _ ih => exact .blank isBlank ih
  | line isRemark isNewline _ ih =>
      rw [List.append_assoc, List.append_assoc]
      exact .line isRemark isNewline ih

namespace Parser

/-! ## Nested values -/

/-- The parser reads the values that the texts write. -/
structure ReadsValues (parser : Parser Value) (Inner : List Char → Value → Prop) : Prop where
  reads : ∀ {text given}, Inner text given → ∀ {rest}, EndsValue rest →
    parser (text ++ rest) = some (given, rest)
  starts : ∀ {text given}, Inner text given → StartsValue text
  refuses : ∀ rest, parser (']' :: rest) = none

theorem blanks_brace (rest : List Char) :
    blanks ('\x7d' :: rest) = some ((), '\x7d' :: rest) :=
  blanks_append (show IsBlanks [] from nofun) (stops_cons (by decide) rest)

theorem inlineTableOf_blanks (value : Parser Value) {space : List Char} (areBlanks : IsBlanks space)
    (rest : List Char) :
    inlineTableOf value ('\x7b' :: (space ++ '\x7d' :: rest)) = some (.table .closed [], rest) := by
  have front := blanks_append areBlanks (stops_cons (show isBlank '\x7d' = false by decide) rest)
  have noKey : key ('\x7d' :: rest) = none := rfl
  have noEntry : (blanks *> entryOf value <* blanks) (space ++ '\x7d' :: rest) = none :=
    seqLeft_of_none ((seqRight_of_some front).trans (bind_of_none noKey))
  have inside : sepBy (blanks *> entryOf value <* blanks) (char ',') (space ++ '\x7d' :: rest) =
      some ([], space ++ '\x7d' :: rest) :=
    (orElse_of_none (bind_of_none noEntry)).trans rfl
  rw [inlineTableOf, bind_of_some (char_cons '\x7b' _), bind_of_some inside, bind_of_some front,
    bind_of_some (char_cons '\x7d' rest)]
  rfl

section Nested

variable {value : Parser Value} {Inner : List Char → Value → Prop}
  (values : ReadsValues value Inner)

include values

/-- The gap before the closing bracket is taken by the last element or left to the bracket. -/
theorem repeats_elements {elements : List Value} (writes : WritesElements Inner text elements)
    {space : List Char} (isGap : IsGap space) (rest : List Char) :
    ∃ left, IsGap left ∧ RepeatsApart (gap *> value <* gap) (char ',')
      (text ++ (space ++ ']' :: rest)) elements (left ++ ']' :: rest) := by
  have bracket : EndsGap (']' :: rest) := by simp [EndsGap]
  induction writes with
  | nil =>
      have refuses : (gap *> value <* gap) (space ++ ']' :: rest) = none :=
        seqLeft_of_none ((seqRight_of_some (gap_append isGap bracket)).trans (values.refuses rest))
      exact ⟨space, isGap, .done refuses⟩
  | @last before text behind given gapBefore inner gapBehind =>
      have starts := values.starts inner
      have isEnd : EndsValue (']' :: rest) := .of_mem (by decide) rest
      have front := gap_append gapBefore (starts.endsGap (behind ++ (space ++ ']' :: rest)))
      have read := values.reads inner ((isEnd.gap_append isGap).gap_append gapBehind)
      have back := gap_append (gapBehind.append isGap) bracket
      rw [List.append_assoc] at back
      have positive := List.length_pos_iff.mpr starts.ne_nil
      simp only [List.append_assoc]
      exact ⟨[], .nil, .last (seqLeft_of_some ((seqRight_of_some front).trans read) back)
        (by simp; omega) rfl⟩
  | @comma before text behind more given elements gapBefore inner gapBehind _ ih =>
      obtain ⟨left, isLeft, later⟩ := ih
      have starts := values.starts inner
      have comma : EndsGap (',' :: (more ++ (space ++ ']' :: rest))) := by simp [EndsGap]
      have isEnd : EndsValue (',' :: (more ++ (space ++ ']' :: rest))) := .of_mem (by decide) _
      have front := gap_append gapBefore (starts.endsGap
        (behind ++ ',' :: (more ++ (space ++ ']' :: rest))))
      have read := values.reads inner (isEnd.gap_append gapBehind)
      have back := gap_append gapBehind comma
      simp only [List.append_assoc, List.cons_append]
      exact ⟨left, isLeft, .step (seqLeft_of_some ((seqRight_of_some front).trans read) back)
        (by simp; omega) (char_cons ',' _) later⟩

theorem arrayOf_append {elements : List Value} (writes : WritesElements Inner text elements)
    {space : List Char} (isGap : IsGap space) (rest : List Char) :
    arrayOf value ('[' :: (text ++ (space ++ ']' :: rest))) = some (.array elements, rest) := by
  obtain ⟨left, isLeft, repeats⟩ := repeats_elements values writes isGap rest
  have bracket : EndsGap (']' :: rest) := by simp [EndsGap]
  rw [arrayOf, bind_of_some (char_cons '[' _), bind_of_some repeats.sepEndBy_eq,
    bind_of_some (gap_append isLeft bracket), bind_of_some (char_cons ']' rest)]
  rfl

variable {limits : Limits} (short : limits.names ≤ keyLimit)

include short

theorem entryOf_append {given : Entry} (writes : WritesEntry limits Inner text given)
    (ends : EndsValue rest) : entryOf value (text ++ rest) = some (given, rest) := by
  cases writes with
  | @mk label before behind text given hasKey blanksBefore blanksBehind inner =>
      have read (tail : List Char) : key (label ++ (before ++ '=' :: tail)) =
          some (given.key, '=' :: tail) := by
        have ends : EndsKey ('=' :: tail) := List.mem_cons_self
        have noBlanks : IsBlanks [] := nofun
        have found := key_append hasKey short noBlanks blanksBefore ends
        rwa [List.nil_append] at found
      have gap := blanks_append blanksBehind ((values.starts inner).stops_isBlank rest)
      simp only [List.append_assoc, List.cons_append]
      rw [entryOf, bind_of_some (read _), bind_of_some (char_cons '=' _), bind_of_some gap,
        bind_of_some (values.reads inner ends)]
      rfl

theorem spacedEntry_append {before behind : List Char} {given : Entry} {last : Char}
    (blanksBefore : IsBlanks before) (writes : WritesEntry limits Inner text given)
    (blanksBehind : IsBlanks behind) (isEnd : last ∈ valueEnds) (rest : List Char) :
    (blanks *> entryOf value <* blanks) (before ++ (text ++ (behind ++ last :: rest))) =
      some (given, last :: rest) := by
  have ends := (EndsValue.of_mem isEnd rest).blanks_append blanksBehind
  have starts := writes.startsName.append (behind ++ last :: rest)
  have front := blanks_append blanksBefore starts.stops_isBlank
  have read := entryOf_append values short writes ends
  have back := blanks_append blanksBehind (stops_cons (isBlank_of_mem_valueEnds isEnd) rest)
  exact seqLeft_of_some ((seqRight_of_some front).trans read) back

theorem repeats_entries {entries : List Entry} (writes : WritesEntries limits Inner text entries)
    (rest : List Char) :
    ∃ first others middle, entries = first :: others ∧
      (blanks *> entryOf value <* blanks) (text ++ '\x7d' :: rest) = some (first, middle) ∧
      middle.length ≤ (text ++ '\x7d' :: rest).length ∧
      Repeats (char ',' *> (blanks *> entryOf value <* blanks)) middle others ('\x7d' :: rest) := by
  have noComma : char ',' ('\x7d' :: rest) = none := rfl
  have brace : '\x7d' ∈ valueEnds := by decide
  have comma : ',' ∈ valueEnds := by decide
  induction writes with
  | last blanksBefore hasEntry blanksBehind =>
      have read := spacedEntry_append values short blanksBefore hasEntry blanksBehind brace rest
      simp only [List.append_assoc]
      exact ⟨_, [], _, rfl, read, by simp; omega, .done (seqRight_of_none noComma)⟩
  | comma blanksBefore hasEntry blanksBehind _ ih =>
      obtain ⟨first, others, middle, rfl, later, shorter, repeats⟩ := ih
      have read := spacedEntry_append values short blanksBefore hasEntry blanksBehind comma
      simp only [List.append_assoc, List.cons_append]
      exact ⟨_, first :: others, _, rfl, read _, by simp; omega,
        .step ((seqRight_of_some (char_cons ',' _)).trans later) (Nat.lt_succ_of_le shorter)
          repeats⟩

theorem inlineTableOf_append {entries : List Entry} {table : Table}
    (writes : WritesEntries limits Inner text entries)
    (builds : Table.ofEntries? entries = some table) (rest : List Char) :
    inlineTableOf value ('\x7b' :: (text ++ '\x7d' :: rest)) =
      some (.table .closed table, rest) := by
  obtain ⟨first, others, middle, rfl, read, -, repeats⟩ := repeats_entries values short writes rest
  have inside : sepBy (blanks *> entryOf value <* blanks) (char ',') (text ++ '\x7d' :: rest) =
      some (first :: others, '\x7d' :: rest) :=
    orElse_of_some (sepBySome_of_repeats read repeats)
  rw [inlineTableOf, bind_of_some (char_cons '\x7b' _), bind_of_some inside,
    bind_of_some (blanks_brace rest), bind_of_some (char_cons '\x7d' rest), builds]
  rfl

end Nested

/-! ## Values of any depth -/

theorem scalar_of_bracket {bracket : Char} (isBracket : bracket ∈ [']', '[', '\x7b'])
    (rest : List Char) : scalar (bracket :: rest) = none := by
  have others : ∀ bracket ∈ [']', '[', '\x7b'], isDigit bracket = false ∧
      bracket ∉ ['"', '\'', 't', 'f'] := List.all_iff_forall_prop.mp rfl
  obtain ⟨noDigit, apart⟩ := others bracket isBracket
  simp only [List.mem_cons, List.not_mem_nil, or_false, not_or] at apart
  have noString : string (bracket :: rest) = none :=
    string_of_head? (by simp [apart]) (by simp [apart])
  have noBoolean : boolean (bracket :: rest) = none :=
    boolean_of_head? (by simp [apart]) (by simp [apart])
  have noDate := datetime_of_isUndated (isUndated_of_stops (stops_cons noDigit rest))
  have noNumber : float (bracket :: rest) = none ∧ integer (bracket :: rest) = none := by
    simp only [List.mem_cons, List.not_mem_nil, or_false] at isBracket
    obtain rfl | rfl | rfl := isBracket <;> exact ⟨rfl, rfl⟩
  rw [scalar, orElse_of_none (map_of_none noString), orElse_of_none (map_of_none noBoolean),
    orElse_of_none (map_of_none noDate), orElse_of_none (map_of_none noNumber.1)]
  exact map_of_none noNumber.2

theorem StartsNumber.startsValue (starts : StartsNumber text) : StartsValue text := by
  have apart : ∀ other ∈ [' ', '\t', '\n', '\r', '#'],
      isDigit other = false ∧ other ∉ ['+', '-', 'i', 'n'] := List.all_iff_forall_prop.mp rfl
  obtain ⟨first, tail, rfl, isStart⟩ := starts
  refine ⟨first, tail, rfl, fun member => ?_⟩
  obtain ⟨noDigit, noSign⟩ := apart first member
  obtain digit | sign := isStart
  · exact Bool.noConfusion (noDigit.symm.trans (isDigit_iff.mpr digit))
  · exact noSign sign

theorem startsValue_scalar {limits : Limits} {given : Value}
    (writes : WritesScalar limits text given) : StartsValue text := by
  cases writes with
  | string writes =>
      cases writes with
      | basic basic | literal basic =>
          obtain ⟨-⟩ := basic
          exact ⟨_, _, rfl, by decide⟩
      | basicBlock block | literalBlock block => cases block <;> exact ⟨_, _, rfl, by decide⟩
  | boolean switch => cases switch <;> exact ⟨_, _, rfl, by decide⟩
  | datetime writes => exact (startsNumber_datetime writes).startsValue
  | float writes => exact (startsNumber_float writes).startsValue
  | integer writes => exact (startsNumber_integer writes).startsValue

/-- The values of each depth are read, those in brackets and braces as the ones of a lesser depth
are. -/
theorem readsValues (depth : Nat) :
    ReadsValues (value depth) (WritesValue Document.limits depth) := by
  induction depth with
  | zero =>
      exact ⟨fun writes _ ends => scalar_append writes ends, startsValue_scalar,
        scalar_of_bracket List.mem_cons_self⟩
  | succ depth ih =>
      refine ⟨?reads, ?starts, ?refuses⟩
      case reads =>
        intro text given writes rest ends
        have noScalar (tail : List Char) : scalar ('\x7b' :: tail) = none :=
          scalar_of_bracket (by decide) tail
        have noArray (tail : List Char) : arrayOf (value depth) ('\x7b' :: tail) = none := rfl
        cases writes with
        | scalar writes => exact orElse_of_some (scalar_append writes ends)
        | array elements isGap =>
            have noScalar (tail : List Char) : scalar ('[' :: tail) = none :=
              scalar_of_bracket (by decide) tail
            simp only [List.cons_append, List.append_assoc, List.nil_append]
            exact (orElse_of_none (noScalar _)).trans
              (orElse_of_some (arrayOf_append ih elements isGap rest))
        | emptyTable areBlanks =>
            simp only [List.cons_append, List.append_assoc, List.nil_append]
            exact (orElse_of_none (noScalar _)).trans <| (orElse_of_none (noArray _)).trans
              (inlineTableOf_blanks (value depth) areBlanks rest)
        | table entries builds =>
            simp only [List.cons_append, List.append_assoc, List.nil_append]
            exact (orElse_of_none (noScalar _)).trans <| (orElse_of_none (noArray _)).trans
              (inlineTableOf_append ih (Nat.le_refl _) entries builds rest)
      case starts =>
        intro text given writes
        cases writes with
        | scalar writes => exact startsValue_scalar writes
        | array | emptyTable | table => exact ⟨_, _, rfl, by decide⟩
      case refuses =>
        intro rest
        exact (orElse_of_none (scalar_of_bracket List.mem_cons_self rest)).trans rfl

end Parser

end ByteCursor.Toml
