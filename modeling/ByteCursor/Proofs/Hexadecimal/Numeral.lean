import ByteCursor.Options
import ByteCursor.Proofs.Hexadecimal.Digits
import ByteCursor.Proofs.Search

/-!
# Hexadecimal numerals at the start of a text

A numeral is a run of spaces, a mark and up to eight digits.  The options decide whether spaces
and a mark are looked for; a mark is skipped once, and a zero that no `x` follows is a digit.
-/

namespace ByteCursor.Hexadecimal

/-- A hexadecimal number in a text, in its parts. -/
structure Numeral where
  spaces : Bytes
  mark : Bytes
  digits : Bytes

/-- The spaces that are skipped. -/
def spacesOf (options : Options) (text : Bytes) : Bytes :=
  if options.hexTrimSpaces then text.takeWhile Bytes.isSpace else []

/-- The mark that is skipped. -/
def markOf (options : Options) (text : Bytes) : Bytes :=
  if options.hexPrefix = true ∧ mark <+: text then mark else []

/-- The digits that are read. -/
def digitsOf (text : Bytes) : Bytes := (text.takeWhile Bytes.isHexDigit).take maxDigits

namespace Numeral

/-- The octets of the parts in their order. -/
def octets (numeral : Numeral) : Bytes := numeral.spaces ++ numeral.mark ++ numeral.digits

/-- What the scanner splits off a text from left to right. -/
def ofText (options : Options) (text : Bytes) : Numeral :=
  let unspaced := text.drop (spacesOf options text).length
  { spaces := spacesOf options text
    mark := markOf options unspaced
    digits := digitsOf (unspaced.drop (markOf options unspaced).length) }

end Numeral

theorem spacesOf_isPrefix (options : Options) (text : Bytes) : spacesOf options text <+: text := by
  rw [spacesOf]
  split
  next => exact List.takeWhile_prefix Bytes.isSpace
  next => exact List.nil_prefix

theorem markOf_isPrefix (options : Options) (text : Bytes) : markOf options text <+: text := by
  rw [markOf]
  split
  next skipped => exact skipped.2
  next => exact List.nil_prefix

theorem digitsOf_isPrefix (text : Bytes) : digitsOf text <+: text :=
  (List.take_prefix _ _).trans (List.takeWhile_prefix Bytes.isHexDigit)

theorem isDigit_of_mem_digitsOf {digit : UInt8} {text : Bytes} (member : digit ∈ digitsOf text) :
    IsDigit digit :=
  isHexDigit_iff.mp (Bytes.mem_takeWhile (List.mem_of_mem_take member))

theorem length_digitsOf_le (text : Bytes) : (digitsOf text).length ≤ maxDigits :=
  List.length_take_le _ _

/-- The digits make the word of their number. -/
theorem toNat_word_digitsOf (text : Bytes) :
    (word (digitsOf text)).toNat = number (digitsOf text) :=
  toNat_word (fun _ => isDigit_of_mem_digitsOf) (length_digitsOf_le text)

/-- What is split off is the start of the text. -/
theorem Numeral.octets_ofText_isPrefix (options : Options) (text : Bytes) :
    (ofText options text).octets <+: text := by
  have spaces := spacesOf_isPrefix options text
  have marked := Bytes.append_isPrefix spaces (markOf_isPrefix options _)
  apply Bytes.append_isPrefix marked
  change digitsOf _ <+: _
  rw [List.length_append, ← List.drop_drop]
  exact digitsOf_isPrefix _

/-- The letter of a mark is no digit, so digits do not start with a mark. -/
theorem not_mark_isPrefix {digits rest : Bytes} (nonempty : digits ≠ [])
    (isDigits : ∀ digit ∈ digits, IsDigit digit) (next : rest.head? ≠ some 0x78) :
    ¬ mark <+: digits ++ rest := by
  rintro ⟨more, same⟩
  cases digits with
  | nil => exact nonempty rfl
  | cons first others =>
      cases others with
      | nil =>
          cases same
          exact next rfl
      | cons second others =>
          cases same
          exact absurd (isDigits 0x78 (by simp)) (by decide)

/-- Two digits are no mark, whatever follows them. -/
theorem not_mark_isPrefix_of_two_le {digits rest : Bytes} (two : 2 ≤ digits.length)
    (isDigits : ∀ digit ∈ digits, IsDigit digit) : ¬ mark <+: digits ++ rest := by
  intro starts
  have inside : mark <+: digits :=
    List.prefix_of_prefix_length_le starts (List.prefix_append digits rest) two
  have letter : IsDigit 0x78 := isDigits 0x78 (inside.subset (by decide))
  exact absurd letter (by decide)

namespace Numeral

/-- The numeral stands at the start of the text, before the rest.  Its lead is one that the
options allow, and its digits are the longest run of up to eight. -/
structure SplitsOff (numeral : Numeral) (options : Options) (text rest : Bytes) : Prop where
  text_eq : text = numeral.octets ++ rest
  spaces_mem : ∀ byte ∈ numeral.spaces, byte = 0x20
  spaces_allowed : options.hexTrimSpaces = false → numeral.spaces = []
  mark_mem : numeral.mark = [] ∨ (options.hexPrefix = true ∧ numeral.mark = Hexadecimal.mark)
  /-- A mark in front of digits is not left out. -/
  mark_skipped : numeral.mark = [] → options.hexPrefix = true →
    ¬ Hexadecimal.mark <+: numeral.digits ++ rest
  digits_ne_nil : numeral.digits ≠ []
  digits_mem : ∀ digit ∈ numeral.digits, IsDigit digit
  digits_length : numeral.digits.length ≤ maxDigits
  digits_longest : numeral.digits.length < maxDigits → ∀ byte, rest.head? = some byte →
    ¬ IsDigit byte

variable {numeral : Numeral} {options : Options} {text rest : Bytes}

theorem SplitsOff.isSpace_head? (splits : numeral.SplitsOff options text rest) {byte : UInt8}
    (next : (numeral.mark ++ (numeral.digits ++ rest)).head? = some byte) :
    Bytes.isSpace byte = false := by
  rcases splits.mark_mem with unmarked | ⟨-, marked⟩
  · cases digitsEq : numeral.digits with
    | nil => exact absurd digitsEq splits.digits_ne_nil
    | cons digit digits =>
        rw [unmarked, digitsEq] at next
        cases next
        have isDigit : IsDigit byte := splits.digits_mem byte (by simp [digitsEq])
        rw [Bytes.isSpace, beq_eq_false_iff_ne]
        rintro rfl
        exact absurd isDigit (by decide)
  · rw [marked] at next
    cases next
    rfl

theorem SplitsOff.spacesOf_eq (splits : numeral.SplitsOff options text rest) :
    spacesOf options (numeral.spaces ++ (numeral.mark ++ (numeral.digits ++ rest))) =
      numeral.spaces := by
  rw [spacesOf]
  split
  next =>
    have isSpace : ∀ byte ∈ numeral.spaces, Bytes.isSpace byte = true := fun byte member =>
      beq_iff_eq.mpr (splits.spaces_mem byte member)
    exact Bytes.takeWhile_append_of_boundary isSpace fun byte => splits.isSpace_head?
  next keeps => exact (splits.spaces_allowed (Bool.eq_false_iff.mpr keeps)).symm

theorem SplitsOff.markOf_eq (splits : numeral.SplitsOff options text rest) :
    markOf options (numeral.mark ++ (numeral.digits ++ rest)) = numeral.mark := by
  rw [markOf]
  rcases splits.mark_mem with unmarked | ⟨skips, marked⟩
  · rw [unmarked, List.nil_append, if_neg]
    rintro ⟨skips, starts⟩
    exact splits.mark_skipped unmarked skips starts
  · rw [marked, if_pos ⟨skips, List.prefix_append _ _⟩]

theorem SplitsOff.digitsOf_eq (splits : numeral.SplitsOff options text rest) :
    digitsOf (numeral.digits ++ rest) = numeral.digits := by
  have isDigit : ∀ digit ∈ numeral.digits, Bytes.isHexDigit digit = true := fun digit member =>
    isHexDigit_iff.mpr (splits.digits_mem digit member)
  rw [digitsOf]
  rcases Nat.lt_or_ge numeral.digits.length maxDigits with short | full
  · have noDigit : ∀ byte, rest.head? = some byte → Bytes.isHexDigit byte = false :=
      fun byte next => Bool.eq_false_iff.mpr fun digit =>
        splits.digits_longest short byte next (isHexDigit_iff.mp digit)
    rw [Bytes.takeWhile_append_of_boundary isDigit noDigit, List.take_of_length_le
      splits.digits_length]
  · rw [List.takeWhile_append_of_pos isDigit,
      List.take_left' (Nat.le_antisymm splits.digits_length full)]

/-- The grammar leaves no choice. -/
theorem SplitsOff.ofText_eq (splits : numeral.SplitsOff options text rest) :
    ofText options text = numeral := by
  have textEq : text = numeral.spaces ++ (numeral.mark ++ (numeral.digits ++ rest)) := by
    rw [splits.text_eq, octets, List.append_assoc, List.append_assoc]
  rw [ofText, textEq, splits.spacesOf_eq, List.drop_left, splits.markOf_eq, List.drop_left,
    splits.digitsOf_eq]

end Numeral

/-! ## What is left of a text -/

/-- The text without its leading spaces, if spaces are trimmed. -/
def withoutSpaces (options : Options) (text : Bytes) : Bytes :=
  if options.hexTrimSpaces then text.dropWhile (· = 0x20) else text

/-- The text without one mark, if a mark is skipped and the text starts with it. -/
def withoutMark (options : Options) (text : Bytes) : Bytes :=
  if options.hexPrefix = true ∧ [0x30, 0x78] <+: text then text.drop 2 else text

theorem drop_spacesOf (options : Options) (text : Bytes) :
    text.drop (spacesOf options text).length = withoutSpaces options text := by
  have same : Bytes.isSpace = fun byte => decide (byte = 0x20) := by
    funext byte
    rw [Bytes.isSpace, beq_eq_decide]
  rw [spacesOf, withoutSpaces]
  split
  next => rw [Bytes.drop_length_takeWhile, same]
  next => rfl

theorem drop_markOf (options : Options) (text : Bytes) :
    text.drop (markOf options text).length = withoutMark options text := by
  rw [markOf, withoutMark, mark]
  split
  next => rfl
  next => rfl

end ByteCursor.Hexadecimal
