import ByteCursor.Proofs.Decimal.Magnitude
import ByteCursor.Proofs.Search

/-!
# Decimal numerals at the start of a text

A numeral is a run of blanks, a sign and a run of digits.  The scanner splits a text from left
to right and never looks back; `ofText` is what it splits off.  The split is the only one that
the grammar `SplitsOff` allows.
-/

namespace ByteCursor.Decimal

/-- The octets that may stand before a number: space, tab, line feed, form feed and carriage
return. -/
def blankBytes : Bytes := [0x20, 0x09, 0x0a, 0x0c, 0x0d]

theorem isBlank_iff {byte : UInt8} : Bytes.isBlank byte = true ↔ byte ∈ blankBytes := by
  simp [Bytes.isBlank, blankBytes, or_assoc]

theorem isDigit_iff {byte : UInt8} : Bytes.isDigit byte = true ↔ IsDigit byte := by
  simp [Bytes.isDigit, IsDigit]

/-- A decimal number in a text, in its parts. -/
structure Numeral where
  blanks : Bytes
  sign : Bytes
  digits : Bytes

/-- The sign that a text starts with, or nothing.  A minus is a sign only of signed numbers. -/
def signOf (isSigned : Bool) (text : Bytes) : Bytes :=
  if text.head? = some 0x2b ∨ (text.head? = some 0x2d ∧ isSigned = true) then text.take 1 else []

namespace Numeral

/-- The octets of the parts in their order. -/
def octets (numeral : Numeral) : Bytes := numeral.blanks ++ numeral.sign ++ numeral.digits

/-- The sign is a minus. -/
def isNegative (numeral : Numeral) : Bool := numeral.sign == [0x2d]

/-- The number that the numeral writes. -/
def value (numeral : Numeral) : Int := signed numeral.isNegative (number numeral.digits)

/-- The numeral stands at the start of the text, before the rest.  The blanks and the digits are
the longest runs of their kind. -/
structure SplitsOff (numeral : Numeral) (isSigned : Bool) (text rest : Bytes) : Prop where
  text_eq : text = numeral.octets ++ rest
  blanks_mem : ∀ byte ∈ numeral.blanks, byte ∈ blankBytes
  blanks_longest : ∀ byte, (numeral.sign ++ numeral.digits ++ rest).head? = some byte →
    byte ∉ blankBytes
  sign_mem : numeral.sign = [] ∨ numeral.sign = [0x2b] ∨
    (isSigned = true ∧ numeral.sign = [0x2d])
  digits_ne_nil : numeral.digits ≠ []
  digits_mem : ∀ digit ∈ numeral.digits, IsDigit digit
  digits_longest : ∀ byte, rest.head? = some byte → ¬ IsDigit byte

/-- What the scanner splits off a text from left to right. -/
def ofText (isSigned : Bool) (text : Bytes) : Numeral :=
  let unblanked := text.dropWhile Bytes.isBlank
  let sign := signOf isSigned unblanked
  { blanks := text.takeWhile Bytes.isBlank
    sign := sign
    digits := (unblanked.drop sign.length).takeWhile Bytes.isDigit }

end Numeral

/-- A sign is a plus or, before a signed number, a minus. -/
theorem signOf_mem (isSigned : Bool) (text : Bytes) :
    signOf isSigned text = [] ∨ signOf isSigned text = [0x2b] ∨
      (isSigned = true ∧ signOf isSigned text = [0x2d]) := by
  cases text with
  | nil => exact .inl rfl
  | cons byte rest =>
      simp only [signOf, List.head?_cons, Option.some_inj, List.take_succ_cons, List.take_zero]
      by_cases plus : byte = 0x2b
      · simp [plus]
      · by_cases minus : byte = 0x2d
        · cases isSigned <;> simp [minus]
        · simp [plus, minus]

/-- The sign of a text is its start. -/
theorem signOf_append_drop (isSigned : Bool) (text : Bytes) :
    signOf isSigned text ++ text.drop (signOf isSigned text).length = text := by
  rw [signOf]
  split
  next signFirst =>
      cases text with
      | nil => simp at signFirst
      | cons byte rest => rfl
  next noSign => rfl

/-- A sign before a text that does not start with one is the sign of the whole. -/
theorem signOf_append {isSigned : Bool} {sign text : Bytes}
    (isSign : sign = [] ∨ sign = [0x2b] ∨ (isSigned = true ∧ sign = [0x2d]))
    (unsigned : ∀ byte, text.head? = some byte → byte ≠ 0x2b ∧ byte ≠ 0x2d) :
    signOf isSigned (sign ++ text) = sign := by
  rcases isSign with rfl | rfl | ⟨rfl, rfl⟩
  · rw [List.nil_append, signOf, if_neg]
    rintro (plus | ⟨minus, -⟩)
    · exact (unsigned _ plus).1 rfl
    · exact (unsigned _ minus).2 rfl
  · simp [signOf]
  · simp [signOf]

namespace Numeral

variable {numeral : Numeral} {isSigned : Bool} {text rest : Bytes}

/-- Where the scanner finds digits it splits off a numeral. -/
theorem splitsOff_ofText (found : (ofText isSigned text).digits ≠ []) :
    ∃ rest, (ofText isSigned text).SplitsOff isSigned text rest := by
  let unblanked := text.dropWhile Bytes.isBlank
  let unsigned := unblanked.drop (signOf isSigned unblanked).length
  have unsignedEq : (ofText isSigned text).digits ++ unsigned.dropWhile Bytes.isDigit =
      unsigned := List.takeWhile_append_dropWhile
  have unblankedEq : (ofText isSigned text).sign ++ (ofText isSigned text).digits ++
      unsigned.dropWhile Bytes.isDigit = unblanked := by
    rw [List.append_assoc, unsignedEq]
    exact signOf_append_drop isSigned unblanked
  refine ⟨unsigned.dropWhile Bytes.isDigit, ?_, ?_, ?_, ?_, found, ?_, ?_⟩
  · have textEq : text = (ofText isSigned text).blanks ++ unblanked :=
      List.takeWhile_append_dropWhile.symm
    rw [← unblankedEq] at textEq
    simpa only [octets, List.append_assoc] using textEq
  · intro byte member
    exact isBlank_iff.mp (Bytes.mem_takeWhile member)
  · intro byte next blank
    rw [unblankedEq] at next
    have noBlank := Bytes.head?_dropWhile next
    rw [isBlank_iff.mpr blank] at noBlank
    cases noBlank
  · exact signOf_mem isSigned unblanked
  · intro digit member
    exact isDigit_iff.mp (Bytes.mem_takeWhile member)
  · intro byte next digit
    have noDigit := Bytes.head?_dropWhile next
    rw [isDigit_iff.mpr digit] at noDigit
    cases noDigit

theorem SplitsOff.head?_digits (splits : numeral.SplitsOff isSigned text rest) {byte : UInt8}
    (next : (numeral.digits ++ rest).head? = some byte) : IsDigit byte := by
  cases same : numeral.digits with
  | nil => exact absurd same splits.digits_ne_nil
  | cons digit digits =>
      have first : digit = byte := by simpa [same] using next
      have member : digit ∈ numeral.digits := by simp [same]
      exact first ▸ splits.digits_mem digit member

/-- The grammar leaves no choice. -/
theorem SplitsOff.ofText_eq (splits : numeral.SplitsOff isSigned text rest) :
    ofText isSigned text = numeral := by
  have isBlank : ∀ byte ∈ numeral.blanks, Bytes.isBlank byte = true := fun byte member =>
    isBlank_iff.mpr (splits.blanks_mem byte member)
  have noBlank : ∀ byte, (numeral.sign ++ numeral.digits ++ rest).head? = some byte →
      Bytes.isBlank byte = false := fun byte next =>
    Bool.eq_false_iff.mpr fun blank => splits.blanks_longest byte next (isBlank_iff.mp blank)
  have isDigit : ∀ digit ∈ numeral.digits, Bytes.isDigit digit = true := fun digit member =>
    isDigit_iff.mpr (splits.digits_mem digit member)
  have noDigit : ∀ byte, rest.head? = some byte → Bytes.isDigit byte = false := fun byte next =>
    Bool.eq_false_iff.mpr fun digit => splits.digits_longest byte next (isDigit_iff.mp digit)
  have noSign : ∀ byte, (numeral.digits ++ rest).head? = some byte →
      byte ≠ 0x2b ∧ byte ≠ 0x2d := by
    intro byte next
    have digit := splits.head?_digits next
    constructor
    · rintro rfl
      exact absurd digit (by simp [IsDigit])
    · rintro rfl
      exact absurd digit (by simp [IsDigit])
  have textEq : text = numeral.blanks ++ (numeral.sign ++ numeral.digits ++ rest) := by
    rw [splits.text_eq, octets, List.append_assoc, List.append_assoc, List.append_assoc]
  have signEq : signOf isSigned (numeral.sign ++ numeral.digits ++ rest) = numeral.sign := by
    rw [List.append_assoc]
    exact signOf_append splits.sign_mem noSign
  rw [ofText, textEq, Bytes.takeWhile_append_of_boundary isBlank noBlank,
    Bytes.dropWhile_append_of_boundary isBlank noBlank, signEq, List.append_assoc,
    List.drop_left, Bytes.takeWhile_append_of_boundary isDigit noDigit]

end Numeral

end ByteCursor.Decimal
