import ByteCursor.Proofs.Decimal.Count
import ByteCursor.Proofs.Text

/-!
# Written decimal numerals

An integer is written canonically as a minus, if it is negative, and digits without leading
zeros.  It may also be padded: with blanks before it, with a plus, and with zeros before its digits.
All these numerals are of the grammar and write the integer.
-/

namespace ByteCursor.Decimal

/-- The digits of a number without leading zeros. -/
def digitsOf (value : Nat) : Bytes := (Nat.toDigits 10 value).map Bytes.ofAscii

theorem toNat_of_isDigit {character : Char} (isDigit : character.isDigit = true) :
    48 ≤ character.toNat ∧ character.toNat ≤ 57 := by
  rw [Char.isDigit, Bool.and_eq_true, decide_eq_true_eq, decide_eq_true_eq] at isDigit
  exact isDigit

theorem toNat_ofAscii_of_isDigit {character : Char} (isDigit : character.isDigit = true) :
    (Bytes.ofAscii character).toNat = character.toNat := by
  have bounds := toNat_of_isDigit isDigit
  rw [Bytes.ofAscii, UInt8.toNat_ofNat', Nat.mod_eq_of_lt (by omega)]

theorem isDigit_ofAscii {character : Char} (isDigit : character.isDigit = true) :
    IsDigit (Bytes.ofAscii character) := by
  have bounds := toNat_of_isDigit isDigit
  rw [← toNat_ofAscii_of_isDigit isDigit] at bounds
  exact ⟨UInt8.le_iff_toNat_le.mpr bounds.1, UInt8.le_iff_toNat_le.mpr bounds.2⟩

theorem digitsOf_ne_nil (value : Nat) : digitsOf value ≠ [] := by
  rw [digitsOf, ne_eq, List.map_eq_nil_iff]
  exact Nat.toDigits_ne_nil

theorem isDigit_of_mem_digitsOf {value : Nat} {digit : UInt8} (member : digit ∈ digitsOf value) :
    IsDigit digit := by
  rcases List.mem_map.mp member with ⟨character, characterMember, rfl⟩
  exact isDigit_ofAscii (Nat.isDigit_of_mem_toDigits (by decide) (by decide) characterMember)

/-- Digits that are characters write the number that the characters write. -/
theorem number_map_ofAscii {characters : List Char}
    (areDigits : ∀ character ∈ characters, character.isDigit = true) :
    number (characters.map Bytes.ofAscii) = Nat.ofDigitChars 10 characters 0 := by
  induction characters using List.reverseRecOn with
  | nil => rfl
  | append_singleton characters character ih =>
      have isDigit : character.isDigit = true := areDigits character (by simp)
      rw [List.map_append, List.map_singleton, number_concat, Nat.ofDigitChars_append,
        ih fun other member => areDigits other (List.mem_append_left _ member), digitNumber,
        toNat_ofAscii_of_isDigit isDigit]
      rfl

theorem number_digitsOf (value : Nat) : number (digitsOf value) = value := by
  rw [digitsOf, number_map_ofAscii, Nat.ofDigitChars_ten_toDigits]
  intro character member
  exact Nat.isDigit_of_mem_toDigits (by decide) (by decide) member

/-- A number below a power of ten has no more digits than the exponent. -/
theorem length_digitsOf_le {value exponent : Nat} (positive : 0 < exponent)
    (below : value < 10 ^ exponent) : (digitsOf value).length ≤ exponent := by
  rw [digitsOf, List.length_map]
  exact Nat.toDigits_length 10 value exponent positive below

theorem ofString_repr (value : Nat) : Bytes.ofString value.repr = digitsOf value := by
  rw [Nat.repr_eq_ofList_toDigits, digitsOf]
  apply Bytes.ofString_ofList_of_ascii
  intro character member
  have isDigit : character.isDigit = true :=
    Nat.isDigit_of_mem_toDigits (by decide) (by decide) member
  have bounds := toNat_of_isDigit isDigit
  omega

theorem IsDigit.not_mem_blankBytes {byte : UInt8} (isDigit : IsDigit byte) :
    byte ∉ blankBytes := by
  intro blank
  simp only [blankBytes, List.mem_cons, List.not_mem_nil, or_false] at blank
  rcases blank with rfl | rfl | rfl | rfl | rfl <;> exact absurd isDigit (by simp [IsDigit])

/-- A sign and digits do not start with a blank. -/
theorem not_mem_blankBytes_of_head? {isSigned : Bool} {sign digits rest : Bytes} {byte : UInt8}
    (isSign : sign = [] ∨ sign = [0x2b] ∨ (isSigned = true ∧ sign = [0x2d]))
    (nonempty : digits ≠ []) (isDigits : ∀ digit ∈ digits, IsDigit digit)
    (next : (sign ++ digits ++ rest).head? = some byte) : byte ∉ blankBytes := by
  rcases isSign with rfl | rfl | ⟨-, rfl⟩
  · cases digits with
    | nil => exact absurd rfl nonempty
    | cons digit digits =>
        cases next
        exact (isDigits byte List.mem_cons_self).not_mem_blankBytes
  · cases next
    decide
  · cases next
    decide

/-- The text does not go on a run of digits before it. -/
def StartsApart (text : Bytes) : Prop := ∀ byte, text.head? = some byte → ¬ IsDigit byte

theorem startsApart_nil : StartsApart [] := fun _ next => nomatch next

theorem startsApart_cons {byte : UInt8} {text : Bytes} :
    StartsApart (byte :: text) ↔ ¬ IsDigit byte := by
  simp [StartsApart]

/-- The numeral of an integer without blanks, plus and leading zeros. -/
def Numeral.canonical (value : Int) : Numeral where
  blanks := []
  sign := if value < 0 then [0x2d] else []
  digits := digitsOf value.natAbs

/-- What may be added to the canonical numeral. -/
structure Padding where
  blanks : Bytes
  /-- There is a plus, unless the integer is negative. -/
  hasPlus : Bool
  /-- The number of zeros before the digits. -/
  zeros : Nat
  blanks_mem : ∀ byte ∈ blanks, byte ∈ blankBytes

/-- Nothing is added. -/
def Padding.none : Padding where
  blanks := []
  hasPlus := false
  zeros := 0
  blanks_mem := fun _ member => absurd member List.not_mem_nil

/-- So many zeros are added before the digits. -/
def Padding.ofZeros (zeros : Nat) : Padding := { Padding.none with zeros := zeros }

/-- The numeral of an integer with the padding. -/
def Numeral.padded (padding : Padding) (value : Int) : Numeral where
  blanks := padding.blanks
  sign := if value < 0 then [0x2d] else if padding.hasPlus then [0x2b] else []
  digits := List.replicate padding.zeros 0x30 ++ digitsOf value.natAbs

/-- Zeros before digits do not change the number. -/
theorem number_zeros_append (zeros : Nat) (digits : Bytes) :
    number (List.replicate zeros 0x30 ++ digits) = number digits := by
  induction zeros with
  | zero => rfl
  | succ zeros ih =>
      have nothing : digitNumber 0x30 = 0 := rfl
      rw [List.replicate_succ, List.cons_append, number, List.reverse_cons, List.map_append,
        Nat.ofDigits_append, ← number, ih, List.map_singleton, Nat.ofDigits_singleton, nothing,
        Nat.mul_zero, Nat.add_zero]

namespace Numeral

variable {value : Int}

/-- The canonical numeral is the text that is shown for the integer. -/
theorem octets_canonical (value : Int) :
    (canonical value).octets = Bytes.ofString (toString value) := by
  cases value with
  | ofNat number =>
      have notNegative : ¬ (Int.ofNat number < 0) := Int.not_lt.mpr (Int.natCast_nonneg number)
      rw [octets, canonical, if_neg notNegative]
      exact (ofString_repr number).symm
  | negSucc number =>
      have shown : toString (Int.negSucc number) = "-" ++ (number + 1).repr := rfl
      have minus : Bytes.ofString "-" = [0x2d] := by
        rw [Bytes.ofString_eq_flatMap]
        rfl
      rw [octets, canonical, if_pos (Int.negSucc_lt_zero number), shown, Bytes.ofString_append,
        ofString_repr, minus]
      rfl

theorem padded_none (value : Int) : padded .none value = canonical value := rfl

theorem value_padded (padding : Padding) (value : Int) : (padded padding value).value = value := by
  rw [Numeral.value, padded, number_zeros_append, number_digitsOf, isNegative]
  by_cases negative : value < 0
  · rw [if_pos negative]
    change -(value.natAbs : Int) = value
    omega
  · have notMinus : ((if padding.hasPlus then [0x2b] else [] : Bytes) == [0x2d]) = false := by
      cases padding.hasPlus <;> rfl
    rw [if_neg negative, notMinus]
    change (value.natAbs : Int) = value
    omega

variable {padding : Padding} {isSigned : Bool} {rest : Bytes}

theorem sign_padded (signs : value < 0 → isSigned = true) :
    (padded padding value).sign = [] ∨ (padded padding value).sign = [0x2b] ∨
      (isSigned = true ∧ (padded padding value).sign = [0x2d]) := by
  by_cases negative : value < 0
  · exact .inr (.inr ⟨signs negative, if_pos negative⟩)
  · rw [padded, if_neg negative]
    cases padding.hasPlus with
    | true => exact .inr (.inl rfl)
    | false => exact .inl rfl

theorem digits_padded_ne_nil : (padded padding value).digits ≠ [] :=
  List.append_ne_nil_of_right_ne_nil _ (digitsOf_ne_nil _)

theorem length_digits_padded :
    (padded padding value).digits.length = padding.zeros + (digitsOf value.natAbs).length := by
  rw [padded, List.length_append, List.length_replicate]

/-- Zeros before a zero are zeros. -/
theorem length_octets_padded_zeros (zeros : Nat) :
    (padded (.ofZeros zeros) 0).octets.length = zeros + 1 := by
  have noSign : (padded (.ofZeros zeros) 0).sign = [] := rfl
  have noBlanks : (padded (.ofZeros zeros) 0).blanks = [] := rfl
  have single : (digitsOf (0 : Int).natAbs).length = 1 := rfl
  rw [octets, noSign, noBlanks, List.nil_append, List.nil_append, length_digits_padded, single]
  rfl

theorem isDigit_of_mem_padded {digit : UInt8} (member : digit ∈ (padded padding value).digits) :
    IsDigit digit := by
  rcases List.mem_append.mp member with isZero | isDigit
  · rw [List.eq_of_mem_replicate isZero]
    simp [IsDigit]
  · exact isDigit_of_mem_digitsOf isDigit

/-- An integer of a type has few digits. -/
theorem isCounted_canonical {type : IntType} (holds : type.Holds value) :
    (canonical value).IsCounted := by
  have least : -(10 ^ 10 : Int) < type.least := by cases type <;> decide
  have greatest : type.greatest < (10 ^ 10 : Int) := by cases type <;> decide
  have below : value.natAbs < 10 ^ 10 := by
    have bounds := holds
    rw [IntType.Holds] at bounds
    omega
  have short : (digitsOf value.natAbs).length ≤ 10 := length_digitsOf_le (by decide) below
  have positive : 0 < (digitsOf value.natAbs).length := List.length_pos_iff.mpr (digitsOf_ne_nil _)
  have counts : Arithmetic.wrapping.Counts (digitsOf value.natAbs).length :=
    Arithmetic.counts_of_lt (Nat.ne_of_gt positive) (by omega)
  exact counts.2

/-- Before anything but a digit the numeral is split off with its padding. -/
theorem splitsOff_padded (signs : value < 0 → isSigned = true) (apart : StartsApart rest) :
    (padded padding value).SplitsOff isSigned ((padded padding value).octets ++ rest) rest where
  text_eq := rfl
  blanks_mem := padding.blanks_mem
  blanks_longest := fun _ next =>
    not_mem_blankBytes_of_head? (sign_padded signs) digits_padded_ne_nil
      (fun _ => isDigit_of_mem_padded) next
  sign_mem := sign_padded signs
  digits_ne_nil := digits_padded_ne_nil
  digits_mem := fun _ => isDigit_of_mem_padded
  digits_longest := apart

end Numeral

end ByteCursor.Decimal
