import ByteCursor.Integer.Hexadecimal
import Mathlib.Data.List.Induction
import Mathlib.Data.Nat.Digits.Lemmas

/-!
# Numbers of hexadecimal digits

The digits are given by two alphabets, in which a digit stands at the place of its number.  Up
to eight digits fill a word from the right, so none of their bits is shifted out.
-/

namespace ByteCursor.Hexadecimal

/-- The digits in the order of their numbers, with small letters. -/
def smallDigits : Bytes :=
  [0x30, 0x31, 0x32, 0x33, 0x34, 0x35, 0x36, 0x37, 0x38, 0x39, 0x61, 0x62, 0x63, 0x64, 0x65, 0x66]

/-- The digits in the order of their numbers, with capital letters. -/
def capitalDigits : Bytes :=
  [0x30, 0x31, 0x32, 0x33, 0x34, 0x35, 0x36, 0x37, 0x38, 0x39, 0x41, 0x42, 0x43, 0x44, 0x45, 0x46]

/-- The octet is a digit of either case. -/
def IsDigit (byte : UInt8) : Prop := byte ∈ smallDigits ∨ byte ∈ capitalDigits

instance (byte : UInt8) : Decidable (IsDigit byte) := inferInstanceAs (Decidable (_ ∨ _))

/-- The number below sixteen that a digit stands for. -/
def digitNumber (digit : UInt8) : Nat :=
  min (smallDigits.idxOf digit) (capitalDigits.idxOf digit)

/-- The number that digits write, the most significant first. -/
def number (digits : Bytes) : Nat := Nat.ofDigits 16 (digits.reverse.map digitNumber)

theorem number_concat (digits : Bytes) (digit : UInt8) :
    number (digits ++ [digit]) = 16 * number digits + digitNumber digit := by
  rw [number, List.reverse_append, List.reverse_singleton, List.singleton_append, List.map_cons,
    Nat.ofDigits_cons, Nat.add_comm]
  rfl

/-- Digits in two parts write the number of the right part and that of the part before it. -/
theorem number_append (first second : Bytes) :
    number (first ++ second) = number second + 16 ^ second.length * number first := by
  rw [number, List.reverse_append, List.map_append, Nat.ofDigits_append, List.length_map,
    List.length_reverse]
  rfl

/-- The reader of one digit knows exactly the two alphabets. -/
theorem hexDigit?_eq (byte : UInt8) :
    Bytes.hexDigit? byte =
      if IsDigit byte then some (UInt32.ofNat (digitNumber byte)) else none := by
  have table : ∀ code : Fin 256, Bytes.hexDigit? (UInt8.ofNat code) =
      if IsDigit (UInt8.ofNat code) then some (UInt32.ofNat (digitNumber (UInt8.ofNat code)))
      else none := by
    decide +kernel
  have same := table ⟨byte.toNat, byte.toNat_lt⟩
  rwa [UInt8.ofNat_toNat] at same

theorem isHexDigit_iff {byte : UInt8} : Bytes.isHexDigit byte = true ↔ IsDigit byte := by
  rw [Bytes.isHexDigit, hexDigit?_eq]
  split
  next isDigit => exact iff_of_true rfl isDigit
  next noDigit => exact iff_of_false (by simp) noDigit

variable {digit : UInt8} {digits : Bytes}

theorem IsDigit.digitNumber_lt (isDigit : IsDigit digit) : digitNumber digit < 16 := by
  rw [digitNumber]
  rcases isDigit with small | capital
  · exact Nat.lt_of_le_of_lt (Nat.min_le_left _ _) (List.idxOf_lt_length_of_mem small)
  · exact Nat.lt_of_le_of_lt (Nat.min_le_right _ _) (List.idxOf_lt_length_of_mem capital)

/-- So many digits write a number of so many half octets. -/
theorem number_lt (isDigits : ∀ digit ∈ digits, IsDigit digit) :
    number digits < 16 ^ digits.length := by
  have below := Nat.ofDigits_lt_base_pow_length (b := 16)
    (l := digits.reverse.map digitNumber) (by decide) (by
      intro value member
      rcases List.mem_map.mp member with ⟨digit, digitMember, rfl⟩
      exact (isDigits digit (List.mem_reverse.mp digitMember)).digitNumber_lt)
  simpa [number] using below

/-- A digit that is appended to a word with room for it shifts no bit out. -/
theorem toNat_appendDigit {word : UInt32} (room : word.toNat < 16 ^ 7) (isDigit : IsDigit digit) :
    (appendDigit word (UInt32.ofNat (digitNumber digit))).toNat =
      16 * word.toNat + digitNumber digit := by
  have small := isDigit.digitNumber_lt
  have digitEq : (UInt32.ofNat (digitNumber digit)).toNat = digitNumber digit := by
    rw [UInt32.toNat_ofNat', Nat.mod_eq_of_lt (by omega)]
  have shifted : (word <<< 4).toNat = word.toNat <<< 4 := by
    rw [UInt32.toNat_shiftLeft]
    apply Nat.mod_eq_of_lt
    rw [Nat.shiftLeft_eq]
    change word.toNat * 2 ^ 4 < 2 ^ 32
    omega
  rw [appendDigit, UInt32.toNat_or, digitEq, shifted, ← Nat.shiftLeft_add_eq_or_of_lt small,
    Nat.shiftLeft_eq]
  omega

theorem word_concat (digits : Bytes) (isDigit : IsDigit digit) :
    word (digits ++ [digit]) = appendDigit (word digits) (UInt32.ofNat (digitNumber digit)) := by
  have read : Bytes.hexDigit? digit = some (UInt32.ofNat (digitNumber digit)) := by
    rw [hexDigit?_eq, if_pos isDigit]
  simp only [word, List.filterMap_append, List.foldl_append, List.filterMap_cons, read,
    List.filterMap_nil, List.foldl_cons, List.foldl_nil]

/-- Up to eight digits make the word of the number that they write. -/
theorem toNat_word (isDigits : ∀ digit ∈ digits, IsDigit digit)
    (fits : digits.length ≤ maxDigits) : (word digits).toNat = number digits := by
  -- Before a further digit there are at most seven, which leave four bits of the word free.
  induction digits using List.reverseRecOn with
  | nil => rfl
  | append_singleton digits digit ih =>
      have areDigits : ∀ digit ∈ digits, IsDigit digit := fun digit member =>
        isDigits digit (List.mem_append_left _ member)
      have isDigit : IsDigit digit := isDigits digit (by simp)
      rw [List.length_append, List.length_singleton, maxDigits] at fits
      have earlier := ih areDigits (Nat.le_of_lt fits)
      have room : (word digits).toNat < 16 ^ 7 := by
        rw [earlier]
        calc number digits < 16 ^ digits.length := number_lt areDigits
          _ ≤ 16 ^ 7 := Nat.pow_le_pow_right (by decide) (Nat.le_of_lt_succ fits)
      rw [word_concat digits isDigit, toNat_appendDigit room isDigit, earlier, number_concat]

end ByteCursor.Hexadecimal
