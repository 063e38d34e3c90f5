import ByteCursor.Proofs.Hexadecimal.Numeral

/-!
# Written hexadecimal numerals

A number is written with a fixed count of digits, and each digit may be a small or a capital letter
for itself.  Eight digits write every number of a word.  They are a numeral of the grammar before
any text, because a ninth digit is not read and two digits are no mark.
-/

namespace ByteCursor.Hexadecimal

/-- The digit of a number below sixteen. -/
def digitOf (isCapital : Bool) (number : Fin 16) : UInt8 :=
  if isCapital then capitalDigits.get number else smallDigits.get number

/-- The lowest `count` digits of a number.  The places at which letters are capital are counted
from the left. -/
def writeDigits (isCapital : Nat → Bool) : (count : Nat) → (number : Nat) → Bytes
  | 0, _ => []
  | count + 1, number =>
      writeDigits isCapital count (number / 16) ++ [digitOf (isCapital count) (Fin.ofNat 16 number)]

theorem digitNumber_digitOf (isCapital : Bool) (number : Fin 16) :
    digitNumber (digitOf isCapital number) = number := by
  revert isCapital number
  decide

theorem isDigit_digitOf (isCapital : Bool) (number : Fin 16) :
    IsDigit (digitOf isCapital number) := by
  rw [digitOf]
  split
  next => exact .inr (List.get_mem _ _)
  next => exact .inl (List.get_mem _ _)

variable {isCapital : Nat → Bool} {count number : Nat}

@[simp] theorem length_writeDigits : (writeDigits isCapital count number).length = count := by
  induction count generalizing number with
  | zero => rfl
  | succ count ih => rw [writeDigits, List.length_append, ih, List.length_singleton]

theorem isDigit_of_mem_writeDigits {digit : UInt8}
    (member : digit ∈ writeDigits isCapital count number) : IsDigit digit := by
  induction count generalizing number with
  | zero => exact absurd member List.not_mem_nil
  | succ count ih =>
      rw [writeDigits, List.mem_append, List.mem_singleton] at member
      rcases member with earlier | rfl
      · exact ih earlier
      · exact isDigit_digitOf _ _

/-- So many digits keep so many half octets of the number. -/
theorem number_writeDigits :
    Hexadecimal.number (writeDigits isCapital count number) = number % 16 ^ count := by
  -- The last digit is the lowest one, and the digits before it write what is left of the number.
  induction count generalizing number with
  | zero => rw [Nat.pow_zero, Nat.mod_one]; rfl
  | succ count ih =>
      have last : (Fin.ofNat 16 number : Nat) = number % 16 := rfl
      rw [writeDigits, number_concat, ih, digitNumber_digitOf, last, Nat.pow_succ', Nat.mod_mul,
        Nat.add_comm]

/-- One way to write a word behind a lead that the options allow. -/
structure WrittenWord (options : Options) where
  word : UInt32
  isCapital : Nat → Bool
  /-- The number of spaces before the mark. -/
  spaces : Nat
  /-- There is a mark before the digits. -/
  isMarked : Bool
  spaces_allowed : options.hexTrimSpaces = false → spaces = 0
  mark_allowed : options.hexPrefix = false → isMarked = false

namespace WrittenWord

variable {options : Options}

/-- The numeral of the word, with eight digits. -/
def numeral (written : WrittenWord options) : Numeral where
  spaces := List.replicate written.spaces 0x20
  mark := if written.isMarked then Hexadecimal.mark else []
  digits := writeDigits written.isCapital 8 written.word.toNat

/-- The octets of the word as it is written. -/
def octets (written : WrittenWord options) : Bytes := written.numeral.octets

theorem number_digits (written : WrittenWord options) :
    Hexadecimal.number written.numeral.digits = written.word.toNat :=
  number_writeDigits.trans (Nat.mod_eq_of_lt written.word.toNat_lt)

/-- A word is split off any text behind it, also off further digits. -/
theorem splitsOff (written : WrittenWord options) (rest : Bytes) :
    written.numeral.SplitsOff options (written.numeral.octets ++ rest) rest where
  text_eq := rfl
  spaces_mem := fun _ => List.eq_of_mem_replicate
  spaces_allowed := by
    intro keeps
    rw [numeral, written.spaces_allowed keeps]
    rfl
  mark_mem := by
    cases marked : written.isMarked with
    | false => exact .inl (by simp [numeral, marked])
    | true =>
        have skips : options.hexPrefix = true := by
          rw [← Bool.not_eq_false]
          intro keeps
          rw [written.mark_allowed keeps] at marked
          cases marked
        exact .inr ⟨skips, by simp [numeral, marked]⟩
  mark_skipped := by
    intro _ _
    apply not_mark_isPrefix_of_two_le
    · rw [numeral, length_writeDigits]
      decide
    · exact fun _ => isDigit_of_mem_writeDigits
  digits_ne_nil := by
    apply List.ne_nil_of_length_pos
    rw [numeral, length_writeDigits]
    decide
  digits_mem := fun _ => isDigit_of_mem_writeDigits
  digits_length := by rw [numeral, length_writeDigits, maxDigits]
  digits_longest := by
    intro short
    rw [numeral, length_writeDigits, maxDigits] at short
    exact absurd short (Nat.lt_irrefl 8)

end WrittenWord

end ByteCursor.Hexadecimal
