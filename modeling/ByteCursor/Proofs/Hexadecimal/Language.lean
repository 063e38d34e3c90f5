import ByteCursor.Proofs.Session.Reachable

/-!
# The language of the hexadecimal word

What the options allow is taken off the text first: the leading spaces, then one mark.  The word
is read from up to eight digits behind it.
-/

namespace ByteCursor

namespace Hexadecimal

/-- The longest run of digits that the text starts with, cut at eight. -/
def leadingDigits (text : Bytes) : Bytes := (text.takeWhile (IsDigit ·)).take 8

end Hexadecimal

open Hexadecimal

/-- Reading a word from the cursor takes the digits at the start of the text behind the lead, and
misses if there are none. -/
structure Cursor.ReadsWord (cursor : Cursor) (unled digits : Bytes) : Prop where
  reads : digits ≠ [] →
    ((Call.readHex .u32 .big).run cursor).result = .ok (.integer (number digits)) ∧
      ((Call.readHex .u32 .big).run cursor).state.cursor =
        cursor.seek
          (cursor.position + (cursor.remaining.length - unled.length + digits.length))
  /-- The first octet that is no digit is left unread, or the ninth digit. -/
  leaves : digits ≠ [] →
    ((Call.readHex .u32 .big).run cursor).state.cursor.remaining = unled.drop digits.length ∧
      (digits.length = 8 ∨
        ∀ byte, (unled.drop digits.length).head? = some byte → ¬ IsDigit byte)
  misses : digits = [] →
    ((Call.readHex .u32 .big).run cursor).result =
        .error (.error (.parse "u32 be" cursor.position)) ∧
      ((Call.readHex .u32 .big).run cursor).state.cursor = cursor

namespace Hexadecimal

variable {cursor : Cursor}

theorem digitsOf_eq (text : Bytes) : digitsOf text = leadingDigits text := by
  have same : Bytes.isHexDigit = fun byte => decide (IsDigit byte) := by
    funext byte
    rw [Bool.eq_iff_iff, isHexDigit_iff, decide_eq_true_iff]
  rw [digitsOf, leadingDigits, same, maxDigits]

/-- A run of digits that is shorter than the cut stops at an octet that is no digit. -/
theorem leadingDigits_stop (text : Bytes) :
    (leadingDigits text).length = 8 ∨
      ∀ byte, (text.drop (leadingDigits text).length).head? = some byte → ¬ IsDigit byte := by
  rcases Nat.lt_or_ge (text.takeWhile (IsDigit ·)).length 8 with short | long
  · right
    intro byte next
    rw [leadingDigits, List.take_of_length_le (Nat.le_of_lt short),
      Bytes.drop_length_takeWhile] at next
    exact decide_eq_false_iff_not.mp (Bytes.head?_dropWhile next)
  · left
    rw [leadingDigits, List.length_take]
    exact Nat.min_eq_left long

/-- What the word takes are the lead and the digits behind it. -/
theorem length_octets_ofText {options : Options} {text unled : Bytes}
    (unledEq : withoutMark options (withoutSpaces options text) = unled) :
    (Numeral.ofText options text).digits = leadingDigits unled ∧
      (Numeral.ofText options text).octets.length =
        text.length - unled.length + (leadingDigits unled).length ∧
      text.drop (Numeral.ofText options text).octets.length =
        unled.drop (leadingDigits unled).length := by
  let numeral := Numeral.ofText options text
  have unledAt : text.drop (numeral.spaces.length + numeral.mark.length) = unled := by
    rw [← unledEq, ← drop_spacesOf, ← drop_markOf, List.drop_drop]
    rfl
  have digitsEq : numeral.digits = leadingDigits unled := by
    rw [← digitsOf_eq, ← unledAt, ← List.drop_drop]
    rfl
  have lengthEq : numeral.octets.length =
      numeral.spaces.length + numeral.mark.length + (leadingDigits unled).length := by
    rw [Numeral.octets, List.length_append, List.length_append, digitsEq]
  have inside := (Numeral.octets_ofText_isPrefix options text).length_le
  have unledLength := congrArg List.length unledAt
  rw [List.length_drop] at unledLength
  refine ⟨digitsEq, ?_, ?_⟩
  · change numeral.octets.length = _
    change numeral.octets.length ≤ _ at inside
    omega
  · change text.drop numeral.octets.length = _
    rw [lengthEq, ← List.drop_drop, unledAt]

theorem readsWord (valid : cursor.Valid) {unled : Bytes}
    (unledEq : withoutMark cursor.options (withoutSpaces cursor.options cursor.remaining) =
      unled) :
    cursor.ReadsWord unled (leadingDigits unled) := by
  rcases length_octets_ofText unledEq with ⟨digitsEq, lengthEq, behind⟩
  have ran := run_readHex_word valid rfl
  rw [digitsEq, lengthEq] at ran
  constructor
  · intro nonempty
    rw [ran, if_neg nonempty]
    exact ⟨rfl, rfl⟩
  · intro nonempty
    rw [ran, if_neg nonempty, ← lengthEq, ← behind]
    refine ⟨Cursor.remaining_pass _, ?_⟩
    rw [behind]
    exact leadingDigits_stop unled
  · intro empty
    rw [ran, if_pos empty]
    exact ⟨rfl, rfl⟩

/-- One digit before an octet that is none is all that is read. -/
theorem leadingDigits_singleton {digit : UInt8} {text : Bytes} (isDigit : IsDigit digit)
    (stops : ∀ byte, text.head? = some byte → ¬ IsDigit byte) :
    leadingDigits (digit :: text) = [digit] := by
  have run : ([digit] ++ text).takeWhile (IsDigit ·) = [digit] :=
    Bytes.takeWhile_append_of_boundary
      (fun byte member => decide_eq_true (List.mem_singleton.mp member ▸ isDigit))
      (fun byte next => decide_eq_false (stops byte next))
  rw [leadingDigits]
  exact congrArg (List.take 8) run

theorem leadingDigits_nil {text : Bytes}
    (stops : ∀ byte, text.head? = some byte → ¬ IsDigit byte) : leadingDigits text = [] := by
  cases text with
  | nil => rfl
  | cons byte rest =>
      have noDigit : ¬ decide (IsDigit byte) = true := by
        rw [decide_eq_true_iff]
        exact stops byte rfl
      rw [leadingDigits, List.takeWhile_cons, if_neg noDigit, List.take_nil]

theorem withoutMark_of_skipped {options : Options} (skips : options.hexPrefix = true)
    (rest : Bytes) : withoutMark options (0x30 :: 0x78 :: rest) = rest :=
  if_pos ⟨skips, rest, rfl⟩

theorem withoutMark_of_kept {options : Options} (keeps : options.hexPrefix = false)
    (text : Bytes) : withoutMark options text = text := by
  rw [withoutMark, if_neg]
  rintro ⟨skips, -⟩
  rw [keeps] at skips
  cases skips

/-- The letter of a mark is no digit, so the zero before it is read alone. -/
theorem leadingDigits_mark (rest : Bytes) : leadingDigits (0x30 :: 0x78 :: rest) = [0x30] := by
  apply leadingDigits_singleton (by decide)
  intro byte next
  cases next
  decide

/-- A word is read from the digits that stand behind the lead.  A mark alone is no word where
marks are skipped and is a zero where they are not, and a second mark is never skipped. -/
theorem word_is_leading_digits (reachable : cursor.Reachable) :
    let outcome := (Call.readHex .u32 .big).run cursor
    let unspaced := withoutSpaces cursor.options cursor.remaining
    let unled := withoutMark cursor.options unspaced
    cursor.ReadsWord unled (leadingDigits unled) ∧
      (∀ rest, unspaced = 0x30 :: 0x78 :: rest →
        (∀ byte, rest.head? = some byte → ¬ IsDigit byte) →
        if cursor.options.hexPrefix then
          outcome.result = .error (.error (.parse "u32 be" cursor.position)) ∧
            outcome.state.cursor = cursor
        else
          outcome.result = .ok (.integer 0) ∧
            outcome.state.cursor =
              cursor.seek (cursor.position + (cursor.remaining.length - unspaced.length + 1))) ∧
      ∀ rest, unspaced = 0x30 :: 0x78 :: 0x30 :: 0x78 :: rest →
        cursor.options.hexPrefix = true →
        outcome.result = .ok (.integer 0) ∧
          outcome.state.cursor.remaining = 0x78 :: rest := by
  intro outcome unspaced unled
  have word : cursor.ReadsWord unled (leadingDigits unled) := readsWord reachable.valid rfl
  refine ⟨word, ?_, ?_⟩
  · intro rest marked stops
    split
    next skips =>
        have unledEq : unled = rest := by
          change withoutMark cursor.options unspaced = rest
          rw [marked, withoutMark_of_skipped skips]
        rw [unledEq] at word
        exact word.misses (leadingDigits_nil stops)
    next keeps =>
        have unledEq : unled = unspaced :=
          withoutMark_of_kept (Bool.eq_false_iff.mpr keeps) unspaced
        rw [unledEq, marked, leadingDigits_mark] at word
        rw [marked]
        exact word.reads (List.cons_ne_nil _ _)
  · intro rest marked skips
    have unledEq : unled = 0x30 :: 0x78 :: rest := by
      change withoutMark cursor.options unspaced = _
      rw [marked, withoutMark_of_skipped skips]
    rw [unledEq, leadingDigits_mark] at word
    exact ⟨(word.reads (List.cons_ne_nil _ _)).1, (word.leaves (List.cons_ne_nil _ _)).1⟩

/-- Spaces and a mark are skipped, and the digits of both cases end at the comma. -/
theorem word_is_leading_digits_spaced :
    let cursor : Cursor :=
      { bytes := [0x20, 0x30, 0x78, 0x66, 0x46, 0x2c], position := 0, options := {} }
    cursor.Reachable ∧
      ((Call.readHex .u32 .big).run cursor).result = .ok (.integer 255) ∧
      ((Call.readHex .u32 .big).run cursor).state.cursor = cursor.seek 5 := by
  intro cursor
  have reachable : cursor.Reachable := .ofText (by decide) (by decide) {}
  exact ⟨reachable, (word_is_leading_digits reachable).1.reads (by decide)⟩

end Hexadecimal

end ByteCursor
