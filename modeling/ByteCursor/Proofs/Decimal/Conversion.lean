import ByteCursor.Proofs.Call.Result
import ByteCursor.Proofs.Decimal.Language

/-!
# Agreement with the conversion of C strings

`strtol` converts a string that a zero octet ends: it skips the octets of `isspace`, takes an
optional sign and then decimal digits, and points behind the last octet that it took.  The 32-bit
reads do the same, with two exceptions: `isspace` has the vertical tab, which is no blank before a
decimal number, and a conversion does not count its digits.

So a read agrees with the conversion exactly if there is nothing to convert to a value of 32 bits,
or if no vertical tab stands in the white space and the digits are counted.
-/

namespace ByteCursor

open Decimal

namespace Decimal

/-- The octets of `isspace` in the locale "C": the space, and horizontal tab, line feed, vertical
tab, form feed and carriage return. -/
def isWhite (byte : UInt8) : Bool := byte == 0x20 || (0x09 ≤ byte && byte ≤ 0x0d)

/-- What a conversion gives: the value, whether or not an integer type has it, and how many octets
stand before the end pointer. -/
structure Conversion where
  value : Int
  stop : Nat
  deriving DecidableEq, Repr

namespace Conversion

/-- Behind a digit: append the digits that follow to the number so far. -/
def ofDigits (isNegative : Bool) (found stop : Nat) : Bytes → Conversion
  | [] => { value := signed isNegative found, stop := stop }
  | byte :: rest =>
      if Bytes.isDigit byte then
        ofDigits isNegative (10 * found + digitNumber byte) (stop + 1) rest
      else { value := signed isNegative found, stop := stop }

/-- Behind the sign: without a digit there is no conversion. -/
def ofUnsigned? (isNegative : Bool) (stop : Nat) : Bytes → Option Conversion
  | [] => none
  | byte :: rest =>
      if Bytes.isDigit byte then some (ofDigits isNegative (digitNumber byte) (stop + 1) rest)
      else none

/-- At the white space, or at what follows it. -/
def ofString? (stop : Nat) : Bytes → Option Conversion
  | [] => none
  | byte :: rest =>
      if isWhite byte then ofString? (stop + 1) rest
      else if byte = 0x2b then ofUnsigned? false (stop + 1) rest
      else if byte = 0x2d then ofUnsigned? true (stop + 1) rest
      else ofUnsigned? false stop (byte :: rest)

end Conversion

/-- The conversion of the string that stands in the octets, up to their first zero octet. -/
def convert? (octets : Bytes) : Option Conversion := Conversion.ofString? 0 octets

/-- The text, before a zero octet, is converted to a value between the bounds. -/
def ConvertsWithin (text : Bytes) (least greatest : Int) : Prop :=
  ∃ conversion, convert? (text ++ [0]) = some conversion ∧
    least ≤ conversion.value ∧ conversion.value ≤ greatest

/-- A vertical tab stands in the white space that the text starts with. -/
def HasVerticalTab (text : Bytes) : Prop := 0x0b ∈ text.takeWhile isWhite

/-- The digits behind the white space and the sign that the text starts with. -/
def convertedDigits (text : Bytes) : Bytes :=
  let unblanked := text.dropWhile isWhite
  (unblanked.drop (signOf true unblanked).length).takeWhile Bytes.isDigit

/-- Something before the digits that are converted is not blank, or the program does not count
them. -/
def HidesConversion (arithmetic : Arithmetic) (text : Bytes) : Prop :=
  HasVerticalTab text ∨ ¬ arithmetic.Counts (convertedDigits text).length

end Decimal

/-- The read of the type succeeds exactly if the unread octets, before a zero octet, are converted
to a value between the bounds; then it gives that value and ends where the conversion ends. -/
def Cursor.AgreesWithConversion (cursor : Cursor) (type : IntType) (arithmetic : Arithmetic)
    (least greatest : Int) : Prop :=
  ∀ reply later,
    (((Call.readDecimal type).run cursor arithmetic).result = .ok reply ∧
        ((Call.readDecimal type).run cursor arithmetic).state.cursor = later) ↔
      ∃ conversion, convert? (cursor.remaining ++ [0]) = some conversion ∧
        (least ≤ conversion.value ∧ conversion.value ≤ greatest) ∧
        reply = .integer conversion.value ∧
        later = cursor.seek (cursor.position + conversion.stop)

namespace Decimal

variable {text : Bytes} {isSigned : Bool}

/-! ## The parts of a converted string -/

namespace Numeral

/-- The parts that are split off a text where octets of the class may stand before the sign. -/
def behind (inClass : UInt8 → Bool) (isSigned : Bool) (text : Bytes) : Numeral :=
  let unblanked := text.dropWhile inClass
  let sign := signOf isSigned unblanked
  { blanks := text.takeWhile inClass
    sign := sign
    digits := (unblanked.drop sign.length).takeWhile Bytes.isDigit }

theorem ofText_eq_behind (isSigned : Bool) (text : Bytes) :
    ofText isSigned text = behind Bytes.isBlank isSigned text := rfl

variable {inClass : UInt8 → Bool} {byte : UInt8}

theorem behind_cons_of_member (isSigned : Bool) (rest : Bytes) (member : inClass byte = true) :
    behind inClass isSigned (byte :: rest) =
      { behind inClass isSigned rest with
        blanks := byte :: (behind inClass isSigned rest).blanks } := by
  simp [behind, member]

theorem behind_cons_of_other (isSigned : Bool) (rest : Bytes) (other : inClass byte = false) :
    behind inClass isSigned (byte :: rest) =
      { blanks := []
        sign := signOf isSigned (byte :: rest)
        digits := ((byte :: rest).drop (signOf isSigned (byte :: rest)).length).takeWhile
          Bytes.isDigit } := by
  simp [behind, other]

end Numeral

namespace Conversion

theorem ofDigits_eq (isNegative : Bool) (digits : Bytes) (stop : Nat) (text : Bytes) :
    ofDigits isNegative (number digits) stop text =
      { value := signed isNegative (number (digits ++ text.takeWhile Bytes.isDigit))
        stop := stop + (text.takeWhile Bytes.isDigit).length } := by
  induction text generalizing digits stop with
  | nil => simp [ofDigits]
  | cons byte rest ih =>
      cases isDigit : Bytes.isDigit byte with
      | false => simp [ofDigits, isDigit]
      | true =>
          rw [ofDigits, if_pos isDigit, ← number_concat, ih, List.takeWhile_cons_of_pos isDigit,
            List.length_cons, List.append_assoc, List.singleton_append]
          congr 1
          omega

theorem ofUnsigned?_eq (isNegative : Bool) (stop : Nat) (text : Bytes) :
    ofUnsigned? isNegative stop text =
      if text.takeWhile Bytes.isDigit = [] then none
      else
        some { value := signed isNegative (number (text.takeWhile Bytes.isDigit))
               stop := stop + (text.takeWhile Bytes.isDigit).length } := by
  cases text with
  | nil => rfl
  | cons byte rest =>
      cases isDigit : Bytes.isDigit byte with
      | false => simp [ofUnsigned?, isDigit]
      | true =>
          have first : digitNumber byte = number [byte] := by simp [number]
          rw [ofUnsigned?, if_pos isDigit, List.takeWhile_cons_of_pos isDigit,
            if_neg (List.cons_ne_nil _ _), first, ofDigits_eq, List.singleton_append,
            List.length_cons]
          congr 2
          omega

/-- Behind the white space the sign decides how the digits are read. -/
theorem ofString?_of_not_white {byte : UInt8} (stop : Nat) (rest : Bytes)
    (other : isWhite byte = false) :
    ofString? stop (byte :: rest) =
      ofUnsigned? (signOf true (byte :: rest) == [0x2d])
        (stop + (signOf true (byte :: rest)).length)
        ((byte :: rest).drop (signOf true (byte :: rest)).length) := by
  rw [ofString?, if_neg (Bool.eq_false_iff.mp other)]
  by_cases plus : byte = 0x2b
  · simp [signOf, plus]
  · by_cases minus : byte = 0x2d
    · simp [signOf, minus]
    · simp [signOf, plus, minus]

theorem ofString?_eq (stop : Nat) (text : Bytes) :
    ofString? stop text =
      if (Numeral.behind isWhite true text).digits = [] then none
      else
        some { value := (Numeral.behind isWhite true text).value
               stop := stop + (Numeral.behind isWhite true text).octets.length } := by
  induction text generalizing stop with
  | nil => rfl
  | cons byte rest ih =>
      cases white : isWhite byte with
      | true =>
          have parts := Numeral.behind_cons_of_member true rest white
          have length : stop + 1 + (Numeral.behind isWhite true rest).octets.length =
              stop + (Numeral.behind isWhite true (byte :: rest)).octets.length := by
            simp only [parts, Numeral.octets, List.cons_append, List.length_cons]
            omega
          rw [ofString?, if_pos white, ih, length, parts]
          rfl
      | false =>
          rw [ofString?_of_not_white stop rest white, ofUnsigned?_eq,
            Numeral.behind_cons_of_other true rest white, Numeral.octets, List.nil_append,
            List.length_append, ← Nat.add_assoc]
          rfl

/-- Nothing behind the first zero octet is looked at. -/
theorem ofDigits_append_zero (isNegative : Bool) (found stop : Nat) (text rest : Bytes) :
    ofDigits isNegative found stop (text ++ 0 :: rest) = ofDigits isNegative found stop text := by
  induction text generalizing found stop with
  | nil => rfl
  | cons byte text ih => simp only [List.cons_append, ofDigits, ih]

theorem ofUnsigned?_append_zero (isNegative : Bool) (stop : Nat) (text rest : Bytes) :
    ofUnsigned? isNegative stop (text ++ 0 :: rest) = ofUnsigned? isNegative stop text := by
  cases text with
  | nil => rfl
  | cons byte text => simp only [List.cons_append, ofUnsigned?, ofDigits_append_zero]

theorem ofString?_append_zero (stop : Nat) (text rest : Bytes) :
    ofString? stop (text ++ 0 :: rest) = ofString? stop text := by
  induction text generalizing stop with
  | nil => rfl
  | cons byte text ih =>
      simp only [List.cons_append, ofString?, ih, ofUnsigned?_append_zero]
      rw [← List.cons_append, ofUnsigned?_append_zero]

end Conversion

theorem convert?_terminated (text : Bytes) :
    convert? (text ++ [0]) =
      if (Numeral.behind isWhite true text).digits = [] then none
      else
        some { value := (Numeral.behind isWhite true text).value
               stop := (Numeral.behind isWhite true text).octets.length } := by
  rw [convert?, Conversion.ofString?_append_zero, Conversion.ofString?_eq]
  simp only [Nat.zero_add]

/-! ## Blanks and white space -/

theorem isWhite_iff {byte : UInt8} :
    isWhite byte = true ↔ Bytes.isBlank byte = true ∨ byte = 0x0b := by
  simp only [isWhite, Bytes.isBlank, Bool.or_eq_true, Bool.and_eq_true, beq_iff_eq,
    decide_eq_true_eq, UInt8.le_iff_toNat_le, ← UInt8.toNat_inj]
  change byte.toNat = 32 ∨ 9 ≤ byte.toNat ∧ byte.toNat ≤ 13 ↔
    ((((byte.toNat = 32 ∨ byte.toNat = 9) ∨ byte.toNat = 10) ∨ byte.toNat = 12) ∨
      byte.toNat = 13) ∨ byte.toNat = 11
  omega

/-- A vertical tab is neither a blank nor a sign nor a digit, so the scanner finds no number. -/
theorem digits_eq_nil_of_hasVerticalTab (tab : HasVerticalTab text) :
    (Numeral.ofText isSigned text).digits = [] := by
  induction text with
  | nil => rfl
  | cons byte rest ih =>
      rw [Numeral.ofText_eq_behind] at ih ⊢
      cases blank : Bytes.isBlank byte with
      | true =>
          have white : isWhite byte = true := isWhite_iff.mpr (.inl blank)
          have later : HasVerticalTab rest := by
            rw [HasVerticalTab, List.takeWhile_cons_of_pos white, List.mem_cons] at tab
            refine tab.resolve_left ?_
            rintro rfl
            cases blank
          rw [Numeral.behind_cons_of_member isSigned rest blank]
          exact ih later
      | false =>
          have first : byte = 0x0b := by
            by_contra other
            have notWhite : ¬ isWhite byte = true := by simp [isWhite_iff, blank, other]
            rw [HasVerticalTab, List.takeWhile_cons_of_neg notWhite] at tab
            cases tab
          rw [Numeral.behind_cons_of_other isSigned rest blank, first]
          rfl

/-- The scanner knows the signs of the conversion, or the one that it does not know is missing. -/
def SignsAgree (isSigned : Bool) (text : Bytes) : Prop :=
  isSigned = true ∨ (text.dropWhile isWhite).head? ≠ some 0x2d

/-- Without a vertical tab the scanner goes through the same parts as the conversion. -/
theorem ofText_eq_of_noVerticalTab (noTab : ¬ HasVerticalTab text)
    (sameSigns : SignsAgree isSigned text) :
    Numeral.ofText isSigned text = Numeral.behind isWhite true text := by
  induction text with
  | nil => cases isSigned <;> rfl
  | cons byte rest ih =>
      rw [Numeral.ofText_eq_behind] at ih ⊢
      cases white : isWhite byte with
      | true =>
          rw [HasVerticalTab, List.takeWhile_cons_of_pos white, List.mem_cons, not_or] at noTab
          rw [SignsAgree, List.dropWhile_cons_of_pos white] at sameSigns
          have blank : Bytes.isBlank byte = true :=
            (isWhite_iff.mp white).resolve_right fun tab => noTab.1 tab.symm
          rw [Numeral.behind_cons_of_member isSigned rest blank,
            Numeral.behind_cons_of_member true rest white, ih noTab.2 sameSigns]
      | false =>
          have other : Bytes.isBlank byte = false := by
            rw [Bool.eq_false_iff]
            intro blank
            rw [isWhite_iff.mpr (.inl blank)] at white
            cases white
          have sameSign : signOf isSigned (byte :: rest) = signOf true (byte :: rest) := by
            rcases sameSigns with rfl | noMinus
            · rfl
            · rw [List.dropWhile_cons_of_neg (by simp [white])] at noMinus
              simp only [signOf, noMinus, false_and, or_false]
          rw [Numeral.behind_cons_of_other isSigned rest other,
            Numeral.behind_cons_of_other true rest white, sameSign]

/-! ## The reads of 32 bits -/

variable {cursor : Cursor} {type : IntType} {arithmetic : Arithmetic}

/-- A read finds what is converted, unless something hides it. -/
theorem reads_iff_converts (isWord : type = type.widened) (valid : cursor.Valid)
    (sameSigns : SignsAgree type.isSigned cursor.remaining)
    (reply : Reply) (later : Cursor) :
    (((Call.readDecimal type).run cursor arithmetic).result = .ok reply ∧
        ((Call.readDecimal type).run cursor arithmetic).state.cursor = later) ↔
      ¬ HidesConversion arithmetic cursor.remaining ∧
        ∃ conversion, convert? (cursor.remaining ++ [0]) = some conversion ∧
          type.Holds conversion.value ∧ reply = .integer conversion.value ∧
          later = cursor.seek (cursor.position + conversion.stop) := by
  have digitsEq : convertedDigits cursor.remaining =
      (Numeral.behind isWhite true cursor.remaining).digits := rfl
  rw [(readsNumerals_of_word isWord valid arithmetic).reads_iff, HidesConversion, digitsEq]
  simp only [startsWithin_iff rfl, and_assoc, exists_eq_left]
  by_cases tab : HasVerticalTab cursor.remaining
  · simp [digits_eq_nil_of_hasVerticalTab tab, tab]
  · rw [ofText_eq_of_noVerticalTab tab sameSigns, convert?_terminated]
    by_cases missing : (Numeral.behind isWhite true cursor.remaining).digits = []
    · simp [missing]
    · simp only [missing, tab, ne_eq, not_false_eq_true, true_and, false_or, not_not, if_false,
        Option.some_inj, exists_eq_left']
      tauto

theorem misses_of_hasVerticalTab (isWord : type = type.widened) (valid : cursor.Valid)
    (tab : HasVerticalTab cursor.remaining) : (Call.readDecimal type).Misses cursor := by
  have ran := run_readDecimal_word isWord valid rfl (Arithmetic.reaches_wrapping _)
  rw [if_neg fun found => found.1.digits_ne_nil (digits_eq_nil_of_hasVerticalTab tab)] at ran
  exact Call.misses_of_missed ran

/-- What hides the conversion is the only difference, and it matters where there is something to
read. -/
theorem agreesWithConversion_iff (isWord : type = type.widened) (valid : cursor.Valid)
    (sameSigns : SignsAgree type.isSigned cursor.remaining) :
    cursor.AgreesWithConversion type arithmetic type.least type.greatest ↔
      ¬ (ConvertsWithin cursor.remaining type.least type.greatest ∧
        HidesConversion arithmetic cursor.remaining) := by
  constructor
  · rintro agrees ⟨⟨conversion, converted, within⟩, hidden⟩
    have read := (agrees _ _).mpr ⟨conversion, converted, within, rfl, rfl⟩
    exact ((reads_iff_converts isWord valid sameSigns _ _).mp read).1 hidden
  · intro notBoth reply later
    rw [reads_iff_converts isWord valid sameSigns]
    constructor
    · rintro ⟨-, found⟩
      exact found
    · rintro ⟨conversion, converted, holds, found⟩
      exact ⟨fun hidden => notBoth ⟨⟨conversion, converted, holds⟩, hidden⟩,
        conversion, converted, holds, found⟩

/-- The 32-bit reads agree with the conversion exactly unless something is converted to a value of
the type and a vertical tab stands before it or its digits are not counted; behind a vertical tab
they always miss.  Without a sign this says nothing of a minus, which is converted and not read. -/
theorem words_agree_with_conversion (reachable : cursor.Reachable) (arithmetic : Arithmetic) :
    (cursor.AgreesWithConversion .i32 arithmetic (-2 ^ 31) (2 ^ 31 - 1) ↔
        ¬ (ConvertsWithin cursor.remaining (-2 ^ 31) (2 ^ 31 - 1) ∧
          HidesConversion arithmetic cursor.remaining)) ∧
      ((cursor.remaining.dropWhile isWhite).head? ≠ some 0x2d →
        (cursor.AgreesWithConversion .u32 arithmetic 0 (2 ^ 32 - 1) ↔
          ¬ (ConvertsWithin cursor.remaining 0 (2 ^ 32 - 1) ∧
            HidesConversion arithmetic cursor.remaining))) ∧
      (HasVerticalTab cursor.remaining →
        (Call.readDecimal .i32).Misses cursor ∧ (Call.readDecimal .u32).Misses cursor) := by
  have valid := reachable.valid
  refine ⟨?signed, ?unsigned, ?behindTab⟩
  case signed => exact agreesWithConversion_iff rfl valid (.inl rfl)
  case unsigned =>
    intro noMinus
    exact agreesWithConversion_iff rfl valid (.inr noMinus)
  case behindTab =>
    intro tab
    exact ⟨misses_of_hasVerticalTab rfl valid tab, misses_of_hasVerticalTab rfl valid tab⟩

/-- Behind a tab, a form feed and a carriage return both find the number. -/
theorem words_agree_with_conversion_blanks :
    let cursor : Cursor :=
      { bytes := [0x09, 0x0c, 0x0d, 0x2d, 0x30, 0x37, 0x00, 0x31], position := 0, options := {} }
    cursor.Reachable ∧ ¬ HidesConversion .wrapping cursor.remaining ∧
      cursor.AgreesWithConversion .i32 .wrapping (-2 ^ 31) (2 ^ 31 - 1) ∧
      ((Call.readDecimal .i32).run cursor).result = .ok (.integer (-7)) ∧
      ((Call.readDecimal .i32).run cursor).state.cursor = cursor.seek 6 := by
  intro cursor
  have reachable : cursor.Reachable := .ofText (by decide) (by decide) {}
  have noTab : ¬ HasVerticalTab cursor.remaining := by
    rw [HasVerticalTab]
    decide
  have counts : Arithmetic.wrapping.Counts (convertedDigits cursor.remaining).length :=
    Arithmetic.counts_of_lt (by decide) (by decide)
  have visible : ¬ HidesConversion .wrapping cursor.remaining := fun hidden =>
    hidden.elim noTab fun uncounted => uncounted counts
  have agrees := (words_agree_with_conversion reachable .wrapping).1.mpr fun both => visible both.2
  have converted : convert? (cursor.remaining ++ [0]) = some { value := -7, stop := 6 } := by
    decide
  have read := (agrees (.integer (-7)) (cursor.seek 6)).mpr
    ⟨_, converted, by decide, rfl, rfl⟩
  exact ⟨reachable, visible, agrees, read.1, read.2⟩

/-- A vertical tab and a five are converted to five, and neither read finds a number there. -/
theorem words_part_from_conversion :
    let cursor : Cursor := { bytes := [0x0b, 0x35], position := 0, options := {} }
    cursor.Reachable ∧
      convert? (cursor.remaining ++ [0]) = some { value := 5, stop := 2 } ∧
      (Call.readDecimal .i32).Misses cursor ∧ (Call.readDecimal .u32).Misses cursor ∧
      ¬ cursor.AgreesWithConversion .i32 .wrapping (-2 ^ 31) (2 ^ 31 - 1) ∧
      ¬ cursor.AgreesWithConversion .u32 .wrapping 0 (2 ^ 32 - 1) := by
  intro cursor
  have reachable : cursor.Reachable := .ofText (by decide) (by decide) {}
  have converted : convert? (cursor.remaining ++ [0]) = some { value := 5, stop := 2 } := by
    decide
  have hidden : HidesConversion .wrapping cursor.remaining := by
    apply Or.inl
    rw [HasVerticalTab]
    decide
  have noMinus : SignsAgree IntType.u32.isSigned cursor.remaining := .inr (by decide)
  refine ⟨reachable, converted, ⟨by decide, by decide⟩, ⟨by decide, by decide⟩, ?signed, ?unsigned⟩
  case signed =>
    intro agrees
    exact (agreesWithConversion_iff rfl reachable.valid (.inl rfl)).mp agrees
      ⟨⟨_, converted, by decide⟩, hidden⟩
  case unsigned =>
    intro agrees
    exact (agreesWithConversion_iff rfl reachable.valid noMinus).mp agrees
      ⟨⟨_, converted, by decide⟩, hidden⟩

end Decimal

end ByteCursor
