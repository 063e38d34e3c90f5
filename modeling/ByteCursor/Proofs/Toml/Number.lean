import ByteCursor.Proofs.Toml.Text
import Mathlib.Data.Bool.AllAny

/-!
# Numbers of the grammar

A number ends where a value does: before a blank, a comment, a comma, a closing bracket or the end
of its line.  None of these goes on with the digits.
-/

namespace ByteCursor.Toml

variable {text rest digits : List Char} {character : Char} {base : Nat}

/-! ## Digits -/

theorem isDigit_iff : isDigit character = true ↔ IsDigitOf 10 character := by
  simp only [isDigit, IsDigitOf, hexDigit?, Bool.and_eq_true, decide_eq_true_eq]
  constructor
  · rintro ⟨lower, upper⟩
    have bound : character.toNat ≤ '9'.toNat := upper
    refine ⟨_, if_pos ⟨lower, upper⟩, ?_⟩
    simp at bound
    omega
  · rintro ⟨value, found, small⟩
    split at found
    next inRange => exact inRange
    next =>
      split at found
      next => cases found; omega
      next =>
        split at found
        next => cases found; omega
        next => cases found

theorem any_hexDigit?_iff :
    (hexDigit? character).any (· < base) = true ↔ IsDigitOf base character := by
  simp [IsDigitOf, Option.any_eq_true]

theorem IsDigitOf.ne_underscore (isDigit : IsDigitOf base character) : character ≠ '_' := by
  rintro rfl
  obtain ⟨value, found, -⟩ := isDigit
  cases found

theorem WritesDigits.exists_head (writes : WritesDigits base text digits) :
    ∃ first tail, text = first :: tail ∧ IsDigitOf base first := by
  cases writes with
  | last isDigit | next isDigit | underscore isDigit => exact ⟨_, _, rfl, isDigit⟩

theorem WritesDigits.head?_eq (writes : WritesDigits base text digits) :
    digits.head? = text.head? := by
  cases writes <;> rfl

/-! ## The ends of values -/

/-- What may stand behind a value and the blanks behind it. -/
def valueEnds : List Char := ['\n', '\r', '#', ',', ']', '\x7d']

/-- A value ends before the rest. -/
def EndsValue (rest : List Char) : Prop :=
  ∀ next, (rest.dropWhile isBlank).head? = some next → next ∈ valueEnds

namespace EndsValue

variable (ends : EndsValue rest)

include ends

theorem head_mem {next : Char} (found : rest.head? = some next) :
    next ∈ [' ', '\t'] ++ valueEnds := by
  cases rest with
  | nil => cases found
  | cons head tail =>
      cases found
      cases blank : isBlank next with
      | true =>
          apply List.mem_append_left
          simpa [isBlank_iff] using blank
      | false =>
          apply List.mem_append_right
          exact ends next (by rw [List.dropWhile_cons, blank]; rfl)

theorem head?_ne {head : Char} (apart : head ∉ [' ', '\t'] ++ valueEnds) :
    rest.head? ≠ some head :=
  fun found => apart (ends.head_mem found)

theorem refuses_char {head : Char} (apart : head ∉ [' ', '\t'] ++ valueEnds) :
    Parser.char head rest = none :=
  Parser.char_of_head?_ne (ends.head?_ne apart)

theorem stops {inClass : Char → Bool}
    (noEnd : ([' ', '\t'] ++ valueEnds).any inClass = false) : Parser.Stops inClass rest :=
  fun next found => Bool.eq_false_iff.mpr (List.any_eq_false.mp noEnd next (ends.head_mem found))

end EndsValue

namespace Parser

section Digits

variable {inClass : Char → Bool} (isClass : ∀ next, inClass next = true ↔ IsDigitOf base next)

include isClass

theorem repeats_digits (writes : WritesDigits base text digits) (stops : Stops inClass rest)
    (apart : rest.head? ≠ some '_') :
    ∃ first tail others, text = first :: tail ∧ digits = first :: others ∧ inClass first = true ∧
      Repeats (satisfy inClass <|> (char '_' *> satisfy inClass)) (tail ++ rest) others rest := by
  have noUnderscore : inClass '_' = false := by
    rw [← Bool.not_eq_true, isClass]
    exact fun isDigit => isDigit.ne_underscore rfl
  induction writes with
  | @last digit isDigit =>
      have refuses : (satisfy inClass <|> (char '_' *> satisfy inClass)) rest = none :=
        (orElse_of_none (satisfy_of_stops stops)).trans (bind_of_none (char_of_head?_ne apart))
      exact ⟨digit, [], [], rfl, rfl, (isClass _).mpr isDigit, .done refuses⟩
  | @next digit text digits isDigit _ ih =>
      obtain ⟨first, tail, others, rfl, rfl, isFirst, later⟩ := ih
      exact ⟨digit, _, _, rfl, rfl, (isClass _).mpr isDigit,
        .step (orElse_of_some (satisfy_cons isFirst _)) (by simp) later⟩
  | @underscore digit text digits isDigit _ ih =>
      obtain ⟨first, tail, others, rfl, rfl, isFirst, later⟩ := ih
      have passed : (char '_' *> satisfy inClass) ('_' :: first :: (tail ++ rest)) =
          some (first, tail ++ rest) :=
        (seqRight_of_some (char_cons '_' _)).trans (satisfy_cons isFirst _)
      have noDigit := satisfy_of_stops (stops_cons noUnderscore (first :: (tail ++ rest)))
      exact ⟨digit, _, _, rfl, rfl, (isClass _).mpr isDigit,
        .step ((orElse_of_none noDigit).trans passed)
          (length_lt_append (List.cons_ne_nil '_' [first]) _) later⟩

theorem digitGroups_append (writes : WritesDigits base text digits) (stops : Stops inClass rest)
    (apart : rest.head? ≠ some '_') : digitGroups inClass (text ++ rest) = some (digits, rest) := by
  obtain ⟨first, tail, others, rfl, rfl, isFirst, repeats⟩ :=
    repeats_digits isClass writes stops apart
  rw [List.cons_append, digitGroups, bind_of_some (satisfy_cons isFirst _),
    bind_of_some repeats.many_eq]
  rfl

end Digits

/-- What does not go on with decimal digits. -/
structure EndsDigits (rest : List Char) : Prop where
  stops : Stops isDigit rest
  apart : rest.head? ≠ some '_'

theorem decimalDigits_of_head?_ne (apart : text.head? ≠ some '0') :
    decimalDigits text = digitGroups isDigit text := by
  have seen : peek text = some (text.head?, text) := rfl
  rw [decimalDigits, bind_of_some seen]
  apply congrFun
  split
  next same => exact absurd same apart
  next => rfl

theorem decimalDigits_append (writes : WritesDecimal text digits) (ends : EndsDigits rest) :
    decimalDigits (text ++ rest) = some (digits, rest) := by
  obtain ⟨writes, noZero⟩ := writes
  obtain ⟨first, tail, others, rfl, rfl, isFirst, -⟩ :=
    repeats_digits (fun _ => isDigit_iff) writes ends.stops ends.apart
  by_cases zero : first = '0'
  · subst zero
    cases noZero rfl
    cases writes with
    | last => rfl
    | next _ later => cases later
  · rw [decimalDigits_of_head?_ne (by simpa using zero)]
    exact digitGroups_append (fun _ => isDigit_iff) writes ends.stops ends.apart

/-- A sign is read where there is one, and else nothing. -/
theorem sign_append {sign : List Char} {isNegative : Bool} (hasSign : WritesSign sign isNegative)
    (apart : rest.head? ∉ [some '+', some '-']) :
    ∃ read, optional Parser.sign (sign ++ rest) = some (read, rest) ∧
      read.getD false = isNegative := by
  cases hasSign with
  | nothing =>
      have noMinus : char '-' rest = none := char_of_head?_ne (head?_ne_of_not_mem apart (by simp))
      have noPlus : char '+' rest = none := char_of_head?_ne (head?_ne_of_not_mem apart (by simp))
      have refuses : Parser.sign rest = none :=
        (orElse_of_none (bind_of_none noMinus)).trans (bind_of_none noPlus)
      exact ⟨_, optional_of_none refuses, rfl⟩
  | plus => exact ⟨some false, rfl, rfl⟩
  | minus => exact ⟨some true, rfl, rfl⟩

theorem EndsDigits.of_endsValue (ends : EndsValue rest) : EndsDigits rest where
  stops := ends.stops (by decide)
  apart := ends.head?_ne (by decide)

/-! ## Integers -/

/-- Behind the sign of a number stands a digit, which is no second sign. -/
theorem head?_not_sign (writes : WritesDigits 10 text digits) (rest : List Char) :
    (text ++ rest).head? ∉ [some '+', some '-'] := by
  obtain ⟨first, tail, rfl, value, found, -⟩ := writes.exists_head
  simp only [List.cons_append, List.head?_cons, List.mem_cons, Option.some_inj, List.not_mem_nil,
    or_false]
  rintro (rfl | rfl) <;> cases found

theorem markedInteger_append (mark : List Char) (writes : WritesDigits base text digits)
    (fits : numeral base digits < 2 ^ 63) (ends : EndsValue rest) :
    markedInteger mark base (mark ++ (text ++ rest)) =
      some ((numeral base digits : Int), rest) := by
  have stops : Stops (fun next => (hexDigit? next).any (· < base)) rest := by
    intro next found
    have noDigit : ∀ next ∈ [' ', '\t'] ++ valueEnds, hexDigit? next = none :=
      List.all_iff_forall_prop.mp rfl
    simp [noDigit next (ends.head_mem found)]
  have taken := digitGroups_append (fun _ => any_hexDigit?_iff) writes stops
    (ends.head?_ne (by decide))
  rw [markedInteger, bind_of_some (word_append mark _), bind_of_some taken]
  exact congrFun (if_pos fits) rest

theorem decimalInteger_append {sign : List Char} {isNegative : Bool}
    (hasSign : WritesSign sign isNegative) (writes : WritesDecimal text digits)
    (fits : -2 ^ 63 ≤ signed isNegative (numeral 10 digits) ∧
      signed isNegative (numeral 10 digits) < 2 ^ 63) (ends : EndsValue rest) :
    decimalInteger (sign ++ (text ++ rest)) =
      some (signed isNegative (numeral 10 digits), rest) := by
  obtain ⟨found, read, rfl⟩ := sign_append hasSign (head?_not_sign writes.1 rest)
  rw [decimalInteger, bind_of_some read,
    bind_of_some (decimalDigits_append writes (.of_endsValue ends))]
  have limit : (integerLimit : Int) = 2 ^ 63 := rfl
  apply congrFun (if_pos _) rest
  rw [Bool.and_eq_true, decide_eq_true_eq, decide_eq_true_eq, limit]
  exact fits

theorem word_zero_of_decimal {sign : List Char} {isNegative : Bool}
    (hasSign : WritesSign sign isNegative) (writes : WritesDecimal text digits)
    (apart : rest.head? ≠ some character) :
    word ['0', character] (sign ++ (text ++ rest)) = none := by
  apply word_of_not_isPrefix
  intro starts
  cases hasSign with
  | plus | minus => simp at starts
  | nothing =>
      obtain ⟨first, tail, rfl, -⟩ := writes.1.exists_head
      obtain ⟨rfl, later⟩ := List.cons_prefix_cons.mp starts
      cases writes.2 writes.1.head?_eq
      obtain ⟨more, same⟩ := later
      exact apart (congrArg List.head? same.symm)

theorem integer_append {number : Int} (writes : WritesInteger text number) (ends : EndsValue rest) :
    integer (text ++ rest) = some (number, rest) := by
  cases writes with
  | based announced writes fits =>
      simp only [List.mem_cons, Prod.mk.injEq, List.not_mem_nil, or_false] at announced
      have read (mark : Char) := markedInteger_append ['0', mark] writes fits ends
      obtain ⟨rfl, rfl⟩ | ⟨rfl, rfl⟩ | ⟨rfl, rfl⟩ := announced
      · exact orElse_of_some (read 'x')
      · exact (orElse_of_none rfl).trans (orElse_of_some (read 'o'))
      · exact (orElse_of_none rfl).trans ((orElse_of_none rfl).trans (orElse_of_some (read 'b')))
  | decimal hasSign writes fits =>
      have other {mark : Char} (base : Nat) (apart : mark ∉ [' ', '\t'] ++ valueEnds) :
          markedInteger ['0', mark] base _ = none :=
        bind_of_none (word_zero_of_decimal hasSign writes (ends.head?_ne apart))
      rw [List.append_assoc, integer, orElse_of_none (other 16 (by decide)),
        orElse_of_none (other 8 (by decide)), orElse_of_none (other 2 (by decide))]
      exact decimalInteger_append hasSign writes fits ends

/-! ## Floats -/

theorem places_append {text digits : List Char} (hasPlaces : WritesPlaces text digits)
    (ends : EndsDigits rest) (noPoint : rest.head? ≠ some '.') :
    ∃ read, optional fraction (text ++ rest) = some (read, rest) ∧ read.getD [] = digits ∧
      (read = none ↔ text = []) := by
  cases hasPlaces with
  | nothing =>
      have refuses : fraction rest = none := bind_of_none (char_of_head?_ne noPoint)
      exact ⟨_, optional_of_none refuses, rfl, iff_of_true rfl rfl⟩
  | places writes =>
      have taken := digitGroups_append (fun _ => isDigit_iff) writes ends.stops ends.apart
      have reads := (seqRight_of_some (char_cons '.' _)).trans taken
      exact ⟨_, optional_of_some reads, rfl, iff_of_false nofun nofun⟩

theorem exponent_of_endsValue (ends : EndsValue rest) : exponent rest = none :=
  bind_of_none <|
    (orElse_of_none (ends.refuses_char (by decide))).trans (ends.refuses_char (by decide))

theorem power_append {power : Int} (hasPower : WritesPower text power) (ends : EndsValue rest) :
    ∃ read, optional exponent (text ++ rest) = some (read, rest) ∧ read.getD 0 = power ∧
      (read = none ↔ text = []) := by
  cases hasPower with
  | nothing =>
      exact ⟨_, optional_of_none (exponent_of_endsValue ends), rfl, iff_of_true rfl rfl⟩
  | @power mark sign text digits isNegative isMark hasSign writes =>
      obtain ⟨found, signed, rfl⟩ := sign_append hasSign (head?_not_sign writes rest)
      have taken := digitGroups_append (fun _ => isDigit_iff) writes
        (EndsDigits.of_endsValue ends).stops (EndsDigits.of_endsValue ends).apart
      have marked (tail : List Char) :
          (char 'e' <|> char 'E') (mark :: tail) = some ((), tail) := by
        obtain rfl | rfl := isMark <;> rfl
      have reads : exponent (mark :: (sign ++ (text ++ rest))) =
          some (Toml.signed (found.getD false) (numeral 10 digits), rest) := by
        rw [exponent, bind_of_some (marked _), bind_of_some signed, bind_of_some taken]
        rfl
      simp only [List.cons_append, List.append_assoc]
      exact ⟨_, optional_of_some reads, rfl, iff_of_false nofun nofun⟩

/-- Behind the places of a float stands its exponent or the end of the value. -/
theorem head?_power_append {power : Int} (hasPower : WritesPower text power)
    (ends : EndsValue rest) : EndsDigits (text ++ rest) ∧ (text ++ rest).head? ≠ some '.' := by
  cases hasPower with
  | nothing => exact ⟨.of_endsValue ends, ends.head?_ne (by decide)⟩
  | power isMark => obtain rfl | rfl := isMark <;> exact ⟨⟨stops_cons rfl _, by simp⟩, by simp⟩

theorem decimalFloat_append {sign whole places power wholeDigits placeDigits : List Char}
    {isNegative : Bool} {exponent : Int} (hasSign : WritesSign sign isNegative)
    (hasWhole : WritesDecimal whole wholeDigits) (hasPlaces : WritesPlaces places placeDigits)
    (hasPower : WritesPower power exponent) (noInteger : places ++ power ≠ [])
    (ends : EndsValue rest) :
    decimalFloat (sign ++ (whole ++ (places ++ (power ++ rest)))) =
      some (.finite isNegative (numeral 10 (wholeDigits ++ placeDigits))
        (exponent - placeDigits.length), rest) := by
  obtain ⟨endsPlaces, noPoint⟩ := head?_power_append hasPower ends
  have endsWhole : EndsDigits (places ++ (power ++ rest)) := by
    cases hasPlaces with
    | nothing => exact endsPlaces
    | places => exact ⟨stops_cons rfl _, by simp⟩
  obtain ⟨foundPower, readPower, rfl, noPower⟩ := power_append hasPower ends
  obtain ⟨foundPlaces, readPlaces, rfl, noPlaces⟩ := places_append hasPlaces endsPlaces noPoint
  obtain ⟨foundSign, readSign, rfl⟩ :=
    sign_append hasSign (head?_not_sign hasWhole.1 (places ++ (power ++ rest)))
  have isFloat : ¬ (foundPlaces.isNone && foundPower.isNone) = true := by
    simpa [noPlaces, noPower] using noInteger
  rw [decimalFloat, bind_of_some readSign, bind_of_some (decimalDigits_append hasWhole endsWhole),
    bind_of_some readPlaces, bind_of_some readPower]
  exact congrFun (if_neg isFloat) rest

/-- Digits that neither places nor an exponent follow are no float. -/
theorem decimalFloat_of_integer {sign : List Char} {isNegative : Bool}
    (hasSign : WritesSign sign isNegative) (writes : WritesDecimal text digits)
    (ends : EndsValue rest) : decimalFloat (sign ++ (text ++ rest)) = none := by
  obtain ⟨found, readSign, rfl⟩ := sign_append hasSign (head?_not_sign writes.1 rest)
  have noPlaces : fraction rest = none := bind_of_none (ends.refuses_char (by decide))
  have noPower : exponent rest = none := exponent_of_endsValue ends
  rw [decimalFloat, bind_of_some readSign,
    bind_of_some (decimalDigits_append writes (.of_endsValue ends)),
    bind_of_some (optional_of_none noPlaces), bind_of_some (optional_of_none noPower)]
  rfl

theorem specialFloat_of_digit {sign : List Char} {isNegative : Bool}
    (hasSign : WritesSign sign isNegative) (writes : WritesDigits 10 text digits) :
    specialFloat (sign ++ (text ++ rest)) = none := by
  obtain ⟨found, readSign, rfl⟩ := sign_append hasSign (head?_not_sign writes rest)
  obtain ⟨first, tail, rfl, value, isDigit, -⟩ := writes.exists_head
  have apart (letter : Char) (later : List Char) (noDigit : hexDigit? letter = none) :
      word (letter :: later) (first :: tail ++ rest) = none := by
    apply bind_of_none (char_of_head?_ne _)
    rintro ⟨⟩
    cases noDigit.symm.trans isDigit
  rw [specialFloat, bind_of_some readSign, orElse_of_none (bind_of_none (apart _ _ rfl))]
  exact bind_of_none (apart _ _ rfl)

theorem float_of_integer {number : Int} (writes : WritesInteger text number)
    (ends : EndsValue rest) : float (text ++ rest) = none := by
  cases writes with
  | based announced writes =>
      simp only [List.mem_cons, Prod.mk.injEq, List.not_mem_nil, or_false] at announced
      obtain ⟨rfl, -⟩ | ⟨rfl, -⟩ | ⟨rfl, -⟩ := announced <;> rfl
  | decimal hasSign writes =>
      have noFloat := decimalFloat_of_integer hasSign writes ends
      rw [List.append_assoc]
      exact bind_of_none ((orElse_of_none noFloat).trans (specialFloat_of_digit hasSign writes.1))

theorem specialFloat_append {sign : List Char} {isNegative : Bool}
    (hasSign : WritesSign sign isNegative) (rest : List Char) :
    float (sign ++ 'i' :: 'n' :: 'f' :: rest) = some (.infinite isNegative, rest) ∧
      float (sign ++ 'n' :: 'a' :: 'n' :: rest) = some (.undefined isNegative, rest) := by
  cases hasSign with
  | nothing | plus | minus => exact ⟨rfl, rfl⟩

theorem float_append {number : FloatNumber} (writes : WritesFloat text number)
    (holds : number.isTooLarge = false) (ends : EndsValue rest) :
    float (text ++ rest) = some (number, rest) := by
  cases writes with
  | decimal hasSign hasWhole hasPlaces hasPower noInteger =>
      have read := decimalFloat_append hasSign hasWhole hasPlaces hasPower noInteger ends
      simp only [List.append_assoc]
      rw [float, bind_of_some (orElse_of_some read)]
      exact congrFun (if_neg (by simp [holds])) rest
  | infinite hasSign => simpa using (specialFloat_append hasSign rest).1
  | undefined hasSign => simpa using (specialFloat_append hasSign rest).2

end Parser

end ByteCursor.Toml
