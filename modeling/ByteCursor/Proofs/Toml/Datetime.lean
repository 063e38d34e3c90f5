import ByteCursor.Proofs.Toml.Number

/-!
# Dates and times of the grammar

A number of a fixed count of digits is read whatever follows it, so a date needs no boundary.  A
space behind it is followed by a time only if a digit comes next, which no value ends with.
-/

namespace ByteCursor.Toml

variable {text rest : List Char} {count number : Nat}

namespace Parser

/-! ## Numbers of a fixed length -/

theorem fixedDigits_append (writes : WritesFixed count text number) (rest : List Char) :
    fixedDigits count (text ++ rest) = some (number, rest) := by
  obtain ⟨rfl, decimal, rfl⟩ := writes
  have inside : text.all isDigit = true :=
    List.all_eq_true.mpr fun digit member => isDigit_iff.mpr (decimal digit member)
  simp [fixedDigits, inside]

theorem fixedDigits_of_mem {character : Char} (member : character ∈ text.take count)
    (noDigit : isDigit character = false) : fixedDigits count text = none := by
  have outside : (text.take count).all isDigit = false :=
    List.all_eq_false.mpr ⟨character, member, by simp [noDigit]⟩
  simp only [fixedDigits, outside, Bool.and_false]
  rfl

theorem fixedDigits_of_stops (positive : count ≠ 0) (stops : Stops isDigit text) :
    fixedDigits count text = none := by
  obtain ⟨count, rfl⟩ := Nat.exists_eq_succ_of_ne_zero positive
  cases text with
  | nil => rfl
  | cons head tail => exact fixedDigits_of_mem (by simp) (stops head rfl)

/-- As many characters as are read are digits. -/
theorem fixedDigits_eq_some {middle : List Char}
    (read : fixedDigits count text = some (number, middle)) :
    text = text.take count ++ middle ∧ (∀ digit ∈ text.take count, isDigit digit = true) ∧
      (text.take count).length = count := by
  simp only [fixedDigits] at read
  split at read
  next inside =>
      cases read
      simp only [Bool.and_eq_true, decide_eq_true_eq, List.all_eq_true] at inside
      exact ⟨(List.take_append_drop count text).symm, inside.2, inside.1⟩
  next => cases read

theorem twoDigits_append (writes : WritesFixed 2 text number) {greatest : Nat}
    (small : number ≤ greatest) (rest : List Char) :
    twoDigits greatest (text ++ rest) = some (number, rest) := by
  rw [twoDigits, bind_of_some (fixedDigits_append writes rest)]
  exact congrFun (if_pos small) rest

theorem fixedDigits_of_twoDigits {greatest : Nat}
    (read : twoDigits greatest text = some (number, rest)) :
    fixedDigits 2 text = some (number, rest) := by
  cases fixed : fixedDigits 2 text with
  | none => cases (bind_of_none fixed).symm.trans read
  | some taken =>
      rw [twoDigits, bind_of_some fixed] at read
      by_cases small : taken.1 ≤ greatest
      · rwa [if_pos small] at read
      · rw [if_neg small] at read
        cases read

/-! ## Dates and times -/

theorem date_append {day : Date} (writes : WritesDate text day) (rest : List Char) :
    date (text ++ rest) = some (day, rest) := by
  obtain ⟨hasYear, hasMonth, hasDay, inYear, inMonth⟩ := writes
  have isValid : day.isValid = true := by simp [Date.isValid, inYear, inMonth]
  simp only [List.append_assoc, List.cons_append]
  rw [date, bind_of_some (fixedDigits_append hasYear _), bind_of_some (char_cons '-' _),
    bind_of_some (fixedDigits_append hasMonth _), bind_of_some (char_cons '-' _),
    bind_of_some (fixedDigits_append hasDay _)]
  exact congrFun (if_pos isValid) rest

theorem fraction_append {fraction : List Char} (hasFraction : WritesFraction text fraction)
    (stops : Stops isDigit rest) (noPoint : rest.head? ≠ some '.') :
    ∃ read, optional secondFraction (text ++ rest) = some (read, rest) ∧
      read.getD [] = fraction := by
  cases hasFraction with
  | nothing =>
      have refuses : secondFraction rest = none := bind_of_none (char_of_head?_ne noPoint)
      exact ⟨_, optional_of_none refuses, rfl⟩
  | fraction nonempty decimal =>
      have inside : ∀ digit ∈ fraction, isDigit digit = true :=
        fun digit member => isDigit_iff.mpr (decimal digit member)
      have taken := takeSome_append nonempty inside stops
      exact ⟨_, optional_of_some ((seqRight_of_some (char_cons '.' _)).trans taken), rfl⟩

theorem time_append {clock : Time} (writes : WritesTime text clock) (stops : Stops isDigit rest)
    (noPoint : rest.head? ≠ some '.') : time (text ++ rest) = some (clock, rest) := by
  obtain ⟨hasHour, hasMinute, hasSecond, inDay, hasFraction⟩ := writes
  obtain ⟨found, read, foundEq⟩ := fraction_append hasFraction stops noPoint
  simp only [List.append_assoc, List.cons_append]
  rw [time, bind_of_some (twoDigits_append hasHour inDay.1 _), bind_of_some (char_cons ':' _),
    bind_of_some (twoDigits_append hasMinute inDay.2.1 _), bind_of_some (char_cons ':' _),
    bind_of_some (twoDigits_append hasSecond inDay.2.2 _), bind_of_some read, foundEq]
  rfl

theorem offset_append {shift : Option Offset} (writes : WritesOffset text shift)
    (ends : EndsValue rest) : optional offset (text ++ rest) = some (shift, rest) := by
  cases writes with
  | nothing =>
      have noMark : (char 'Z' <|> char 'z') rest = none :=
        (orElse_of_none (ends.refuses_char (by decide))).trans (ends.refuses_char (by decide))
      have noSign : sign rest = none :=
        (orElse_of_none (bind_of_none (ends.refuses_char (by decide)))).trans
          (bind_of_none (ends.refuses_char (by decide)))
      exact optional_of_none ((orElse_of_none (bind_of_none noMark)).trans (bind_of_none noSign))
  | universal isMark => obtain rfl | rfl := isMark <;> rfl
  | @numeric mark hours minutes isNegative hour minute hasSign hasHours hasMinutes inDay =>
      have noMark (tail : List Char) : (char 'Z' <|> char 'z') (mark :: tail) = none := by
        cases hasSign <;> rfl
      have signed (tail : List Char) : sign (mark :: tail) = some (isNegative, tail) := by
        cases hasSign <;> rfl
      apply optional_of_some
      simp only [List.cons_append, List.append_assoc]
      rw [offset, orElse_of_none (bind_of_none (noMark _)), bind_of_some (signed _),
        bind_of_some (twoDigits_append hasHours inDay.1 _), bind_of_some (char_cons ':' _),
        bind_of_some (twoDigits_append hasMinutes inDay.2 _)]
      rfl

/-- No time of the day stands behind a date that a value ends with. -/
theorem timeOfDay_of_endsValue (ends : EndsValue rest) : timeOfDay rest = none := by
  by_cases spaced : rest.head? = some ' '
  · obtain ⟨more, rfl⟩ : ∃ more, rest = ' ' :: more := by
      cases rest with
      | nil => cases spaced
      | cons head tail =>
          cases spaced
          exact ⟨tail, rfl⟩
    have later : EndsValue more := ends
    have noHour : twoDigits 23 more = none :=
      bind_of_none (fixedDigits_of_stops (by decide) (later.stops (by decide)))
    have passed : timeMark (' ' :: more) = some ((), more) := rfl
    rw [timeOfDay, bind_of_some passed]
    exact bind_of_none (bind_of_none noHour)
  · exact bind_of_none <| (orElse_of_none (ends.refuses_char (by decide))).trans <|
      (orElse_of_none (ends.refuses_char (by decide))).trans
        (char_of_head?_ne spaced)

/-- Behind a time stands its offset or the end of the value. -/
theorem stops_offset_append {shift : Option Offset} (writes : WritesOffset text shift)
    (ends : EndsValue rest) :
    Stops isDigit (text ++ rest) ∧ (text ++ rest).head? ≠ some '.' := by
  cases writes with
  | nothing => exact ⟨ends.stops (by decide), ends.head?_ne (by decide)⟩
  | universal isMark => obtain rfl | rfl := isMark <;> exact ⟨stops_cons rfl _, by simp⟩
  | numeric hasSign => cases hasSign <;> exact ⟨stops_cons rfl _, by simp⟩

theorem date_of_time {clock : Time} (writes : WritesTime text clock) (rest : List Char) :
    date (text ++ rest) = none := by
  cases writes with
  | @mk hour minute second fraction clock hasHour =>
      have colon :
          ':' ∈ (hour ++ ':' :: (minute ++ ':' :: (second ++ fraction)) ++ rest).take 4 := by
        simp [List.take_append, hasHour.length]
      exact bind_of_none (fixedDigits_of_mem colon rfl)

theorem datetime_append {moment : Datetime} (writes : WritesDatetime text moment)
    (ends : EndsValue rest) : datetime (text ++ rest) = some (moment, rest) := by
  cases writes with
  | date writes =>
      apply orElse_of_some
      rw [bind_of_some (date_append writes rest),
        bind_of_some (optional_of_none (timeOfDay_of_endsValue ends))]
      rfl
  | time writes =>
      have read := time_append writes (ends.stops (by decide)) (ends.head?_ne (by decide))
      rw [datetime, orElse_of_none (bind_of_none (date_of_time writes rest)), bind_of_some read]
      rfl
  | @both day clock zone mark date time offset hasDate isMark hasTime hasOffset =>
      obtain ⟨stops, noPoint⟩ := stops_offset_append hasOffset ends
      have marked (tail : List Char) : timeMark (mark :: tail) = some ((), tail) := by
        obtain rfl | rfl | rfl := isMark <;> rfl
      have read : timeOfDay (mark :: (clock ++ (zone ++ rest))) = some ((time, offset), rest) := by
        rw [timeOfDay, bind_of_some (marked _), bind_of_some (time_append hasTime stops noPoint),
          bind_of_some (offset_append hasOffset ends)]
        rfl
      apply orElse_of_some
      simp only [List.append_assoc, List.cons_append]
      rw [bind_of_some (date_append hasDate _), bind_of_some (optional_of_some read)]
      rfl

/-! ## What begins no date and no time -/

/-- Digits that neither a hyphen nor a colon follows. -/
def IsUndated (text : List Char) : Prop :=
  text.takeWhile isDigit ≠ [] → (text.dropWhile isDigit).head? ∉ [some '-', some ':']

theorem IsUndated.char_eq_none (undated : IsUndated text) {mark : Char} (isMark : mark ∈ ['-', ':'])
    {middle : List Char} (positive : count ≠ 0)
    (read : fixedDigits count text = some (number, middle)) : char mark middle = none := by
  apply char_of_head?_ne
  intro found
  obtain ⟨split, inside, length⟩ := fixedDigits_eq_some read
  have noDigit : ∀ mark ∈ ['-', ':'], isDigit mark = false := List.all_iff_forall_prop.mp rfl
  have stops : Stops isDigit middle := by
    intro next same
    cases found.symm.trans same
    exact noDigit mark isMark
  have run : text.takeWhile isDigit = text.take count := by
    rw [split, Bytes.takeWhile_append_of_boundary inside stops, ← split]
  have behind : text.dropWhile isDigit = middle := by
    rw [split, Bytes.dropWhile_append_of_boundary inside stops]
  have nonempty : text.takeWhile isDigit ≠ [] := by
    apply List.ne_nil_of_length_pos
    rw [run, length]
    exact Nat.pos_of_ne_zero positive
  apply undated nonempty
  rw [behind, found]
  simpa using isMark

theorem datetime_of_isUndated (undated : IsUndated text) : datetime text = none := by
  have noDate : date text = none := by
    cases read : fixedDigits 4 text with
    | none => exact bind_of_none read
    | some taken =>
        rw [date, bind_of_some read]
        exact bind_of_none (undated.char_eq_none (by decide) (by decide) read)
  have noTime : time text = none := by
    cases read : twoDigits 23 text with
    | none => exact bind_of_none read
    | some taken =>
        rw [time, bind_of_some read]
        exact bind_of_none
          (undated.char_eq_none (by decide) (by decide) (fixedDigits_of_twoDigits read))
  exact (orElse_of_none (bind_of_none noDate)).trans (bind_of_none noTime)

end Parser

end ByteCursor.Toml
