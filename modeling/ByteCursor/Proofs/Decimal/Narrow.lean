import ByteCursor.Proofs.ByteOrder
import ByteCursor.Proofs.Call.Result
import ByteCursor.Proofs.Session.Reachable

/-!
# Narrow decimal reads

A decimal read of 16 or 8 bits goes through the read of 32 bits with the same signedness, whose
value is its word.  It accepts the word as it is, drops its high bits or refuses it, and when it
refuses the word nothing has been read.
-/

namespace ByteCursor

/-! ## Values of a type -/

namespace IntType

/-- The value has the low bits of the word and lies between the bounds of two's complement. -/
structure Wraps (type : IntType) (word value : Int) : Prop where
  least : -2 ^ (8 * type.octets - 1) ≤ value
  greatest : value < 2 ^ (8 * type.octets - 1)
  modEq : value ≡ word [ZMOD 2 ^ (8 * type.octets)]

variable {type : IntType} {word value : Int}

theorem holds_iff_of_unsigned (plain : type.isSigned = false) :
    type.Holds value ↔ 0 ≤ value ∧ value < 2 ^ (8 * type.octets) := by
  have greatest : type.greatest = 2 ^ (8 * type.octets) - 1 := by
    rw [IntType.greatest, least, plain, size_eq_pow]
    simp
  have least : type.least = 0 := by simp [least, plain]
  rw [Holds, least, greatest, Int.le_sub_one_iff]

theorem holds_iff_of_signed (signed : type.isSigned = true) :
    type.Holds value ↔
      -2 ^ (8 * type.octets - 1) ≤ value ∧ value < 2 ^ (8 * type.octets - 1) := by
  have bounds : type.least = -2 ^ (8 * type.octets - 1) ∧
      type.greatest = 2 ^ (8 * type.octets - 1) - 1 := by
    cases type with
    | u32 | u16 | u8 => cases signed
    | i32 | i16 | i8 => decide
  rw [Holds, bounds.1, bounds.2, Int.le_sub_one_iff]

/-- A value of the type is the only one with its low bits. -/
theorem wraps_iff (signed : type.isSigned = true) :
    type.Wraps word value ↔ value = type.truncate word := by
  have size : ((type.size : Nat) : Int) = 2 ^ (8 * type.octets) := by
    rw [size_eq_pow, Int.natCast_pow]
    rfl
  constructor
  · intro wraps
    have holds : type.Holds value := (holds_iff_of_signed signed).mpr ⟨wraps.least, wraps.greatest⟩
    have sameBits : value % type.size = word % type.size := by
      rw [size]
      exact wraps.modEq
    rw [← truncate_of_holds holds, truncate_eq_of_emod sameBits]
  · rintro rfl
    obtain ⟨least, greatest⟩ := (holds_iff_of_signed signed).mp (type.holds_truncate word)
    refine ⟨least, greatest, ?_⟩
    rw [← size, Int.ModEq, truncate, signed, if_pos rfl, Int.bmod_emod]

end IntType

/-- What a decimal read of a type makes of the word.  Without a sign, and with a sign under strict
narrowing, the word is accepted if it is a value of the type; under permissive narrowing a word
with a sign is always accepted, and wraps around the bounds of the type. -/
structure Cursor.NarrowsReads (cursor : Cursor) (type : IntType) : Prop where
  unsigned : type.isSigned = false → ∀ value position,
    (Call.readDecimal type).Delivers cursor value position ↔
      (Call.readDecimal .u32).Delivers cursor value position ∧ value < 2 ^ (8 * type.octets)
  strict : type.isSigned = true → cursor.options.narrowing = .strict → ∀ value position,
    (Call.readDecimal type).Delivers cursor value position ↔
      (Call.readDecimal .i32).Delivers cursor value position ∧
        -2 ^ (8 * type.octets - 1) ≤ value ∧ value < 2 ^ (8 * type.octets - 1)
  permissive : type.isSigned = true → cursor.options.narrowing = .permissive →
    ∀ value position, (Call.readDecimal type).Delivers cursor value position ↔
      ∃ word, (Call.readDecimal .i32).Delivers cursor word position ∧ type.Wraps word value
  wraps_one : type.isSigned = true → ∀ word, ∃! value, type.Wraps word value
  /-- What 32 bits cannot write is refused under both narrowings. -/
  outside : type.isSigned = true → ∀ (numeral : Decimal.Numeral) (rest : Bytes),
    numeral.SplitsOff true cursor.remaining rest →
    numeral.value < -2 ^ 31 ∨ 2 ^ 31 ≤ numeral.value → (Call.readDecimal type).Misses cursor
  delivers_or_misses : (∃ value position, (Call.readDecimal type).Delivers cursor value position) ∨
    (Call.readDecimal type).Misses cursor
  /-- A word that is refused can still be read. -/
  rereads : (Call.readDecimal type).Misses cursor → ∀ word position,
    (Call.readDecimal type.widened).Delivers cursor word position →
    (Call.readDecimal type.widened).Delivers ((Call.readDecimal type).run cursor).state.cursor
      word position

namespace Decimal

variable {cursor : Cursor} {type : IntType} {value word : Int} {position : Nat}
  {numeral : Numeral}

/-- What a read delivers is decided by the numeral at the start of the unread octets. -/
theorem delivers_readDecimal_iff (valid : cursor.Valid)
    (numeralEq : Numeral.ofText type.isSigned cursor.remaining = numeral) :
    (Call.readDecimal type).Delivers cursor value position ↔
      (numeral.IsCounted ∧ type.widened.Holds numeral.value) ∧
        Accepts type cursor.options numeral.value ∧ value = type.truncate numeral.value ∧
        position = cursor.position + numeral.octets.length := by
  have ran := Call.run_readDecimal type valid numeralEq
  split at ran
  next found =>
      rw [and_iff_right found]
      split at ran
      next accepted => rw [Call.delivers_iff_of_took ran, and_iff_right accepted]
      next refused =>
          exact iff_of_false (Call.not_delivers_of_missed ran) fun found => refused found.1
  next missing =>
      exact iff_of_false (Call.not_delivers_of_missed ran) fun found => missing found.1

theorem delivers_word_iff (valid : cursor.Valid)
    (numeralEq : Numeral.ofText type.isSigned cursor.remaining = numeral) :
    (Call.readDecimal type.widened).Delivers cursor value position ↔
      (numeral.IsCounted ∧ type.widened.Holds numeral.value) ∧ value = numeral.value ∧
        position = cursor.position + numeral.octets.length := by
  have ran := Call.run_word_readDecimal type valid numeralEq
  split at ran
  next found => rw [Call.delivers_iff_of_took ran, and_iff_right found]
  next missing =>
      exact iff_of_false (Call.not_delivers_of_missed ran) fun found => missing found.1

/-- A read delivers what it makes of an accepted word. -/
theorem delivers_iff_word (valid : cursor.Valid) :
    (Call.readDecimal type).Delivers cursor value position ↔
      ∃ word, (Call.readDecimal type.widened).Delivers cursor word position ∧
        Accepts type cursor.options word ∧ value = type.truncate word := by
  rw [delivers_readDecimal_iff valid rfl]
  constructor
  · rintro ⟨found, accepted, valueEq, positionEq⟩
    exact ⟨_, (delivers_word_iff valid rfl).mpr ⟨found, rfl, positionEq⟩, accepted, valueEq⟩
  · rintro ⟨word, delivers, accepted, valueEq⟩
    obtain ⟨found, rfl, positionEq⟩ := (delivers_word_iff valid rfl).mp delivers
    exact ⟨found, accepted, valueEq, positionEq⟩

theorem holds_of_delivers_word (valid : cursor.Valid)
    (delivers : (Call.readDecimal type.widened).Delivers cursor word position) :
    type.widened.Holds word := by
  obtain ⟨found, rfl, -⟩ := (delivers_word_iff valid rfl).mp delivers
  exact found.2

/-- Where the high bits are not dropped, the word has to be a value of the type. -/
theorem delivers_iff_holds (valid : cursor.Valid)
    (checks : ¬ (type.isSigned = true ∧ cursor.options.narrowing = .permissive)) :
    (Call.readDecimal type).Delivers cursor value position ↔
      (Call.readDecimal type.widened).Delivers cursor value position ∧ type.Holds value := by
  rw [delivers_iff_word valid]
  constructor
  · rintro ⟨word, delivers, holds | permissive, rfl⟩
    · rw [IntType.truncate_of_holds holds]
      exact ⟨delivers, holds⟩
    · exact absurd permissive checks
  · rintro ⟨delivers, holds⟩
    exact ⟨value, delivers, .inl holds, (IntType.truncate_of_holds holds).symm⟩

/-- Where they are dropped, every word is accepted. -/
theorem delivers_iff_truncates (valid : cursor.Valid) (signed : type.isSigned = true)
    (permissive : cursor.options.narrowing = .permissive) :
    (Call.readDecimal type).Delivers cursor value position ↔
      ∃ word, (Call.readDecimal type.widened).Delivers cursor word position ∧
        value = type.truncate word := by
  have accepts (word : Int) : Accepts type cursor.options word := .inr ⟨signed, permissive⟩
  rw [delivers_iff_word valid]
  simp only [accepts, true_and]

theorem delivers_or_misses (valid : cursor.Valid) (type : IntType) :
    (∃ value position, (Call.readDecimal type).Delivers cursor value position) ∨
      (Call.readDecimal type).Misses cursor := by
  have ran := Call.run_readDecimal type valid rfl
  split at ran
  next =>
      split at ran
      next => exact .inl ⟨_, _, (Call.delivers_iff_of_took ran).mpr ⟨rfl, rfl⟩⟩
      next => exact .inr (Call.misses_of_missed ran)
  next => exact .inr (Call.misses_of_missed ran)

theorem misses_of_not_holds (valid : cursor.Valid) {rest : Bytes}
    (splits : numeral.SplitsOff type.isSigned cursor.remaining rest)
    (outside : ¬ type.widened.Holds numeral.value) : (Call.readDecimal type).Misses cursor := by
  have ran := Call.run_readDecimal type valid splits.ofText_eq
  rw [if_neg fun found => outside found.2] at ran
  exact Call.misses_of_missed ran

/-- A narrow read accepts, wraps or refuses the word of 32 bits, and leaves a refused word where
it was. -/
theorem narrow_reads_check_words (reachable : cursor.Reachable) (type : IntType) :
    cursor.NarrowsReads type where
  unsigned := by
    intro plain value position
    have checks : ¬ (type.isSigned = true ∧ cursor.options.narrowing = .permissive) := by
      simp [plain]
    have widened : type.widened = .u32 := by simp [IntType.widened, plain]
    rw [delivers_iff_holds reachable.valid checks, widened, IntType.holds_iff_of_unsigned plain]
    refine and_congr_right fun delivers => and_iff_right ?_
    have holds : IntType.u32.widened.Holds value := holds_of_delivers_word reachable.valid delivers
    exact holds.1
  strict := by
    intro signed strict value position
    have checks : ¬ (type.isSigned = true ∧ cursor.options.narrowing = .permissive) := by
      simp [strict]
    have widened : type.widened = .i32 := by simp [IntType.widened, signed]
    rw [delivers_iff_holds reachable.valid checks, widened, IntType.holds_iff_of_signed signed]
  permissive := by
    intro signed permissive value position
    have widened : type.widened = .i32 := by simp [IntType.widened, signed]
    rw [delivers_iff_truncates reachable.valid signed permissive, widened]
    simp only [IntType.wraps_iff signed]
  wraps_one := by
    intro signed word
    simp only [IntType.wraps_iff signed, existsUnique_eq]
  outside := by
    intro signed numeral rest splits outside
    have widened : type.widened = .i32 := by simp [IntType.widened, signed]
    rw [← signed] at splits
    apply misses_of_not_holds reachable.valid splits
    rw [widened, IntType.holds_iff_of_signed rfl]
    change ¬ (-2 ^ 31 ≤ numeral.value ∧ numeral.value < 2 ^ 31)
    omega
  delivers_or_misses := delivers_or_misses reachable.valid type
  rereads := by
    intro misses word position delivers
    rw [misses.unmoved]
    exact delivers

/-- One more than the bounds of eight bits can be: the word wraps around, or it is refused and
read again as a whole. -/
theorem narrow_reads_check_words_wrapped :
    let cursor (narrowing : Narrowing) : Cursor :=
      { bytes := [0x20, 0x2d, 0x31, 0x32, 0x39, 0x2c], position := 0,
        options := { narrowing := narrowing } }
    (∀ narrowing, (cursor narrowing).Reachable) ∧
      (Call.readDecimal .i8).Delivers (cursor .permissive) 127 5 ∧
      (Call.readDecimal .i8).Misses (cursor .strict) ∧
      (Call.readDecimal .i32).Delivers
        ((Call.readDecimal .i8).run (cursor .strict)).state.cursor (-129) 5 := by
  intro cursor
  have reachable (narrowing : Narrowing) : (cursor narrowing).Reachable :=
    .ofText (by decide) (by decide) _
  have word (narrowing : Narrowing) :
      (Call.readDecimal .i32).Delivers (cursor narrowing) (-129) 5 := by
    cases narrowing <;> exact ⟨by decide, by decide⟩
  have wraps : IntType.i8.Wraps (-129) 127 := ⟨by decide, by decide, by decide⟩
  have permissive := narrow_reads_check_words (reachable .permissive) .i8
  have strict := narrow_reads_check_words (reachable .strict) .i8
  have misses : (Call.readDecimal .i8).Misses (cursor .strict) := by
    apply strict.delivers_or_misses.resolve_left
    rintro ⟨value, position, delivers⟩
    obtain ⟨delivered, least, -⟩ := (strict.strict rfl rfl value position).mp delivers
    have result := (word .strict).result.symm.trans delivered.result
    cases result
    exact absurd least (by decide)
  exact ⟨reachable, (permissive.permissive rfl rfl 127 5).mpr ⟨_, word .permissive, wraps⟩,
    misses, strict.rereads misses _ _ (word .strict)⟩

end Decimal

end ByteCursor
