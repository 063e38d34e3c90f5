import ByteCursor.Proofs.ByteOrder
import ByteCursor.Proofs.Call.Result
import ByteCursor.Proofs.Hexadecimal.Language

/-!
# Reads that are derived from the hexadecimal word

A hexadecimal read succeeds where the word does, up to a check of its range, and ends at the same
position.  The types and the byte orders only differ in what they make of the number.
-/

namespace ByteCursor

/-- The type without a sign that has as many bits. -/
def IntType.unsigned : IntType → IntType
  | .u32 | .i32 => .u32
  | .u16 | .i16 => .u16
  | .u8 | .i8 => .u8

namespace IntType

variable {type : IntType}

theorem octets_unsigned (type : IntType) : type.unsigned.octets = type.octets := by
  cases type <;> rfl

theorem isSigned_unsigned (type : IntType) : type.unsigned.isSigned = false := by
  cases type <;> rfl

theorem size_unsigned (type : IntType) : type.unsigned.size = type.size := by
  rw [size, octets_unsigned, size]

/-- Without a sign, a number below the size is kept. -/
theorem truncate_of_lt (plain : type.isSigned = false) {number : Nat}
    (below : number < type.size) : type.truncate number = number := by
  rw [truncate, plain, if_neg Bool.false_ne_true]
  exact Int.emod_eq_of_lt (Int.natCast_nonneg _) (Int.ofNat_lt.mpr below)

/-- With a sign, the low bits are read in two's complement. -/
theorem truncate_eq_toInt (signed : type.isSigned = true) (number : Int) :
    type.truncate number = (BitVec.ofInt (8 * type.octets) number).toInt := by
  rw [truncate, signed, if_pos rfl, BitVec.toInt_ofInt, size_eq_pow]

end IntType

/-- What the reads of a type deliver comes from the word: without a sign the number itself, if it
is one of the type, and with a sign the low bits of the number in two's complement. -/
structure Cursor.DerivesReads (cursor : Cursor) (type : IntType) : Prop where
  unsigned : type.isSigned = false → ∀ value position,
    (Call.readHex type .big).Delivers cursor value position ↔
      (Call.readHex .u32 .big).Delivers cursor value position ∧ value < 2 ^ (8 * type.octets)
  strict : type.isSigned = true → cursor.options.narrowing = .strict → ∀ value position,
    (Call.readHex type .big).Delivers cursor value position ↔
      ∃ pattern, (Call.readHex type.unsigned .big).Delivers cursor pattern position ∧
        value = (BitVec.ofInt (8 * type.octets) pattern).toInt
  /-- A number of 32 bits is never too large for 32 bits with a sign. -/
  permissive : type.isSigned = true → cursor.options.narrowing = .permissive ∨ type = .i32 →
    ∀ value position, (Call.readHex type .big).Delivers cursor value position ↔
      ∃ number, (Call.readHex .u32 .big).Delivers cursor number position ∧
        value = (BitVec.ofInt (8 * type.octets) number).toInt
  little : ∀ value position, (Call.readHex type .little).Delivers cursor value position ↔
    ∃ straight, (Call.readHex type .big).Delivers cursor straight position ∧
      type.Reverses straight value
  restores : ∀ value position, (Call.readHex type .little).Delivers cursor value position →
    (Call.readHex type .big).Delivers cursor (type.reverseOctets value) position
  single : type.octets = 1 → ∀ value position,
    (Call.readHex type .little).Delivers cursor value position ↔
      (Call.readHex type .big).Delivers cursor value position
  misses : ∀ order, (∃ value position, (Call.readHex type order).Delivers cursor value position) ∨
    ((Call.readHex type order).run cursor).result =
        .error (.error (.parse (Hexadecimal.readName type order) cursor.position)) ∧
      ((Call.readHex type order).run cursor).state.cursor = cursor

namespace Hexadecimal

variable {cursor : Cursor} {type : IntType} {value : Int} {position : Nat}

/-- What a read delivers is decided by the numeral at the start of the unread octets. -/
theorem delivers_readHex_iff {numeral : Numeral} (order : ByteOrder) (valid : cursor.Valid)
    (numeralEq : Numeral.ofText cursor.options cursor.remaining = numeral) :
    (Call.readHex type order).Delivers cursor value position ↔
      numeral.digits ≠ [] ∧ Accepts type cursor.options (number numeral.digits) ∧
        value = Scan.inOrder order type (type.truncate (number numeral.digits)) ∧
        position = cursor.position + numeral.octets.length := by
  have ran := Call.run_readHex type order valid numeralEq
  split at ran
  next missing =>
      exact iff_of_false (Call.not_delivers_of_missed ran) fun found => found.1 missing
  next found =>
      split at ran
      next accepted =>
          rw [Call.delivers_iff_of_took ran, and_iff_right found, and_iff_right accepted]
      next refused =>
          exact iff_of_false (Call.not_delivers_of_missed ran) fun found => refused found.2.1

theorem delivers_word_iff {numeral : Numeral} (valid : cursor.Valid)
    (numeralEq : Numeral.ofText cursor.options cursor.remaining = numeral) :
    (Call.readHex .u32 .big).Delivers cursor value position ↔
      numeral.digits ≠ [] ∧ value = number numeral.digits ∧
        position = cursor.position + numeral.octets.length := by
  have ran := run_readHex_word valid numeralEq
  split at ran
  next missing =>
      exact iff_of_false (Call.not_delivers_of_missed ran) fun found => found.1 missing
  next found => rw [Call.delivers_iff_of_took ran, and_iff_right found]

/-- A read in the big byte order passes an accepted number of the word on. -/
theorem delivers_big_iff (valid : cursor.Valid) :
    (Call.readHex type .big).Delivers cursor value position ↔
      ∃ number : Nat, (Call.readHex .u32 .big).Delivers cursor number position ∧
        Accepts type cursor.options number ∧ value = type.truncate number := by
  rw [delivers_readHex_iff .big valid rfl]
  constructor
  · rintro ⟨found, accepted, valueEq, positionEq⟩
    exact ⟨_, (delivers_word_iff valid rfl).mpr ⟨found, rfl, positionEq⟩, accepted, valueEq⟩
  · rintro ⟨word, delivers, accepted, valueEq⟩
    obtain ⟨found, wordEq, positionEq⟩ := (delivers_word_iff valid rfl).mp delivers
    cases Int.ofNat.inj wordEq
    exact ⟨found, accepted, valueEq, positionEq⟩

theorem holds_of_delivers (valid : cursor.Valid)
    (big : (Call.readHex type .big).Delivers cursor value position) : type.Holds value := by
  obtain ⟨-, -, rfl, -⟩ := (delivers_readHex_iff .big valid rfl).mp big
  exact type.holds_truncate _

theorem exists_natCast_of_word (valid : cursor.Valid)
    (word : (Call.readHex .u32 .big).Delivers cursor value position) :
    ∃ number : Nat, value = number := by
  obtain ⟨-, valueEq, -⟩ := (delivers_word_iff valid rfl).mp word
  exact ⟨_, valueEq⟩

/-- Without a sign, a read delivers the number of the word if it is below the size. -/
theorem delivers_unsigned_iff (valid : cursor.Valid) (plain : type.isSigned = false) :
    (Call.readHex type .big).Delivers cursor value position ↔
      (Call.readHex .u32 .big).Delivers cursor value position ∧ value < type.size := by
  rw [delivers_big_iff valid]
  constructor
  · rintro ⟨number, word, below | ⟨signed, -⟩, rfl⟩
    · rw [IntType.truncate_of_lt plain below]
      exact ⟨word, Int.ofNat_lt.mpr below⟩
    · rw [plain] at signed
      cases signed
  · rintro ⟨word, below⟩
    obtain ⟨number, rfl⟩ := exists_natCast_of_word valid word
    have fits : number < type.size := Int.ofNat_lt.mp below
    exact ⟨number, word, .inl fits, (IntType.truncate_of_lt plain fits).symm⟩

/-- With a sign, a strict read goes through the read without one. -/
theorem delivers_strict_iff (valid : cursor.Valid) (strict : cursor.options.narrowing = .strict) :
    (Call.readHex type .big).Delivers cursor value position ↔
      ∃ pattern, (Call.readHex type.unsigned .big).Delivers cursor pattern position ∧
        value = type.truncate pattern := by
  rw [delivers_big_iff valid]
  constructor
  · rintro ⟨number, word, below | ⟨-, permissive⟩, valueEq⟩
    · refine ⟨number, (delivers_unsigned_iff valid type.isSigned_unsigned).mpr ⟨word, ?_⟩, valueEq⟩
      rw [IntType.size_unsigned]
      exact Int.ofNat_lt.mpr below
    · rw [strict] at permissive
      cases permissive
  · rintro ⟨pattern, plain, valueEq⟩
    obtain ⟨word, below⟩ := (delivers_unsigned_iff valid type.isSigned_unsigned).mp plain
    obtain ⟨number, rfl⟩ := exists_natCast_of_word valid word
    rw [IntType.size_unsigned] at below
    exact ⟨number, word, .inl (Int.ofNat_lt.mp below), valueEq⟩

/-- With a sign, a permissive read accepts every number. -/
theorem delivers_permissive_iff (valid : cursor.Valid) (signed : type.isSigned = true)
    (permissive : cursor.options.narrowing = .permissive) :
    (Call.readHex type .big).Delivers cursor value position ↔
      ∃ number, (Call.readHex .u32 .big).Delivers cursor number position ∧
        value = type.truncate number := by
  rw [delivers_big_iff valid]
  constructor
  · rintro ⟨number, word, -, valueEq⟩
    exact ⟨number, word, valueEq⟩
  · rintro ⟨found, word, valueEq⟩
    obtain ⟨number, rfl⟩ := exists_natCast_of_word valid word
    exact ⟨number, word, .inr ⟨signed, permissive⟩, valueEq⟩

/-- A type of 32 bits with a sign accepts every number in both modes. -/
theorem delivers_i32_iff (valid : cursor.Valid) :
    (Call.readHex .i32 .big).Delivers cursor value position ↔
      ∃ number, (Call.readHex .u32 .big).Delivers cursor number position ∧
        value = IntType.i32.truncate number := by
  cases mode : cursor.options.narrowing with
  | strict => exact delivers_strict_iff valid mode
  | permissive => exact delivers_permissive_iff valid rfl mode

/-- A read in the little byte order reverses the octets of what the big one delivers. -/
theorem delivers_little_iff (valid : cursor.Valid) :
    (Call.readHex type .little).Delivers cursor value position ↔
      ∃ straight, (Call.readHex type .big).Delivers cursor straight position ∧
        type.Reverses straight value := by
  rw [delivers_readHex_iff .little valid rfl]
  constructor
  · rintro ⟨found, accepted, valueEq, positionEq⟩
    refine ⟨_, (delivers_readHex_iff .big valid rfl).mpr ⟨found, accepted, rfl, positionEq⟩, ?_⟩
    exact IntType.reverses_iff.mpr ⟨type.holds_truncate _, valueEq⟩
  · rintro ⟨straight, delivers, reverses⟩
    obtain ⟨found, accepted, rfl, positionEq⟩ := (delivers_readHex_iff .big valid rfl).mp delivers
    exact ⟨found, accepted, (IntType.reverses_iff.mp reverses).2, positionEq⟩

theorem delivers_or_misses (valid : cursor.Valid) (type : IntType) (order : ByteOrder) :
    (∃ value position, (Call.readHex type order).Delivers cursor value position) ∨
      ((Call.readHex type order).run cursor).result =
          .error (.error (.parse (readName type order) cursor.position)) ∧
        ((Call.readHex type order).run cursor).state.cursor = cursor := by
  have ran := Call.run_readHex type order valid rfl
  split at ran
  next =>
      right
      rw [ran]
      exact ⟨rfl, rfl⟩
  next =>
      split at ran
      next =>
          left
          exact ⟨_, _, (Call.delivers_iff_of_took ran).mpr ⟨rfl, rfl⟩⟩
      next =>
          right
          rw [ran]
          exact ⟨rfl, rfl⟩

/-- The reads of every type are derived from the word.  They end where the word ends or leave the
cursor as it is. -/
theorem reads_derive_from_word (reachable : cursor.Reachable) (type : IntType) :
    cursor.DerivesReads type where
  unsigned := by
    intro plain value position
    have size : ((type.size : Nat) : Int) = 2 ^ (8 * type.octets) := by
      rw [type.size_eq_pow, Int.natCast_pow]
      rfl
    rw [← size]
    exact delivers_unsigned_iff reachable.valid plain
  strict := by
    intro signed strict value position
    simp only [← IntType.truncate_eq_toInt signed]
    exact delivers_strict_iff reachable.valid strict
  permissive := by
    intro signed accepting value position
    simp only [← IntType.truncate_eq_toInt signed]
    rcases accepting with permissive | rfl
    · exact delivers_permissive_iff reachable.valid signed permissive
    · exact delivers_i32_iff reachable.valid
  little _ _ := delivers_little_iff reachable.valid
  restores := by
    intro value position delivers
    obtain ⟨straight, big, reverses⟩ := (delivers_little_iff reachable.valid).mp delivers
    rw [← (IntType.reverses_iff.mp reverses.symm).2]
    exact big
  single := by
    intro single value position
    rw [delivers_little_iff reachable.valid]
    constructor
    · rintro ⟨straight, big, reverses⟩
      rw [((IntType.reverses_iff_of_single single).mp reverses).2]
      exact big
    · intro big
      have holds := holds_of_delivers reachable.valid big
      exact ⟨value, big, (IntType.reverses_iff_of_single single).mpr ⟨holds, rfl⟩⟩
  misses := delivers_or_misses reachable.valid type

/-- The octets of a negative value stand in the other order, where they are a positive one. -/
theorem reads_derive_from_word_negative :
    let cursor : Cursor :=
      { bytes := [0x20, 0x38, 0x30, 0x30, 0x31, 0x2c], position := 0, options := {} }
    cursor.Reachable ∧
      (Call.readHex .u16 .big).Delivers cursor 32769 5 ∧
      (Call.readHex .i16 .big).Delivers cursor (-32767) 5 ∧
      (Call.readHex .i16 .little).Delivers cursor 384 5 := by
  intro cursor
  have reachable : cursor.Reachable := .ofText (by decide) (by decide) {}
  have word : (Call.readHex .u32 .big).Delivers cursor 32769 5 := ⟨by decide, by decide⟩
  have plain := ((reads_derive_from_word reachable .u16).unsigned rfl _ _).mpr
    ⟨word, by decide⟩
  have signed := ((reads_derive_from_word reachable .i16).strict rfl rfl (-32767) 5).mpr
    ⟨_, plain, by decide⟩
  have reverses : IntType.i16.Reverses (-32767) 384 :=
    IntType.reverses_iff.mpr ⟨by decide, by decide⟩
  exact ⟨reachable, plain, signed,
    ((reads_derive_from_word reachable .i16).little _ _).mpr ⟨_, signed, reverses⟩⟩

end Hexadecimal

end ByteCursor
