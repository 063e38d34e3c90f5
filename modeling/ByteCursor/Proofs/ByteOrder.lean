import ByteCursor.Integer
import Mathlib.Data.Int.ModEq

/-!
# The octets of an integer

An integer in two's complement has an octet at every place, counted from the least significant.
Writing and reading octets keep them in their places, and reversing the octets of a value puts
each of them at the opposite place.
-/

namespace ByteCursor

namespace ByteOrder

/-- The octet of an integer in two's complement at a place. -/
def octetAt (number : Int) (index : Nat) : Int := number / 256 ^ index % 256

theorem capacity_eq_pow (count : Nat) : capacity count = 256 ^ count := by
  induction count with
  | zero => rfl
  | succ count ih => rw [capacity, ih, Nat.pow_succ, Nat.mul_comm]

theorem natCast_capacity (count : Nat) : ((capacity count : Nat) : Int) = 256 ^ count := by
  rw [capacity_eq_pow, Int.natCast_pow]
  rfl

theorem pow_256_pos (count : Nat) : (0 : Int) < 256 ^ count := Int.pow_pos (by decide)

/-! ## Places in a residue -/

theorem emod_mul_ediv (number : Int) {low : Int} (positive : 0 < low) (high : Int) :
    number % (low * high) / low = number / low % high := by
  rw [Int.emod_def, Int.emod_def, Int.ediv_mul_of_nonneg (Int.le_of_lt positive), Int.mul_assoc,
    Int.sub_mul_ediv_left _ _ (Int.ne_of_gt positive)]

/-- A residue is its lower places and the place above them. -/
theorem emod_mul (number : Int) {low : Int} (positive : 0 < low) (high : Int) :
    number % (low * high) = number % low + low * (number / low % high) := by
  have lower : number % (low * high) % low = number % low :=
    Int.emod_emod_of_dvd number (Int.dvd_mul_right low high)
  rw [← emod_mul_ediv number positive high, ← lower, Int.emod_add_mul_ediv]

/-- The octets below a capacity are those of the residue. -/
theorem octetAt_emod (number : Int) {count index : Nat} (inside : index < count) :
    octetAt (number % capacity count) index = octetAt number index := by
  obtain ⟨above, rfl⟩ := Nat.exists_eq_add_of_lt inside
  have split : ((capacity (index + above + 1) : Nat) : Int) =
      256 ^ index * (256 ^ above * 256) := by
    rw [natCast_capacity, Nat.add_assoc, pow_add, pow_succ]
  rw [octetAt, octetAt, split, emod_mul_ediv number (pow_256_pos index)]
  exact Int.emod_emod_of_dvd _ (Int.dvd_mul_left _ _)

theorem octetAt_congr {first second : Int} {count index : Nat}
    (same : first % capacity count = second % capacity count) (inside : index < count) :
    octetAt first index = octetAt second index := by
  rw [← octetAt_emod first inside, same, octetAt_emod second inside]

/-- The octets below a capacity decide the residue. -/
theorem emod_eq_of_octetAt {first second : Int} {count : Nat}
    (same : ∀ index < count, octetAt first index = octetAt second index) :
    first % capacity count = second % capacity count := by
  induction count with
  | zero => rw [capacity, Nat.cast_one, Int.emod_one, Int.emod_one]
  | succ count ih =>
      have lower := ih fun index inside => same index (Nat.lt_succ_of_lt inside)
      have top : first / 256 ^ count % 256 = second / 256 ^ count % 256 :=
        same count (Nat.lt_succ_self count)
      rw [natCast_capacity] at lower ⊢
      rw [pow_succ, emod_mul first (pow_256_pos count), emod_mul second (pow_256_pos count), lower,
        top]

/-! ## What reading and writing promise -/

/-- What reading integers of so many octets in an order promises. -/
structure ReadsIntegers (order : ByteOrder) (count : Nat) (Holds : Int → Prop)
    (read : Bytes → Int) : Prop where
  /-- The integer lies in the range of its type. -/
  holds : ∀ {bytes : Bytes}, bytes.length = count → Holds (read bytes)
  /-- The octets have their places in the integer. -/
  places : ∀ {bytes : Bytes} {index : Nat} {byte : UInt8}, bytes.length = count →
    (order.arrange bytes)[index]? = some byte → octetAt (read bytes) index = byte.toNat

/-- What writing integers in so many octets in an order promises. -/
structure WritesIntegers (order : ByteOrder) (count : Nat) (write : Int → Bytes) : Prop where
  length : ∀ number : Int, (write number).length = count
  /-- The octets are those at their places in the integer. -/
  places : ∀ {number : Int} {index : Nat} {byte : UInt8},
    (order.arrange (write number))[index]? = some byte → octetAt number index = byte.toNat

namespace ReadsIntegers

variable {order : ByteOrder} {count index : Nat} {Holds : Int → Prop} {read : Bytes → Int}
  {write : Int → Bytes}

/-- Octets that are written and read in one order keep their places. -/
theorem octetAt_write (reads : order.ReadsIntegers count Holds read)
    (writes : order.WritesIntegers count write) (number : Int) (inside : index < count) :
    octetAt (read (write number)) index = octetAt number index := by
  have length := writes.length number
  have within : index < (order.arrange (write number)).length := by
    rw [length_arrange, length]
    exact inside
  have found := List.getElem?_eq_getElem within
  rw [reads.places length found, writes.places found]

/-- Octets that are written in one order and read in the other stand at the opposite places. -/
theorem octetAt_write_opposite (reads : little.ReadsIntegers count Holds read)
    (writes : big.WritesIntegers count write) (number : Int) (inside : index < count) :
    octetAt (read (write number)) index = octetAt number (count - 1 - index) := by
  have length := writes.length number
  have within : index < (write number).length := length ▸ inside
  have found : (little.arrange (write number))[index]? = some (write number)[index] :=
    List.getElem?_eq_getElem within
  have opposite :
      (big.arrange (write number))[count - 1 - index]? = some (write number)[index] := by
    have twice : (write number).length - 1 - (count - 1 - index) = index := by omega
    rw [arrange, List.getElem?_reverse (by omega), twice]
    exact found
  rw [reads.places length found, writes.places opposite]

end ReadsIntegers

/-! ## Places in written octets -/

theorem octetAt_value (bytes : Bytes) {index : Nat} (inside : index < bytes.length) :
    octetAt (value bytes) index = bytes[index].toNat := by
  induction bytes generalizing index with
  | nil => exact absurd inside (Nat.not_lt_zero index)
  | cons byte rest ih =>
      have small := byte.toNat_lt
      cases index with
      | zero =>
          rw [octetAt, value, List.getElem_cons_zero]
          omega
      | succ index =>
          have above : ((byte.toNat + 256 * value rest : Nat) : Int) / 256 = value rest := by
            omega
          rw [List.getElem_cons_succ, ← ih (Nat.lt_of_succ_lt_succ inside), octetAt, octetAt,
            value, pow_succ', Int.ediv_mul_of_nonneg (by decide), above]

/-- An integer that is read from octets has them at their places. -/
theorem octetAt_decode (order : ByteOrder) (isSigned : Bool) {bytes : Bytes} {index : Nat}
    {byte : UInt8} (found : (order.arrange bytes)[index]? = some byte) :
    octetAt (order.decode isSigned bytes) index = byte.toNat := by
  obtain ⟨inside, rfl⟩ := List.getElem?_eq_some_iff.mp found
  rw [← octetAt_value _ inside]
  rw [length_arrange] at inside
  apply octetAt_congr _ inside
  rw [decode]
  cases isSigned with
  | false => rfl
  | true => exact Int.bmod_emod

/-- An integer that is written leaves its residue. -/
theorem value_arrange_encode (order : ByteOrder) (count : Nat) (number : Int) :
    (value (order.arrange (order.encode count number)) : Int) = number % capacity count := by
  have nonneg : 0 ≤ number % (capacity count : Int) := by
    rw [natCast_capacity]
    exact Int.emod_nonneg _ (Int.ne_of_gt (pow_256_pos count))
  rw [encode, arrange_arrange, value_octets, Int.natCast_mod, Int.toNat_of_nonneg nonneg,
    Int.emod_emod]

theorem writesIntegers_encode (order : ByteOrder) (count : Nat) :
    order.WritesIntegers count (order.encode count) where
  length := length_encode order count
  places := by
    intro number index byte found
    obtain ⟨inside, rfl⟩ := List.getElem?_eq_some_iff.mp found
    have below : index < count := by simpa using inside
    rw [← octetAt_value _ inside, value_arrange_encode, octetAt_emod number below]

/-! ## Parts of written octets -/

/-- Octets in two parts write the number of the lower part and that of the part above it. -/
theorem value_append (low high : Bytes) :
    value (low ++ high) = value low + capacity low.length * value high := by
  induction low with
  | nil => rw [List.nil_append, List.length_nil, value, capacity, Nat.zero_add, Nat.one_mul]
  | cons byte low ih =>
      rw [List.cons_append, value, value, ih, List.length_cons, capacity, Nat.mul_add,
        Nat.mul_assoc, Nat.add_assoc]

/-- The octets of the number that octets write are these octets. -/
theorem octets_value (bytes : Bytes) : octets bytes.length (value bytes) = bytes := by
  induction bytes with
  | nil => rfl
  | cons byte rest ih =>
      have small := byte.toNat_lt
      have lowest : (byte.toNat + 256 * value rest) % 256 = byte.toNat := by omega
      have above : (byte.toNat + 256 * value rest) / 256 = value rest := by omega
      rw [List.length_cons, value, octets, lowest, above, ih, UInt8.ofNat_toNat]

/-- Reading octets gives an integer with the residue that they write. -/
theorem decode_emod (order : ByteOrder) (isSigned : Bool) (bytes : Bytes) :
    order.decode isSigned bytes % capacity bytes.length = value (order.arrange bytes) := by
  have below := value_lt (order.arrange bytes)
  rw [length_arrange] at below
  have kept : (value (order.arrange bytes) : Int) % capacity bytes.length =
      value (order.arrange bytes) :=
    Int.emod_eq_of_lt (Int.natCast_nonneg _) (Int.ofNat_lt.mpr below)
  rw [decode]
  cases isSigned with
  | false => exact kept
  | true => exact Int.bmod_emod.trans kept

/-- Octets that are read are written again. -/
theorem encode_decode (order : ByteOrder) (isSigned : Bool) (bytes : Bytes) :
    order.encode bytes.length (order.decode isSigned bytes) = bytes := by
  have written := octets_value (order.arrange bytes)
  rw [length_arrange] at written
  rw [encode, decode_emod, Int.toNat_natCast, written, arrange_arrange]

/-- A single octet is the same in both orders. -/
theorem decode_singleton (order other : ByteOrder) (isSigned : Bool) (byte : UInt8) :
    order.decode isSigned [byte] = other.decode isSigned [byte] := by
  cases order <;> cases other <;> rfl

end ByteOrder

namespace IntType

theorem size_eq_pow (type : IntType) : type.size = 2 ^ (8 * type.octets) := by
  rw [size, ByteOrder.capacity_eq_pow, Nat.pow_mul]

theorem octets_pos (type : IntType) : 0 < type.octets := by
  cases type <;> decide

theorem octets_le_four (type : IntType) : type.octets ≤ 4 := by
  cases type <;> decide

/-- Octets are read as their number, brought into the type. -/
theorem truncate_value {type : IntType} (order : ByteOrder) {bytes : Bytes}
    (length : bytes.length = type.octets) :
    type.truncate (ByteOrder.value (order.arrange bytes)) = order.decode type.isSigned bytes := by
  have small := ByteOrder.value_lt (order.arrange bytes)
  rw [ByteOrder.length_arrange, length] at small
  rw [ByteOrder.decode, truncate, size, length]
  split
  next => rfl
  next => exact Int.emod_eq_of_lt (Int.natCast_nonneg _) (Int.ofNat_lt.mpr small)

/-- Values of a type are read by their octets. -/
theorem readsIntegers_decode (type : IntType) (order : ByteOrder) :
    order.ReadsIntegers type.octets type.Holds (order.decode type.isSigned) where
  holds := by
    intro bytes length
    rw [← truncate_value order length]
    apply holds_truncate
  places := fun _ found => ByteOrder.octetAt_decode order _ found

/-- Reversed octets are read as a number that is brought into the type. -/
theorem reverseOctets_eq_truncate (type : IntType) (value : Int) :
    type.reverseOctets value =
      type.truncate (ByteOrder.value (ByteOrder.big.encode type.octets value)) :=
  (truncate_value .little (ByteOrder.length_encode .big type.octets value)).symm

/-- The low bits of an integer decide the value that it is brought to. -/
theorem truncate_eq_of_emod {type : IntType} {first second : Int}
    (same : first % type.size = second % type.size) :
    type.truncate first = type.truncate second := by
  rw [truncate, truncate, ← Int.emod_bmod, same, Int.emod_bmod]

/-- A value of a type is determined by its octets. -/
theorem eq_of_octetAt {type : IntType} {first second : Int} (holds : type.Holds first)
    (holds' : type.Holds second)
    (same : ∀ index < type.octets,
      ByteOrder.octetAt first index = ByteOrder.octetAt second index) :
    first = second := by
  rw [← truncate_of_holds holds, ← truncate_of_holds holds']
  exact truncate_eq_of_emod (ByteOrder.emod_eq_of_octetAt same)

/-- Two values of a type whose octets stand in opposite orders. -/
structure Reverses (type : IntType) (value reversed : Int) : Prop where
  holds : type.Holds value
  holds_reversed : type.Holds reversed
  opposite : ∀ index < type.octets,
    ByteOrder.octetAt reversed index = ByteOrder.octetAt value (type.octets - 1 - index)

variable {type : IntType} {value reversed : Int}

theorem Reverses.symm (reverses : type.Reverses value reversed) :
    type.Reverses reversed value where
  holds := reverses.holds_reversed
  holds_reversed := reverses.holds
  opposite := by
    intro index inside
    have within : type.octets - 1 - index < type.octets := by omega
    have twice : type.octets - 1 - (type.octets - 1 - index) = index := by omega
    rw [reverses.opposite _ within, twice]

/-- Only one value has the opposite octets. -/
theorem Reverses.unique {other : Int} (reverses : type.Reverses value reversed)
    (reverses' : type.Reverses value other) : reversed = other := by
  apply eq_of_octetAt reverses.holds_reversed reverses'.holds_reversed
  intro index inside
  rw [reverses.opposite index inside, reverses'.opposite index inside]

/-- A value that is written in one order and read in the other is reversed. -/
theorem Reverses.of_write {read : Bytes → Int} {write : Int → Bytes}
    (reads : ByteOrder.little.ReadsIntegers type.octets type.Holds read)
    (writes : ByteOrder.big.WritesIntegers type.octets write) (holds : type.Holds value) :
    type.Reverses value (read (write value)) where
  holds := holds
  holds_reversed := reads.holds (writes.length value)
  opposite _ inside := reads.octetAt_write_opposite writes value inside

theorem reverses_reverseOctets (holds : type.Holds value) :
    type.Reverses value (type.reverseOctets value) :=
  .of_write (type.readsIntegers_decode .little) (ByteOrder.writesIntegers_encode .big _) holds

/-- The one value with the opposite octets is the one that reversing them gives. -/
theorem reverses_iff :
    type.Reverses value reversed ↔ type.Holds value ∧ reversed = type.reverseOctets value := by
  constructor
  · intro reverses
    exact ⟨reverses.holds, reverses.unique (reverses_reverseOctets reverses.holds)⟩
  · rintro ⟨holds, rfl⟩
    exact reverses_reverseOctets holds

/-- A single octet is its own reverse. -/
theorem reverses_iff_of_single (single : type.octets = 1) :
    type.Reverses value reversed ↔ type.Holds value ∧ reversed = value := by
  have itself (holds : type.Holds value) : type.Reverses value value := by
    refine ⟨holds, holds, ?_⟩
    intro index inside
    have alone : type.octets - 1 - index = index := by omega
    rw [alone]
  constructor
  · intro reverses
    exact ⟨reverses.holds, reverses.unique (itself reverses.holds)⟩
  · rintro ⟨holds, rfl⟩
    exact itself holds

end IntType

end ByteCursor
