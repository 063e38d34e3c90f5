import ByteCursor.Bytes

/-!
# Byte order

An integer of `count` octets is the two's-complement reading of its octets, which stand with
the most significant first or with the least significant first.

`encode` and `decode` are the two directions; reversing the octets changes one order into the
other.
-/

namespace ByteCursor

/-- Which octet of an integer comes first. -/
inductive ByteOrder where
  | big
  | little
  deriving DecidableEq, Repr

namespace ByteOrder

/-- How many numbers so many octets write. -/
def capacity : (count : Nat) → Nat
  | 0 => 1
  | count + 1 => 256 * capacity count

/-- The number whose octets are given from the least significant on. -/
def value : Bytes → Nat
  | [] => 0
  | byte :: rest => byte.toNat + 256 * value rest

/-- The lowest `count` octets of a number, from the least significant on. -/
def octets : (count : Nat) → Nat → Bytes
  | 0, _ => []
  | count + 1, number => UInt8.ofNat (number % 256) :: octets count (number / 256)

/-- Octets in this order, written from the least significant on, and back. -/
def arrange : ByteOrder → Bytes → Bytes
  | big, bytes => bytes.reverse
  | little, bytes => bytes

/-- Read octets as an integer, in two's complement if it is signed. -/
def decode (order : ByteOrder) (isSigned : Bool) (bytes : Bytes) : Int :=
  let pattern := value (order.arrange bytes)
  if isSigned then (pattern : Int).bmod (capacity bytes.length) else pattern

/-- Write the lowest `count` octets of an integer in two's complement. -/
def encode (order : ByteOrder) (count : Nat) (number : Int) : Bytes :=
  order.arrange (octets count (number % capacity count).toNat)

@[simp] theorem length_octets (count number : Nat) : (octets count number).length = count := by
  induction count generalizing number with
  | zero => rfl
  | succ count ih => simp [octets, ih]

@[simp] theorem length_arrange (order : ByteOrder) (bytes : Bytes) :
    (order.arrange bytes).length = bytes.length := by
  cases order <;> simp [arrange]

@[simp] theorem arrange_arrange (order : ByteOrder) (bytes : Bytes) :
    order.arrange (order.arrange bytes) = bytes := by
  cases order <;> simp [arrange]

@[simp] theorem length_encode (order : ByteOrder) (count : Nat) (number : Int) :
    (order.encode count number).length = count := by
  simp [encode]

/-- Octets write a number below their capacity. -/
theorem value_lt (bytes : Bytes) : value bytes < capacity bytes.length := by
  induction bytes with
  | nil => simp [value, capacity]
  | cons byte rest ih =>
      have small := byte.toNat_lt
      simp only [value, List.length_cons, capacity]
      omega

/-- Reading the octets of a number gives what is left of it in so many octets. -/
theorem value_octets (count number : Nat) :
    value (octets count number) = number % capacity count := by
  induction count generalizing number with
  | zero => simp [octets, value, capacity, Nat.mod_one]
  | succ count ih =>
      have small : number % 256 < 256 := Nat.mod_lt _ (by decide)
      simp only [octets, value, capacity, ih]
      rw [Nat.mod_mul]
      simp

end ByteOrder

end ByteCursor
