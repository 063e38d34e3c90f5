import ByteCursor.Call
import ByteCursor.Proofs.Decimal.Numeral
import ByteCursor.Proofs.Hexadecimal.Read
import ByteCursor.Proofs.Scan.Byte

/-!
# Tokens of calls

A call that succeeds takes a token off the unread octets.  `Takes` relates the token and the
octets behind it to the reply and to what the output buffer holds afterwards.

A call that fails is named by what its caller asked for, never by a layer inside of it.
-/

namespace ByteCursor.Call

/-- The name that a failure of the call is reported under. -/
def name : Call → String
  | readDecimal type => type.name
  | readHex type order => Hexadecimal.readName type order
  | readChar | readByte => "byte"
  | readBool => "bool"
  | skipByte _ => "skip char"
  | skipPastByte _ => "skip until char"
  | skipPattern _ => "skip substr"
  | skipPastPattern _ => "skip until substr"
  | copySlice _ _ | readSlice _ => "read slice"
  | copyUntil _ _ => "read substr until char"
  | readSliceUntil _ => "read slice until char"
  | readTextUntil _ => "read str until char"
  | trimSpaces => "trim left"

/-- Why the arguments of the call alone rule it out, if they do. -/
def objection? : Call → Option String
  | skipPattern pattern | skipPastPattern pattern =>
      if pattern = [] then some "empty substring" else none
  | copySlice output size =>
      if size = 0 then some "zero size"
      else if output.length ≤ size then some "output buffer too small"
      else none
  | copyUntil output _ => if output = [] then some "empty output buffer" else none
  | _ => none

/-- A successful call takes the token before the rest, gives the reply and leaves the output
buffer. -/
inductive Takes : Call → (token rest : Bytes) → Reply → (output : Bytes) → Prop where
  | readDecimal {type : IntType} {numeral : Decimal.Numeral} {rest : Bytes}
      (splits : numeral.SplitsOff type.isSigned (numeral.octets ++ rest) rest) :
      Takes (.readDecimal type) numeral.octets rest
        (.integer (type.truncate numeral.value)) []
  | readHex {type : IntType} {order : ByteOrder} {options : Options}
      {numeral : Hexadecimal.Numeral} {rest : Bytes}
      (splits : Hexadecimal.Numeral.ofText options (numeral.octets ++ rest) = numeral)
      (nonempty : numeral.digits ≠ []) :
      Takes (.readHex type order) numeral.octets rest
        (.integer (Scan.inOrder order type
          (type.truncate (Hexadecimal.number numeral.digits)))) []
  | readChar {byte : UInt8} {rest : Bytes} :
      Takes .readChar [byte] rest (.character (Char.ofNat byte.toNat)) []
  | readByte {byte : UInt8} {rest : Bytes} : Takes .readByte [byte] rest (.byte byte) []
  | readBool {value : Bool} {rest : Bytes} :
      Takes .readBool [Scan.truthByte value] rest (.truth value) []
  | skipByte {expected : UInt8} {rest : Bytes} :
      Takes (.skipByte expected) [expected] rest .nothing []
  | skipPastByte {stop : UInt8} {before rest : Bytes} (first : stop ∉ before) :
      Takes (.skipPastByte stop) (before ++ [stop]) rest .nothing []
  | skipPattern {pattern rest : Bytes} (nonempty : pattern ≠ []) :
      Takes (.skipPattern pattern) pattern rest .nothing []
  | skipPastPattern {pattern before rest : Bytes} (nonempty : pattern ≠ [])
      (only : ∀ offset, Bytes.OccursAt pattern (before ++ pattern) offset ↔
        offset = before.length) :
      Takes (.skipPastPattern pattern) (before ++ pattern) rest .nothing []
  | copySlice {output slice rest : Bytes} (nonempty : slice ≠ [])
      (room : slice.length < output.length) :
      Takes (.copySlice output slice.length) slice rest .nothing (Scan.overwrite output slice)
  | copyUntil {output slice rest : Bytes} {stop : UInt8} (first : stop ∉ slice)
      (room : slice.length < output.length) :
      Takes (.copyUntil output stop) (slice ++ [stop]) rest (.count slice.length)
        (Scan.overwrite output slice)
  | readSlice {slice rest : Bytes} :
      Takes (.readSlice slice.length) slice rest (.slice slice) []
  | readSliceUntil {stop : UInt8} {slice rest : Bytes} (first : stop ∉ slice) :
      Takes (.readSliceUntil stop) (slice ++ [stop]) rest (.slice slice) []
  | readTextUntil {stop : UInt8} {text : String} {rest : Bytes}
      (first : stop ∉ Bytes.ofString text) :
      Takes (.readTextUntil stop) (Bytes.ofString text ++ [stop]) rest (.text text) []
  | trimSpaces {count : Nat} {rest : Bytes} (longest : rest.head? ≠ some 0x20) :
      Takes .trimSpaces (List.replicate count 0x20) rest (.count count) []

end ByteCursor.Call
