import ByteCursor.Integer.Decimal
import ByteCursor.Integer.Hexadecimal
import ByteCursor.Raw
import ByteCursor.Scan.Byte
import ByteCursor.Status

/-!
# Calls and their replies

A call is a request to read or to skip that may end with an error.  A raw request goes through
the raw view of the cursor, and a query only looks.  All of them answer with a reply.

A call that writes to an output buffer carries the buffer that its caller hands over.
-/

namespace ByteCursor

/-- A request to read or to skip. -/
inductive Call where
  | readDecimal (type : IntType)
  | readHex (type : IntType) (order : ByteOrder)
  | readChar
  | readByte
  | readBool
  | skipByte (expected : UInt8)
  | skipPastByte (stop : UInt8)
  | skipPattern (pattern : Bytes)
  | skipPastPattern (pattern : Bytes)
  | copySlice (output : Bytes) (size : Nat)
  | copyUntil (output : Bytes) (stop : UInt8)
  | readSlice (size : Nat)
  | readSliceUntil (stop : UInt8)
  | readTextUntil (stop : UInt8)
  | trimSpaces
  deriving DecidableEq, Repr

/-- A request to the raw view. -/
inductive RawRequest where
  | remaining
  | hasRemaining
  | chunk
  | advance (count : Nat)
  | fill (output : Bytes)
  | integer (format : BinaryFormat)
  deriving DecidableEq, Repr

/-- A question that changes nothing. -/
inductive Query where
  | position
  | length
  | available
  | isEmpty
  | remaining
  | peek
  | options
  | status
  deriving DecidableEq, Repr

/-- What a request answers. -/
inductive Reply where
  | nothing
  | integer (value : Int)
  | byte (value : UInt8)
  | character (value : Char)
  | truth (value : Bool)
  | count (value : Nat)
  | slice (value : Bytes)
  | text (value : String)
  | next (value : Option UInt8)
  | options (value : Options)
  | status (value : Status)
  deriving DecidableEq, Repr

namespace Call

/-- The scan of a call. -/
def scan (call : Call) (arithmetic : Arithmetic := .wrapping) : Scan Reply :=
  match call with
  | readDecimal type => Reply.integer <$> Scan.readDecimal type arithmetic
  | readHex type order => Reply.integer <$> Scan.readHex type order
  | readChar => Reply.character <$> Scan.readChar
  | readByte => Reply.byte <$> Scan.readByte
  | readBool => Reply.truth <$> Scan.readBool
  | skipByte expected => (fun _ => Reply.nothing) <$> Scan.skipByte expected
  | skipPastByte stop => (fun _ => Reply.nothing) <$> Scan.skipPastByte stop
  | skipPattern pattern => (fun _ => Reply.nothing) <$> Scan.skipPattern pattern
  | skipPastPattern pattern => (fun _ => Reply.nothing) <$> Scan.skipPastPattern pattern
  | copySlice _ size => (fun _ => Reply.nothing) <$> Scan.copySlice size
  | copyUntil _ stop => Reply.count <$> Scan.copyUntil stop
  | readSlice size => Reply.slice <$> Scan.readSlice size
  | readSliceUntil stop => Reply.slice <$> Scan.readSliceUntil stop
  | readTextUntil stop => Reply.text <$> Scan.readTextUntil stop
  | trimSpaces => Reply.count <$> Scan.trimSpaces

/-- The output buffer that the caller hands over. -/
def output : Call → Bytes
  | copySlice output _ | copyUntil output _ => output
  | _ => []

/-- Make a call on a cursor. -/
def run (call : Call) (cursor : Cursor) (arithmetic : Arithmetic := .wrapping) :
    Scan.Outcome Reply :=
  (call.scan arithmetic).run { cursor := cursor, output := call.output }

end Call

namespace RawRequest

/-- The scan of a request. -/
def scan : RawRequest → Scan Reply
  | remaining => (fun cursor => Reply.count cursor.available) <$> Scan.cursor
  | hasRemaining => (fun cursor => Reply.truth (0 < cursor.available)) <$> Scan.cursor
  | chunk => Reply.slice <$> Scan.remaining
  | advance count => (fun _ => Reply.nothing) <$> Scan.advance count
  | fill _ => (fun _ => Reply.nothing) <$> Scan.fillOutput
  | integer format => Reply.integer <$> Scan.takeInteger format

/-- The buffer that is to be filled. -/
def output : RawRequest → Bytes
  | fill output => output
  | _ => []

/-- Make a request on a cursor. -/
def run (request : RawRequest) (cursor : Cursor) : Scan.Outcome Reply :=
  request.scan.run { cursor := cursor, output := request.output }

end RawRequest

end ByteCursor
