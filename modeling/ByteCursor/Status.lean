import ByteCursor.Error

/-!
# Accumulated status

A status remembers which kinds of errors a run of calls has met, one bit per kind.  Recording
a result only ever sets bits, so the status depends on the set of kinds alone.
-/

namespace ByteCursor

/-- The kinds of errors seen so far, one bit per kind. -/
structure Status where
  /-- The bits that are set. -/
  flags : UInt8 := 0
  deriving DecidableEq, Repr

namespace Status

instance : Inhabited Status := ⟨{}⟩

/-- The bit of a kind. -/
def bit : ErrorKind → UInt8
  | .invalidArgument => 0b001
  | .notTerminated => 0b010
  | .parse => 0b100

/-- No error was seen. -/
def isOk (status : Status) : Bool := status.flags == 0

/-- Some error was seen. -/
def isError (status : Status) : Bool := !status.isOk

/-- An error of this kind was seen. -/
def contains (status : Status) (kind : ErrorKind) : Bool := status.flags &&& bit kind != 0

/-- Remember the kind of one error. -/
def note (status : Status) (error : ReadError) : Status :=
  { flags := status.flags ||| bit error.kind }

/-- Remember how a call ended; a success changes nothing. -/
def record {α : Type} (status : Status) : Except ReadError α → Status
  | .ok _ => status
  | .error error => status.note error

@[simp] theorem record_ok {α : Type} (status : Status) (value : α) :
    status.record (.ok value) = status := rfl

@[simp] theorem record_error {α : Type} (status : Status) (error : ReadError) :
    status.record (.error error : Except ReadError α) = status.note error := rfl

end Status

end ByteCursor
