/-!
# Errors of the reads

A refused read is one of three causes, each with its own message.  The kind of an error is its
cause without the details.
-/

namespace ByteCursor

/-- Why a buffer or a read was refused. -/
inductive ReadError where
  /-- The arguments alone rule the call out. -/
  | invalidArgument (what : String)
  /-- The buffer has no zero octet at its declared length. -/
  | notTerminated (length : Nat)
  /-- The unread octets do not match what was asked for. -/
  | parse (what : String) (offset : Nat)
  deriving DecidableEq, Repr

/-- The cause of an error without its details. -/
inductive ErrorKind where
  | invalidArgument
  | notTerminated
  | parse
  deriving DecidableEq, Repr

namespace ErrorKind

/-- Every kind, in the order of the declaration. -/
def all : List ErrorKind := [.invalidArgument, .notTerminated, .parse]

end ErrorKind

namespace ReadError

/-- The kind of an error. -/
def kind : ReadError → ErrorKind
  | invalidArgument _ => .invalidArgument
  | notTerminated _ => .notTerminated
  | parse _ _ => .parse

/-- The text shown for an error. -/
def message : ReadError → String
  | invalidArgument what => "invalid argument: " ++ what
  | notTerminated length => "buffer is not null-terminated at offset " ++ toString length
  | parse what offset => what ++ ": no match at offset " ++ toString offset

/-- The same error under another name: a parse error is reported as `what` at `offset`, and
every other error stays as it is. -/
def relabel (what : String) (offset : Nat) : ReadError → ReadError
  | parse _ _ => parse what offset
  | error => error

@[simp] theorem kind_relabel (what : String) (offset : Nat) (error : ReadError) :
    (error.relabel what offset).kind = error.kind := by
  cases error <;> rfl

/-- Only the last of several names and offsets is kept. -/
@[simp] theorem relabel_relabel (first second : String) (start offset : Nat) (error : ReadError) :
    (error.relabel first start).relabel second offset = error.relabel second offset := by
  cases error <;> rfl

end ReadError

end ByteCursor
