/-!
# The subscriber of a process

A process hands its events to one subscriber, which can be installed once.  A later installation
is refused and leaves the first in place.
-/

namespace ByteCursor

/-- Whether a process has a subscriber. -/
inductive Subscriber where
  /-- No subscriber is installed. -/
  | absent
  /-- A subscriber is installed. -/
  | installed
  deriving DecidableEq, Repr

namespace Subscriber

/-- Why a subscriber is not installed. -/
inductive InstallError where
  /-- The process has a subscriber already. -/
  | alreadySet
  deriving DecidableEq, Repr

/-- The text shown for an error. -/
def InstallError.message : InstallError → String
  | alreadySet =>
      "installing subscriber: a global default trace dispatcher has already been set"

/-- Install a subscriber: how the installation ended, and the state of the process after it. -/
def install : Subscriber → Except InstallError Unit × Subscriber
  | absent => (.ok (), installed)
  | installed => (.error .alreadySet, installed)

end Subscriber

end ByteCursor
