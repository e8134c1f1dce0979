/-!
# Kinds of access, and what a walk leaves in the tables
-/

namespace PagedMemory

/-- What an address is looked up for. -/
inductive Access
  | read
  | write
deriving DecidableEq, Repr

/-- What becomes of the accessed and dirty bits that a walk sets. -/
inductive Tracking
  /-- They are dropped: the tables stay as they are. -/
  | discard
  /-- They are stored into the tables. -/
  | writeBack
deriving DecidableEq, Repr

/-- The kind of access as the log names it. -/
def Access.name : Access → String
  | .read => "Read"
  | .write => "Write"

/-- The tracking as the log names it. -/
def Tracking.name : Tracking → String
  | .discard => "Discard"
  | .writeBack => "WriteBack"

end PagedMemory
