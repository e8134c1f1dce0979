import PagedMemory.Paging.Access
import PagedMemory.Paging.Entry
import PagedMemory.Range

/-!
# Events

Operations report what happened as events, in order. Events are data: the log prints some of them
(`PagedMemory.Log`), and device traffic is the sublist of the device events.
-/

namespace PagedMemory

/-- Something that an operation did. -/
inductive Event
  /-- A walk led from `vaddr` to `paddr`; the entries have their bits set. -/
  | walked (access : Access) (vaddr : UInt32) (directory table : Entry) (paddr : UInt32)
  /-- An address space came to be. -/
  | spaceCreated (directory : UInt32)
  /-- A slot of a directory got a new table. -/
  | tableCreated (table slot : UInt32)
  /-- A page got a frame. -/
  | mapped (vaddr frame : UInt32)
  /-- A page is about to lose the frame that it has. -/
  | remapped (vaddr old new : UInt32)
  /-- A device was attached to a range. -/
  | attached (name : String) (range : Range)
  /-- A device answered a read. -/
  | deviceRead (name : String) (addr : UInt32) (len : Nat) (value : UInt32)
  /-- A device is about to get a write. -/
  | deviceWrite (name : String) (addr : UInt32) (len : Nat) (data : UInt32)
  /-- A machine was built. -/
  | built (ramSize regions : Nat) (tracking : Tracking)
  /-- An access was refused because its bytes do not lie on one page. -/
  | crossingRefused (addr : UInt32) (len : Nat)
  /-- The file of an image was opened. -/
  | imageOpened (name : String) (fd : Nat)
  /-- A page of an image reached its frame. -/
  | pageLoaded (vaddr frame : UInt32)
  /-- An image was loaded as a whole. -/
  | imageLoaded (name : String) (size pages : Nat) (entry : UInt32)
deriving DecidableEq, Repr

/-- A device took part in the event. -/
def Event.isTraffic : Event → Bool
  | .deviceRead .. | .deviceWrite .. => true
  | _ => false

/-- The accesses that devices served, in order. -/
def Event.traffic (events : List Event) : List Event := events.filter isTraffic

theorem Event.traffic_append (es fs : List Event) :
    Event.traffic (es ++ fs) = Event.traffic es ++ Event.traffic fs := List.filter_append _ _

end PagedMemory
