import PagedMemory.Bus
import PagedMemory.Paging.Registers

/-!
# The walk

With paging on, a virtual address is looked up in two steps: an entry of the directory names a
table, and an entry of that table names the frame. Both entries are read through the bus, so a
device may serve either. The walk marks the entries that it used; whether the marks reach memory is
a matter of tracking.
-/

namespace PagedMemory

namespace Bus

variable {δ : Type} [Device δ]

/-- Reads the entry at `slot`, which must be present. -/
def fetch (level : Level) (vaddr slot : UInt32) : Op (Bus δ) Entry := do
  let entry : Entry := ⟨← read slot 4⟩
  if entry.has .present then pure entry else .fail (.notPresent level vaddr entry.bits)

/-- Stores the marked entry at `slot`, if tracking asks for it and the marks are new. -/
def track (tracking : Tracking) (slot : UInt32) (entry marked : Entry) : Op (Bus δ) Unit :=
  match tracking with
  | .discard => pure ()
  | .writeBack => if marked = entry then pure () else write slot 4 marked.bits

/-- Walks from `directory` to the physical address of `vaddr`. -/
def walk (directory : UInt32) (tracking : Tracking) (access : Access) (vaddr : UInt32) :
    Op (Bus δ) UInt32 := do
  let directorySlot := Entry.directorySlot directory vaddr
  let pde ← fetch .directory vaddr directorySlot
  let tableSlot := Entry.tableSlot pde.frame vaddr
  let pte ← fetch .table vaddr tableSlot
  track tracking directorySlot pde (pde.touched .read)
  track tracking tableSlot pte (pte.touched access)
  let paddr := pte.resolve vaddr
  .report (.walked access vaddr (pde.touched .read) (pte.touched access) paddr)
  pure paddr

/-- The physical address of `vaddr`: with paging off, `vaddr` itself. -/
def translate (regs : Registers) (tracking : Tracking) (access : Access) (vaddr : UInt32) :
    Op (Bus δ) UInt32 :=
  if regs.pagingEnabled then walk regs.directory tracking access vaddr else pure vaddr

end Bus

end PagedMemory
