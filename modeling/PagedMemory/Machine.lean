import PagedMemory.AddressSpace
import PagedMemory.Paging.Walk

/-!
# The machine

A machine is a bus with a choice of tracking. Its virtual accesses check that their bytes lie on
one page, translate their address, and go to the bus, which checks their width.
-/

namespace PagedMemory

/-- RAM, devices, and the tracking of walks. -/
structure Machine (δ : Type) where
  bus : Bus δ
  tracking : Tracking

namespace Machine

variable {δ τ α : Type}

/-- Runs an operation on the bus. -/
@[inline] def onBus (op : Op (Bus δ) α) : Op (Machine δ) α :=
  op.within (fun ⟨bus, tracking⟩ => (bus, tracking)) (fun bus tracking => ⟨bus, tracking⟩)

/-- Runs an operation on RAM together with something that is no part of the machine. -/
@[inline] def onRamWith (op : Op (Ram × τ) α) : Op (Machine δ × τ) α :=
  op.within (fun (⟨⟨ram, table⟩, tracking⟩, t) => ((ram, t), (table, tracking)))
    (fun (ram, t) (table, tracking) => (⟨⟨ram, table⟩, tracking⟩, t))

/-- Refuses an access whose bytes do not lie on one page. -/
def checkCrossing (addr : UInt32) (len : Nat) : Op (Machine δ) Unit :=
  if Page.Within addr len then pure ()
  else do
    .report (.crossingRefused addr len)
    .fail (.crossesPage addr len)

@[simp] theorem run_onBus (op : Op (Bus δ) α) (machine : Machine δ) :
    (onBus op).run machine = ⟨(op.run machine.bus).result,
      ⟨(op.run machine.bus).state, machine.tracking⟩, (op.run machine.bus).events⟩ := rfl

@[simp] theorem run_onRamWith (op : Op (Ram × τ) α) (machine : Machine δ) (t : τ) :
    (onRamWith op).run (machine, t) =
      let o := op.run (machine.bus.ram, t)
      ⟨o.result, (⟨⟨o.state.1, machine.bus.table⟩, machine.tracking⟩, o.state.2), o.events⟩ := rfl

variable [Device δ]

/-- The physical address of `vaddr`. -/
def translate (regs : Registers) (access : Access) (vaddr : UInt32) : Op (Machine δ) UInt32 := do
  let tracking ← .ask (·.tracking)
  onBus (Bus.translate regs tracking access vaddr)

/-- Reads a word at a virtual address. -/
def read (regs : Registers) (vaddr : UInt32) (len : Nat) : Op (Machine δ) UInt32 := do
  checkCrossing vaddr len
  let paddr ← translate regs .read vaddr
  onBus (Bus.read paddr len)

/-- Writes a word at a virtual address. -/
def write (regs : Registers) (vaddr : UInt32) (len : Nat) (data : UInt32) :
    Op (Machine δ) Unit := do
  checkCrossing vaddr len
  let paddr ← translate regs .write vaddr
  onBus (Bus.write paddr len data)

omit [Device δ] in
/-- The machine with all its parts but the devices. -/
def debugText (machine : Machine δ) : String :=
  "GuestMemory \x7b bus: " ++ machine.bus.debugText ++ ", tracking: " ++ machine.tracking.name ++
    " \x7d"

end Machine

end PagedMemory
