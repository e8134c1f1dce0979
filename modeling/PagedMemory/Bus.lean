import PagedMemory.Ram
import PagedMemory.Region

/-!
# The bus

Physical addresses lead to RAM, or to the device whose region holds them. The bus checks the width
of an access and its bounds against RAM, whoever serves it, and then looks only at its first
address: the access goes as a whole to one place.

- `run_read_of_find`, `run_read_of_not_find`: who serves a read;
- `run_write_of_find`, `run_write_of_not_find`: who serves a write.
-/

namespace PagedMemory

/-- RAM with the regions of it that devices serve. -/
structure Bus (δ : Type) where
  ram : Ram
  table : RegionTable δ

namespace Bus

variable {δ α τ : Type}

/-- RAM without devices. -/
def ofRam (ram : Ram) : Bus δ := ⟨ram, .empty⟩

/-- Runs an operation on RAM, past all devices. -/
@[inline] def onRam (op : Op Ram α) : Op (Bus δ) α :=
  op.within (fun ⟨ram, table⟩ => (ram, table)) (fun ram table => ⟨ram, table⟩)

/-- Runs an operation on the table of regions. -/
@[inline] def onTable (op : Op (RegionTable δ) α) : Op (Bus δ) α :=
  op.within (fun ⟨ram, table⟩ => (table, ram)) (fun table ram => ⟨ram, table⟩)

/-- Attaches a device to a range that lies in RAM, and answers the place of the region. -/
def attach (region : Region δ) : Op (Bus δ) Nat := do
  .query fun bus =>
    if region.range.stop ≤ bus.ram.size then .ok () else .error (.badRange region.range)
  onTable (RegionTable.attach region)

/-- The place of the region that serves `addr`; none if RAM serves it. -/
def owner? (bus : Bus δ) (addr : UInt32) : Option Nat := (bus.table.find? addr).map (·.1)

/-- Reads a word. What a device answers is passed on as it is. -/
def read [Device δ] (addr : UInt32) (len : Nat) : Op (Bus δ) UInt32 := do
  .query (·.ram.checkWord addr len)
  match ← Op.ask (·.table.find? addr) with
  | some (i, region) => onTable (RegionTable.readRegion i region addr len)
  | none => .query (·.ram.read addr len)

/-- Writes a word. A device is given the data as it is. -/
def write [Device δ] (addr : UInt32) (len : Nat) (data : UInt32) : Op (Bus δ) Unit := do
  .query (·.ram.checkWord addr len)
  match ← Op.ask (·.table.find? addr) with
  | some (i, region) => onTable (RegionTable.writeRegion i region addr len data)
  | none => onRam (Ram.write addr len data)

/-- RAM and regions. -/
def debugText (bus : Bus δ) : String :=
  "Bus \x7b pmem: " ++ bus.ram.debugText ++ ", mmio: " ++ bus.table.debugText ++ " \x7d"

/-! ## Who serves an access -/

@[simp] theorem run_onRam (op : Op Ram α) (bus : Bus δ) :
    (onRam op).run bus =
      ⟨(op.run bus.ram).result, ⟨(op.run bus.ram).state, bus.table⟩, (op.run bus.ram).events⟩ := rfl

@[simp] theorem run_onTable (op : Op (RegionTable δ) α) (bus : Bus δ) :
    (onTable op).run bus = ⟨(op.run bus.table).result, ⟨bus.ram, (op.run bus.table).state⟩,
      (op.run bus.table).events⟩ := rfl

variable [Device δ] {bus : Bus δ} {addr : UInt32} {len : Nat}

/-- An access that the bus refuses reaches nothing. -/
theorem run_read_of_refused {e : Error} (h : bus.ram.checkWord addr len = .error e) :
    (read addr len).run bus = ⟨.error e, bus, []⟩ := by
  simp [read, h]

/-- An access that the bus refuses reaches nothing. -/
theorem run_write_of_refused {e : Error} (h : bus.ram.checkWord addr len = .error e)
    (data : UInt32) : (write addr len data).run bus = ⟨.error e, bus, []⟩ := by
  simp [write, h]

/-- A read whose first address a region holds is served by its device. -/
theorem run_read_of_find (h : bus.ram.checkWord addr len = .ok ()) {i : Nat} {region : Region δ}
    (hf : bus.table.find? addr = some (i, region)) :
    (read addr len).run bus =
      ⟨.ok (Device.read region.device addr len).1,
        ⟨bus.ram, bus.table.setDevice i (Device.read region.device addr len).2⟩,
        [.deviceRead region.name addr len (Device.read region.device addr len).1]⟩ := by
  simp [read, h, hf, RegionTable.readRegion]

/-- A read whose first address no region holds is served by RAM. -/
theorem run_read_of_not_find (h : bus.ram.checkWord addr len = .ok ())
    (hf : bus.table.find? addr = none) :
    (read addr len).run bus =
      ⟨.ok (UInt32.ofNat (Word.ofBytes (bus.ram.slice addr.toNat len))), bus, []⟩ := by
  simp [read, h, hf, Ram.read, bind, Except.bind, pure, Except.pure]

/-- A write whose first address a region holds goes to its device. -/
theorem run_write_of_find (h : bus.ram.checkWord addr len = .ok ()) {i : Nat} {region : Region δ}
    (hf : bus.table.find? addr = some (i, region)) (data : UInt32) :
    (write addr len data).run bus =
      ⟨.ok (), ⟨bus.ram, bus.table.setDevice i (Device.write region.device addr len data)⟩,
        [.deviceWrite region.name addr len data]⟩ := by
  simp [write, h, hf, RegionTable.writeRegion]

/-- A write whose first address no region holds goes to RAM. -/
theorem run_write_of_not_find (h : bus.ram.checkWord addr len = .ok ())
    (hf : bus.table.find? addr = none) (data : UInt32) :
    (write addr len data).run bus =
      ⟨.ok (), ⟨bus.ram.store addr.toNat (Word.bytes len data.toNat), bus.table⟩, []⟩ := by
  simp [write, h, hf, Ram.write]

end Bus

end PagedMemory
