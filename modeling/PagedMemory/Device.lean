/-!
# Devices

A device answers reads and takes writes of physical addresses. It sees the absolute address, the
width of the access and, on a write, the whole data word; it may change its own state on either.
-/

namespace PagedMemory

/-- `δ` are the states of devices. -/
class Device (δ : Type) where
  /-- The value read, and the device afterwards. -/
  read : δ → UInt32 → Nat → UInt32 × δ
  /-- The device after a write. -/
  write : δ → UInt32 → Nat → UInt32 → δ

/-- Where there are no devices, none is ever called. -/
instance : Device Empty where
  read device := device.elim
  write device := device.elim

/-- What a device with one register does with it. -/
inductive RegisterKind
  /-- Reads answer the address with the width mixed into it; the register plays no part. -/
  | echo
  /-- Each read counts the register up. -/
  | counter
  /-- Each write replaces the register. -/
  | latch
  /-- The register never changes. -/
  | constant
deriving DecidableEq, Repr

/-- A device with one register. -/
structure RegisterDevice where
  kind : RegisterKind
  value : UInt32
deriving DecidableEq, Repr

instance : Device RegisterDevice where
  read device addr len :=
    match device.kind with
    | .echo => (addr ^^^ UInt32.ofNat len, device)
    | .counter => (device.value, { device with value := device.value + 1 })
    | .latch | .constant => (device.value, device)
  write device _ _ data :=
    match device.kind with
    | .latch => { device with value := data }
    | .echo | .counter | .constant => device

end PagedMemory
