import PagedMemory.Machine

/-!
# Building machines

A machine is built from settings, given in any order. Of settings of the size of RAM the last one
counts, and so of tracking; devices are attached in the order in which they are given.
-/

namespace PagedMemory

/-- One choice about a machine. -/
inductive Setting (δ : Type)
  /-- The size of RAM, in mebibytes. -/
  | mebibytes (n : UInt32)
  /-- The size of RAM, in bytes. -/
  | bytes (n : Nat)
  | tracking (t : Tracking)
  | device (region : Region δ)

/-- The choices about a machine. -/
structure Setup (δ : Type) where
  /-- The size of RAM, in bytes. -/
  ramSize : Nat
  tracking : Tracking
  /-- The regions to be attached, in order. -/
  regions : List (Region δ)

namespace Setup

variable {δ : Type}

/-- 128 MiB of RAM, no tracking, no devices. -/
def initial : Setup δ := ⟨134217728, .discard, []⟩

/-- The setup with one more choice made. -/
def choose (setup : Setup δ) : Setting δ → Setup δ
  | .mebibytes n => { setup with ramSize := n.toNat * 1048576 }
  | .bytes n => { setup with ramSize := n }
  | .tracking t => { setup with tracking := t }
  | .device region => { setup with regions := setup.regions ++ [region] }

/-- The setup that the settings lead to. -/
def ofList (settings : List (Setting δ)) : Setup δ := settings.foldl choose initial

/-- Attaches each device to its range. -/
def attachAll (regions : List (Region δ)) : Op (Bus δ) Unit :=
  .each (fun region => do let _ ← Bus.attach region) regions

/-- The machine of the setup, and what happened while it was built. -/
def build (setup : Setup δ) : Except Error (Machine δ) × List Event :=
  match Ram.zeroed setup.ramSize with
  | .error e => (.error e, [])
  | .ok ram =>
    match (attachAll setup.regions).run (.ofRam ram) with
    | ⟨.error e, _, events⟩ => (.error e, events)
    | ⟨.ok (), bus, events⟩ =>
      (.ok ⟨bus, setup.tracking⟩,
        events ++ [.built setup.ramSize bus.table.size setup.tracking])

end Setup

end PagedMemory
