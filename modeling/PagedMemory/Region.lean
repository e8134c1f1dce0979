import PagedMemory.Device
import PagedMemory.Op
import PagedMemory.Text.Quoted

/-!
# Regions of devices

A region is a range of physical addresses that a device serves. The table keeps the regions in
the order in which they were attached; a region is known by its place in the table.

- `locate_eq_some_iff`: the region found is the first that holds the address.
-/

namespace PagedMemory

/-- A range of addresses and the device that serves it. -/
structure Region (δ : Type) where
  name : String
  range : Range
  device : δ

/-- The regions, in the order in which they were attached. -/
structure RegionTable (δ : Type) where
  regions : List (Region δ)

namespace RegionTable

variable {δ : Type}

/-- No region. -/
def empty : RegionTable δ := ⟨[]⟩

/-- How many regions there are. -/
def size (table : RegionTable δ) : Nat := table.regions.length

/-- The first region of the list that holds `addr`, with its place. -/
def locate (addr : UInt32) : List (Region δ) → Option (Nat × Region δ)
  | [] => none
  | region :: rest =>
    if addr ∈ region.range then some (0, region)
    else (locate addr rest).map fun (i, r) => (i + 1, r)

/-- The region that serves `addr`, with its place. -/
def find? (table : RegionTable δ) (addr : UInt32) : Option (Nat × Region δ) :=
  locate addr table.regions

/-- Adds a region, and answers its place. The range must hold an address, consist of 32-bit
addresses, and meet no region in place. -/
def attach (region : Region δ) : Op (RegionTable δ) Nat := do
  .require (¬ region.range.IsEmpty ∧ region.range.stop ≤ UInt32.size) (.badRange region.range)
  match ← Op.ask fun table => table.regions.find? fun r => r.range.Overlaps region.range with
  | some existing => .fail (.overlap region.range existing.name)
  | none =>
    .report (.attached region.name region.range)
    .change fun table => (table.size, ⟨table.regions ++ [region]⟩)

/-- Puts the device at place `i` into a new state. -/
def setDevice (table : RegionTable δ) (i : Nat) (device : δ) : RegionTable δ :=
  ⟨table.regions.modify i fun region => { region with device }⟩

/-- Reads from the region that stands at place `i`. -/
def readRegion [Device δ] (i : Nat) (region : Region δ) (addr : UInt32) (len : Nat) :
    Op (RegionTable δ) UInt32 := do
  let (value, device) := Device.read region.device addr len
  .update (·.setDevice i device)
  .report (.deviceRead region.name addr len value)
  pure value

/-- Writes to the region that stands at place `i`. -/
def writeRegion [Device δ] (i : Nat) (region : Region δ) (addr : UInt32) (len : Nat)
    (data : UInt32) : Op (RegionTable δ) Unit := do
  .report (.deviceWrite region.name addr len data)
  .update (·.setDevice i (Device.write region.device addr len data))

/-- The region without its device. -/
def debugRegion (region : Region δ) : String :=
  "MmioRegion \x7b name: " ++ Text.quoted region.name ++ ", range: " ++ region.range.debugText ++
    " \x7d"

/-- The regions, without their devices. -/
def debugText (table : RegionTable δ) : String :=
  "MmioBus \x7b regions: [" ++ ", ".intercalate (table.regions.map debugRegion) ++ "] \x7d"

/-! ## Finding a region -/

/-- The region found is the first that holds the address. -/
theorem locate_eq_some_iff {addr : UInt32} {regions : List (Region δ)} {i : Nat} {r : Region δ} :
    locate addr regions = some (i, r) ↔
      regions[i]? = some r ∧ addr ∈ r.range ∧
        ∀ j < i, ∀ r', regions[j]? = some r' → addr ∉ r'.range := by
  induction regions generalizing i with
  | nil => simp [locate]
  | cons region rest ih =>
    by_cases h : addr ∈ region.range
    · simp only [locate, h, if_true, Option.some.injEq, Prod.mk.injEq]
      constructor
      · rintro ⟨rfl, rfl⟩
        exact ⟨rfl, h, fun j hj => absurd hj (Nat.not_lt_zero j)⟩
      · rintro ⟨hi, _, hfirst⟩
        cases i with
        | zero => exact ⟨rfl, by simpa using hi⟩
        | succ i => exact absurd h (hfirst 0 (Nat.succ_pos i) region rfl)
    · simp only [locate, h, if_false, Option.map_eq_some_iff, Prod.exists, Prod.mk.injEq]
      constructor
      · rintro ⟨k, r', hk, rfl, rfl⟩
        obtain ⟨h1, h2, h3⟩ := ih.1 hk
        refine ⟨h1, h2, fun j hj r'' hr => ?_⟩
        cases j with
        | zero => cases hr; exact h
        | succ j => exact h3 j (Nat.lt_of_succ_lt_succ hj) r'' hr
      · rintro ⟨hi, hr, hfirst⟩
        cases i with
        | zero => simp only [List.getElem?_cons_zero, Option.some.injEq] at hi; exact absurd (hi ▸ hr) h
        | succ i =>
          exact ⟨i, r, ih.2 ⟨hi, hr, fun j hj => hfirst (j + 1) (Nat.succ_lt_succ hj)⟩, rfl, rfl⟩

/-- No region is found exactly when none holds the address. -/
theorem locate_eq_none_iff {addr : UInt32} {regions : List (Region δ)} :
    locate addr regions = none ↔ ∀ r ∈ regions, addr ∉ r.range := by
  induction regions with
  | nil => simp [locate]
  | cons region rest ih =>
    by_cases h : addr ∈ region.range <;> simp [locate, h, ih]

end RegionTable

end PagedMemory
