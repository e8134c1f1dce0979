import PagedMemory.Text.Hex

/-!
# Ranges of physical addresses

A range is a base and a size; it holds the addresses from its base up to, but not including, its
`stop`. The stop is a number and not an address: a range may end at, or run past, the top of the
32-bit address space.
-/

namespace PagedMemory

/-- The addresses `base, …, base + size - 1`. -/
structure Range where
  /-- The first address. -/
  base : UInt32
  /-- How many bytes the range spans. -/
  size : UInt32
deriving DecidableEq, Repr

namespace Range

/-- The range from `first` to `last`. Its size is taken modulo 2 ^ 32. -/
def inclusive (first last : UInt32) : Range := ⟨first, last - first + 1⟩

/-- One past the last address. -/
def stop (r : Range) : Nat := r.base.toNat + r.size.toNat

/-- The range spans no byte. -/
def IsEmpty (r : Range) : Prop := r.size = 0

instance (r : Range) : Decidable r.IsEmpty := inferInstanceAs (Decidable (r.size = 0))

instance : Membership UInt32 Range := ⟨fun r addr => r.base ≤ addr ∧ addr.toNat < r.stop⟩

instance (addr : UInt32) (r : Range) : Decidable (addr ∈ r) :=
  inferInstanceAs (Decidable (r.base ≤ addr ∧ addr.toNat < r.stop))

/-- Where `addr` lies in the range, if it does. -/
def offset? (r : Range) (addr : UInt32) : Option UInt32 :=
  if addr ∈ r then some (addr - r.base) else none

/-- Each range begins before the other one stops. -/
def Overlaps (r s : Range) : Prop := r.base.toNat < s.stop ∧ s.base.toNat < r.stop

instance (r s : Range) : Decidable (r.Overlaps s) := inferInstanceAs (Decidable (_ ∧ _))

/-- The range with its two ends, as messages print it. -/
def text (r : Range) : String := s!"[{Text.address r.base}, {Text.wideHex r.stop})"

/-- The range with its fields. -/
def debugText (r : Range) : String :=
  "PhysRange \x7b base: " ++ toString r.base.toNat ++ ", size: " ++ toString r.size.toNat ++ " \x7d"

/-! ## Membership -/

theorem mem_iff {addr : UInt32} {r : Range} :
    addr ∈ r ↔ r.base.toNat ≤ addr.toNat ∧ addr.toNat < r.stop := Iff.rfl

theorem offset?_eq_some_iff {r : Range} {addr o : UInt32} :
    r.offset? addr = some o ↔ addr ∈ r ∧ addr - r.base = o := by
  simp [offset?]

/-- Overlapping is symmetric. -/
theorem overlaps_comm {r s : Range} : r.Overlaps s ↔ s.Overlaps r := And.comm

end Range

end PagedMemory
