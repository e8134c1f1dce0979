/-!
# Pages and the parts of an address

A page holds 4096 bytes. A 32-bit virtual address splits into ten bits that index a page
directory, ten bits that index a page table, and twelve bits of offset in the page:

```text
 31        22 21        12 11          0
+------------+------------+-------------+
| directory  |   table    |   offset    |
+------------+------------+-------------+
```

The parts are given by division and remainder, so that each lemma about them is arithmetic:

- `base_eq_base_iff`: two addresses lie on one page exactly when their directory and table indices
  agree;
- `within_iff`: an access stays within a page exactly when its first and last byte do.
-/

namespace PagedMemory

namespace Page

/-- The bytes of a page. -/
def size : Nat := 4096

/-- The first address of the page that holds `addr`. -/
def base (addr : UInt32) : UInt32 := addr / 4096 * 4096

/-- Where `addr` lies in its page. -/
def offset (addr : UInt32) : UInt32 := addr % 4096

/-- The slot of the page directory that covers `addr`. -/
def directoryIndex (addr : UInt32) : UInt32 := addr / 4194304

/-- The slot of the page table that covers `addr`. -/
def tableIndex (addr : UInt32) : UInt32 := addr / 4096 % 1024

/-- `addr` is the first address of a page. -/
def Aligned (addr : UInt32) : Prop := offset addr = 0

instance (addr : UInt32) : Decidable (Aligned addr) :=
  inferInstanceAs (Decidable (offset addr = 0))

/-- How many pages hold `bytes` bytes. -/
def count (bytes : Nat) : Nat := (bytes + 4095) / size

/-- `bytes` rounded up to whole pages. -/
def roundUp (bytes : Nat) : Nat := count bytes * size

/-- The bytes `addr, …, addr + len - 1` lie on one page. Their addresses are not cut to 32 bits; an
access for which `addr + len` does not even fit into 64 bits counts as one that leaves its page. An
access without bytes lies on its page. -/
def Within (addr : UInt32) (len : Nat) : Prop :=
  len = 0 ∨ addr.toNat + len < UInt64.size ∧ addr.toNat / size = (addr.toNat + len - 1) / size

instance (addr : UInt32) (len : Nat) : Decidable (Within addr len) :=
  inferInstanceAs (Decidable (_ ∨ _ ∧ _))

/-! ## The parts as numbers -/

@[simp] theorem toNat_base (addr : UInt32) : (base addr).toNat = addr.toNat / 4096 * 4096 := by
  have h := addr.toNat_lt
  simp only [base, UInt32.toNat_mul, UInt32.toNat_div]
  change addr.toNat / 4096 * 4096 % 2 ^ 32 = _
  omega

@[simp] theorem toNat_offset (addr : UInt32) : (offset addr).toNat = addr.toNat % 4096 := by
  simp [offset]

@[simp] theorem toNat_directoryIndex (addr : UInt32) :
    (directoryIndex addr).toNat = addr.toNat / 4194304 := by
  simp [directoryIndex]

@[simp] theorem toNat_tableIndex (addr : UInt32) :
    (tableIndex addr).toNat = addr.toNat / 4096 % 1024 := by
  simp [tableIndex]

theorem aligned_iff {addr : UInt32} : Aligned addr ↔ addr.toNat % 4096 = 0 := by
  rw [Aligned, ← UInt32.toNat_inj, toNat_offset, UInt32.toNat_zero]

/-- The base of a page is aligned. -/
theorem aligned_base (addr : UInt32) : Aligned (base addr) := by
  rw [aligned_iff, toNat_base]
  omega

/-- An aligned address is its own base. -/
theorem base_eq_self_iff {addr : UInt32} : base addr = addr ↔ Aligned addr := by
  rw [aligned_iff, ← UInt32.toNat_inj, toNat_base]
  omega

/-- The base of a page lies on it. -/
theorem base_base (addr : UInt32) : base (base addr) = base addr :=
  base_eq_self_iff.2 (aligned_base addr)

/-- Directory index and table index name the page. -/
theorem base_eq_base_iff {a b : UInt32} :
    base a = base b ↔ directoryIndex a = directoryIndex b ∧ tableIndex a = tableIndex b := by
  simp only [← UInt32.toNat_inj, toNat_base, toNat_directoryIndex, toNat_tableIndex]
  omega

/-- An access with at least one byte stays within a page exactly when it fits behind its offset. -/
theorem within_iff {addr : UInt32} {len : Nat} :
    Within addr len ↔ len = 0 ∨ addr.toNat % 4096 + len ≤ 4096 := by
  have h := addr.toNat_lt
  simp only [Within, size, UInt64.size]
  omega

/-- The pages of `bytes` bytes hold them, with less than a page to spare. -/
theorem le_roundUp (bytes : Nat) : bytes ≤ roundUp bytes ∧ roundUp bytes < bytes + size := by
  simp only [roundUp, count, size]
  omega

end Page

end PagedMemory
