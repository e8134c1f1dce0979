import PagedMemory.Flag
import PagedMemory.Page
import PagedMemory.Paging.Access
import PagedMemory.Text.Hex

/-!
# Entries of directories and tables

An entry is a 32-bit word in memory: its upper twenty bits are the base of a frame, and its lower
twelve hold flags. An entry of a directory names the frame of a table, an entry of a table the
frame of a page.

- `frame_mark`: setting a flag leaves the frame alone;
- `has_mark`: it sets that flag and no other;
- `toNat_directorySlot`, `toNat_tableSlot`: the slots of an aligned frame follow each other in it.
-/

namespace PagedMemory

/-- Where in the walk an entry is found. -/
inductive Level
  | directory
  | table
deriving DecidableEq, Repr

/-- The flags of an entry. -/
inductive EntryFlag
  | present
  | writable
  | user
  | writeThrough
  | cacheDisable
  | accessed
  | dirty
  | pageSize
  | global
deriving DecidableEq, Repr

/-- Flags fill the lowest nine bits in this order. -/
instance : Flag EntryFlag where
  all := [.present, .writable, .user, .writeThrough, .cacheDisable, .accessed, .dirty, .pageSize,
    .global]
  bit
    | .present => 0
    | .writable => 1
    | .user => 2
    | .writeThrough => 3
    | .cacheDisable => 4
    | .accessed => 5
    | .dirty => 6
    | .pageSize => 7
    | .global => 8
  name
    | .present => "PRESENT"
    | .writable => "WRITABLE"
    | .user => "USER"
    | .writeThrough => "WRITE_THROUGH"
    | .cacheDisable => "CACHE_DISABLE"
    | .accessed => "ACCESSED"
    | .dirty => "DIRTY"
    | .pageSize => "PAGE_SIZE"
    | .global => "GLOBAL"

/-- An entry of a directory or a table. -/
structure Entry where
  /-- The word as it stands in memory. -/
  bits : UInt32
deriving DecidableEq, Repr

namespace Entry

/-- The entry that names `frame` and has the low twelve bits of `flags`. -/
def make (frame flags : UInt32) : Entry := ⟨Page.base frame ||| Page.offset flags⟩

/-- The flags that mapping gives to entries: present, writable and open to user code. -/
def openFlags : UInt32 := Flag.mask EntryFlag.present ||| Flag.mask EntryFlag.writable |||
  Flag.mask EntryFlag.user

/-- The base of the frame that the entry names. -/
def frame (e : Entry) : UInt32 := Page.base e.bits

/-- The flag is set. -/
def has (e : Entry) (f : EntryFlag) : Bool := Flag.isSet e.bits f

/-- The entry with the flag set. -/
def mark (e : Entry) (f : EntryFlag) : Entry := ⟨Flag.set e.bits f⟩

/-- The address in the entry's frame at the offset of `vaddr`. -/
def resolve (e : Entry) (vaddr : UInt32) : UInt32 := e.frame ||| Page.offset vaddr

/-- The entry after a walk through it. An access reaches the page through the entry of a table; for
the entry of a directory every access counts as a read. -/
def touched (e : Entry) : Access → Entry
  | .read => e.mark .accessed
  | .write => (e.mark .accessed).mark .dirty

/-- Where the directory keeps the entry for `vaddr`. -/
def directorySlot (directory vaddr : UInt32) : UInt32 := directory + 4 * Page.directoryIndex vaddr

/-- Where the table keeps the entry for `vaddr`. -/
def tableSlot (table vaddr : UInt32) : UInt32 := table + 4 * Page.tableIndex vaddr

/-- The entry with its fields, under the name of its level. -/
def debugText (level : Level) (e : Entry) : String :=
  let name := match level with
    | .directory => "PageDirectoryEntry"
    | .table => "PageTableEntry"
  name ++ " \x7b frame: " ++ Text.address e.frame ++ ", flags: EntryFlags(" ++
    Flag.text EntryFlag e.bits ++ ") \x7d"

/-! ## Flags and frame -/

/-- Every flag is one of the low nine bits. -/
theorem toNat_mask (f : EntryFlag) : (Flag.mask f).toNat = 1 <<< Flag.bit f := by
  cases f <;> rfl

/-- Setting a flag leaves the frame alone. -/
@[simp] theorem frame_mark (e : Entry) (f : EntryFlag) : (e.mark f).frame = e.frame := by
  have hbits : e.bits.toNat ||| 1 <<< Flag.bit f < 2 ^ 32 :=
    Nat.or_lt_two_pow e.bits.toNat_lt (by cases f <;> decide)
  have hlow : 1 <<< Flag.bit f >>> 12 = 0 := by cases f <;> rfl
  rw [← UInt32.toNat_inj, frame, frame, Page.toNat_base, Page.toNat_base, mark, Flag.set,
    UInt32.toNat_or, toNat_mask]
  rw [show (4096 : Nat) = 2 ^ 12 by rfl, ← Nat.shiftRight_eq_div_pow, ← Nat.shiftRight_eq_div_pow,
    Nat.shiftRight_or_distrib, hlow, Nat.or_zero]

/-- Setting a flag sets that flag and no other. -/
@[simp] theorem has_mark (e : Entry) (f g : EntryFlag) :
    (e.mark f).has g = (e.has g || decide (f = g)) := by
  rw [has, mark, Flag.isSet, Flag.set, UInt32.toNat_or, toNat_mask, Nat.one_shiftLeft,
    Nat.testBit_or, Nat.testBit_two_pow, has, Flag.isSet]
  congr 1
  cases f <;> cases g <;> rfl

/-- A flag that is set already changes nothing. -/
theorem mark_eq_self {e : Entry} {f : EntryFlag} (h : e.has f = true) : e.mark f = e := by
  have hset : e.bits.toNat.testBit (Flag.bit f) = true := h
  rw [mark, Entry.mk.injEq, Flag.set, ← UInt32.toNat_inj, UInt32.toNat_or, toNat_mask]
  apply Nat.eq_of_testBit_eq
  intro i
  rw [Nat.one_shiftLeft, Nat.testBit_or, Nat.testBit_two_pow]
  by_cases hi : Flag.bit f = i
  · subst hi; simp [hset]
  · simp [hi]

@[simp] theorem frame_touched (e : Entry) (access : Access) : (e.touched access).frame = e.frame := by
  cases access <;> simp [touched]

/-- A walk does not change whether an entry is present. -/
@[simp] theorem present_touched (e : Entry) (access : Access) :
    (e.touched access).has .present = e.has .present := by
  cases access <;> simp [touched]

/-- A second walk of the same kind changes nothing. -/
@[simp] theorem touched_touched (e : Entry) (access : Access) :
    (e.touched access).touched access = e.touched access := by
  cases access
  · exact mark_eq_self (by simp [touched])
  · rw [touched, mark_eq_self (f := .accessed) (by simp [touched]), mark_eq_self]
    simp [touched]

/-! ## Slots -/

/-- The slots of an aligned directory lie in its frame, four bytes each. -/
theorem toNat_directorySlot {directory : UInt32} (h : Page.Aligned directory) (vaddr : UInt32) :
    (directorySlot directory vaddr).toNat = directory.toNat + 4 * (vaddr.toNat / 4194304) := by
  have hd := directory.toNat_lt
  have hv := vaddr.toNat_lt
  rw [Page.aligned_iff] at h
  rw [directorySlot, UInt32.toNat_add, UInt32.toNat_mul, Page.toNat_directoryIndex]
  change (directory.toNat + 4 * (vaddr.toNat / 4194304) % 2 ^ 32) % 2 ^ 32 = _
  omega

/-- The slots of an aligned table lie in its frame, four bytes each. -/
theorem toNat_tableSlot {table : UInt32} (h : Page.Aligned table) (vaddr : UInt32) :
    (tableSlot table vaddr).toNat = table.toNat + 4 * (vaddr.toNat / 4096 % 1024) := by
  have hd := table.toNat_lt
  rw [Page.aligned_iff] at h
  rw [tableSlot, UInt32.toNat_add, UInt32.toNat_mul, Page.toNat_tableIndex]
  change (table.toNat + 4 * (vaddr.toNat / 4096 % 1024) % 2 ^ 32) % 2 ^ 32 = _
  omega

end Entry

end PagedMemory
