import PagedMemory.AddressSpace
import PagedMemory.Proofs.PoolFrames
import PagedMemory.Proofs.RamWords

/-!
# Tables as words of RAM

The directory of an address space and its tables are frames full of entries. This module reads the
two entries that belong to a virtual address off RAM as total functions, and ties `lookup` to them.

- `directorySlot_eq_iff`, `tableSlot_eq_iff`: slots of different frames, or of different indices,
  are different words;
- `lookup_eq_frame?`: looking up is reading off `frame?`, as long as the tables lie in RAM;
- `frame?_congr`: all addresses of a page lead to one frame.
-/

namespace PagedMemory

namespace Page

/-- A page is known by its two indices. -/
theorem number_eq_iff {a b : UInt32} :
    number a = number b ↔ directoryIndex a = directoryIndex b ∧ tableIndex a = tableIndex b := by
  rw [← base_eq_base_iff_number, base_eq_base_iff]

/-- The low bits of an address do not reach its frame. -/
theorem Aligned.toNat_or_offset {frame : UInt32} (h : Aligned frame) (a : UInt32) :
    (frame ||| offset a).toNat = frame.toNat + a.toNat % 4096 := by
  have hlow : a.toNat % 4096 < 2 ^ 12 := Nat.mod_lt _ (by decide)
  rw [UInt32.toNat_or, toNat_offset, h.toNat_eq]
  exact (Nat.two_pow_add_eq_or_of_lt hlow _).symm

theorem Aligned.number_or_offset {frame : UInt32} (h : Aligned frame) (a : UInt32) :
    number (frame ||| offset a) = number frame := by
  rw [number, h.toNat_or_offset, h.toNat_eq]
  omega

/-- A page does not wrap. -/
theorem Aligned.toNat_add {frame : UInt32} (h : Aligned frame) (k : Nat) :
    (frame + UInt32.ofNat (k % 4096)).toNat = frame.toNat + k % 4096 := by
  have hlt := frame.toNat_lt
  rw [h.toNat_eq] at hlt
  rw [UInt32.toNat_add, UInt32.toNat_ofNat', h.toNat_eq]
  omega

end Page

namespace Entry

/-! ## Entries that were made -/

theorem toNat_make {frame : UInt32} (h : Page.Aligned frame) :
    (make frame openFlags).bits.toNat = frame.toNat + 7 := by
  show (Page.base frame ||| Page.offset openFlags).toNat = _
  rw [Page.base_eq_self_iff.2 h, h.toNat_or_offset]
  rfl

/-- A new entry names the frame that it was made for. -/
theorem frame_make {frame : UInt32} (h : Page.Aligned frame) :
    (make frame openFlags).frame = frame := by
  have hf := Page.aligned_iff.1 h
  rw [Entry.frame, ← UInt32.toNat_inj, Page.toNat_base, toNat_make h]
  omega

/-- A new entry is present. -/
theorem present_make {frame : UInt32} (h : Page.Aligned frame) :
    (make frame openFlags).has .present = true := by
  have hf := Page.aligned_iff.1 h
  show (make frame openFlags).bits.toNat.testBit 0 = true
  rw [toNat_make h, Nat.testBit_zero]
  simpa using by omega

/-- A word of zeros is no present entry. -/
theorem not_present_zero : (⟨0⟩ : Entry).has .present = false := rfl

theorem aligned_frame (e : Entry) : Page.Aligned e.frame := Page.aligned_base e.bits

/-- An address is resolved to the same place of the frame. -/
theorem toNat_resolve (e : Entry) (vaddr : UInt32) :
    (e.resolve vaddr).toNat = e.frame.toNat + vaddr.toNat % 4096 :=
  (aligned_frame e).toNat_or_offset vaddr

@[simp] theorem number_resolve (e : Entry) (vaddr : UInt32) :
    Page.number (e.resolve vaddr) = Page.number e.frame :=
  (aligned_frame e).number_or_offset vaddr

/-! ## Where slots lie -/

variable {frame frame' : UInt32} (h : Page.Aligned frame) (h' : Page.Aligned frame') (a b : UInt32)

include h

theorem directorySlot_mod : (directorySlot frame a).toNat % 4 = 0 := by
  rw [toNat_directorySlot h, h.toNat_eq]
  omega

theorem tableSlot_mod : (tableSlot frame a).toNat % 4 = 0 := by
  rw [toNat_tableSlot h, h.toNat_eq]
  omega

/-- A slot of a directory lies in the directory's frame. -/
theorem directorySlot_div : (directorySlot frame a).toNat / 4096 = Page.number frame := by
  have ha := a.toNat_lt
  rw [toNat_directorySlot h, h.toNat_eq]
  omega

/-- A slot of a table lies in the table's frame. -/
theorem tableSlot_div : (tableSlot frame a).toNat / 4096 = Page.number frame := by
  rw [toNat_tableSlot h, h.toNat_eq]
  omega

include h'

theorem directorySlot_eq_iff :
    (directorySlot frame a).toNat = (directorySlot frame' b).toNat ↔
      Page.number frame = Page.number frame' ∧ Page.directoryIndex a = Page.directoryIndex b := by
  have ha := a.toNat_lt
  have hb := b.toNat_lt
  rw [toNat_directorySlot h, toNat_directorySlot h', h.toNat_eq, h'.toNat_eq, ← UInt32.toNat_inj,
    Page.toNat_directoryIndex, Page.toNat_directoryIndex]
  omega

theorem tableSlot_eq_iff :
    (tableSlot frame a).toNat = (tableSlot frame' b).toNat ↔
      Page.number frame = Page.number frame' ∧ Page.tableIndex a = Page.tableIndex b := by
  rw [toNat_tableSlot h, toNat_tableSlot h', h.toNat_eq, h'.toNat_eq, ← UInt32.toNat_inj,
    Page.toNat_tableIndex, Page.toNat_tableIndex]
  omega

end Entry

namespace Ram

/-! ## Entries in RAM -/

/-- The entry that stands at `slot`. -/
def entryAt (ram : Ram) (slot : UInt32) : Entry := ⟨ram.word slot.toNat⟩

/-- The entry of the directory that belongs to `vaddr`. -/
def pde (ram : Ram) (directory vaddr : UInt32) : Entry :=
  ram.entryAt (Entry.directorySlot directory vaddr)

/-- The entry that belongs to `vaddr` in the table that the directory names. -/
def pte (ram : Ram) (directory vaddr : UInt32) : Entry :=
  ram.entryAt (Entry.tableSlot (ram.pde directory vaddr).frame vaddr)

/-- The frame of the page of `vaddr`, if both of its entries are present. -/
def frame? (ram : Ram) (directory vaddr : UInt32) : Option UInt32 :=
  if (ram.pde directory vaddr).has .present && (ram.pte directory vaddr).has .present then
    some (ram.pte directory vaddr).frame
  else none

variable {ram ram' : Ram} {directory vaddr : UInt32}

theorem HasFrame.fits_directorySlot (h : ram.HasFrame directory) (vaddr : UInt32) :
    ram.Fits (Entry.directorySlot directory vaddr) 4 := by
  have hf := h.fits
  have hv := vaddr.toNat_lt
  show (Entry.directorySlot directory vaddr).toNat + 4 ≤ ram.size
  rw [Entry.toNat_directorySlot h.1]
  simp only [Page.size] at hf
  omega

theorem HasFrame.fits_tableSlot {table : UInt32} (h : ram.HasFrame table) (vaddr : UInt32) :
    ram.Fits (Entry.tableSlot table vaddr) 4 := by
  have hf := h.fits
  show (Entry.tableSlot table vaddr).toNat + 4 ≤ ram.size
  rw [Entry.toNat_tableSlot h.1]
  simp only [Page.size] at hf
  omega

/-- The entry of the directory depends on the page alone. -/
theorem pde_congr {a b : UInt32} (h : Page.number a = Page.number b) :
    ram.pde directory a = ram.pde directory b := by
  rw [pde, pde, Entry.directorySlot, Entry.directorySlot, (Page.number_eq_iff.1 h).1]

/-- The entry of the table depends on the page alone. -/
theorem pte_congr {a b : UInt32} (h : Page.number a = Page.number b) :
    ram.pte directory a = ram.pte directory b := by
  rw [pte, pte, pde_congr h, Entry.tableSlot, Entry.tableSlot, (Page.number_eq_iff.1 h).2]

/-- All addresses of a page lead to one frame. -/
theorem frame?_congr {a b : UInt32} (h : Page.number a = Page.number b) :
    ram.frame? directory a = ram.frame? directory b := by
  rw [frame?, frame?, pde_congr h, pte_congr h]

theorem frame?_of_not_present (h : (ram.pde directory vaddr).has .present = false) :
    ram.frame? directory vaddr = none := by
  simp [frame?, h]

theorem frame?_of_present (h : (ram.pde directory vaddr).has .present = true) :
    ram.frame? directory vaddr =
      if (ram.pte directory vaddr).has .present then some (ram.pte directory vaddr).frame
      else none := by
  simp [frame?, h]

theorem frame?_eq_some_iff {frame : UInt32} :
    ram.frame? directory vaddr = some frame ↔ (ram.pde directory vaddr).has .present = true ∧
      (ram.pte directory vaddr).has .present = true ∧ (ram.pte directory vaddr).frame = frame := by
  simp [frame?, and_assoc]

/-- Frames that pages have begin pages. -/
theorem aligned_of_frame? {frame : UInt32} (h : ram.frame? directory vaddr = some frame) :
    Page.Aligned frame := by
  obtain ⟨-, -, rfl⟩ := frame?_eq_some_iff.1 h
  exact Entry.aligned_frame _

/-- Where both entries of an address are the same, it leads to the same frame. -/
theorem frame?_of_entries (hd : ram'.pde directory vaddr = ram.pde directory vaddr)
    (ht : (ram.pde directory vaddr).has .present = true →
      ram'.pte directory vaddr = ram.pte directory vaddr) :
    ram'.frame? directory vaddr = ram.frame? directory vaddr := by
  cases hp : (ram.pde directory vaddr).has .present with
  | false => rw [frame?_of_not_present hp, frame?_of_not_present (hd ▸ hp)]
  | true => rw [frame?_of_present hp, frame?_of_present (hd ▸ hp), ht hp]

end Ram

namespace AddressSpace

/-- The register value of a space names its directory. -/
theorem directory_paged {space : AddressSpace} (h : Page.Aligned space.directory) :
    (Registers.paged space.cr3).directory = space.directory := by
  show Page.base (Page.base space.directory) = _
  rw [Page.base_eq_self_iff.2 h, Page.base_eq_self_iff.2 h]

/-- Looking up is reading off the frame, as long as the tables lie in RAM. -/
theorem lookup_eq_frame? {space : AddressSpace} {ram : Ram} (hd : ram.HasFrame space.directory)
    {vaddr : UInt32} (ht : (ram.pde space.directory vaddr).has .present = true →
      ram.HasFrame (ram.pde space.directory vaddr).frame) :
    space.lookup ram vaddr =
      .ok ((ram.frame? space.directory vaddr).map fun frame => frame ||| Page.offset vaddr) := by
  rw [lookup, Ram.read_word, if_pos (hd.fits_directorySlot vaddr)]
  show (if (ram.pde space.directory vaddr).has .present then _ else _) = _
  cases hp : (ram.pde space.directory vaddr).has .present with
  | false =>
    rw [Ram.frame?_of_not_present hp]
    rfl
  | true =>
    have hfit := (ht hp).fits_tableSlot vaddr
    rw [if_pos rfl, Ram.frame?_of_present hp]
    show (do let word ← ram.read (Entry.tableSlot (ram.pde space.directory vaddr).frame vaddr) 4
             pure (if (⟨word⟩ : Entry).has .present then _ else _)) = _
    rw [Ram.read_word, if_pos hfit]
    show Except.ok (if (ram.pte space.directory vaddr).has .present then
      some ((ram.pte space.directory vaddr).resolve vaddr) else none) = _
    cases (ram.pte space.directory vaddr).has .present <;> rfl

end AddressSpace

end PagedMemory
