import PagedMemory.Proofs.Lookups

/-!
# The arithmetic of slots

Where an entry lies is a sum of machine words, and nothing checks the sum. It is safe because of what
stands before it: a directory is aligned however it was obtained, a new table is refused unless it
is aligned, the base that an entry names has no low bits, and an index has ten bits.

To say that no walk ever leaves a frame, each of the three ways through the tables is run a second
time with every slot counted in numbers and refused unless it is where it should be. These runs are
the same as the ones without checks: from every state, to every result, state and event.

- `Page.Aligned.slotFits`: an index of ten bits stays in an aligned frame;
- `tableFor_aligned`: a table that mapping works on is aligned, found or new;
- `checkedLookup_eq`, `checkedMap_eq`, `checkedTranslate_eq`: no check ever fails;
- `slots_stay_in_frames`: all of this together.
-/

namespace PagedMemory

/-! ## Slots with a check -/

/-- The four bytes of the entry at `index`, counted on from `base` without a cut, end by the top of
the addresses, begin at a multiple of four, and lie on the page of `base`. -/
def SlotFits (base index : UInt32) : Prop :=
  let slot := base.toNat + 4 * index.toNat
  slot + 4 ≤ 2 ^ 32 ∧ slot % 4 = 0 ∧
    slot / Page.size = Page.number base ∧ (slot + 3) / Page.size = Page.number base

instance (base index : UInt32) : Decidable (SlotFits base index) :=
  inferInstanceAs (Decidable (_ ∧ _ ∧ _ ∧ _))

/-- The address of the entry at `index`, refused unless it fits. -/
def checkedSlot (refused : Error) (base index : UInt32) : Except Error UInt32 :=
  if SlotFits base index then .ok (UInt32.ofNat (base.toNat + 4 * index.toNat))
  else .error refused

namespace Page

theorem toNat_directoryIndex_lt (vaddr : UInt32) : (directoryIndex vaddr).toNat < 1024 := by
  have hv := vaddr.toNat_lt
  rw [toNat_directoryIndex]
  omega

theorem toNat_tableIndex_lt (vaddr : UInt32) : (tableIndex vaddr).toNat < 1024 := by
  rw [toNat_tableIndex]
  omega

/-- An index of ten bits stays in an aligned frame. -/
theorem Aligned.slotFits {base index : UInt32} (h : Aligned base) (hindex : index.toNat < 1024) :
    SlotFits base index := by
  have hbase := base.toNat_lt
  have hnumber := h.toNat_eq
  simp only [SlotFits, size]
  omega

end Page

/-- Without alignment it does not: the last entry of this table would end beyond the top. -/
example : ¬ SlotFits 0xfffff004 1023 := by decide

variable {refused : Error}

/-- A slot that fits is where the sum of machine words puts it. -/
theorem SlotFits.checkedSlot_eq {base index : UInt32} (h : SlotFits base index) :
    checkedSlot refused base index = .ok (base + 4 * index) := by
  have hsum : UInt32.ofNat (base.toNat + 4 * index.toNat) = base + 4 * index := by
    rw [UInt32.ofNat_add, UInt32.ofNat_mul, UInt32.ofNat_toNat, UInt32.ofNat_toNat]
    rfl
  rw [checkedSlot, if_pos h, hsum]

/-- The check passes for the directory of a space. -/
theorem checkedSlot_directoryIndex {directory : UInt32} (h : Page.Aligned directory)
    (vaddr : UInt32) : checkedSlot refused directory (Page.directoryIndex vaddr) =
      .ok (Entry.directorySlot directory vaddr) :=
  (h.slotFits (Page.toNat_directoryIndex_lt vaddr)).checkedSlot_eq

/-- The check passes for a table. -/
theorem checkedSlot_tableIndex {table : UInt32} (h : Page.Aligned table) (vaddr : UInt32) :
    checkedSlot refused table (Page.tableIndex vaddr) = .ok (Entry.tableSlot table vaddr) :=
  (h.slotFits (Page.toNat_tableIndex_lt vaddr)).checkedSlot_eq

/-! ## Looking up and mapping with checks -/

namespace AddressSpace

/-- `lookup` with every slot checked. -/
def checkedLookup (space : AddressSpace) (refused : Error) (ram : Ram) (vaddr : UInt32) :
    Except Error (Option UInt32) := do
  let slot ← checkedSlot refused space.directory (Page.directoryIndex vaddr)
  let pde : Entry := ⟨← ram.read slot 4⟩
  if pde.has .present then
    let slot ← checkedSlot refused pde.frame (Page.tableIndex vaddr)
    let pte : Entry := ⟨← ram.read slot 4⟩
    pure (if pte.has .present then some (pte.resolve vaddr) else none)
  else
    pure none

variable {α : Type} [FrameSource α]

/-- `tableFor` with the slot checked. -/
def checkedTableFor (space : AddressSpace) (refused : Error) (vaddr : UInt32) :
    Op (Ram × α) UInt32 := do
  let slot ← .query fun _ => checkedSlot refused space.directory (Page.directoryIndex vaddr)
  let pde : Entry := ⟨← .query fun (ram, _) => ram.read slot 4⟩
  if pde.has .present then
    pure pde.frame
  else
    let table ← freshFrame
    .fst (Ram.write slot 4 (Entry.make table Entry.openFlags).bits)
    .report (.tableCreated table (Page.directoryIndex vaddr))
    pure table

/-- `map` with every slot checked. -/
def checkedMap (space : AddressSpace) (refused : Error) (vaddr frame : UInt32) :
    Op (Ram × α) Unit := do
  .require (Page.Aligned vaddr) (.misaligned vaddr)
  .require (Page.Aligned frame) (.misaligned frame)
  let table ← space.checkedTableFor refused vaddr
  let slot ← .query fun _ => checkedSlot refused table (Page.tableIndex vaddr)
  let old : Entry := ⟨← .query fun (ram, _) => ram.read slot 4⟩
  if old.has .present then .report (.remapped vaddr old.frame frame) else pure ()
  .fst (Ram.write slot 4 (Entry.make frame Entry.openFlags).bits)
  .report (.mapped vaddr frame)

variable {space : AddressSpace}

omit [FrameSource α] in
theorem checkedLookup_eq (h : Page.Aligned space.directory) (ram : Ram) (vaddr : UInt32) :
    space.checkedLookup refused ram vaddr = space.lookup ram vaddr := by
  rw [checkedLookup, checkedSlot_directoryIndex h]
  simp only [checkedSlot_tableIndex (Entry.aligned_frame _)]
  rfl

/-- The table that covers an address is aligned: an entry names it, or it is a fresh frame. -/
theorem tableFor_aligned (space : AddressSpace) (vaddr : UInt32) :
    Op.Meets (fun _ => True) (space.tableFor vaddr : Op (Ram × α) UInt32)
      (fun table _ => Page.Aligned table) (fun _ _ => True) := by
  refine (Op.Meets.any _).bind fun word => ?_
  by_cases hp : (⟨word⟩ : Entry).has .present = true
  · rw [if_pos hp]
    exact Op.Meets.pure fun _ _ => Entry.aligned_frame _
  · rw [if_neg hp]
    refine freshFrame_aligned.bind fun table => Op.Meets.of_imp (fun _ h => h) fun htable => ?_
    refine (Op.Meets.any _).bind fun _ => Op.Meets.report_bind ?_
    exact Op.Meets.pure fun _ _ => htable

theorem checkedTableFor_eq (h : Page.Aligned space.directory) (vaddr : UInt32) :
    (space.checkedTableFor refused vaddr : Op (Ram × α) UInt32) = space.tableFor vaddr := by
  rw [checkedTableFor, checkedSlot_directoryIndex h, Op.query_ok_bind]
  rfl

theorem checkedMap_eq (h : Page.Aligned space.directory) (vaddr frame : UInt32) :
    (space.checkedMap refused vaddr frame : Op (Ram × α) Unit) = space.map vaddr frame := by
  rw [checkedMap, map, checkedTableFor_eq h]
  -- behind the two requirements, which come before any slot
  refine congrArg _ (funext fun _ => congrArg _ (funext fun _ => ?_))
  refine (space.tableFor_aligned vaddr).bind_congr fun table htable => ?_
  rw [checkedSlot_tableIndex htable, Op.query_ok_bind]

end AddressSpace

/-! ## Walking with checks -/

/-- The parts of a physical address do not overlap, so joining them is adding them. -/
theorem Entry.resolve_eq_add (e : Entry) (vaddr : UInt32) :
    e.resolve vaddr = e.frame + Page.offset vaddr := by
  have hlt := (e.resolve vaddr).toNat_lt
  rw [toNat_resolve] at hlt
  rw [← UInt32.toNat_inj, toNat_resolve, UInt32.toNat_add, Page.toNat_offset, Nat.mod_eq_of_lt hlt]

namespace Bus

variable {δ : Type} [Device δ]

/-- `walk` with every slot checked. -/
def checkedWalk (refused : Error) (directory : UInt32) (tracking : Tracking) (access : Access)
    (vaddr : UInt32) : Op (Bus δ) UInt32 := do
  let directorySlot ← .query fun _ => checkedSlot refused directory (Page.directoryIndex vaddr)
  let pde ← fetch .directory vaddr directorySlot
  let tableSlot ← .query fun _ => checkedSlot refused pde.frame (Page.tableIndex vaddr)
  let pte ← fetch .table vaddr tableSlot
  track tracking directorySlot pde (pde.touched .read)
  track tracking tableSlot pte (pte.touched access)
  let paddr := pte.resolve vaddr
  .report (.walked access vaddr (pde.touched .read) (pte.touched access) paddr)
  pure paddr

/-- `translate` with every slot checked. -/
def checkedTranslate (refused : Error) (regs : Registers) (tracking : Tracking) (access : Access)
    (vaddr : UInt32) : Op (Bus δ) UInt32 :=
  if regs.pagingEnabled then checkedWalk refused regs.directory tracking access vaddr
  else pure vaddr

theorem checkedWalk_eq {directory : UInt32} (h : Page.Aligned directory) (tracking : Tracking)
    (access : Access) (vaddr : UInt32) :
    (checkedWalk refused directory tracking access vaddr : Op (Bus δ) UInt32) =
      walk directory tracking access vaddr := by
  rw [checkedWalk, checkedSlot_directoryIndex h, Op.query_ok_bind, walk]
  refine congrArg _ (funext fun pde => ?_)
  rw [checkedSlot_tableIndex (Entry.aligned_frame pde), Op.query_ok_bind]

/-- The directory that a register names is aligned, whatever the register holds. -/
theorem checkedTranslate_eq (regs : Registers) (tracking : Tracking) (access : Access)
    (vaddr : UInt32) :
    (checkedTranslate refused regs tracking access vaddr : Op (Bus δ) UInt32) =
      translate regs tracking access vaddr := by
  have haligned : Page.Aligned regs.directory := Page.aligned_base regs.cr3
  rw [checkedTranslate, translate, checkedWalk_eq haligned]

end Bus

/-! ## Address spaces in use -/

namespace AddressSpace

/-- The register value of a space names the space. -/
theorem ofRegister_cr3 {space : AddressSpace} (h : Page.Aligned space.directory) :
    ofRegister space.cr3 = space := by
  rw [ofRegister, cr3, Page.base_base, Page.base_eq_self_iff.2 h]

/-- However a space was obtained, its directory is aligned and its register value leads back to it.
No slot of the directory, or of a table that an entry names, leaves its frame, so looking up, mapping
and translating do what they do with every slot checked: for all contents of RAM, all sources of
frames, and all devices. Frame and offset make up an address by addition, and two addresses share
both indices exactly when they lie on one page. -/
theorem slots_stay_in_frames {space : AddressSpace} (hs : space.Obtained) :
    (Page.Aligned space.directory ∧ ofRegister space.cr3 = space ∧
      ∀ cr0, (Registers.mk cr0 space.cr3).directory = space.directory) ∧
    ((∀ vaddr, SlotFits space.directory (Page.directoryIndex vaddr)) ∧
      ∀ (e : Entry) (vaddr : UInt32), SlotFits e.frame (Page.tableIndex vaddr)) ∧
    (∀ (refused : Error) (ram : Ram) (vaddr : UInt32),
      space.checkedLookup refused ram vaddr = space.lookup ram vaddr) ∧
    (∀ (α : Type) [FrameSource α] (refused : Error) (vaddr frame : UInt32),
      (space.checkedMap refused vaddr frame : Op (Ram × α) Unit) = space.map vaddr frame) ∧
    (∀ (δ : Type) [Device δ] (refused : Error) (regs : Registers) (tracking : Tracking)
        (access : Access) (vaddr : UInt32),
      (Bus.checkedTranslate refused regs tracking access vaddr : Op (Bus δ) UInt32) =
        Bus.translate regs tracking access vaddr) ∧
    (∀ (e : Entry) (vaddr : UInt32), e.resolve vaddr = e.frame + Page.offset vaddr ∧
      (e.resolve vaddr).toNat = e.frame.toNat + (Page.offset vaddr).toNat) ∧
    ∀ a b : UInt32,
      Page.directoryIndex a = Page.directoryIndex b ∧ Page.tableIndex a = Page.tableIndex b ↔
        Page.number a = Page.number b := by
  have haligned := hs.aligned
  refine ⟨⟨haligned, ofRegister_cr3 haligned, fun _ => directory_paged haligned⟩, ⟨?_, ?_⟩, ?_⟩
  · exact fun vaddr => haligned.slotFits (Page.toNat_directoryIndex_lt vaddr)
  · exact fun e vaddr => (Entry.aligned_frame e).slotFits (Page.toNat_tableIndex_lt vaddr)
  refine ⟨fun _ => checkedLookup_eq haligned, fun _ _ _ => checkedMap_eq haligned,
    fun _ _ _ => Bus.checkedTranslate_eq, ?_, fun _ _ => Page.number_eq_iff.symm⟩
  intro e vaddr
  rw [Page.toNat_offset]
  exact ⟨e.resolve_eq_add vaddr, e.toNat_resolve vaddr⟩

/-- A register of ones names the last frame, and its last entry ends at the top of the addresses. -/
theorem slots_stay_in_frames_top :
    let space := ofRegister 0xffffffff
    space.Obtained ∧ space.directory = 0xfffff000 ∧
      Entry.directorySlot space.directory 0xffffffff = 0xfffffffc ∧
      SlotFits space.directory (Page.directoryIndex 0xffffffff) ∧
      SlotFits (Entry.mk 0xffffffff).frame (Page.tableIndex 0xffffffff) ∧
      ofRegister space.cr3 = space ∧
      ∀ (refused : Error) (ram : Ram),
        space.checkedLookup refused ram 0xffffffff = space.lookup ram 0xffffffff := by
  obtain ⟨⟨-, hregister, -⟩, ⟨hdirectory, htable⟩, hlookup, -⟩ :=
    slots_stay_in_frames (.ofRegister 0xffffffff)
  exact ⟨.ofRegister _, by decide, by decide, hdirectory _, htable _ _, hregister,
    fun refused ram => hlookup refused ram _⟩

end AddressSpace

end PagedMemory
