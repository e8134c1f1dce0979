import PagedMemory.Proofs.PairedMachines

/-!
# Tracking shows only in the tables

Whether walks store their marks makes no difference to a guest that cannot reach its own tables.

- `TablePage`: the pages of the directory and of the tables that it names;
- `session_tracking`: a session with marks against one without.
-/

namespace PagedMemory

namespace GuestCall

open Ram

variable {δ : Type} [Device δ] {ram : Ram} {regs : Registers}

/-- The page `n` holds the directory that the registers name, or a table that the directory
names. -/
def TablePage (ram : Ram) (regs : Registers) (n : Nat) : Prop :=
  n = Page.number regs.directory ∨ ∃ (vaddr word : UInt32),
    ram.read (Entry.directorySlot regs.directory vaddr) 4 = .ok word ∧
      (⟨word⟩ : Entry).has .present = true ∧ n = Page.number (⟨word⟩ : Entry).frame

theorem tablesIn_tablePage (ram : Ram) (regs : Registers) :
    TablesIn (TablePage ram regs) ram regs.directory where
  aligned := Page.aligned_base _
  top := .inl rfl
  table vaddr hfit hp := .inr ⟨vaddr, _, by rw [read_word, if_pos hfit], hp, rfl⟩

omit [Device δ] in
/-- No device is found where no region meets the tables. -/
theorem find?_tablePage {bus : Bus δ}
    (hdevices : ∀ region ∈ bus.table.regions, ∀ addr ∈ region.range,
      ¬ TablePage bus.ram regs (Page.number addr)) {addr : UInt32}
    (h : TablePage bus.ram regs (Page.number addr)) : bus.table.find? addr = none := by
  rw [RegionTable.find?, RegionTable.locate_eq_none_iff]
  exact fun region hregion haddr => hdevices region hregion addr haddr h

/-- Words that are alike are the same once the bits for accessed and dirty are set. -/
theorem or_eq_of_alike {a b c : UInt32} (h : Entry.Alike ⟨a⟩ ⟨b⟩) (h' : Entry.Alike ⟨a⟩ ⟨c⟩) :
    c ||| 0x60 = b ||| 0x60 := by
  have hmask : Flag.mask EntryFlag.accessed ||| Flag.mask EntryFlag.dirty = 0x60 := by decide
  have ht := congrArg Entry.bits (h'.touched.trans h.touched.symm)
  change (c ||| Flag.mask EntryFlag.accessed) ||| Flag.mask EntryFlag.dirty =
    (b ||| Flag.mask EntryFlag.accessed) ||| Flag.mask EntryFlag.dirty at ht
  rwa [UInt32.or_assoc, UInt32.or_assoc, hmask] at ht

/-- A guest that cannot reach its tables, in memory or through a device, learns nothing of tracking:
calls end the same way, devices are accessed in the same way and order, and RAM differs in the bits
for accessed and dirty of the words in the tables at most. -/
theorem session_tracking (bus : Bus δ) (regs : Registers) (calls : List GuestCall)
    (hpaging : regs.pagingEnabled = true)
    (hdevices : ∀ region ∈ bus.table.regions, ∀ addr ∈ region.range,
      ¬ TablePage bus.ram regs (Page.number addr))
    (hmapped : ∀ vaddr p, (AddressSpace.ofRegister regs.cr3).lookup bus.ram vaddr = .ok (some p) →
      ¬ TablePage bus.ram regs (Page.number p)) :
    let o := (session regs calls).run ⟨bus, .discard⟩
    let o' := (session regs calls).run ⟨bus, .writeBack⟩
    o'.result = o.result ∧
    Event.traffic o'.events = Event.traffic o.events ∧
    o'.state.bus.table = o.state.bus.table ∧
    o'.state.bus.ram.size = o.state.bus.ram.size ∧
    (∀ b, ¬ TablePage bus.ram regs (b / 4096) →
      o'.state.bus.ram.byte b = o.state.bus.ram.byte b) ∧
    ∀ a, a % 4 = 0 → TablePage bus.ram regs (a / 4096) →
      o'.state.bus.ram.word a ||| 0x60 = o.state.bus.ram.word a ||| 0x60 := by
  have hsteady : ∀ tracking,
      Steady (TablePage bus.ram regs) bus.ram (⟨bus, tracking⟩ : Machine δ) :=
    fun _ => ⟨AlikeOn.refl _ _, fun _ => find?_tablePage hdevices⟩
  -- outside the tables the two are to have everything in common
  have hstart : Paired (TablePage bus.ram regs) (fun n => ¬ TablePage bus.ram regs n) bus.ram
      (⟨bus, .discard⟩ : Machine δ) ⟨bus, .writeBack⟩ := ⟨hsteady _, hsteady _, fun _ _ => rfl, rfl⟩
  have hleads : ∀ call ∈ calls, call.Leads (fun n => ¬ TablePage bus.ram regs n) bus.ram regs :=
    fun call _ p hpath => hmapped call.vaddr p (lookup_eq_some_iff.2 hpath)
  obtain ⟨hr, ht, h⟩ :=
    hstart.session (fun _ hn => hn) (tablesIn_tablePage _ _) hpaging calls hleads
  have hsize := h.right.alike.size.trans h.left.alike.size.symm
  refine ⟨hr, ht, h.table, hsize, h.byte, ?_⟩
  intro a ha hT
  exact or_eq_of_alike (h.left.alike.word a ha hT) (h.right.alike.word a ha hT)

/-- RAM with a directory at `0x1000`, a table at `0x2000`, and one page of it at `0x3000`. -/
structure OneTable (ram : Ram) : Prop where
  size : ram.size = 16384
  word : ∀ a, a % 4 = 0 →
    ram.word a = if 0x2004 = a then 0x3007 else if 0x1000 = a then 0x2007 else 0

theorem exists_oneTable : ∃ ram, OneTable ram := by
  obtain ⟨zero, hzero⟩ : ∃ zero, zeroed 16384 = .ok zero := ⟨_, rfl⟩
  have hsize := size_of_zeroed hzero
  have hdirectory : 0x1000 + 4 ≤ zero.size := by
    rw [hsize]
    decide
  have htable : 0x2004 + 4 ≤ (zero.setWord 0x1000 0x2007).size := by
    rw [size_setWord, hsize]
    decide
  refine ⟨(zero.setWord 0x1000 0x2007).setWord 0x2004 0x3007, ?_, ?_⟩
  · rw [size_setWord, size_setWord, hsize]
  · intro a ha
    rw [word_setWord htable (by decide) ha, word_setWord hdirectory (by decide) ha,
      word_of_zeroed hzero]

namespace OneTable

theorem directory (h : OneTable ram) : ram.HasFrame 0x1000 :=
  ⟨by decide, by
    rw [Ram.Fits, h.size]
    decide⟩

theorem table (h : OneTable ram) : ram.HasFrame 0x2000 :=
  ⟨by decide, by
    rw [Ram.Fits, h.size]
    decide⟩

/-- One entry of the directory is present. -/
theorem pde (h : OneTable ram) {vaddr : UInt32}
    (hp : (ram.pde 0x1000 vaddr).has .present = true) : ram.pde 0x1000 vaddr = ⟨0x2007⟩ := by
  have hslot := Entry.toNat_directorySlot h.directory.1 vaddr
  have hv := vaddr.toNat_lt
  rw [Ram.pde, entryAt, h.word _ (Entry.directorySlot_mod h.directory.1 _),
    if_neg (by rw [hslot]; show 8196 ≠ 4096 + _; omega)] at hp ⊢
  split at hp
  · rename_i hfirst
    rw [if_pos hfirst]
  · cases hp

/-- One entry of its table is present. -/
theorem pte (h : OneTable ram) {vaddr : UInt32}
    (hp : (ram.pde 0x1000 vaddr).has .present = true)
    (hpt : (ram.pte 0x1000 vaddr).has .present = true) : ram.pte 0x1000 vaddr = ⟨0x3007⟩ := by
  have hframe : (⟨0x2007⟩ : Entry).frame = 0x2000 := by decide
  have hslot := Entry.toNat_tableSlot h.table.1 vaddr
  rw [Ram.pte, h.pde hp, hframe, entryAt, h.word _ (Entry.tableSlot_mod h.table.1 _)] at hpt ⊢
  split at hpt
  · rename_i hsecond
    rw [if_pos hsecond]
  · rw [if_neg (by rw [hslot]; show 4096 ≠ 8192 + _; omega)] at hpt
    cases hpt

theorem tablePage (h : OneTable ram) {n : Nat} (hn : TablePage ram (.paged 0x1000) n) :
    n = 1 ∨ n = 2 := by
  have hregister : (Registers.paged 0x1000).directory = 0x1000 := by decide
  obtain rfl | ⟨vaddr, word, hread, hp, rfl⟩ := hn
  · exact .inl (by decide)
  · rw [hregister, read_word, if_pos (h.directory.fits_directorySlot vaddr)] at hread
    cases hread
    have hnumber := congrArg (fun e => Page.number e.frame) (h.pde hp)
    exact .inr (hnumber.trans (by decide))

/-- Whatever is mapped leads to the one page. -/
theorem number_of_path (h : OneTable ram) {vaddr p : UInt32}
    (hpath : ram.path 0x1000 vaddr = .ok p) : Page.number p = 3 := by
  obtain ⟨-, hp, -, hpt, rfl⟩ := path_eq_ok_iff.1 hpath
  rw [Entry.number_resolve, h.pte hp hpt]
  decide

theorem path_first (h : OneTable ram) : ram.path 0x1000 0x1000 = .ok 0x3000 := by
  have hpde : ram.pde 0x1000 0x1000 = ⟨0x2007⟩ := congrArg Entry.mk (h.word 0x1000 rfl)
  have hpte : ram.pte 0x1000 0x1000 = ⟨0x3007⟩ := by
    have hslot : (Entry.tableSlot (⟨0x2007⟩ : Entry).frame 0x1000).toNat = 0x2004 := by decide
    rw [Ram.pte, hpde, entryAt, hslot, h.word 0x2004 rfl]
    rfl
  rw [path_eq_ok_iff, hpde, hpte]
  exact ⟨h.directory.fits_directorySlot _, by decide, h.table.fits_tableSlot _, by decide,
    by decide⟩

end OneTable

/-- A page that leads to a counter, under a directory with one table. -/
theorem session_tracking_counter : ∃ ram : Ram,
    let bus : Bus RegisterDevice := ⟨ram, ⟨[⟨"counter", ⟨0x3000, 0x1000⟩, ⟨.counter, 7⟩⟩]⟩⟩
    let calls := [.read 0x1000 4, .write 0x1008 2 5, .read 0x1000 4, .read 0x5000 1]
    ram.path 0x1000 0x1000 = .ok 0x3000 ∧
    ((session (.paged 0x1000) calls).run ⟨bus, .writeBack⟩).result =
      ((session (.paged 0x1000) calls).run ⟨bus, .discard⟩).result := by
  obtain ⟨ram, h⟩ := exists_oneTable
  refine ⟨ram, h.path_first, (session_tracking _ _ _ (by decide) ?_ ?_).1⟩
  · -- the counter serves page 3, and pages 1 and 2 hold the tables
    intro region hregion addr haddr hpage
    obtain rfl := List.mem_singleton.1 hregion
    obtain ⟨hlow, hhigh⟩ := Range.mem_iff.1 haddr
    have hlow : 12288 ≤ addr.toNat := hlow
    have hhigh : addr.toNat < 16384 := hhigh
    have hnumber := h.tablePage hpage
    rw [Page.number] at hnumber
    omega
  · intro vaddr p hlookup hpage
    have h3 := h.number_of_path (lookup_eq_some_iff.1 hlookup)
    have hnumber := h.tablePage hpage
    omega

end GuestCall

end PagedMemory
