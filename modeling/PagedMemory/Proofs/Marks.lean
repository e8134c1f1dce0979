import PagedMemory.Proofs.Lookups

/-!
# Marks change no translation

A walk that writes back sets bits in the two entries that it used. The tables may be any words of
RAM, even one word that is both entries; still the marks are set there and nowhere else, and no
address of any space leads anywhere else than before.

- `word_mark`: marking sets bits, also where a weaker mark was set since the entry was read;
- `word_tracked`: each word of RAM after a walk;
- `tracked_tracked`: the same walk again leaves nothing more;
- `translate_marks`: what a translation leaves behind.
-/

namespace PagedMemory

namespace Entry

/-! ## The bits of marks -/

/-- The bits that an access sets in the entry of the table: bit 5 for accessed, and on a write bit 6
for dirty. In the entry of the directory every access counts as a read. -/
def marks : Access → UInt32
  | .read => 0x20
  | .write => 0x60

theorem bits_touched (e : Entry) (access : Access) :
    (e.touched access).bits = e.bits ||| marks access := by
  cases access with
  | read => rfl
  | write => exact UInt32.or_assoc _ _ _

/-- A write marks all that a read does. -/
theorem marks_read_or (access : Access) : marks .read ||| marks access = marks access := by
  cases access <;> decide

/-- Marking changes nothing exactly where the marks are set. -/
theorem touched_eq_self_iff {e : Entry} {access : Access} :
    e.touched access = e ↔ e.bits ||| marks access = e.bits := by
  rw [← bits_touched]
  exact ⟨congrArg bits, fun h => congrArg mk h⟩

end Entry

namespace Ram

variable {ram : Ram} {directory vaddr slot : UInt32} {access : Access}

/-! ## Words after a walk -/

/-- Marking an entry sets bits of its word and changes no other. Since the entry was read, `m` may
have been set in the word, if the mark covers it. -/
theorem word_mark {e : Entry} {m : UInt32} (hfit : ram.Fits slot 4) (hmod : slot.toNat % 4 = 0)
    (hword : ram.word slot.toNat = e.bits ||| m)
    (hm : m ||| Entry.marks access = Entry.marks access) {a : Nat} (ha : a % 4 = 0) :
    (ram.mark slot e (e.touched access)).word a =
      ram.word a ||| if a = slot.toNat then Entry.marks access else 0 := by
  unfold mark
  split
  · rename_i hsame
    have hset := Entry.touched_eq_self_iff.1 hsame
    split
    · rename_i hslot
      subst hslot
      have hcovered : e.bits ||| m = e.bits := by
        rw [← hset, UInt32.or_assoc, UInt32.or_comm (Entry.marks access), hm]
      rw [hword, hcovered, hset]
    · rw [UInt32.or_zero]
  · rw [word_setWord hfit hmod ha, Entry.bits_touched]
    by_cases hslot : a = slot.toNat
    · rw [if_pos hslot.symm, if_pos hslot, hslot, hword, UInt32.or_assoc, hm]
    · rw [if_neg (Ne.symm hslot), if_neg hslot, UInt32.or_zero]

/-- A walk sets its marks in the words of its two entries, and in no other. -/
theorem word_tracked (hd : Page.Aligned directory) {p : UInt32}
    (hpath : ram.path directory vaddr = .ok p) {a : Nat} (ha : a % 4 = 0) :
    (ram.tracked directory .writeBack access vaddr).word a = ram.word a |||
      (if a = (Entry.directorySlot directory vaddr).toNat then Entry.marks .read else 0) |||
      (if a = (Entry.tableSlot (ram.pde directory vaddr).frame vaddr).toNat then
        Entry.marks access else 0) := by
  obtain ⟨hfit, -, hfit', -, -⟩ := path_eq_ok_iff.1 hpath
  have hmod' := Entry.tableSlot_mod (Entry.aligned_frame (ram.pde directory vaddr)) vaddr
  -- the entry of the table was read before the first store, which may have hit the same word
  have hfirst : ∀ {b : Nat}, b % 4 = 0 → (ram.mark (Entry.directorySlot directory vaddr)
      (ram.pde directory vaddr) ((ram.pde directory vaddr).touched .read)).word b = ram.word b |||
        if b = (Entry.directorySlot directory vaddr).toNat then Entry.marks .read else 0 :=
    word_mark hfit (Entry.directorySlot_mod hd vaddr) (UInt32.or_zero).symm (UInt32.zero_or)
  have hcovered : (if (Entry.tableSlot (ram.pde directory vaddr).frame vaddr).toNat =
      (Entry.directorySlot directory vaddr).toNat then Entry.marks .read else 0) |||
        Entry.marks access = Entry.marks access := by
    split
    · exact Entry.marks_read_or access
    · exact UInt32.zero_or
  have hfit'' : (ram.mark (Entry.directorySlot directory vaddr) (ram.pde directory vaddr)
      ((ram.pde directory vaddr).touched .read)).Fits
        (Entry.tableSlot (ram.pde directory vaddr).frame vaddr) 4 := by
    rw [Fits, size_mark]
    exact hfit'
  rw [← hfirst ha]
  exact word_mark (e := ram.pte directory vaddr) hfit'' hmod' (hfirst hmod') hcovered ha

/-- All pages together hold any directory, with all its tables. -/
theorem tablesIn_true (hd : Page.Aligned directory) (ram : Ram) :
    TablesIn (fun _ => True) ram directory :=
  ⟨hd, trivial, fun _ _ _ => trivial⟩

/-- RAM as a whole differs in marks alone after a walk. -/
theorem alikeOn_tracked (hd : Page.Aligned directory) {p : UInt32}
    (hpath : ram.path directory vaddr = .ok p) (tracking : Tracking) (access : Access) :
    AlikeOn (fun _ => True) ram (ram.tracked directory tracking access vaddr) :=
  (AlikeOn.refl _ ram).tracked (tablesIn_true hd ram) hpath tracking access

/-- The same walk again leaves nothing more. -/
theorem tracked_tracked (hd : Page.Aligned directory) {p : UInt32}
    (hpath : ram.path directory vaddr = .ok p) :
    (ram.tracked directory .writeBack access vaddr).tracked directory .writeBack access vaddr =
      ram.tracked directory .writeBack access vaddr := by
  have hframe : ((ram.tracked directory .writeBack access vaddr).pde directory vaddr).frame =
      (ram.pde directory vaddr).frame :=
    ((alikeOn_tracked hd hpath _ _).pde (tablesIn_true hd ram) vaddr).frame
  have hpde : ((ram.tracked directory .writeBack access vaddr).pde directory vaddr).touched .read =
      (ram.tracked directory .writeBack access vaddr).pde directory vaddr := by
    have hset : ∀ x m y : UInt32, x ||| m ||| y ||| m = x ||| m ||| y := by
      intro x m y
      rw [UInt32.or_assoc, UInt32.or_comm y m, ← UInt32.or_assoc, UInt32.or_assoc x, UInt32.or_self]
    rw [Entry.touched_eq_self_iff, Ram.pde, entryAt,
      word_tracked hd hpath (Entry.directorySlot_mod hd vaddr), if_pos rfl]
    exact hset _ _ _
  have hpte : ((ram.tracked directory .writeBack access vaddr).pte directory vaddr).touched access =
      (ram.tracked directory .writeBack access vaddr).pte directory vaddr := by
    rw [Entry.touched_eq_self_iff, Ram.pte, hframe, entryAt,
      word_tracked hd hpath (Entry.tableSlot_mod (Entry.aligned_frame _) vaddr), if_pos rfl,
      UInt32.or_assoc, UInt32.or_self]
  rw [tracked, hpde, hpte, mark, if_pos rfl, mark, if_pos rfl]

end Ram

namespace Bus

variable {δ : Type} [Device δ] {bus : Bus δ} {regs : Registers} {access : Access} {vaddr p : UInt32}

/-! ## Translations that mark -/

/-- A translation that succeeds leaves the marks of its walk. -/
theorem translate_of_path (hp : regs.pagingEnabled = true)
    (hd : bus.Unclaimed (Entry.directorySlot regs.directory vaddr))
    (ht : bus.Unclaimed (Entry.tableSlot (bus.ram.pde regs.directory vaddr).frame vaddr))
    (hpath : bus.ram.path regs.directory vaddr = .ok p) (tracking : Tracking) (access : Access) :
    ((translate regs tracking access vaddr).run bus).result = .ok p ∧
      ((translate regs tracking access vaddr).run bus).state =
        ⟨bus.ram.tracked regs.directory tracking access vaddr, bus.table⟩ := by
  rw [run_translate hp hd (fun _ _ => ht), hpath]
  exact ⟨rfl, rfl⟩

/-- What a translation leaves behind that marks entries in RAM: the bits of its marks in the words of
its two entries, and not a bit elsewhere. Hence every address is looked up as before, in every space,
and the same translation again ends the same way and changes nothing. -/
theorem translate_marks (bus : Bus δ) (regs : Registers) (access : Access) (vaddr : UInt32)
    (hp : regs.pagingEnabled = true)
    (hd : ∀ region ∈ bus.table.regions,
      Entry.directorySlot regs.directory vaddr ∉ region.range)
    (ht : ∀ region ∈ bus.table.regions,
      Entry.tableSlot (bus.ram.pde regs.directory vaddr).frame vaddr ∉ region.range)
    {p : UInt32} (hok : ((translate regs .writeBack access vaddr).run bus).result = .ok p) :
    let after := ((translate regs .writeBack access vaddr).run bus).state
    let again := (translate regs .writeBack access vaddr).run after
    after.table = bus.table ∧
    after.ram.size = bus.ram.size ∧
    (∀ a, a % 4 = 0 → after.ram.word a = bus.ram.word a |||
      (if a = (Entry.directorySlot regs.directory vaddr).toNat then Entry.marks .read else 0) |||
      (if a = (Entry.tableSlot (bus.ram.pde regs.directory vaddr).frame vaddr).toNat then
        Entry.marks access else 0)) ∧
    (∀ space : AddressSpace, space.Obtained → ∀ v,
      space.lookup after.ram v = space.lookup bus.ram v) ∧
    again.result = .ok p ∧
    again.state = after := by
  have haligned : Page.Aligned regs.directory := Page.aligned_base regs.cr3
  have hpath : bus.ram.path regs.directory vaddr = .ok p := by
    rw [← result_translate hp hd (fun _ _ => ht) .writeBack access]
    exact hok
  obtain ⟨-, hstate⟩ := translate_of_path hp hd ht hpath .writeBack access
  have halike := Ram.alikeOn_tracked haligned hpath .writeBack access
  have htables := Ram.tablesIn_true haligned bus.ram
  -- the second walk starts from tables that are alike, and so takes the same way
  have hslot : ∀ region ∈ bus.table.regions, Entry.tableSlot
      ((bus.ram.tracked regs.directory .writeBack access vaddr).pde regs.directory vaddr).frame
        vaddr ∉ region.range := by
    rwa [(halike.pde htables vaddr).frame]
  obtain ⟨hresult', hstate'⟩ := @translate_of_path δ _
    ⟨bus.ram.tracked regs.directory .writeBack access vaddr, bus.table⟩ regs vaddr p hp hd hslot
    ((Ram.path_eq_of_alikeOn htables halike vaddr).trans hpath) .writeBack access
  dsimp only
  rw [hstate]
  refine ⟨rfl, halike.size, fun a ha => Ram.word_tracked haligned hpath ha,
    fun space hs v => Ram.lookup_eq_of_alikeOn (Ram.tablesIn_true hs.aligned _) halike v,
    hresult', ?_⟩
  rw [hstate', Ram.tracked_tracked haligned hpath]

/-- A write through a directory that is its own table: one word is both entries. -/
theorem translate_marks_selfNamed : ∃ ram : Ram,
    let bus : Bus RegisterDevice := ⟨ram, ⟨[⟨"latch", ⟨0x1800, 16⟩, ⟨.latch, 0⟩⟩]⟩⟩
    let o := (translate (.paged 0x1000) .writeBack .write 0x123).run bus
    ram.word 0x1000 = 0x1001 ∧ o.result = .ok 0x1123 ∧ o.state.ram.word 0x1000 = 0x1061 := by
  obtain ⟨ram, h⟩ := Ram.exists_selfNamed
  have hdirectory : (Registers.paged 0x1000).directory = 0x1000 := by decide
  have hdir : ∀ region ∈ [(⟨"latch", ⟨0x1800, 16⟩, ⟨.latch, 0⟩⟩ : Region RegisterDevice)],
      Entry.directorySlot (Registers.paged 0x1000).directory 0x123 ∉ region.range := by decide
  have htable : ∀ region ∈ [(⟨"latch", ⟨0x1800, 16⟩, ⟨.latch, 0⟩⟩ : Region RegisterDevice)],
      Entry.tableSlot (ram.pde (Registers.paged 0x1000).directory 0x123).frame 0x123 ∉
        region.range := by
    rw [hdirectory, h.pde]
    decide
  have hpath : ram.path (Registers.paged 0x1000).directory 0x123 = .ok 0x1123 := by
    rw [hdirectory, h.path_first]
  have hok := (@translate_of_path RegisterDevice _ ⟨ram, ⟨_⟩⟩ (.paged 0x1000) 0x123 0x1123 (by decide)
    hdir htable hpath .writeBack .write).1
  have hword := (translate_marks _ _ _ _ (by decide) hdir htable hok).2.2.1 0x1000 rfl
  refine ⟨ram, h.word 0x1000 rfl, hok, hword.trans ?_⟩
  rw [hdirectory, h.pde]
  show ram.word 0x1000 ||| _ ||| _ = _
  rw [h.word 0x1000 rfl]
  decide

end Bus

end PagedMemory
