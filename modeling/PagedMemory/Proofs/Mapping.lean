import PagedMemory.Proofs.TableLayout

/-!
# The layouts that creating and mapping reach

Creating a space and mapping a page change a layout in three ways: the entry of a page is written, a
table is opened in a fresh frame, and so is a directory. Each is a function on layouts, whatever
operation performs it. This module shows that validity survives all three, and what each of them
leaves alone.

- `Valid.evolves_setEntry`: an entry that is written maps its own page and no other;
- `Valid.evolves_openTable`: a new table maps nothing, whatever bytes its frame held before;
- `Valid.openDirectory`: nor does a new space, and the others do not notice it.
-/

namespace PagedMemory

namespace Layout

variable {spaces : List AddressSpace} {l : Layout} {i j : Nat} {space space' : AddressSpace}
  {touched : Nat → Prop} {vaddr vaddr' frame : UInt32}

/-! ## Slots of a valid layout -/

/-- The directories of different spaces are different frames. -/
theorem Valid.number_directory_eq_iff (hl : l.Valid spaces) (hi : spaces[i]? = some space)
    (hj : spaces[j]? = some space') :
    Page.number space.directory = Page.number space'.directory ↔ i = j := by
  constructor
  · intro h
    have hd := hl.directory i space hi
    rw [h, hl.directory j space' hj] at hd
    cases hd
    rfl
  · rintro rfl
    rw [hi] at hj
    cases hj
    rfl

/-- No table is a directory. -/
theorem Valid.number_table_ne_directory (hl : l.Valid spaces) (hi : spaces[i]? = some space)
    (hj : spaces[j]? = some space') (hp : (l.ram.pde space.directory vaddr).has .present = true) :
    Page.number (l.ram.pde space.directory vaddr).frame ≠ Page.number space'.directory := by
  intro h
  have ht := hl.table i space vaddr hi hp
  rw [h, hl.directory j space' hj] at ht
  cases ht

/-- Different slots name different tables. -/
theorem Valid.number_table_eq_iff (hl : l.Valid spaces) (hi : spaces[i]? = some space)
    (hj : spaces[j]? = some space') (hp : (l.ram.pde space.directory vaddr).has .present = true)
    (hp' : (l.ram.pde space'.directory vaddr').has .present = true) :
    Page.number (l.ram.pde space.directory vaddr).frame =
        Page.number (l.ram.pde space'.directory vaddr').frame ↔
      i = j ∧ Page.directoryIndex vaddr = Page.directoryIndex vaddr' := by
  constructor
  · intro h
    have ht := hl.table i space vaddr hi hp
    rw [h, hl.table j space' vaddr' hj hp'] at ht
    obtain ⟨hji, hidx⟩ := Use.table.inj (Option.some.inj ht)
    exact ⟨hji.symm, hidx.symm⟩
  · rintro ⟨rfl, h⟩
    rw [hi] at hj
    cases hj
    rw [Ram.pde, Ram.pde, Entry.directorySlot, Entry.directorySlot, h]

/-- Two pages share an entry of a table only if they are one page of one space. -/
theorem Valid.tableSlot_eq_iff (hl : l.Valid spaces) (hi : spaces[i]? = some space)
    (hj : spaces[j]? = some space') (hp : (l.ram.pde space.directory vaddr).has .present = true)
    (hp' : (l.ram.pde space'.directory vaddr').has .present = true) :
    (Entry.tableSlot (l.ram.pde space.directory vaddr).frame vaddr).toNat =
        (Entry.tableSlot (l.ram.pde space'.directory vaddr').frame vaddr').toNat ↔
      i = j ∧ Page.number vaddr = Page.number vaddr' := by
  rw [Entry.tableSlot_eq_iff (Entry.aligned_frame _) (Entry.aligned_frame _),
    hl.number_table_eq_iff hi hj hp hp', Page.number_eq_iff, and_assoc]

/-! ## Writing the entry of a page -/

/-- The layout in which the entry of the page of `vaddr` names `frame`. -/
def setEntry (l : Layout) (directory vaddr frame : UInt32) : Layout :=
  { l with
    ram := l.ram.setWord (Entry.tableSlot (l.ram.pde directory vaddr).frame vaddr).toNat
      (Entry.make frame Entry.openFlags).bits }

/-- The words of RAM once the entry of a page was written. -/
theorem Valid.word_setEntry (hl : l.Valid spaces) (hi : spaces[i]? = some space)
    (hp : (l.ram.pde space.directory vaddr).has .present = true) {a : Nat} (ha : a % 4 = 0) :
    (l.setEntry space.directory vaddr frame).ram.word a =
      if (Entry.tableSlot (l.ram.pde space.directory vaddr).frame vaddr).toNat = a then
        (Entry.make frame Entry.openFlags).bits
      else l.ram.word a :=
  Ram.word_setWord ((hl.hasTable i space vaddr hi hp).fits_tableSlot vaddr)
    (Entry.tableSlot_mod (Entry.aligned_frame _) _) ha _

/-- Writing the entry of a page leaves all directories alone. -/
theorem Valid.pde_setEntry (hl : l.Valid spaces) (hi : spaces[i]? = some space)
    (hp : (l.ram.pde space.directory vaddr).has .present = true) (hj : spaces[j]? = some space')
    (vaddr' : UInt32) :
    (l.setEntry space.directory vaddr frame).ram.pde space'.directory vaddr' =
      l.ram.pde space'.directory vaddr' := by
  have hd := (hl.hasDirectory j space' hj).1
  have hne := hl.number_table_ne_directory hi hj hp
  rw [Ram.pde, Ram.entryAt, hl.word_setEntry hi hp (Entry.directorySlot_mod hd _), if_neg]
  · rfl
  · intro h
    rw [← Entry.tableSlot_div (Entry.aligned_frame _) vaddr, h, Entry.directorySlot_div hd] at hne
    exact hne rfl

/-- Writing the entry of a page leaves those of all other pages alone. -/
theorem Valid.pte_setEntry (hl : l.Valid spaces) (hi : spaces[i]? = some space)
    (hp : (l.ram.pde space.directory vaddr).has .present = true) (hj : spaces[j]? = some space')
    (hp' : (l.ram.pde space'.directory vaddr').has .present = true) :
    (l.setEntry space.directory vaddr frame).ram.pte space'.directory vaddr' =
      if i = j ∧ Page.number vaddr = Page.number vaddr' then Entry.make frame Entry.openFlags
      else l.ram.pte space'.directory vaddr' := by
  rw [Ram.pte, hl.pde_setEntry hi hp hj, Ram.entryAt,
    hl.word_setEntry hi hp (Entry.tableSlot_mod (Entry.aligned_frame _) _)]
  simp only [hl.tableSlot_eq_iff hi hj hp hp']
  split <;> rfl

/-- The page whose entry was written has its frame. -/
theorem Valid.frame?_setEntry_self (hl : l.Valid spaces) (hi : spaces[i]? = some space)
    (hp : (l.ram.pde space.directory vaddr).has .present = true) (hf : Page.Aligned frame) :
    (l.setEntry space.directory vaddr frame).ram.frame? space.directory vaddr = some frame := by
  rw [Ram.frame?_eq_some_iff, hl.pde_setEntry hi hp hi, hl.pte_setEntry hi hp hi hp,
    if_pos ⟨rfl, rfl⟩]
  exact ⟨hp, Entry.present_make hf, Entry.frame_make hf⟩

theorem Valid.evolves_setEntry (hl : l.Valid spaces) (hi : spaces[i]? = some space)
    (hp : (l.ram.pde space.directory vaddr).has .present = true)
    (ht : touched (Page.number vaddr)) :
    Evolves spaces i touched l (l.setEntry space.directory vaddr frame) where
  valid := hl.withRam (Ram.size_setWord _ _ _) fun j space' vaddr' hj => by
    have h : (l.setEntry space.directory vaddr frame).ram.pde space'.directory vaddr' =
        l.ram.pde space'.directory vaddr' := hl.pde_setEntry hi hp hj vaddr'
    exact ⟨congrArg Entry.frame h, congrArg (Entry.has · .present) h⟩
  size := Ram.size_setWord _ _ _
  use _ _ h := h
  gave _ h := h
  fresh _ _ h h' := by rw [show l.use _ = some _ from h'] at h; cases h
  table j space' vaddr' hj _ := hl.pde_setEntry hi hp hj vaddr'
  frame j space' vaddr' hj hn := by
    refine Ram.frame?_of_entries (hl.pde_setEntry hi hp hj vaddr') ?_
    intro hp'
    rw [hl.pte_setEntry hi hp hj hp', if_neg]
    rintro ⟨rfl, h⟩
    exact hn rfl (h ▸ ht)
  byte b _ hb := by
    -- the one word that is written is the entry of a touched page
    have hslot := (hb space vaddr hi ht).2
    rw [hl.pde_setEntry hi hp hi] at hslot
    exact Ram.byte_setWord_of_ne ((hl.hasTable i space vaddr hi hp).fits_tableSlot vaddr)
      (Entry.tableSlot_mod (Entry.aligned_frame _) _) (hslot hp) _

/-! ## Opening a table -/

/-- The layout in which a fresh frame was cleared and named as the table for `vaddr`. -/
def openTable (l : Layout) (i : Nat) (directory vaddr : UInt32) : Layout :=
  { l.grant (.table i (Page.directoryIndex vaddr)) with
    ram := (l.ram.clear l.pool.fresh).setWord (Entry.directorySlot directory vaddr).toNat
      (Entry.make l.pool.fresh Entry.openFlags).bits }

theorem use_openTable (l : Layout) (i : Nat) (directory vaddr : UInt32) :
    (l.openTable i directory vaddr).use = (l.grant (.table i (Page.directoryIndex vaddr))).use :=
  rfl

theorem pool_openTable (l : Layout) (i : Nat) (directory vaddr : UInt32) :
    (l.openTable i directory vaddr).pool = l.pool.advance :=
  rfl

@[simp] theorem size_openTable (l : Layout) (i : Nat) (directory vaddr : UInt32) :
    (l.openTable i directory vaddr).ram.size = l.ram.size := by
  simp [openTable]

/-- No directory lies in the frame that is handed out next. -/
theorem Valid.number_directory_ne_fresh (hl : l.Valid spaces) (hn : l.pool.HasNext)
    (hi : spaces[i]? = some space) : Page.number space.directory ≠ Page.number l.pool.fresh := by
  intro h
  have hd := hl.directory i space hi
  rw [h, hl.use_fresh hn] at hd
  cases hd

/-- No table lies in the frame that is handed out next. -/
theorem Valid.number_table_ne_fresh (hl : l.Valid spaces) (hn : l.pool.HasNext)
    (hi : spaces[i]? = some space) (hp : (l.ram.pde space.directory vaddr).has .present = true) :
    Page.number (l.ram.pde space.directory vaddr).frame ≠ Page.number l.pool.fresh := by
  intro h
  have ht := hl.table i space vaddr hi hp
  rw [h, hl.use_fresh hn] at ht
  cases ht

/-- The words of RAM once a table was opened. -/
theorem Valid.word_openTable (hl : l.Valid spaces) (hf : l.ram.HasFrame l.pool.fresh)
    (hi : spaces[i]? = some space) {a : Nat} (ha : a % 4 = 0) :
    (l.openTable i space.directory vaddr).ram.word a =
      if (Entry.directorySlot space.directory vaddr).toNat = a then
        (Entry.make l.pool.fresh Entry.openFlags).bits
      else if a / 4096 = Page.number l.pool.fresh then 0 else l.ram.word a := by
  have hd := hl.hasDirectory i space hi
  have hfit : (Entry.directorySlot space.directory vaddr).toNat + 4 ≤
      (l.ram.clear l.pool.fresh).size := by
    rw [Ram.size_clear]
    exact hd.fits_directorySlot vaddr
  rw [openTable, Ram.word_setWord hfit (Entry.directorySlot_mod hd.1 _) ha, Ram.word_clear hf ha]
  rfl

/-- Opening a table writes the one slot that names it, and no other slot of a directory. -/
theorem Valid.pde_openTable (hl : l.Valid spaces) (hn : l.pool.HasNext)
    (hf : l.ram.HasFrame l.pool.fresh) (hi : spaces[i]? = some space)
    (hj : spaces[j]? = some space') (vaddr vaddr' : UInt32) :
    (l.openTable i space.directory vaddr).ram.pde space'.directory vaddr' =
      if i = j ∧ Page.directoryIndex vaddr = Page.directoryIndex vaddr' then
        Entry.make l.pool.fresh Entry.openFlags
      else l.ram.pde space'.directory vaddr' := by
  have hd := (hl.hasDirectory i space hi).1
  have hd' := (hl.hasDirectory j space' hj).1
  have hne := hl.number_directory_ne_fresh hn hj
  rw [Ram.pde, Ram.entryAt, hl.word_openTable hf hi (Entry.directorySlot_mod hd' _),
    Entry.directorySlot_div hd', if_neg hne]
  simp only [Entry.directorySlot_eq_iff hd hd', hl.number_directory_eq_iff hi hj]
  split <;> rfl

/-- A table that was just opened maps nothing, and the other tables are as before. -/
theorem Valid.frame?_openTable (hl : l.Valid spaces) (hn : l.pool.HasNext)
    (hf : l.ram.HasFrame l.pool.fresh) (hi : spaces[i]? = some space)
    (hp : (l.ram.pde space.directory vaddr).has .present = false)
    (hj : spaces[j]? = some space') (vaddr' : UInt32) :
    (l.openTable i space.directory vaddr).ram.frame? space'.directory vaddr' =
      l.ram.frame? space'.directory vaddr' := by
  have hd := (hl.hasDirectory i space hi).1
  have hpde := hl.pde_openTable hn hf hi hj vaddr vaddr'
  by_cases hsame : i = j ∧ Page.directoryIndex vaddr = Page.directoryIndex vaddr'
  · -- the slot was empty before, and the table that it names now is full of zeros
    obtain ⟨rfl, hidx⟩ := hsame
    rw [if_pos ⟨rfl, hidx⟩] at hpde
    rw [hi] at hj
    cases hj
    have hbefore : (l.ram.pde space.directory vaddr').has .present = false := by
      rwa [Ram.pde, Entry.directorySlot, ← hidx]
    have hslot : (Entry.tableSlot l.pool.fresh vaddr').toNat / 4096 = Page.number l.pool.fresh :=
      Entry.tableSlot_div hf.1 vaddr'
    have hzero : (l.openTable i space.directory vaddr).ram.pte space.directory vaddr' = ⟨0⟩ := by
      rw [Ram.pte, hpde, Entry.frame_make hf.1, Ram.entryAt,
        hl.word_openTable hf hi (Entry.tableSlot_mod hf.1 _), if_neg, if_pos hslot]
      intro h
      refine hl.number_directory_ne_fresh hn hi ?_
      rw [← Entry.directorySlot_div hd vaddr, h, hslot]
    rw [Ram.frame?_of_not_present hbefore, Ram.frame?, hzero, Entry.not_present_zero,
      Bool.and_false]
    rfl
  · -- a table that was there lies neither in the fresh frame nor in the directory that is written
    rw [if_neg hsame] at hpde
    refine Ram.frame?_of_entries hpde ?_
    intro hp'
    have ha := Entry.aligned_frame (l.ram.pde space'.directory vaddr')
    have hslot := Entry.tableSlot_div ha vaddr'
    rw [Ram.pte, hpde, Ram.entryAt,
      hl.word_openTable hf hi (Entry.tableSlot_mod (Entry.aligned_frame _) _), if_neg, if_neg]
    · rfl
    · rw [hslot]
      exact hl.number_table_ne_fresh hn hj hp'
    · intro h
      refine hl.number_table_ne_directory hj hi hp' ?_
      rw [← hslot, ← h, Entry.directorySlot_div hd]

theorem Valid.openTable (hl : l.Valid spaces) (hn : l.pool.HasNext)
    (hf : l.ram.HasFrame l.pool.fresh) (hi : spaces[i]? = some space) (vaddr : UInt32) :
    (l.openTable i space.directory vaddr).Valid spaces where
  sound := hl.sound.advance
  gave := (hl.grant hn (.table i (Page.directoryIndex vaddr))).gave
  directory := (hl.grant hn (.table i (Page.directoryIndex vaddr))).directory
  hasDirectory j space' hj := (hl.hasDirectory j space' hj).of_size (size_openTable _ _ _ _)
  table j space' vaddr' hj hp := by
    -- either the entry is the new one, which names the fresh frame, or it is as it was
    rw [hl.pde_openTable hn hf hi hj] at hp ⊢
    split at hp
    · rename_i h
      obtain ⟨rfl, hidx⟩ := h
      rw [if_pos ⟨rfl, hidx⟩, Entry.frame_make hf.1, ← hidx, use_openTable, use_grant_self]
    · rename_i h
      rw [if_neg h, use_openTable]
      exact hl.use_grant hn (hl.table j space' vaddr' hj hp)
  hasTable j space' vaddr' hj hp := by
    have hs := size_openTable l i space.directory vaddr
    rw [hl.pde_openTable hn hf hi hj] at hp ⊢
    split at hp
    · rename_i h
      rw [if_pos h, Entry.frame_make hf.1]
      exact hf.of_size hs
    · rename_i h
      rw [if_neg h]
      exact (hl.hasTable j space' vaddr' hj hp).of_size hs

theorem Valid.evolves_openTable (hl : l.Valid spaces) (hn : l.pool.HasNext)
    (hf : l.ram.HasFrame l.pool.fresh) (hi : spaces[i]? = some space)
    (hp : (l.ram.pde space.directory vaddr).has .present = false)
    (ht : touched (Page.number vaddr)) :
    Evolves spaces i touched l (l.openTable i space.directory vaddr) where
  valid := hl.openTable hn hf hi vaddr
  size := size_openTable _ _ _ _
  use n u hu := by
    rw [use_openTable]
    exact hl.use_grant hn hu
  gave n hg := by
    rw [pool_openTable]
    exact hg.advance
  fresh n u hu hu' := by
    have h : Evolves spaces i touched l (l.grant (.table i (Page.directoryIndex vaddr))) :=
      hl.evolves_grant hn _
    rw [use_openTable] at hu'
    exact h.fresh n u hu hu'
  table j space' vaddr' hj hp' := by
    -- the slot that is written was empty, so it is not the slot of a table that was there
    rw [hl.pde_openTable hn hf hi hj, if_neg]
    rintro ⟨rfl, hidx⟩
    rw [hi] at hj
    cases hj
    rw [Ram.pde, Entry.directorySlot, ← hidx] at hp'
    exact Bool.false_ne_true (hp.symm.trans hp')
  frame j space' vaddr' hj _ := hl.frame?_openTable hn hf hi hp hj vaddr'
  byte b hg hb := by
    have hd := hl.hasDirectory i space hi
    -- a byte whose frame was handed out before, if at all, is not cleared
    have hne : b / 4096 ≠ Page.number l.pool.fresh := by
      intro h
      rw [pool_openTable] at hg
      have hgave := hg (Pool.gave_advance_iff.2 (.inl h))
      rw [h] at hgave
      exact hl.sound.not_gave_fresh hn hgave
    have hfit : (Entry.directorySlot space.directory vaddr).toNat + 4 ≤
        (l.ram.clear l.pool.fresh).size := by
      rw [Ram.size_clear]
      exact hd.fits_directorySlot vaddr
    rw [Layout.openTable, Ram.byte_setWord_of_ne hfit (Entry.directorySlot_mod hd.1 _)
      (hb space vaddr hi ht).1, Ram.byte_clear_of_ne hf hne]

/-! ## A new directory -/

/-- The layout in which a fresh frame was cleared to be the directory of the space `i`. -/
def openDirectory (l : Layout) (i : Nat) : Layout :=
  { l.grant (.directory i) with ram := l.ram.clear l.pool.fresh }

theorem use_openDirectory (l : Layout) (i : Nat) :
    (l.openDirectory i).use = (l.grant (.directory i)).use :=
  rfl

theorem pool_openDirectory (l : Layout) (i : Nat) : (l.openDirectory i).pool = l.pool.advance :=
  rfl

theorem state_openDirectory (l : Layout) (i : Nat) :
    (l.openDirectory i).state = (l.ram.clear l.pool.fresh, l.pool.advance) := by
  rw [state, openDirectory, grant]

@[simp] theorem size_openDirectory (l : Layout) (i : Nat) :
    (l.openDirectory i).ram.size = l.ram.size := by
  simp [openDirectory]

/-- The words of RAM once the frame of a new directory was cleared. -/
theorem word_openDirectory (hf : l.ram.HasFrame l.pool.fresh) (n : Nat) {a : Nat} (ha : a % 4 = 0) :
    (l.openDirectory n).ram.word a =
      if a / 4096 = Page.number l.pool.fresh then 0 else l.ram.word a := by
  rw [openDirectory, Ram.word_clear hf ha]
  rfl

/-- Clearing a fresh frame leaves the directories alone. -/
theorem Valid.pde_openDirectory (hl : l.Valid spaces) (hn : l.pool.HasNext)
    (hf : l.ram.HasFrame l.pool.fresh) (n : Nat) (hj : spaces[j]? = some space') (vaddr' : UInt32) :
    (l.openDirectory n).ram.pde space'.directory vaddr' = l.ram.pde space'.directory vaddr' := by
  have hd := (hl.hasDirectory j space' hj).1
  have hne := hl.number_directory_ne_fresh hn hj
  rw [Ram.pde, Ram.entryAt, word_openDirectory hf n (Entry.directorySlot_mod hd _),
    Entry.directorySlot_div hd, if_neg hne]
  rfl

/-- Clearing a fresh frame leaves the tables alone. -/
theorem Valid.pte_openDirectory (hl : l.Valid spaces) (hn : l.pool.HasNext)
    (hf : l.ram.HasFrame l.pool.fresh) (n : Nat) (hj : spaces[j]? = some space')
    (hp : (l.ram.pde space'.directory vaddr').has .present = true) :
    (l.openDirectory n).ram.pte space'.directory vaddr' = l.ram.pte space'.directory vaddr' := by
  have ha := Entry.aligned_frame (l.ram.pde space'.directory vaddr')
  have hne := hl.number_table_ne_fresh hn hj hp
  rw [Ram.pte, hl.pde_openDirectory hn hf n hj, Ram.entryAt,
    word_openDirectory hf n (Entry.tableSlot_mod ha _), Entry.tableSlot_div ha, if_neg hne]
  rfl

/-- A new directory is full of zeros. -/
theorem pde_openDirectory_fresh (hf : l.ram.HasFrame l.pool.fresh) (n : Nat) (vaddr : UInt32) :
    (l.openDirectory n).ram.pde l.pool.fresh vaddr = ⟨0⟩ := by
  rw [Ram.pde, Ram.entryAt, word_openDirectory hf n (Entry.directorySlot_mod hf.1 _),
    Entry.directorySlot_div hf.1, if_pos rfl]

/-- A new space maps nothing, whatever bytes its frame held before. -/
theorem frame?_openDirectory_fresh (hf : l.ram.HasFrame l.pool.fresh) (n : Nat) (vaddr : UInt32) :
    (l.openDirectory n).ram.frame? l.pool.fresh vaddr = none := by
  refine Ram.frame?_of_not_present ?_
  rw [pde_openDirectory_fresh hf, Entry.not_present_zero]

/-- What is added takes the next number. -/
theorem getElem?_concat_eq_some {α : Type} {as : List α} {new a : α}
    (h : (as ++ [new])[j]? = some a) : as[j]? = some a ∨ j = as.length ∧ a = new := by
  rcases Nat.lt_trichotomy j as.length with hj | rfl | hj
  · rw [List.getElem?_append_left hj] at h
    exact .inl h
  · rw [List.getElem?_concat_length] at h
    exact .inr ⟨rfl, (Option.some.inj h).symm⟩
  · rw [List.getElem?_eq_none (by rw [List.length_append]; exact hj)] at h
    cases h

theorem Valid.openDirectory (hl : l.Valid spaces) (hn : l.pool.HasNext)
    (hf : l.ram.HasFrame l.pool.fresh) :
    (l.openDirectory spaces.length).Valid (spaces ++ [⟨l.pool.fresh⟩]) where
  -- each field is asked of the spaces that were there, and of the new one
  sound := hl.sound.advance
  gave := (hl.grant hn (.directory spaces.length)).gave
  directory j space hj := by
    rw [use_openDirectory]
    rcases getElem?_concat_eq_some hj with hj | ⟨rfl, rfl⟩
    · exact hl.use_grant hn (hl.directory j space hj)
    · exact use_grant_self _ _
  hasDirectory j space hj := by
    rcases getElem?_concat_eq_some hj with hj | ⟨rfl, rfl⟩
    · exact (hl.hasDirectory j space hj).of_size (size_openDirectory _ _)
    · exact hf.of_size (size_openDirectory _ _)
  table j space vaddr hj hp := by
    rcases getElem?_concat_eq_some hj with hj | ⟨rfl, rfl⟩
    · rw [hl.pde_openDirectory hn hf _ hj] at hp ⊢
      rw [use_openDirectory]
      exact hl.use_grant hn (hl.table j space vaddr hj hp)
    · rw [pde_openDirectory_fresh hf, Entry.not_present_zero] at hp
      cases hp
  hasTable j space vaddr hj hp := by
    rcases getElem?_concat_eq_some hj with hj | ⟨rfl, rfl⟩
    · rw [hl.pde_openDirectory hn hf _ hj] at hp ⊢
      exact (hl.hasTable j space vaddr hj hp).of_size (size_openDirectory _ _)
    · rw [pde_openDirectory_fresh hf, Entry.not_present_zero] at hp
      cases hp

/-- What holds for the spaces with one more holds for those before. -/
theorem Valid.of_concat {new : AddressSpace} (hl : l.Valid (spaces ++ [new])) : l.Valid spaces := by
  have h : ∀ {j : Nat} {space : AddressSpace}, spaces[j]? = some space →
      (spaces ++ [new])[j]? = some space := fun hj => by
    rw [List.getElem?_append_left (List.getElem?_eq_some_iff.1 hj).1, hj]
  exact ⟨hl.sound, hl.gave, fun j space hj => hl.directory j space (h hj),
    fun j space hj => hl.hasDirectory j space (h hj),
    fun j space vaddr hj => hl.table j space vaddr (h hj),
    fun j space vaddr hj => hl.hasTable j space vaddr (h hj)⟩

/-- To the spaces that were there before, a new one is like work that touches none of their
pages. -/
theorem Valid.evolves_openDirectory (hl : l.Valid spaces) (hn : l.pool.HasNext)
    (hf : l.ram.HasFrame l.pool.fresh) :
    Evolves spaces i touched l (l.openDirectory spaces.length) where
  valid := (hl.openDirectory hn hf).of_concat
  size := size_openDirectory _ _
  use n u hu := by
    rw [use_openDirectory]
    exact hl.use_grant hn hu
  gave n hg := by
    rw [pool_openDirectory]
    exact hg.advance
  fresh n u hu hu' := by
    have h : Evolves spaces i touched l (l.grant (.directory spaces.length)) :=
      hl.evolves_grant hn _
    rw [use_openDirectory] at hu'
    exact h.fresh n u hu hu'
  table j space' vaddr' hj _ := hl.pde_openDirectory hn hf _ hj vaddr'
  frame j space' vaddr' hj _ := Ram.frame?_of_entries (hl.pde_openDirectory hn hf _ hj vaddr')
    (hl.pte_openDirectory hn hf _ hj)
  byte b hg _ := by
    have hne : b / 4096 ≠ Page.number l.pool.fresh := by
      intro h
      rw [pool_openDirectory, h] at hg
      exact hl.sound.not_gave_fresh hn (hg (Pool.gave_advance_iff.2 (.inl rfl)))
    rw [Layout.openDirectory, Ram.byte_clear_of_ne hf hne]

end Layout

end PagedMemory
