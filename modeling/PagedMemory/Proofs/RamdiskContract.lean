import PagedMemory.Files.Ramdisk
import PagedMemory.Proofs.LoadContracts

/-!
# Files of a RAM disk, page by page

A file of a RAM disk is opened, read a page at a time, and closed, and none of this fails. The reads
deliver the contents from the beginning to the end without a gap; past the end they deliver nothing.

- `Ramdisk.chunk`: the bytes of one page;
- `DescriptorTable.read_meets`: the next page of whatever contents are open;
- `Ramdisk.contract`: what the RAM disk promises about a file.
-/

namespace PagedMemory

namespace DescriptorTable

variable {κ : Type} {table : DescriptorTable κ} {fd : Nat} {f : OpenFile κ}

theorem find_of_get? (h : table.get? fd = some f) : table.find fd = .ok f := by
  rw [find, h]

theorem find_of_none (h : table.get? fd = none) : table.find fd = .error (.badDescriptor fd) := by
  rw [find, h]

/-- The table with the offset of `fd` moved on. -/
def moveOn (table : DescriptorTable κ) (fd n : Nat) : DescriptorTable κ :=
  ⟨table.slots.modify fd (Option.map fun f => { f with offset := f.offset + n })⟩

theorem get?_moveOn (h : table.get? fd = some f) (n : Nat) :
    (table.moveOn fd n).get? fd = some { f with offset := f.offset + n } := by
  have hslot : table.slots[fd]? = some (some f) := Option.join_eq_some_iff.1 h
  simp [get?, moveOn, hslot]

/-- A read delivers what is left of the file, and moves the offset behind it. -/
theorem run_read (contents : κ → Array UInt8) (h : table.get? fd = some f) (len : Nat) :
    (read contents fd len).run table =
      let bytes := ((contents f.file).extract f.offset (f.offset + len)).toList
      ⟨.ok bytes, table.moveOn fd bytes.length, []⟩ := by
  rw [read, Op.run_bind, Op.run_query, find_of_get? h, Outcome.andThen_ok, Outcome.after_nil,
    ← OpenFile.next_eq_extract]
  rfl

/-- Under a number that is free there is nothing to read. -/
theorem run_read_of_none (contents : κ → Array UInt8) (h : table.get? fd = none) (len : Nat) :
    (read contents fd len).run table = ⟨.error (.badDescriptor fd), table, []⟩ := by
  rw [read, Op.run_bind, Op.run_query, find_of_none h]
  rfl

/-- A file is opened with its beginning in front of it. -/
theorem run_insert (file : κ) (table : DescriptorTable κ) :
    ∃ fd table', (insert file).run table = ⟨.ok fd, table', []⟩ ∧ table'.get? fd = some ⟨file, 0⟩ :=
  ⟨_, _, rfl, (place_snd file table.slots _).trans (if_pos rfl)⟩

theorem run_close (h : table.get? fd = some f) :
    (close fd).run table = ⟨.ok (), ⟨table.slots.set fd none⟩, []⟩ := by
  refine Op.run_amend_ok ?_ _
  rw [find_of_get? h]
  rfl

theorem run_close_of_none (h : table.get? fd = none) :
    (close fd).run table = ⟨.error (.badDescriptor fd), table, []⟩ := by
  refine Op.run_amend_error ?_ _
  rw [find_of_none h]
  rfl

end DescriptorTable

namespace Ramdisk

/-- The bytes of the page `k` of a file. -/
def chunk (data : Array UInt8) (k : Nat) : List UInt8 :=
  (data.extract (Page.size * k) (Page.size * (k + 1))).toList

theorem getElem?_chunk (data : Array UInt8) {k j : Nat} (hj : j < Page.size) :
    (chunk data k)[j]? = data[Page.size * k + j]? := by
  rw [chunk, Array.getElem?_toList, Array.getElem?_extract]
  split
  · rfl
  · rename_i h
    rw [Nat.mul_succ] at h
    rw [Array.getElem?_eq_none (by omega)]

/-- How many bytes come before the page `k`. -/
def offset (data : Array UInt8) (k : Nat) : Nat := min (Page.size * k) data.size

theorem extract_offset (data : Array UInt8) (k : Nat) :
    (data.extract (offset data k) (offset data k + Page.size)).toList = chunk data k := by
  rw [chunk, Nat.mul_succ, offset]
  rcases Nat.le_total (Page.size * k) data.size with h | h
  · rw [Nat.min_eq_left h]
  · rw [Nat.min_eq_right h, Array.extract_eq_empty_of_le (by omega),
      Array.extract_eq_empty_of_le (by omega)]

/-- The pages follow each other without a gap. -/
theorem offset_succ (data : Array UInt8) (k : Nat) :
    offset data k + (chunk data k).length = offset data (k + 1) := by
  rw [chunk, Array.length_toList, Array.size_extract, offset, offset, Nat.mul_succ]
  omega

end Ramdisk

/-! ## Open files as contracts -/

namespace DescriptorTable

variable {κ : Type} {data : Array UInt8}

/-- The file is open with `k` pages of its contents behind the offset. -/
def Reading (file : κ) (data : Array UInt8) (fd k : Nat) (table : DescriptorTable κ) : Prop :=
  table.get? fd = some ⟨file, Ramdisk.offset data k⟩

theorem insert_meets (file : κ) (data : Array UInt8) :
    Op.Meets (fun _ => True) (insert file) (fun fd => Reading file data fd 0)
      (fun _ _ => False) := by
  intro table _
  obtain ⟨fd, table', hrun, hget⟩ := run_insert file table
  have hzero : Ramdisk.offset data 0 = 0 := Nat.zero_min _
  rw [hrun]
  show table'.get? fd = _
  rw [hget, hzero]

/-- A read of one page delivers that page, and the next read the next one. -/
theorem read_meets {contents : κ → Array UInt8} {file : κ} (hdata : contents file = data)
    (fd k : Nat) :
    Op.Meets (Reading file data fd k) (read contents fd Page.size)
      (fun bytes table => bytes = Ramdisk.chunk data k ∧ Reading file data fd (k + 1) table)
      (fun _ _ => False) := by
  intro table h
  have hread : (read contents fd Page.size).run table =
      ⟨.ok (Ramdisk.chunk data k), table.moveOn fd (Ramdisk.chunk data k).length, []⟩ := by
    rw [run_read contents h, hdata, Ramdisk.extract_offset]
  rw [hread]
  refine ⟨rfl, ?_⟩
  rw [Reading, ← Ramdisk.offset_succ]
  exact get?_moveOn h _

theorem close_meets (file : κ) (data : Array UInt8) (fd k : Nat) :
    Op.Meets (Reading file data fd k) (close fd) (fun _ _ => True) (fun _ _ => False) := by
  intro table h
  rw [run_close h]
  trivial

end DescriptorTable

/-! ## The RAM disk -/

namespace Ramdisk

/-- The file has its contents, and is open with `k` pages of it behind the offset. -/
def Reading (name : String) (data : Array UInt8) (fd k : Nat) (disk : Ramdisk) : Prop :=
  disk.contents? name = some data ∧ disk.opened.Reading name data fd k

variable {name : String} {data : Array UInt8} {fd k : Nat} {disk : Ramdisk}

theorem Reading.contents (h : Reading name data fd k disk) : disk.contents name = data := by
  rw [Ramdisk.contents, h.1]
  rfl

theorem openName_meets (name : String) (data : Array UInt8) :
    Op.Meets (fun disk : Ramdisk => disk.contents? name = some data) (FileStore.openName name)
      (fun fd => Reading name data fd 0) (fun _ _ => False) := by
  refine Op.Meets.of_states fun disk hdisk => ?_
  have hask : (Op.ask (·.contents? name)).run disk = ⟨.ok (some data), disk, []⟩ := by
    rw [Op.run_ask, hdisk]
  refine Op.Meets.step hask (Op.Meets.within ?_)
  rintro _ rfl
  exact (DescriptorTable.insert_meets name data).weaken (fun _ _ => trivial)
    (fun _ _ hopen => ⟨hdisk, hopen⟩) fun _ _ => False.elim

/-- Only a file that is there is opened. -/
theorem contents_of_openName
    (h : ((FileStore.openName name : Op Ramdisk Nat).run disk).result = .ok fd) :
    ∃ data, disk.contents? name = some data := by
  cases hdata : disk.contents? name with
  | some data => exact ⟨data, rfl⟩
  | none =>
    have hrun : (FileStore.openName name : Op Ramdisk Nat).run disk =
        ⟨.error (.fileNotFound name), disk, []⟩ := by
      show Op.run (.ask (·.contents? name) >>= _) disk = _
      rw [Op.run_bind, Op.run_ask, hdata, Outcome.andThen_ok, Outcome.after_nil]
      rfl
    rw [hrun] at h
    cases h

theorem sizeAt_meets (fd : Nat) :
    Op.Meets (Reading name data fd 0) (FileStore.sizeAt fd)
      (fun n disk => n = data.size ∧ Reading name data fd 0 disk) (fun _ _ => False) := by
  intro disk hdisk
  have hsize : (FileStore.sizeAt fd : Op Ramdisk Nat).run disk = ⟨.ok data.size, disk, []⟩ := by
    show (⟨(disk.opened.find fd).map fun f => (disk.contents f.file).size, disk, []⟩ :
      Outcome Ramdisk Nat) = _
    rw [DescriptorTable.find_of_get? hdisk.2]
    show (⟨.ok (disk.contents name).size, disk, []⟩ : Outcome Ramdisk Nat) = _
    rw [hdisk.contents]
  rw [hsize]
  exact ⟨rfl, hdisk⟩

theorem readAt_meets (fd k : Nat) :
    Op.Meets (Reading name data fd k) (FileStore.readAt fd Page.size)
      (fun bytes disk => bytes = chunk data k ∧ Reading name data fd (k + 1) disk)
      (fun _ _ => False) := by
  refine Op.Meets.of_states fun disk hdisk => ?_
  refine Op.Meets.step (Op.run_ask Ramdisk.contents disk) (Op.Meets.within ?_)
  rintro _ rfl
  refine (DescriptorTable.read_meets hdisk.contents fd k).weaken ?_ ?_ fun _ _ => False.elim
  · rintro _ rfl
    exact hdisk.2
  · rintro bytes opened ⟨hbytes, hopen⟩
    exact ⟨hbytes, hdisk.1, hopen⟩

theorem closeAt_meets (fd k : Nat) :
    Op.Meets (Reading name data fd k) (FileStore.closeAt fd) (fun _ _ => True)
      (fun _ _ => False) := by
  show Op.Meets _ (onOpened (DescriptorTable.close fd)) _ _
  refine Op.Meets.within fun disk hdisk => ?_
  refine (DescriptorTable.close_meets name data fd k).onStart ?_
  rintro _ rfl
  exact hdisk.2

/-- What the RAM disk promises about a file: all calls succeed, and tell the truth. -/
def contract (name : String) (data : Array UInt8) :
    FileContract Ramdisk (fun disk => disk.contents? name = some data) name where
  reliable := True
  reading := Reading name data
  size n := n = data.size
  chunk k bytes := bytes = chunk data k
  openName := (openName_meets name data).onError fun _ _ => False.elim
  sizeAt fd := (sizeAt_meets fd).onError fun _ _ => False.elim
  readAt fd k := (readAt_meets fd k).onError fun _ _ => False.elim
  closeAt fd k := (closeAt_meets fd k).onError fun _ _ => False.elim

end Ramdisk

end PagedMemory
