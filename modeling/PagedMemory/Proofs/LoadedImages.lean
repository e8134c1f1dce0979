import PagedMemory.Proofs.Calls
import PagedMemory.Proofs.RamdiskContract
import PagedMemory.Proofs.SpacePages

/-!
# Images in memory

A load that succeeds has put the file into memory as it is, with zeros up to the end of the last
page, whatever was in memory before. A guest under the registers of the space reads it back.

- `Placed.nodup`, `Placed.lookup`: each page of the image has a frame of its own, and leads there;
- `Placed.byte`: the frames hold the bytes of the file;
- `load_exact`: all this after a load, in memory that any calls led to.
-/

namespace PagedMemory

namespace Loader

open Layout

variable {φ : Type} [FileStore φ] {P : φ → Prop} {name : String} {c : FileContract φ P name}
  {spaces : List AddressSpace} {l : Layout} {i : Nat} {space : AddressSpace} {loader : Loader}
  {pages : List PageMapping} {page : PageMapping} {data : Array UInt8} {k : Nat}

/-- No two pages share a frame: each was taken for its own page. -/
theorem Placed.nodup (h : Placed c loader i space pages l)
    (hb : loader.base.toNat + pages.length * Page.size ≤ UInt32.size) :
    (pages.map (·.frame)).Nodup := by
  rw [List.Nodup, List.pairwise_map, List.pairwise_iff_getElem]
  intro a b ha hb' hab hsame
  obtain ⟨hva, _, -, hholds⟩ := h a _ (List.getElem?_eq_getElem ha)
  obtain ⟨hvb, _, -, hholds'⟩ := h b _ (List.getElem?_eq_getElem hb')
  have hu := hholds.use
  rw [hsame, hholds'.use, hva, hvb, number_page hb ha, number_page hb hb'] at hu
  injection hu with hu
  injection hu with _ hu
  omega

section

variable (h : Placed c loader i space pages l)
  (hb : loader.base.toNat + pages.length * Page.size ≤ UInt32.size)
  (hk : pages[k / 4096]? = some page)

include hb hk

/-- An address in the image, without wrapping. -/
theorem toNat_base_add : (loader.base + UInt32.ofNat k).toNat = loader.base.toNat + k := by
  have hlt : k / 4096 < pages.length := (List.getElem?_eq_some_iff.1 hk).1
  simp only [Page.size, UInt32.size] at hb
  rw [UInt32.toNat_add, UInt32.toNat_ofNat']
  omega

include h

/-- All addresses of a page of the image lead to its frame. -/
theorem Placed.lookup (hbase : Page.Aligned loader.base) (hl : l.Valid spaces)
    (hi : spaces[i]? = some space) :
    space.lookup l.ram (loader.base + UInt32.ofNat k) =
      .ok (some (page.frame + UInt32.ofNat (k % 4096))) := by
  obtain ⟨hv, bytes, -, hholds⟩ := h _ page hk
  have hbase := Page.aligned_iff.1 hbase
  have haddr := toNat_base_add hb hk
  have hpage : Page.number (loader.base + UInt32.ofNat k) = Page.number page.vaddr := by
    rw [hv, number_page hb (List.getElem?_eq_some_iff.1 hk).1, Page.number, haddr, Page.number]
    omega
  rw [hl.lookup_eq hi, Ram.frame?_congr hpage, hholds.mapped]
  have hframe := hholds.hasFrame.1
  have hsum : page.frame ||| Page.offset (loader.base + UInt32.ofNat k) =
      page.frame + UInt32.ofNat (k % 4096) := by
    rw [← UInt32.toNat_inj, hframe.toNat_or_offset, haddr, hframe.toNat_add]
    omega
  rw [Option.map_some, hsum]

end

/-- The frame of a page lies in RAM, and holds the bytes that the file has there. -/
theorem Placed.byte (h : Placed (Ramdisk.contract name data) loader i space pages l)
    (hk : pages[k / 4096]? = some page) :
    l.ram.HasFrame page.frame ∧
      l.ram.byte (page.frame.toNat + k % 4096) = data[k]?.getD 0 := by
  obtain ⟨-, bytes, rfl, hholds⟩ := h _ page hk
  have hlt : k % 4096 < Page.size := Nat.mod_lt _ (by decide)
  refine ⟨hholds.hasFrame, ?_⟩
  have hbyte : (l.ram.slice page.frame.toNat Page.size)[k % 4096]? =
      (padded Page.size (Ramdisk.chunk data (k / 4096)))[k % 4096]? := by rw [hholds.slice]
  rw [Ram.getElem?_slice _ _ hlt, getElem?_padded _ hlt, Ramdisk.getElem?_chunk _ hlt] at hbyte
  rw [Option.some.inj hbyte, Page.size, Nat.div_add_mod]

/-- The word of `len` bytes at `k` in the file with zeros up to the end of its last page. -/
def paddedWord (data : Array UInt8) (k len : Nat) : UInt32 :=
  UInt32.ofNat (Word.ofBytes (((padded (Page.roundUp data.size) data.toList).drop k).take len))

/-- Bytes of one page of the image are bytes of the padded file. -/
theorem Placed.slice (h : Placed (Ramdisk.contract name data) loader i space pages l)
    (hlen : pages.length = Page.count data.size) (hk : pages[k / 4096]? = some page) {len : Nat}
    (hin : k % 4096 + len ≤ 4096) :
    l.ram.slice (page.frame.toNat + k % 4096) len =
      ((padded (Page.roundUp data.size) data.toList).drop k).take len := by
  have hlt : k / 4096 < pages.length := (List.getElem?_eq_some_iff.1 hk).1
  apply List.ext_getElem?
  intro j
  rcases Nat.lt_or_ge j len with hj | hj
  · have hdiv : (k + j) / 4096 = k / 4096 := by omega
    have hmod : (k + j) % 4096 = k % 4096 + j := by omega
    have hround : k + j < Page.roundUp data.size := by
      rw [Page.roundUp, ← hlen, Page.size]
      omega
    have hbyte := (h.byte (k := k + j) (by rw [hdiv]; exact hk)).2
    rw [hmod, ← Nat.add_assoc] at hbyte
    rw [Ram.getElem?_slice _ _ hj, hbyte, List.getElem?_take_of_lt hj, List.getElem?_drop,
      getElem?_padded _ hround, Array.getElem?_toList]
  · rw [List.getElem?_eq_none (by simpa using hj), List.getElem?_take_eq_none hj]

section

variable (h : Placed (Ramdisk.contract name data) loader i space pages l)
  (hb : loader.base.toNat + pages.length * Page.size ≤ UInt32.size)
  (hbase : Page.Aligned loader.base) (hl : l.Valid spaces) (hi : spaces[i]? = some space)

include h hb hbase hl hi

theorem Placed.path (hk : pages[k / 4096]? = some page) :
    l.ram.path (Registers.paged space.cr3).directory (loader.base + UInt32.ofNat k) =
      .ok (page.frame + UInt32.ofNat (k % 4096)) := by
  rw [hl.directory_paged hi]
  exact Ram.lookup_eq_some_iff.1 (h.lookup hb hk hbase hl hi)

/-- A walk to an address of the image leads to a page that was taken for the space. -/
theorem Placed.leads (hk : pages[k / 4096]? = some page) (len : Nat) :
    (GuestCall.read (loader.base + UInt32.ofNat k) len).Leads (l.IsPage i) l.ram
      (.paged space.cr3) := by
  intro p hpath
  obtain ⟨-, _, -, hholds⟩ := h _ page hk
  have hframe := hholds.hasFrame.1
  have hp := (h.path hb hbase hl hi hk).symm.trans hpath
  obtain rfl := Except.ok.inj hp
  refine ⟨Page.number page.vaddr, ?_⟩
  rw [← hholds.use, Page.number, hframe.toNat_add, hframe.toNat_eq]
  congr 1
  omega

/-- A read of the image gets the word of the padded file. Without marks it changes nothing. -/
theorem Placed.run_read {δ : Type} [Device δ] (hlen : pages.length = Page.count data.size)
    {len : Nat} (hwidth : Word.IsWidth len) (hin : k % 4096 + len ≤ 4096)
    (hlt : k < 4096 * pages.length) :
    ∃ es, ((GuestCall.read (loader.base + UInt32.ofNat k) len).perform (.paged space.cr3)).run
        (⟨.ofRam l.ram, .discard⟩ : Machine δ) =
      ⟨.ok (some (paddedWord data k len)), ⟨.ofRam l.ram, .discard⟩, es⟩ := by
  obtain ⟨page, hk⟩ : ∃ page, pages[k / 4096]? = some page :=
    ⟨_, List.getElem?_eq_getElem (by omega)⟩
  obtain ⟨hframe, -⟩ := h.byte hk
  have hp : (page.frame + UInt32.ofNat (k % 4096)).toNat = _ := hframe.1.toNat_add k
  have hwithin : Page.Within (loader.base + UInt32.ofNat k) len := by
    have hbase := Page.aligned_iff.1 hbase
    rw [Page.within_iff, toNat_base_add hb hk]
    omega
  have hfit : l.ram.Fits (page.frame + UInt32.ofNat (k % 4096)) len := by
    have hfits : page.frame.toNat + 4096 ≤ l.ram.size := hframe.fits
    rw [Ram.Fits, hp]
    omega
  rw [paddedWord, ← h.slice hlen hk hin, ← hp]
  exact GuestCall.run_read_discard (hl.tablesIn_paged hi) (Registers.pagingEnabled_paged _)
    (h.path hb hbase hl hi hk) hwithin hwidth hfit

/-- Reads of the image get the words of the padded file, with or without marks. -/
theorem Placed.session {δ : Type} [Device δ] (hlen : pages.length = Page.count data.size)
    (tracking : Tracking) (reads : List (Nat × Nat))
    (hreads : ∀ r ∈ reads, Word.IsWidth r.2 ∧ r.1 % 4096 + r.2 ≤ 4096 ∧ r.1 < 4096 * pages.length) :
    ((GuestCall.session (.paged space.cr3)
      (reads.map fun r => .read (loader.base + UInt32.ofNat r.1) r.2)).run
        (⟨.ofRam l.ram, tracking⟩ : Machine δ)).result =
      .ok (reads.map fun r => .ok (some (paddedWord data r.1 r.2))) := by
  have hpaired : GuestCall.Paired (l.IsTable i) (l.IsPage i) l.ram
      (⟨.ofRam l.ram, .discard⟩ : Machine δ) ⟨.ofRam l.ram, tracking⟩ := paired_ofRam _ _ _ _ _
  -- without marks no read changes anything, so that each can be looked at alone
  obtain ⟨hresult, -⟩ := hpaired.session (fun _ hn => hn.not_isTable) (hl.tablesIn_paged hi)
    (Registers.pagingEnabled_paged _)
    (reads.map fun r => .read (loader.base + UInt32.ofNat r.1) r.2) fun call hcall => by
      obtain ⟨r, hr, rfl⟩ := List.mem_map.1 hcall
      have hlt := (hreads r hr).2.2
      exact h.leads hb hbase hl hi (List.getElem?_eq_getElem (by omega)) _
  rw [hresult]
  refine GuestCall.result_session_of_fixed reads ?_
  intro r hr
  obtain ⟨hwidth, hin, hlt⟩ := hreads r hr
  exact h.run_read hb hbase hl hi hlen hwidth hin hlt

end

theorem withBase_eq_ok_iff {base : UInt32} :
    withBase base = .ok loader ↔ Page.Aligned base ∧ loader = ⟨base⟩ := by
  unfold withBase
  split
  · rename_i ha
    simp [ha, eq_comm]
  · rename_i ha
    simp [ha]

/-- A load that succeeds puts the file into memory as it is, and zeros behind it up to the end of a
page. The image begins at the base and has a frame of its own for each page, to which all addresses
of the page lead; whoever reads it under the registers of the space gets the bytes of the file. -/
theorem load_exact {δ : Type} [Device δ] {m : Memory} (hm : m.Reached)
    (hi : m.spaces[i]? = some space) {base : UInt32} (hbase : withBase base = .ok loader)
    {disk disk' : Ramdisk} (hdata : disk.contents? name = some data) {image : Image} {ram' : Ram}
    {pool' : Pool} {es : List Event} (hload : (loader.load space name).run (disk, m.ram, m.pool) =
      ⟨.ok image, (disk', ram', pool'), es⟩) :
    image.entry = base ∧ image.size = data.size ∧ image.pages.length = Page.count data.size ∧
    (∀ k page, image.pages[k]? = some page → page.vaddr.toNat = base.toNat + 4096 * k) ∧
    (image.pages.map (·.frame)).Nodup ∧
    (∀ k page, image.pages[k / 4096]? = some page →
      (base + UInt32.ofNat k).toNat = base.toNat + k ∧
      space.lookup ram' (base + UInt32.ofNat k) =
        .ok (some (page.frame + UInt32.ofNat (k % 4096))) ∧
      (page.frame + UInt32.ofNat (k % 4096)).toNat = page.frame.toNat + k % 4096 ∧
      page.frame.toNat + k % 4096 < ram'.size ∧
      ram'.byte (page.frame.toNat + k % 4096) = data[k]?.getD 0) ∧
    ∀ (tracking : Tracking) (reads : List (Nat × Nat)),
      (∀ r ∈ reads, Word.IsWidth r.2 ∧ r.1 % 4096 + r.2 ≤ 4096 ∧
        r.1 < 4096 * image.pages.length) →
      ((GuestCall.session (.paged space.cr3)
        (reads.map fun r => .read (base + UInt32.ofNat r.1) r.2)).run
          (⟨.ofRam ram', tracking⟩ : Machine δ)).result =
        .ok (reads.map fun r => .ok (some (paddedWord data r.1 r.2))) := by
  obtain ⟨haligned, rfl⟩ := withBase_eq_ok_iff.1 hbase
  obtain ⟨l, spaces, rfl, hl⟩ := hm.orderly
  have hi : spaces[i]? = some space := hi
  have hcontract : Op.Meets _ (load ⟨base⟩ space name) _ _ :=
    load_meets (Ramdisk.contract name data) hl hi
  have hmeets := hcontract (disk, l.state) ⟨hdata, rfl⟩
  rw [show (load ⟨base⟩ space name).run (disk, l.state) = _ from hload] at hmeets
  obtain ⟨l', hs, hloads, ⟨hentry, hsize, hb, hlen, hplaced⟩, -⟩ := hmeets
  obtain ⟨rfl, rfl⟩ := Prod.mk.inj hs
  have hsize : image.size = data.size := hsize
  rw [Page.roundUp, ← hlen] at hb
  rw [hsize] at hlen
  have hl' := hloads.valid
  refine ⟨hentry, hsize, hlen, ?_, hplaced.nodup hb, ?_, hplaced.session hb haligned hl' hi hlen⟩
  · intro k page hk
    rw [(hplaced k page hk).1]
    exact toNat_page hb (List.getElem?_eq_some_iff.1 hk).1
  · intro k page hk
    obtain ⟨hframe, hbyte⟩ := hplaced.byte hk
    have hfits : page.frame.toNat + 4096 ≤ l'.ram.size := hframe.fits
    exact ⟨toNat_base_add hb hk, hplaced.lookup hb hk haligned hl' hi, hframe.1.toNat_add k,
      by omega, hbyte⟩

/-- A RAM disk with a file of three bytes. -/
def smallDisk : Ramdisk := ⟨[("init", #[1, 2, 3])], .empty⟩

theorem contents?_smallDisk : smallDisk.contents? "init" = some #[1, 2, 3] := by
  simp [smallDisk, Ramdisk.contents?]

/-- Two frames are enough for it. -/
theorem enough_smallDisk (hroom : l.Roomy 2) :
    Enough (Ramdisk.contract "init" #[1, 2, 3]) standard l := by
  refine ⟨trivial, by decide, ?_⟩
  rintro _ rfl
  exact ⟨by decide, hroom⟩

/-- Once it is loaded, its first address leads somewhere. -/
theorem lookup_smallDisk
    (h : Placed (Ramdisk.contract "init" #[1, 2, 3]) standard i space pages l)
    (hlen : pages.length = 1) (hl : l.Valid spaces) (hi : spaces[i]? = some space) :
    ∃ p, space.lookup l.ram 0x08048000 = .ok (some p) := by
  obtain ⟨page, hk⟩ : ∃ page, pages[0 / 4096]? = some page :=
    ⟨_, List.getElem?_eq_getElem (by omega)⟩
  have hb : standard.base.toNat + pages.length * Page.size ≤ UInt32.size := by
    rw [hlen]
    decide
  have hfirst : standard.base + UInt32.ofNat 0 = 0x08048000 := by decide
  have hlookup := h.lookup hb hk (by decide) hl hi
  rw [hfirst] at hlookup
  exact ⟨_, hlookup⟩

/-- A file of three bytes, loaded into the first space of an empty memory. -/
theorem load_exact_threeBytes : ∃ (m : Memory) (space : AddressSpace) (image : Image)
    (disk : Ramdisk) (ram : Ram) (pool : Pool) (es : List Event),
      m.Reached ∧ m.spaces[0]? = some space ∧
      (standard.load space "init").run (smallDisk, m.ram, m.pool) =
        ⟨.ok image, (disk, ram, pool), es⟩ ∧
      image.pages.length = 1 ∧
      ((GuestCall.session (.paged space.cr3) [.read 0x08048000 4]).run
        (⟨.ofRam ram, .writeBack⟩ : Machine RegisterDevice)).result =
          .ok [.ok (some 0x00030201)] := by
  obtain ⟨zero, hzero⟩ : ∃ zero, Ram.zeroed 65536 = .ok zero := ⟨_, rfl⟩
  let range : Range := ⟨0, 65536⟩
  have hroom : (Layout.start zero range).Roomy 3 :=
    roomy_start (by rw [Ram.size_of_zeroed hzero]; decide) (by decide)
  obtain ⟨l, space, hstate, hl, hroom⟩ := Memory.create_of_roomy (valid_start zero range) hroom
  have hreached := (Memory.reached_start zero range).perform (.edit .create)
  rw [Call.perform, Edit.perform, ← memory_start, hstate] at hreached
  obtain ⟨image, ⟨disk, ram, pool⟩, es, hload, -⟩ := load_of_enough _ hl (i := 0) rfl
    (enough_smallDisk hroom) contents?_smallDisk
  obtain ⟨-, -, hlen, -, -, -, hread⟩ := load_exact (δ := RegisterDevice) hreached (i := 0) rfl
    (show withBase 0x08048000 = .ok standard from rfl) contents?_smallDisk hload
  have hlen : image.pages.length = 1 := hlen
  refine ⟨l.memory [space], space, image, disk, ram, pool, es, hreached, rfl, hload, hlen, ?_⟩
  refine (hread .writeBack [(0, 4)] ?_).trans ?_
  · intro r hr
    obtain rfl := List.mem_singleton.1 hr
    rw [hlen]
    decide
  · rw [List.map_singleton, show paddedWord #[1, 2, 3] 0 4 = 0x00030201 by decide]

end Loader

end PagedMemory
