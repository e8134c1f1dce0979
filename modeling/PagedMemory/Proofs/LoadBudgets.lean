import PagedMemory.Proofs.LoadedImages

/-!
# What a load costs

A file of a RAM disk is loaded exactly when the pool has a frame for each of its pages, and one for
each table that the space lacks there. No other frame is taken. Whatever comes of the load, it
writes only to the frames that it takes and to the entries of the pages that it loads, and so no
other page is noticed.

- `Ram.InEntry`: the bytes of the entries of a page;
- `loadBudget_meets`: a load takes what its pages cost, or the pool is short of that;
- `load_budget`: all this in memory that any calls led to.
-/

namespace PagedMemory

/-- The byte `b` belongs to an entry of the page of `vaddr`: to the one in the directory, or to the
one in the table that the directory names. -/
def Ram.InEntry (ram : Ram) (directory vaddr : UInt32) (b : Nat) : Prop :=
  b / 4 = (Entry.directorySlot directory vaddr).toNat / 4 ∨
    ((ram.pde directory vaddr).has .present = true ∧
      b / 4 = (Entry.tableSlot (ram.pde directory vaddr).frame vaddr).toNat / 4)

namespace Layout

variable {spaces : List AddressSpace} {l l' : Layout} {i : Nat} {space : AddressSpace}
  {touched : Nat → Prop}

/-- Only frames that were handed out meanwhile and the entries of touched pages are written. -/
theorem Evolves.byte_of_not_inEntry (h : Evolves spaces i touched l l')
    (hi : spaces[i]? = some space) {b : Nat}
    (hg : ¬ (l'.pool.Gave (b / 4096) ∧ ¬ l.pool.Gave (b / 4096)))
    (hb : ∀ vaddr, touched (Page.number vaddr) → ¬ l'.ram.InEntry space.directory vaddr b) :
    l'.ram.byte b = l.ram.byte b := by
  refine h.byte b (fun hgave => by_contra fun hn => hg ⟨hgave, hn⟩) ?_
  intro space' vaddr hi' hv
  obtain rfl := Option.some.inj (hi.symm.trans hi')
  have hout := hb vaddr hv
  exact ⟨fun h => hout (.inl h), fun hp h => hout (.inr ⟨hp, h⟩)⟩

end Layout

namespace Loader

open Layout

variable {φ : Type} [FileStore φ] {P : φ → Prop} {spaces : List AddressSpace} {l l' : Layout}
  {i n : Nat} {space : AddressSpace} {loader : Loader} {name : String} {data : Array UInt8}

/-- The pages of an image as a range of addresses. -/
theorem covers_number_iff (ha : Page.Aligned loader.base) {a : UInt32} :
    loader.Covers n (Page.number a) ↔
      loader.base.toNat ≤ a.toNat ∧ a.toNat < loader.base.toNat + 4096 * n := by
  have ha := Page.aligned_iff.1 ha
  rw [Covers, Page.number, Page.number]
  omega

/-- With a store that does not fail and a range that fits, only the pool can stop a load. -/
theorem Stopped.short {c : FileContract φ P name} {e : Error} {s : Ram × Pool}
    (h : Stopped c loader spaces i space l e s) (hreliable : c.reliable)
    (ha : Page.Aligned loader.base) (hlimit : l.pool.limit ≤ l.ram.size) {size : Nat}
    (hsize : ∀ n, c.size n → n = size)
    (hfits : loader.base.toNat + Page.roundUp size ≤ UInt32.size) :
    l.Short space.directory (loader.addresses (Page.count size)) (Page.count size) e := by
  cases h with
  | early hn =>
    obtain ⟨size', hsize', hb⟩ := hn hreliable
    rw [hsize size' hsize'] at hb
    exact absurd hfits hb
  | midway hsize' _ hk _ _ hshort =>
    rw [hsize _ hsize'] at hk
    exact (hshort hreliable ha hlimit).mono (addresses_subset hk) hk
  | closing _ _ _ hn => exact absurd hreliable hn

/-- A load takes what its pages cost, or the pool is short of that. -/
theorem loadBudget_meets (hl : l.Valid spaces) (hi : spaces[i]? = some space)
    (ha : Page.Aligned loader.base) (hlimit : l.pool.limit ≤ l.ram.size)
    (hfits : loader.base.toNat + Page.roundUp data.size ≤ UInt32.size) :
    Op.Meets (fun s : Ramdisk × Ram × Pool => s.1.contents? name = some data ∧ s.2 = l.state)
      (loader.load space name)
      (fun _ s => ∃ l', s.2 = l'.state ∧
        Evolves spaces i (loader.Covers (Page.count data.size)) l l' ∧
        l.Takes space.directory (loader.addresses (Page.count data.size)) (Page.count data.size) l')
      (fun e s => l.Short space.directory (loader.addresses (Page.count data.size))
          (Page.count data.size) e ∧
        ∃ l', s.2 = l'.state ∧ Evolves spaces i (loader.Covers (Page.count data.size)) l l') := by
  have hcovers : ∀ n, MayCover (Ramdisk.contract name data) loader n →
      loader.Covers (Page.count data.size) n := by
    rintro n ⟨_, rfl, hn⟩
    exact hn
  refine (load_inPlace (Ramdisk.contract name data) hl hi).weaken (fun _ h => h) ?_ ?_
  · rintro image s ⟨l', hs, hplaced, hloaded⟩
    obtain hsize : image.size = data.size := hloaded.size
    rw [hsize] at hplaced
    exact ⟨l', hs, hplaced.toEvolves, hplaced.takes⟩
  · rintro e s hstopped
    obtain ⟨-, l', hs, hloads⟩ := hstopped.partlyLoaded hl hi
    exact ⟨hstopped.short trivial ha hlimit (fun _ h => h) hfits, l', hs,
      hloads.toEvolves.mono hcovers⟩

/-- Pages outside an image do not notice that it is loaded, nor do the pages of other spaces. -/
theorem lookup_of_covers (hl : l.Valid spaces) (ha : Page.Aligned loader.base)
    (hev : Evolves spaces i (loader.Covers n) l l') {j : Nat} {other : AddressSpace} {a : UInt32}
    (hj : spaces[j]? = some other) (hout : j = i →
      ¬ (loader.base.toNat ≤ a.toNat ∧ a.toNat < loader.base.toNat + 4096 * n)) :
    other.lookup l'.ram a = other.lookup l.ram a :=
  hev.lookup hl hj fun hji hc => hout hji ((covers_number_iff ha).1 hc)

/-- Bytes outside the frames that were handed out meanwhile and the entries of the pages of an image
do not change when it is loaded. -/
theorem byte_of_covers (hi : spaces[i]? = some space) (ha : Page.Aligned loader.base)
    (hev : Evolves spaces i (loader.Covers n) l l') {b : Nat}
    (hg : ¬ (l'.pool.Gave (b / 4096) ∧ ¬ l.pool.Gave (b / 4096)))
    (hb : ∀ a : UInt32, loader.base.toNat ≤ a.toNat → a.toNat < loader.base.toNat + 4096 * n →
      ¬ l'.ram.InEntry space.directory a b) : l'.ram.byte b = l.ram.byte b :=
  hev.byte_of_not_inEntry hi hg fun a hc =>
    hb a ((covers_number_iff ha).1 hc).1 ((covers_number_iff ha).1 hc).2

/-- With `n` pages in the file and `t` slots that name no table where the image goes, a load needs
`n + t` frames. It succeeds exactly when they are left, and then takes them and no more; else the
pool runs out. In either case no page outside the image is noticed, in this space or in another, and
no byte changes but in frames that were handed out meanwhile and in the entries of the pages of the
image. -/
theorem load_budget {m : Memory} (hm : m.Reached) (hlimit : m.pool.limit ≤ m.ram.size)
    (hi : m.spaces[i]? = some space) {base : UInt32} (hbase : withBase base = .ok loader)
    {disk disk' : Ramdisk} (hdata : disk.contents? name = some data) {n t : Nat}
    (hn : n = Page.count data.size) (hfits : base.toNat + 4096 * n ≤ 2 ^ 32)
    (ht : t = (m.ram.missing space.directory (loader.addresses n)).card)
    {result : Except Error Image} {ram' : Ram} {pool' : Pool} {es : List Event}
    (hload : (loader.load space name).run (disk, m.ram, m.pool) =
      ⟨result, (disk', ram', pool'), es⟩) :
    ((∃ image, result = .ok image) ↔ n + t ≤ m.pool.remaining) ∧
    (m.pool.remaining < n + t → ∃ next limit, result = .error (.outOfFrames next limit)) ∧
    (n + t ≤ m.pool.remaining → pool' = m.pool.after (n + t)) ∧
    (∀ (j : Nat) (other : AddressSpace) (a : UInt32), m.spaces[j]? = some other →
      (j = i → ¬ (base.toNat ≤ a.toNat ∧ a.toNat < base.toNat + 4096 * n)) →
        other.lookup ram' a = other.lookup m.ram a) ∧
    ∀ b, ¬ (pool'.Gave (b / 4096) ∧ ¬ m.pool.Gave (b / 4096)) →
      (∀ a : UInt32, base.toNat ≤ a.toNat → a.toNat < base.toNat + 4096 * n →
        ¬ ram'.InEntry space.directory a b) → ram'.byte b = m.ram.byte b := by
  obtain ⟨haligned, rfl⟩ := withBase_eq_ok_iff.1 hbase
  obtain ⟨l, spaces, rfl, hl⟩ := hm.orderly
  have hi : spaces[i]? = some space := hi
  subst hn ht
  have hround : base.toNat + Page.roundUp data.size ≤ UInt32.size := by
    rwa [Page.roundUp, Nat.mul_comm]
  have hcontract : Op.Meets _ (load ⟨base⟩ space name) _ _ :=
    loadBudget_meets hl hi haligned hlimit hround
  have hmeets := hcontract (disk, l.state) ⟨hdata, rfl⟩
  rw [show (load ⟨base⟩ space name).run (disk, l.state) = _ from hload] at hmeets
  cases result with
  | ok image =>
    obtain ⟨l', hs, hev, htakes⟩ := hmeets
    obtain ⟨rfl, rfl⟩ := Prod.mk.inj hs
    refine ⟨⟨fun _ => htakes.paid, fun _ => ⟨image, rfl⟩⟩, ?_, fun _ => htakes.pool,
      fun _ _ _ => lookup_of_covers hl haligned hev, fun _ => byte_of_covers hi haligned hev⟩
    exact fun hlt => absurd htakes.paid (Nat.not_le.2 hlt)
  | error e =>
    obtain ⟨⟨⟨next, limit, rfl⟩, hlt⟩, l', hs, hev⟩ := hmeets
    obtain ⟨rfl, rfl⟩ := Prod.mk.inj hs
    have hle := Nat.not_le.2 hlt
    refine ⟨⟨?_, fun h => absurd h hle⟩, fun _ => ⟨next, limit, rfl⟩, fun h => absurd h hle,
      fun _ _ _ => lookup_of_covers hl haligned hev, fun _ => byte_of_covers hi haligned hev⟩
    rintro ⟨image, hok⟩
    cases hok

/-- A file of three bytes has one page, and its load into an empty space finds the frames for it. -/
theorem load_budget_threeBytes : ∃ (m : Memory) (space : AddressSpace), m.Reached ∧
    m.pool.limit ≤ m.ram.size ∧ m.spaces[0]? = some space ∧
    (∃ image, ((standard.load space "init").run (smallDisk, m.ram, m.pool)).result = .ok image) ∧
    1 + (m.ram.missing space.directory [0x08048000]).card ≤ m.pool.remaining := by
  obtain ⟨zero, hzero⟩ : ∃ zero, Ram.zeroed 65536 = .ok zero := ⟨_, rfl⟩
  let range : Range := ⟨0, 65536⟩
  have hroom : (Layout.start zero range).Roomy 3 :=
    roomy_start (by rw [Ram.size_of_zeroed hzero]; decide) (by decide)
  obtain ⟨l, space, hstate, hl, hroom⟩ := Memory.create_of_roomy (valid_start zero range) hroom
  have hreached := (Memory.reached_start zero range).perform (.edit .create)
  rw [Call.perform, Edit.perform, ← memory_start, hstate] at hreached
  obtain ⟨image, ⟨disk, ram, pool⟩, es, hload, -⟩ := load_of_enough _ hl (i := 0) rfl
    (enough_smallDisk hroom) contents?_smallDisk
  obtain ⟨hiff, -⟩ := load_budget hreached hroom.1 (i := 0) rfl
    (show withBase 0x08048000 = .ok standard from rfl) contents?_smallDisk (n := 1) (by decide)
    (by decide) rfl hload
  have hload : (standard.load space "init").run (smallDisk, l.ram, l.pool) = _ := hload
  refine ⟨l.memory [space], space, hreached, hroom.1, rfl, ⟨image, ?_⟩, hiff.1 ⟨image, rfl⟩⟩
  rw [show (l.memory [space]).ram = l.ram from rfl, show (l.memory [space]).pool = l.pool from rfl,
    hload]

end Loader

end PagedMemory
