import Mathlib.Data.Set.Card
import PagedMemory.Proofs.Calls

/-!
# Ranges mapped to themselves

A range touches the pages that hold one of its addresses. Mapping it to itself maps these pages, in
ascending order, and no others; the ends of the range may lie anywhere in a page, and an empty range
touches no page at all, not even that of its base.

- `Range.Touches`: the addresses on the pages of a range, and `Range.newTables`: the slots of a
  directory for which these pages need a table;
- `getElem?_identityPages`: the pages that are mapped are the touched ones, each in its turn;
- `mapIdentity_exact`: what comes of mapping a range to itself, in memory that any calls led to.
-/

namespace PagedMemory

namespace Range

/-- The page of `a` holds an address of the range. -/
def Touches (range : Range) (a : UInt32) : Prop := ∃ b ∈ range, Page.base b = Page.base a

/-- The page of `a` is one of the first `k` pages of the range. -/
def TouchesEarly (range : Range) (k : Nat) (a : UInt32) : Prop :=
  range.Touches a ∧ Page.number a < Page.number range.base + k

/-- The slots of the directory that have a share in the pages of the range, and name no table. -/
def newTables (range : Range) (ram : Ram) (directory : UInt32) : Set UInt32 :=
  {slot | ∃ a, range.Touches a ∧ Page.directoryIndex a = slot ∧
    (ram.pde directory a).has .present = false}

variable {range : Range} {a b page : UInt32}

theorem touches_congr (h : Page.base a = Page.base b) : range.Touches a ↔ range.Touches b := by
  rw [Touches, Touches, h]

/-- The touched pages are those from that of the base up to the stop. -/
theorem touches_iff : range.Touches a ↔ range.size ≠ 0 ∧
    Page.number range.base ≤ Page.number a ∧ 4096 * Page.number a < range.stop := by
  have hsize : range.size ≠ 0 ↔ 0 < range.size.toNat := by
    rw [Nat.pos_iff_ne_zero, ne_eq, ne_eq, ← UInt32.toNat_inj, UInt32.toNat_zero]
  rw [hsize]
  constructor
  · rintro ⟨b, hb, hpage⟩
    obtain ⟨hbase, hstop⟩ := mem_iff.1 hb
    have hpage := Page.base_eq_base_iff_number.1 hpage
    simp only [Page.number, Range.stop] at hpage hstop ⊢
    omega
  · rintro ⟨hsize, hbase, hstop⟩
    simp only [Page.number, Range.stop] at hbase hstop
    -- the page of the base holds the base, and every other page begins in the range
    by_cases hfirst : Page.number range.base = Page.number a
    · refine ⟨range.base, mem_iff.2 ⟨Nat.le_refl _, ?_⟩, Page.base_eq_base_iff_number.2 hfirst⟩
      exact Nat.lt_add_of_pos_right hsize
    · simp only [Page.number] at hfirst
      refine ⟨Page.base a, mem_iff.2 ?_, Page.base_base a⟩
      simp only [Page.toNat_base, Range.stop]
      omega

end Range

namespace AddressSpace

open Layout

variable {spaces : List AddressSpace} {l l' : Layout} {i k : Nat} {space : AddressSpace}
  {range : Range} {a page : UInt32} {done rest : List UInt32}

/-! ## The pages of a range -/

/-- The pages that are mapped follow upon each other from that of the base on, as long as they begin
before the stop. Those beyond the top of the address space are counted from its bottom again. -/
theorem getElem?_identityPages_mod : (identityPages range)[k]? = some page ↔ range.size ≠ 0 ∧
    4096 * (Page.number range.base + k) < range.stop ∧
      page.toNat = 4096 * (Page.number range.base + k) % 2 ^ 32 := by
  rw [identityPages]
  split
  case isTrue hempty => simp [show range.size = 0 from hempty]
  case isFalse hsome =>
    have hsize : range.size ≠ 0 := hsome
    have hbound : k < Page.count (range.stop - (Page.base range.base).toNat) ↔
        4096 * (Page.number range.base + k) < range.stop := by
      simp only [Page.count, Page.size, Page.toNat_base, Page.number]
      omega
    have hpage : (Page.base range.base).toNat + Page.size * k =
        4096 * (Page.number range.base + k) := by
      simp only [Page.size, Page.toNat_base, Page.number]
      omega
    rw [List.getElem?_map, Option.map_eq_some_iff, ← hbound, ← hpage]
    constructor
    · rintro ⟨_, hk, rfl⟩
      obtain ⟨hlt, rfl⟩ := List.getElem?_eq_some_iff.1 hk
      rw [List.length_range] at hlt
      rw [List.getElem_range, UInt32.toNat_ofNat']
      exact ⟨hsize, hlt, rfl⟩
    · rintro ⟨-, hk, hpage⟩
      refine ⟨k, List.getElem?_range hk, ?_⟩
      rw [← UInt32.toNat_inj, UInt32.toNat_ofNat', hpage]

/-- The pages that are mapped are the touched ones, each in its turn. -/
theorem getElem?_identityPages (hstop : range.stop ≤ 2 ^ 32) :
    (identityPages range)[k]? = some page ↔
      Page.Aligned page ∧ range.Touches page ∧
        Page.number page = Page.number range.base + k := by
  rw [getElem?_identityPages_mod, Range.touches_iff, Page.aligned_iff]
  simp only [Page.number]
  constructor
  · rintro ⟨hsize, hk, hpage⟩
    refine ⟨?_, ⟨hsize, ?_, ?_⟩, ?_⟩ <;> omega
  · rintro ⟨haligned, ⟨hsize, -, hk⟩, hnumber⟩
    refine ⟨hsize, ?_, ?_⟩ <;> omega

/-- A range within the 32-bit addresses maps the touched pages. -/
theorem mem_identityPages_iff (hstop : range.stop ≤ 2 ^ 32) :
    page ∈ identityPages range ↔ Page.Aligned page ∧ range.Touches page := by
  rw [List.mem_iff_getElem?]
  simp only [getElem?_identityPages hstop]
  constructor
  · rintro ⟨k, ha, ht, -⟩
    exact ⟨ha, ht⟩
  · rintro ⟨ha, ht⟩
    have hle := (Range.touches_iff.1 ht).2.1
    exact ⟨Page.number page - Page.number range.base, ha, ht, by omega⟩

/-- The first pages that are mapped are the first pages of the range. -/
theorem mem_of_identityPages_eq (hstop : range.stop ≤ 2 ^ 32)
    (h : identityPages range = done ++ rest) :
    page ∈ done ↔ Page.Aligned page ∧ range.TouchesEarly done.length page := by
  have hget : ∀ k, done[k]? = some page ↔
      k < done.length ∧ (identityPages range)[k]? = some page := by
    intro k
    rw [h]
    constructor
    · intro hk
      have hlt := (List.getElem?_eq_some_iff.1 hk).1
      exact ⟨hlt, by rw [List.getElem?_append_left hlt, hk]⟩
    · rintro ⟨hlt, hk⟩
      rwa [List.getElem?_append_left hlt] at hk
  rw [List.mem_iff_getElem?]
  simp only [hget, getElem?_identityPages hstop]
  constructor
  · rintro ⟨k, hk, ha, ht, hnumber⟩
    exact ⟨ha, ht, by omega⟩
  · rintro ⟨ha, ht, hlt⟩
    have hle := (Range.touches_iff.1 ht).2.1
    exact ⟨Page.number page - Page.number range.base, by omega, ha, ht, by omega⟩

/-- The tables that the pages of a range need. -/
theorem coe_missing_identityPages (hstop : range.stop ≤ 2 ^ 32) (ram : Ram) (directory : UInt32) :
    (ram.missing directory (identityPages range) : Set UInt32) =
      range.newTables ram directory := by
  ext slot
  rw [Finset.mem_coe, Ram.mem_missing]
  constructor
  · rintro ⟨page, hpage, hp, hslot⟩
    exact ⟨page, ((mem_identityPages_iff hstop).1 hpage).2, hslot, hp⟩
  · rintro ⟨a, ht, hslot, hp⟩
    -- the page begins in the same slot
    have hbase := Page.base_base a
    have hdir := (Page.base_eq_base_iff.1 hbase).1
    refine ⟨Page.base a, ?_, ?_, hdir.trans hslot⟩
    · exact (mem_identityPages_iff hstop).2 ⟨Page.aligned_base a, (Range.touches_congr hbase).2 ht⟩
    · rw [Ram.pde_of_directoryIndex hdir, hp]

/-! ## What comes of mapping them -/

/-- A page that has its own base as its frame leads each of its addresses to itself. -/
theorem lookup_of_base (hl : l.Valid spaces) (hi : spaces[i]? = some space)
    (hframe : l.ram.frame? space.directory (Page.base a) = some (Page.base a)) :
    space.lookup l.ram a = .ok (some a) := by
  have hbase := Page.base_base a
  have hself : Page.base a ||| Page.offset a = a := by
    rw [← UInt32.toNat_inj, (Page.aligned_base a).toNat_or_offset, Page.toNat_base]
    omega
  rw [hl.lookup_eq hi, ← Ram.frame?_congr (Page.base_eq_base_iff_number.1 hbase), hframe,
    Option.map_some, hself]

/-- Where pages were mapped to themselves, all their addresses lead to themselves. -/
theorem lookup_of_mapped (hi : spaces[i]? = some space) (hdone : MapsEach spaces i space l done l')
    (haligned : ∀ page ∈ done, Page.Aligned page) (ha : Page.base a ∈ done) :
    space.lookup l'.ram a = .ok (some a) :=
  lookup_of_base hdone.evolves.valid hi (hdone.frame? hi haligned _ ha)

/-- Where the first pages of a range were mapped to themselves, they lead to themselves. -/
theorem lookup_of_mapsEach (hstop : range.stop ≤ 2 ^ 32) (hi : spaces[i]? = some space)
    (h : identityPages range = done ++ rest) (hdone : MapsEach spaces i space l done l')
    (ha : range.TouchesEarly done.length a) : space.lookup l'.ram a = .ok (some a) := by
  have hbase := Page.base_base a
  have hearly : range.TouchesEarly done.length (Page.base a) := by
    refine ⟨(Range.touches_congr hbase).2 ha.1, ?_⟩
    rw [Page.base_eq_base_iff_number.1 hbase]
    exact ha.2
  refine lookup_of_mapped hi hdone ?_ ?_
  · intro page hpage
    exact ((mem_of_identityPages_eq hstop h).1 hpage).1
  · exact (mem_of_identityPages_eq hstop h).2 ⟨Page.aligned_base a, hearly⟩

/-- All other pages lead where they led. -/
theorem lookup_of_evolves (hstop : range.stop ≤ 2 ^ 32) (hl : l.Valid spaces)
    (h : identityPages range = done ++ rest)
    (hev : Evolves spaces i (fun n => ∃ page ∈ done, n = Page.number page) l l') {j : Nat}
    {other : AddressSpace} (hj : spaces[j]? = some other)
    (ha : j = i → ¬ range.TouchesEarly done.length a) :
    other.lookup l'.ram a = other.lookup l.ram a := by
  refine hev.lookup hl hj ?_
  rintro hji ⟨page, hpage, hnumber⟩
  obtain ⟨-, htouches, hlt⟩ := (mem_of_identityPages_eq hstop h).1 hpage
  refine ha hji ⟨?_, hnumber ▸ hlt⟩
  exact (Range.touches_congr (Page.base_eq_base_iff_number.2 hnumber)).2 htouches

/-- Every touched page comes early enough when all of them were mapped. -/
theorem touchesEarly_length_iff (hstop : range.stop ≤ 2 ^ 32) :
    range.TouchesEarly (identityPages range).length a ↔ range.Touches a := by
  refine ⟨fun h => h.1, ?_⟩
  intro ht
  have hbase := Page.base_base a
  have hmem := (mem_identityPages_iff hstop).2
    ⟨Page.aligned_base a, (Range.touches_congr hbase).2 ht⟩
  have hearly := (mem_of_identityPages_eq hstop (List.append_nil _).symm).1 hmem
  refine ⟨ht, ?_⟩
  rw [← Page.base_eq_base_iff_number.1 hbase]
  exact hearly.2.2

/-- Mapping a range within the 32-bit addresses to itself, in memory that any calls led to. If it
succeeds then every touched page leads to itself, all other pages of all spaces lead where they led,
and one frame was taken for each slot that had no table. If it fails then this is so of the first
pages of the range, up to one that it did not map. With a pool within RAM, it fails only if the
frames for the tables are not there. -/
theorem mapIdentity_exact {m : Memory} (hm : m.Reached) (hi : m.spaces[i]? = some space)
    (hstop : range.stop ≤ 2 ^ 32) {result : Except Error Unit} {ram' : Ram} {pool' : Pool}
    {es : List Event}
    (hrun : (space.mapIdentity range).run (m.ram, m.pool) = ⟨result, (ram', pool'), es⟩) :
    (result = .ok () →
      (∀ a, range.Touches a → space.lookup ram' a = .ok (some a)) ∧
      (∀ (j : Nat) (other : AddressSpace) (a : UInt32), m.spaces[j]? = some other →
        (j = i → ¬ range.Touches a) → other.lookup ram' a = other.lookup m.ram a) ∧
      pool' = m.pool.after (range.newTables m.ram space.directory).ncard) ∧
    (∀ e, result = .error e → ∃ k,
      (∃ a, range.Touches a ∧ Page.number a = Page.number range.base + k) ∧
      (∀ a, range.TouchesEarly k a → space.lookup ram' a = .ok (some a)) ∧
      ∀ (j : Nat) (other : AddressSpace) (a : UInt32), m.spaces[j]? = some other →
        (j = i → ¬ range.TouchesEarly k a) → other.lookup ram' a = other.lookup m.ram a) ∧
    (m.pool.limit ≤ m.ram.size →
      (result = .ok () ↔ (range.newTables m.ram space.directory).ncard ≤ m.pool.remaining)) := by
  obtain ⟨l, spaces, rfl, hl⟩ := hm.orderly
  have hi : spaces[i]? = some space := hi
  have hwhole : identityPages range = identityPages range ++ [] := (List.append_nil _).symm
  have hcount : (range.newTables l.ram space.directory).ncard =
      (l.ram.missing space.directory (identityPages range)).card := by
    rw [← coe_missing_identityPages hstop, Set.ncard_coe_finset]
  show (_ → _ ∧ _ ∧ pool' = l.pool.after (range.newTables l.ram space.directory).ncard) ∧ _ ∧
    (_ → (_ ↔ (range.newTables l.ram space.directory).ncard ≤ l.pool.remaining))
  rw [hcount]
  have hmeets := mapEach_meets hl hi (identityPages range) l.state rfl
  rw [show (Op.each (fun page => space.map page page) (identityPages range)).run l.state = _
    from hrun] at hmeets
  cases result with
  | ok u =>
    obtain ⟨l', hs, hpages⟩ := hmeets
    obtain ⟨rfl, rfl⟩ := Prod.mk.inj hs
    have htakes := hpages.takes
    refine ⟨fun _ => ⟨?_, ?_, ?_⟩, fun _ => nofun, fun _ => ⟨fun _ => ?_, fun _ => rfl⟩⟩
    · intro a ha
      exact lookup_of_mapsEach hstop hi hwhole hpages ((touchesEarly_length_iff hstop).2 ha)
    · intro j other a hj ha
      refine lookup_of_evolves hstop hl hwhole hpages.evolves hj fun hji hearly => ha hji ?_
      exact (touchesEarly_length_iff hstop).1 hearly
    · rw [htakes.pool, Nat.zero_add]
    · have hpaid := htakes.paid
      rwa [Nat.zero_add] at hpaid
  | error e =>
    have hshort := fun hlimit => MapsUntil.short hmeets
      (fun page hpage => ((mem_identityPages_iff hstop).1 hpage).1) hlimit
    obtain ⟨done, page, rest, mid, l', hpages, hdone, -, hs, hram, hev⟩ := hmeets
    obtain ⟨rfl, rfl⟩ := Prod.mk.inj hs
    refine ⟨nofun, fun _ _ => ⟨done.length, ⟨page, ?_⟩, ?_, ?_⟩, fun hlimit => ⟨nofun, ?_⟩⟩
    · have hget : (identityPages range)[done.length]? = some page := by
        rw [hpages, List.getElem?_append_right (Nat.le_refl _), Nat.sub_self]
        rfl
      exact ((getElem?_identityPages hstop).1 hget).2
    · intro a ha
      rw [hram]
      exact lookup_of_mapsEach hstop hi hpages hdone ha
    · intro j other a hj ha
      rw [hram]
      exact lookup_of_evolves hstop hl hpages hdone.evolves hj ha
    · intro hle
      have hlt := (hshort hlimit).2
      omega

/-- A range that holds bytes of two pages of an empty space: they take one table, and lead to
themselves from their first to their last byte. -/
theorem mapIdentity_exact_twoPages : ∃ (m : Memory) (space : AddressSpace) (s : Ram × Pool)
    (es : List Event), m.Reached ∧ m.spaces[0]? = some space ∧ Range.stop ⟨0x1800, 0x1000⟩ ≤ 2 ^ 32 ∧
    (space.mapIdentity ⟨0x1800, 0x1000⟩).run (m.ram, m.pool) = ⟨.ok (), s, es⟩ ∧
    space.lookup s.1 0x1000 = .ok (some 0x1000) ∧ space.lookup s.1 0x2fff = .ok (some 0x2fff) ∧
    space.lookup s.1 0x3000 = space.lookup m.ram 0x3000 := by
  obtain ⟨zero, hzero⟩ : ∃ zero, Ram.zeroed 65536 = .ok zero := ⟨_, rfl⟩
  let pool : Range := ⟨0, 65536⟩
  let range : Range := ⟨0x1800, 0x1000⟩
  have hroom : (Layout.start zero pool).Roomy 2 :=
    roomy_start (by rw [Ram.size_of_zeroed hzero]; decide) (by decide)
  obtain ⟨l, space, hstate, hl, hroom⟩ := Memory.create_of_roomy (valid_start zero pool) hroom
  have hreached := (Memory.reached_start zero pool).perform (.edit .create)
  rw [Call.perform, Edit.perform, ← memory_start, hstate] at hreached
  have hstop : range.stop ≤ 2 ^ 32 := by decide
  obtain ⟨result, ram', pool', es, hrun⟩ : ∃ result ram' pool' es,
      (space.mapIdentity range).run (l.ram, l.pool) = ⟨result, (ram', pool'), es⟩ :=
    ⟨_, _, _, _, rfl⟩
  obtain ⟨hok, -, hiff⟩ := mapIdentity_exact hreached (i := 0) rfl hstop hrun
  -- the pages share the first slot
  have hslots : range.newTables l.ram space.directory ⊆ {0} := by
    rintro _ ⟨a, ht, rfl, -⟩
    obtain ⟨-, -, hlt⟩ := Range.touches_iff.1 ht
    have hlt : 4096 * Page.number a < 10240 := hlt
    rw [Set.mem_singleton_iff, ← UInt32.toNat_inj, Page.toNat_directoryIndex, UInt32.toNat_zero]
    rw [Page.number] at hlt
    omega
  have hcard := Set.ncard_le_ncard hslots
  rw [Set.ncard_singleton] at hcard
  obtain rfl := (hiff hroom.1).2 (hcard.trans hroom.le_remaining)
  obtain ⟨hself, hrest, -⟩ := hok rfl
  refine ⟨l.memory [space], space, _, es, hreached, rfl, hstop, hrun, hself _ ?_, hself _ ?_,
    hrest 0 space _ rfl fun _ => ?_⟩ <;> rw [Range.touches_iff] <;> decide

end AddressSpace

end PagedMemory
