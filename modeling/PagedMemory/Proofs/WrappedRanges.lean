import PagedMemory.Proofs.IdentityMaps

/-!
# Ranges that run past the top

A range may stop beyond the last 32-bit address. Its addresses do not go on at the bottom, but the
pages that are mapped for it do: each page that the range would touch beyond the top stands for the
one at as many bytes from the bottom. Whatever the range, no other pages than these change.

- `Range.Wraps`: the pages at the bottom that are mapped for a range past the top;
- `mem_identityPages_iff_wraps`: the pages of any range are those that it touches, and these;
- `mapIdentity_changes`: what mapping a range to itself changes, and that a range which stops at the
  top changes its own pages alone.
-/

namespace PagedMemory

namespace Range

/-- The range would touch the page of `a` if addresses went on at the bottom. -/
def Wraps (range : Range) (a : UInt32) : Prop := 2 ^ 32 + 4096 * Page.number a < range.stop

variable {range : Range} {a b : UInt32}

theorem wraps_congr (h : Page.base a = Page.base b) : range.Wraps a ↔ range.Wraps b := by
  rw [Wraps, Wraps, Page.base_eq_base_iff_number.1 h]

/-- A range that stops at the top, or below, ends where it stops. -/
theorem not_wraps (hstop : range.stop ≤ 2 ^ 32) : ¬ range.Wraps a := by
  rw [Wraps]
  omega

end Range

namespace AddressSpace

open Layout

variable {spaces : List AddressSpace} {l l' : Layout} {i j : Nat} {space other : AddressSpace}
  {range : Range} {a page : UInt32} {done : List UInt32}

/-- The pages that are mapped for a range are those that it touches, and those at the bottom that
stand for pages beyond the top. -/
theorem mem_identityPages_iff_wraps :
    page ∈ identityPages range ↔ Page.Aligned page ∧ (range.Touches page ∨ range.Wraps page) := by
  have hbase := range.base.toNat_lt
  have hsize := range.size.toNat_lt
  have htop := page.toNat_lt
  rw [List.mem_iff_getElem?, Page.aligned_iff, Range.touches_iff, Range.Wraps]
  simp only [getElem?_identityPages_mod, Page.number, Range.stop]
  constructor
  · rintro ⟨k, hne, hk, hpage⟩
    refine ⟨by omega, ?_⟩
    -- the cursor has passed the top, or it has not
    by_cases hk' : 4096 * (range.base.toNat / 4096 + k) < 2 ^ 32
    · exact .inl ⟨hne, by omega, by omega⟩
    · exact .inr (by omega)
  · rintro ⟨haligned, ⟨hne, hle, hlt⟩ | hlt⟩
    · exact ⟨page.toNat / 4096 - range.base.toNat / 4096, hne, by omega, by omega⟩
    · have hne : range.size ≠ 0 := by
        rintro h0
        rw [h0, UInt32.toNat_zero] at hlt
        omega
      exact ⟨2 ^ 32 / 4096 + page.toNat / 4096 - range.base.toNat / 4096, hne, by omega, by omega⟩

/-- The page of an address is mapped for the ranges that touch it, or stand for it. -/
theorem base_mem_identityPages_iff :
    Page.base a ∈ identityPages range ↔ range.Touches a ∨ range.Wraps a := by
  have hbase := Page.base_base a
  rw [mem_identityPages_iff_wraps, Range.touches_congr hbase, Range.wraps_congr hbase]
  exact and_iff_right (Page.aligned_base a)

/-- An address that leads elsewhere than before lies on one of the pages, and leads to itself. -/
theorem lookup_of_changed (hl : l.Valid spaces) (hi : spaces[i]? = some space)
    (hdone : MapsEach spaces i space l done l') (hpages : done ⊆ identityPages range)
    (hj : spaces[j]? = some other) (hne : other.lookup l'.ram a ≠ other.lookup l.ram a) :
    j = i ∧ (range.Touches a ∨ range.Wraps a) ∧ other.lookup l'.ram a = .ok (some a) := by
  by_cases hmoved : j = i ∧ Page.base a ∈ done
  · obtain ⟨rfl, hpage⟩ := hmoved
    obtain rfl : other = space := Option.some.inj (hj.symm.trans hi)
    have haligned := fun page hpage => (mem_identityPages_iff_wraps.1 (@hpages page hpage)).1
    exact ⟨rfl, base_mem_identityPages_iff.1 (hpages hpage),
      lookup_of_mapped hi hdone haligned hpage⟩
  · refine absurd (hdone.evolves.lookup hl hj ?_) hne
    rintro hji ⟨page, hpage, hnumber⟩
    have haligned := (mem_identityPages_iff_wraps.1 (hpages hpage)).1
    refine hmoved ⟨hji, ?_⟩
    rwa [Page.base_eq_base_iff_number.2 hnumber, Page.base_eq_self_iff.2 haligned]

/-- Whatever comes of mapping pages, the first of them were mapped, and RAM is as these left it.
With a frame for each of them, all are mapped. -/
theorem exists_mapped {pages : List UInt32} (hl : l.Valid spaces) (hi : spaces[i]? = some space)
    (haligned : ∀ page ∈ pages, Page.Aligned page) {result : Except Error Unit} {s : Ram × Pool}
    {es : List Event}
    (hrun : (Op.each (fun page => space.map page page) pages).run l.state = ⟨result, s, es⟩) :
    ∃ done l', done ⊆ pages ∧ MapsEach spaces i space l done l' ∧ s.1 = l'.ram ∧
      (result = .ok () → done = pages) ∧
      (l.pool.limit ≤ l.ram.size → pages.length ≤ l.pool.remaining → result = .ok ()) := by
  have hmeets := mapEach_meets hl hi pages l.state rfl
  rw [hrun] at hmeets
  cases result with
  | ok u =>
    obtain ⟨l', rfl, hpages⟩ := hmeets
    exact ⟨pages, l', List.Subset.refl _, hpages, rfl, fun _ => rfl, fun _ _ => rfl⟩
  | error e =>
    have hshort := MapsUntil.short hmeets haligned
    obtain ⟨done, page, rest, mid, l', rfl, hdone, -, rfl, hram, -⟩ := hmeets
    refine ⟨done, mid, List.subset_append_left _ _, hdone, hram, nofun, fun hlimit hframes => ?_⟩
    have hcard := l.ram.card_missing_le space.directory (done ++ page :: rest)
    have hlt := (hshort hlimit).2
    omega

/-- Mapping any range to itself, in memory that any calls led to. Whatever comes of it, no address
leads elsewhere than before but those of one space that lie on touched pages, or on the pages at the
bottom for which a range past the top stands; these lead to themselves. If it succeeds then all of
them do, and with a pool within RAM that has a frame for each page it succeeds. A range that stops
at the top or below changes touched pages alone. -/
theorem mapIdentity_changes {m : Memory} (hm : m.Reached) (hi : m.spaces[i]? = some space)
    {result : Except Error Unit} {ram' : Ram} {pool' : Pool} {es : List Event}
    (hrun : (space.mapIdentity range).run (m.ram, m.pool) = ⟨result, (ram', pool'), es⟩) :
    (∀ (j : Nat) (other : AddressSpace) (a : UInt32), m.spaces[j]? = some other →
      other.lookup ram' a ≠ other.lookup m.ram a →
        j = i ∧ (range.Touches a ∨ range.Wraps a) ∧ other.lookup ram' a = .ok (some a)) ∧
    (result = .ok () → ∀ a, range.Touches a ∨ range.Wraps a →
      space.lookup ram' a = .ok (some a)) ∧
    (m.pool.limit ≤ m.ram.size → (identityPages range).length ≤ m.pool.remaining →
      result = .ok ()) ∧
    (range.stop ≤ 2 ^ 32 → ∀ a, space.lookup ram' a ≠ space.lookup m.ram a → range.Touches a) := by
  obtain ⟨l, spaces, rfl, hl⟩ := hm.orderly
  have hi : spaces[i]? = some space := hi
  have haligned : ∀ page ∈ identityPages range, Page.Aligned page :=
    fun page hpage => (mem_identityPages_iff_wraps.1 hpage).1
  obtain ⟨done, l', hpages, hdone, hram, hall, henough⟩ := exists_mapped hl hi haligned hrun
  obtain rfl : ram' = l'.ram := hram
  refine ⟨fun j other a hj => lookup_of_changed hl hi hdone hpages hj, ?_, henough, ?_⟩
  · intro hok a ha
    refine lookup_of_mapped hi hdone (fun page hpage => haligned page (hpages hpage)) ?_
    rw [hall hok]
    exact base_mem_identityPages_iff.2 ha
  · intro hstop a hne
    obtain ⟨-, htouches | hwraps, -⟩ := lookup_of_changed hl hi hdone hpages hi hne
    · exact htouches
    · exact absurd hwraps (Range.not_wraps hstop)

/-- The last page of the address space, and as many bytes beyond it: the range touches no other
page, and yet the first page, which led nowhere, leads to itself. -/
theorem mapIdentity_changes_lastPage : ∃ (m : Memory) (space : AddressSpace) (s : Ram × Pool)
    (es : List Event), m.Reached ∧ m.spaces[0]? = some space ∧
    (space.mapIdentity ⟨0xfffff000, 0x2000⟩).run (m.ram, m.pool) = ⟨.ok (), s, es⟩ ∧
    ¬ Range.Touches ⟨0xfffff000, 0x2000⟩ 0 ∧ space.lookup m.ram 0 = .ok none ∧
    space.lookup s.1 0 = .ok (some 0) := by
  obtain ⟨zero, hzero⟩ : ∃ zero, Ram.zeroed 65536 = .ok zero := ⟨_, rfl⟩
  let pool : Range := ⟨0, 65536⟩
  let range : Range := ⟨0xfffff000, 0x2000⟩
  -- a frame for the directory, and two for the tables
  have hroom : (Layout.start zero pool).Roomy 3 :=
    roomy_start (by rw [Ram.size_of_zeroed hzero]; decide) (by decide)
  have hone : (Layout.start zero pool).Roomy 1 := hroom.mono (by decide)
  obtain ⟨_, _, es, hcreate, l, space, rfl, hl, -, hnone, hleft⟩ :=
    (Memory.create_meets (valid_start zero pool)).succeeds rfl fun _ _ he => he.1 hone
  have hreached : (l.memory ([] ++ [space])).Reached := by
    have hcreated := (Memory.reached_start zero pool).perform (.edit .create)
    rw [Call.perform, Edit.perform, ← memory_start, hcreate] at hcreated
    exact hcreated
  have hi : ([] ++ [space])[0]? = some space := rfl
  have hleft : l.Roomy 2 := hleft 2 hroom
  have hlength : (identityPages range).length = 2 := by decide
  obtain ⟨result, ram', pool', es', hrun⟩ : ∃ result ram' pool' es',
      (space.mapIdentity range).run (l.ram, l.pool) = ⟨result, (ram', pool'), es'⟩ :=
    ⟨_, _, _, _, rfl⟩
  obtain ⟨-, hself, henough, -⟩ := mapIdentity_changes hreached hi hrun
  obtain rfl := henough hleft.1 (hlength ▸ hleft.le_remaining)
  have hwraps : 2 ^ 32 + 4096 * Page.number 0 < range.stop := by decide
  refine ⟨_, space, _, es', hreached, hi, hrun, ?_, ?_, hself rfl 0 (.inr hwraps)⟩
  · rw [Range.touches_iff]
    decide
  · show space.lookup l.ram 0 = _
    rw [hl.lookup_eq hi, hnone]
    rfl

end AddressSpace

end PagedMemory
