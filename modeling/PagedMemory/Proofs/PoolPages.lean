import PagedMemory.Proofs.PoolRuns

/-!
# Frames inside and outside of the range of a pool

A pool hands out the whole pages of its range. It counts them without a bound, while a frame has 32
bits: a page beyond the top of the addresses becomes one at the bottom, and that one does not lie in
the range.

- `Range.mem_of_number`, `Range.not_mem_of_number`: a whole page below the top lies in the range,
  and one beyond it is cut to a page outside;
- `exists_calls_iff`: the frames of a pool are the whole pages of its range, cut to 32 bits;
- `calls_inside_iff`: which of these frames lie in the range, and which ranges have no others.
-/

namespace PagedMemory

namespace Range

variable {range : Range} {q : Nat} {a : UInt32}

/-- The address at which a whole page begins, cut to 32 bits. -/
def cutPage (q : Nat) : UInt32 := UInt32.ofNat (Page.size * q)

theorem number_cutPage (q : Nat) : Page.number (cutPage q) = q % 2 ^ 20 := by
  rw [Page.number, cutPage, UInt32.toNat_ofNat', Page.size]
  omega

theorem aligned_cutPage (q : Nat) : Page.Aligned (cutPage q) := by
  rw [Page.aligned_iff, cutPage, UInt32.toNat_ofNat', Page.size]
  omega

/-- A whole page below the top lies in the range, with all of its addresses. -/
theorem mem_of_number (hq : q ∈ range.wholePages) (ha : Page.number a = q) : a ∈ range := by
  obtain ⟨hbase, hstop⟩ := hq
  rw [Page.number] at ha
  rw [Page.size] at hbase hstop
  rw [mem_iff]
  omega

/-- A whole page beyond the top is cut to one that lies before the range: the range spans less than
all addresses, so it does not come around to where it began. -/
theorem not_mem_of_number (hq : q ∈ range.wholePages) (ha : 2 ^ 20 + Page.number a = q) :
    a ∉ range := by
  have hsize := range.size.toNat_lt
  obtain ⟨-, hstop⟩ := hq
  rw [Page.number] at ha
  rw [Page.size, stop] at hstop
  rw [mem_iff]
  omega

/-- A range stops below `2 ^ 33`, so its pages come around at most once. -/
theorem wholePage_lt (hq : q ∈ range.wholePages) : q < 2 ^ 21 := by
  have hbase := range.base.toNat_lt
  have hsize := range.size.toNat_lt
  obtain ⟨-, hstop⟩ := hq
  rw [Page.size, stop] at hstop
  omega

/-- A whole page, cut to 32 bits, lies in the range if it is below the top, and else outside. -/
theorem cutPage_cases (hq : q ∈ range.wholePages) :
    q < 2 ^ 20 ∧ (∀ a, Page.number a = Page.number (cutPage q) → a ∈ range) ∨
      2 ^ 20 ≤ q ∧ ∀ a, Page.number a = Page.number (cutPage q) → a ∉ range := by
  rw [number_cutPage]
  rcases Nat.lt_or_ge q (2 ^ 20) with hlow | hhigh
  · rw [Nat.mod_eq_of_lt hlow]
    exact .inl ⟨hlow, fun a ha => mem_of_number hq ha⟩
  · have hlt := wholePage_lt hq
    exact .inr ⟨hhigh, fun a ha => not_mem_of_number hq (by omega)⟩

/-- The first page beyond the top is a whole page of the ranges that reach behind it. -/
theorem top_mem_wholePages_iff : 2 ^ 20 ∈ range.wholePages ↔ 2 ^ 32 + Page.size ≤ range.stop := by
  have hbase := range.base.toNat_lt
  show range.base.toNat ≤ Page.size * 2 ^ 20 ∧ Page.size * 2 ^ 20 + Page.size ≤ range.stop ↔ _
  rw [Page.size]
  omega

end Range

namespace Pool

open Range (cutPage)

variable {range : Range} {frame : UInt32} {q : Nat}

/-- The pool counts through the whole pages of its range. -/
theorem mem_wholePages_iff_exists :
    q ∈ range.wholePages ↔ ∃ k < (ofRange range).remaining, q = Page.count range.base.toNat + k := by
  rw [mem_wholePages_iff]
  simp only [remaining, ofRange, Page.roundUp, Page.size]
  constructor
  · rintro ⟨hnext, hstop⟩
    exact ⟨q - Page.count range.base.toNat, by omega, by omega⟩
  · rintro ⟨k, hk, rfl⟩
    omega

/-- After `k` frames the next one is the page `k` places behind the first. -/
theorem fresh_after_ofRange (range : Range) (k : Nat) :
    ((ofRange range).after k).fresh = cutPage (Page.count range.base.toNat + k) := by
  simp only [fresh, after, ofRange, Page.roundUp, cutPage, Page.size]
  congr 1
  omega

/-- The frames that a pool hands out are the whole pages of its range, cut to 32 bits. -/
theorem exists_calls_iff :
    (∃ n k : Nat, ((ofRange range).calls n).2[k]? = some (.ok frame)) ↔
      ∃ q ∈ range.wholePages, frame = cutPage q := by
  simp only [getElem?_calls_eq_some_iff, answer_eq_ok_iff, mem_wholePages_iff_exists,
    fresh_after_ofRange]
  constructor
  · rintro ⟨_, k, -, hk, rfl⟩
    exact ⟨_, ⟨k, hk, rfl⟩, rfl⟩
  · rintro ⟨_, ⟨k, hk, rfl⟩, rfl⟩
    exact ⟨k + 1, k, Nat.lt_succ_self k, hk, rfl⟩

/-- Each frame that calls get from the pool of a range is a whole page of that range, cut to 32
bits. A page below the top is not changed by the cut and lies in the range; a page beyond the top
becomes one that has no address in common with the range. So a pool hands out nothing but its range,
each frame from the first byte to the last, exactly if the range has no whole page beyond the top. -/
theorem calls_inside_iff (range : Range) :
    (∀ (n k : Nat) (frame : UInt32), ((ofRange range).calls n).2[k]? = some (.ok frame) →
      ∃ q ∈ range.wholePages, frame = UInt32.ofNat (Page.size * q) ∧
        (q < 2 ^ 20 ∧ (∀ a, Page.number a = Page.number frame → a ∈ range) ∨
          2 ^ 20 ≤ q ∧ ∀ a, Page.number a = Page.number frame → a ∉ range)) ∧
    ((∀ (n k : Nat) (frame : UInt32), ((ofRange range).calls n).2[k]? = some (.ok frame) →
        frame ∈ range ∧ frame + 4095 ∈ range) ↔
      range.stop < 2 ^ 32 + Page.size) := by
  constructor
  · intro n k frame hframe
    obtain ⟨q, hq, rfl⟩ := exists_calls_iff.1 ⟨n, k, hframe⟩
    exact ⟨q, hq, rfl, Range.cutPage_cases hq⟩
  constructor
  · intro hinside
    refine Nat.not_le.1 fun htop => ?_
    have hq := Range.top_mem_wholePages_iff.2 htop
    obtain ⟨n, k, hframe⟩ := exists_calls_iff.2 ⟨_, hq, rfl⟩
    exact Range.not_mem_of_number hq rfl (hinside n k _ hframe).1
  · intro hstop n k frame hframe
    obtain ⟨q, hq, rfl⟩ := exists_calls_iff.1 ⟨n, k, hframe⟩
    obtain ⟨-, hmem⟩ | ⟨hhigh, -⟩ := Range.cutPage_cases hq
    · refine ⟨hmem _ rfl, hmem _ ?_⟩
      -- the last byte of a page lies on it
      have hlast := (Range.aligned_cutPage q).toNat_add 4095
      have hnumber := (Range.aligned_cutPage q).toNat_eq
      rw [Page.number]
      change (cutPage q + 4095).toNat = _ at hlast
      omega
    · have hlast := hq.2
      rw [Page.size] at hlast hstop
      omega

/-- The last page of the addresses, and as many bytes beyond it: of the two frames of the pool the
second one is the page at the bottom, which does not lie in the range. -/
theorem calls_inside_lastPage :
    let range : Range := ⟨0xfffff000, 0x2000⟩
    ((ofRange range).calls 2).2 = [.ok 0xfffff000, .ok 0] ∧
      (∀ a, Page.number a = Page.number 0xfffff000 → a ∈ range) ∧
      (∀ a, Page.number a = 0 → a ∉ range) ∧
      ¬ ∀ (n k : Nat) (frame : UInt32), ((ofRange range).calls n).2[k]? = some (.ok frame) →
        frame ∈ range ∧ frame + 4095 ∈ range := by
  have hcalls : ((ofRange ⟨0xfffff000, 0x2000⟩).calls 2).2 = [.ok 0xfffff000, .ok 0] := rfl
  obtain ⟨hpages, hall⟩ := calls_inside_iff ⟨0xfffff000, 0x2000⟩
  refine ⟨hcalls, ?_, ?_, fun h => absurd (hall.1 h) (by decide)⟩
  · obtain ⟨-, -, -, ⟨-, hmem⟩ | ⟨-, hnot⟩⟩ := hpages 2 0 0xfffff000 (by rw [hcalls]; rfl)
    · exact hmem
    · exact absurd (show (0xfffff000 : UInt32) ∈ _ by decide) (hnot _ rfl)
  · obtain ⟨-, -, -, ⟨-, hmem⟩ | ⟨-, hnot⟩⟩ := hpages 2 1 0 (by rw [hcalls]; rfl)
    · exact absurd (hmem 0 rfl) (by decide)
    · exact hnot

end Pool

end PagedMemory
