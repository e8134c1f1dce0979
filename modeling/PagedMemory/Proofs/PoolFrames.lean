import Mathlib.Algebra.Group.Nat.Defs
import PagedMemory.FrameSource

/-!
# The frames of a pool

A pool counts in numbers and cuts each address that it hands out to 32 bits. The frames handed out
are told by their numbers, that is, by the upper twenty bits of their addresses.

- `sound_ofRange`, `Sound.advance`: what every pool in use satisfies, whatever its range;
- `gave_advance_iff`: handing out a frame adds its number and no other;
- `Sound.not_gave_fresh`: no frame is handed out twice, not even past the top of the addresses.
-/

namespace PagedMemory

namespace Page

/-- The number of the page that holds `addr`. -/
def number (addr : UInt32) : Nat := addr.toNat / 4096

/-- A page is known by its number. -/
theorem base_eq_base_iff_number {a b : UInt32} : base a = base b ↔ number a = number b := by
  rw [← UInt32.toNat_inj, toNat_base, toNat_base, number, number]
  omega

/-- An aligned address begins the page of its number. -/
theorem Aligned.toNat_eq {addr : UInt32} (h : Aligned addr) : addr.toNat = 4096 * number addr := by
  have h := aligned_iff.1 h
  rw [number]
  omega

end Page

namespace Pool

/-- The pool counts in whole pages, up from where it began, and its range spans less than 2 ^ 32
bytes from there on. -/
structure Sound (pool : Pool) : Prop where
  aligned : pool.next % 4096 = 0
  start : 4096 * pool.allocated ≤ pool.next
  span : pool.limit + 4096 * pool.allocated < pool.next + 2 ^ 32

/-- The frame with the number `n` was handed out. -/
def Gave (pool : Pool) (n : Nat) : Prop :=
  ∃ k < pool.allocated, n = (pool.next / 4096 - (k + 1)) % 2 ^ 20

/-- The frame that the pool hands out next. -/
def fresh (pool : Pool) : UInt32 := UInt32.ofNat pool.next

/-- A frame is left. -/
def HasNext (pool : Pool) : Prop := pool.next + Page.size ≤ pool.limit

variable {pool : Pool}

/-- Every range makes a sound pool, even one that passes the top of the 32-bit addresses. -/
theorem sound_ofRange (range : Range) : (ofRange range).Sound := by
  have hs := range.size.toNat_lt
  constructor
  · simp only [ofRange, Page.roundUp, Page.size]
    omega
  · exact Nat.zero_le _
  · simp only [ofRange, Page.roundUp, Page.count, Page.size, Range.stop]
    omega

theorem Sound.advance (h : pool.Sound) : pool.advance.Sound := by
  obtain ⟨ha, hstart, hspan⟩ := h
  constructor <;> simp only [Pool.advance, Page.size] <;> omega

/-- The next frame begins a page. -/
theorem Sound.aligned_fresh (h : pool.Sound) : Page.Aligned pool.fresh := by
  have ha := h.aligned
  rw [Page.aligned_iff, fresh, UInt32.toNat_ofNat']
  omega

theorem number_fresh (pool : Pool) :
    Page.number pool.fresh = pool.next / 4096 % 2 ^ 20 := by
  rw [Page.number, fresh, UInt32.toNat_ofNat']
  omega

/-- Handing out a frame adds its number and no other. -/
theorem gave_advance_iff {n : Nat} :
    pool.advance.Gave n ↔ n = Page.number pool.fresh ∨ pool.Gave n := by
  have hnext : pool.advance.next / 4096 = pool.next / 4096 + 1 := by
    simp only [Pool.advance, Page.size]
    omega
  rw [number_fresh, Gave, hnext]
  constructor
  · rintro ⟨k, hk, rfl⟩
    cases k with
    | zero => exact .inl rfl
    | succ k => exact .inr ⟨k, Nat.lt_of_succ_lt_succ hk, by congr 1; omega⟩
  · rintro (rfl | ⟨k, hk, rfl⟩)
    · exact ⟨0, Nat.succ_pos _, rfl⟩
    · exact ⟨k + 1, Nat.succ_lt_succ hk, by congr 1; omega⟩

/-- What was handed out stays handed out. -/
theorem Gave.advance {n : Nat} (hn : pool.Gave n) : pool.advance.Gave n :=
  gave_advance_iff.2 (.inr hn)

/-- The next frame was not handed out before: the frames of a pool all differ as 32-bit
addresses. -/
theorem Sound.not_gave_fresh (h : pool.Sound) (hn : pool.HasNext) :
    ¬ pool.Gave (Page.number pool.fresh) := by
  rw [number_fresh]
  rintro ⟨k, hk, heq⟩
  obtain ⟨ha, hstart, hspan⟩ := h
  simp only [HasNext, Page.size] at hn
  omega

/-! ## Taking a frame -/

theorem run_allocate_of_hasNext (h : pool.HasNext) :
    (FrameSource.allocate : Op Pool UInt32).run pool = ⟨.ok pool.fresh, pool.advance, []⟩ :=
  if_pos h

theorem run_allocate_of_not_hasNext (h : ¬ pool.HasNext) :
    (FrameSource.allocate : Op Pool UInt32).run pool =
      ⟨.error (.outOfFrames pool.next pool.limit), pool, []⟩ :=
  if_neg h

end Pool

end PagedMemory
