import PagedMemory.Proofs.RegionTables

/-!
# The addresses of a range

What is asked of a range is decided from its bounds: whether it overlaps another one, how far into
it an address lies, and, for an inclusive pair, what the range is in the first place. Here the
answers are compared with the addresses that the ranges hold. They agree but for two cases at the
edges. An empty range inside another one counts as an overlap, though it holds nothing; and the pair
of the lowest and the highest address spans one address more than a size can count, so its range is
empty.

- `Range.Splits`: an empty range inside another one;
- `Range.overlaps_exact`: which ranges overlap, and for which of them this is to share an address;
- `Range.mem_inclusive_iff`: the addresses of the range of any pair, in order or not;
- `Range.inclusive_exact`: the range of an ordered pair holds what the pair spans, unless these are
  all addresses.
-/

namespace PagedMemory

namespace Range

variable {r s : Range} {first last addr o : UInt32}

/-! ## Empty ranges -/

theorem stop_of_isEmpty (h : r.IsEmpty) : r.stop = r.base.toNat := by
  have hsize : r.size.toNat = 0 := congrArg UInt32.toNat h
  rw [stop, hsize, Nat.add_zero]

theorem not_mem_of_isEmpty (h : r.IsEmpty) : addr ∉ r := by
  rw [mem_iff, stop_of_isEmpty h]
  exact fun ⟨hlow, hhigh⟩ => Nat.not_lt.2 hlow hhigh

theorem not_shared_of_isEmpty (h : r.IsEmpty ∨ s.IsEmpty) : ¬ ∃ addr, addr ∈ r ∧ addr ∈ s := by
  rintro ⟨addr, hr, hs⟩
  rcases h with h | h
  · exact not_mem_of_isEmpty h hr
  · exact not_mem_of_isEmpty h hs

/-- The range is empty and stands inside `s`: the address at its base lies in `s`, and so does the
one before it. -/
def Splits (r s : Range) : Prop := r.IsEmpty ∧ s.base < r.base ∧ r.base ∈ s

instance (r s : Range) : Decidable (r.Splits s) := inferInstanceAs (Decidable (_ ∧ _ ∧ _))

/-- Nothing stands inside an empty range. -/
theorem not_splits_of_isEmpty (h : s.IsEmpty) : ¬ r.Splits s :=
  fun ⟨_, _, hmem⟩ => not_mem_of_isEmpty h hmem

/-- An empty range overlaps those that it splits. -/
theorem overlaps_iff_splits (h : r.IsEmpty) : r.Overlaps s ↔ r.Splits s := by
  rw [Overlaps, stop_of_isEmpty h, Splits, and_iff_right h, mem_iff, UInt32.lt_iff_toNat_lt]
  constructor
  · rintro ⟨hstop, hbase⟩
    exact ⟨hbase, Nat.le_of_lt hbase, hstop⟩
  · rintro ⟨hbase, -, hstop⟩
    exact ⟨hstop, hbase⟩

/-! ## Overlapping and sharing an address -/

theorem not_shared_of_splits (h : r.Splits s ∨ s.Splits r) : ¬ ∃ addr, addr ∈ r ∧ addr ∈ s :=
  not_shared_of_isEmpty (h.imp And.left And.left)

/-- Ranges overlap when they share an address, or when one splits the other. -/
theorem overlaps_iff_shared_or_splits :
    r.Overlaps s ↔ (∃ addr, addr ∈ r ∧ addr ∈ s) ∨ r.Splits s ∨ s.Splits r := by
  by_cases hr : r.IsEmpty
  · rw [overlaps_iff_splits hr, or_iff_right (not_shared_of_isEmpty (.inl hr)),
      or_iff_left (not_splits_of_isEmpty hr)]
  by_cases hs : s.IsEmpty
  · rw [overlaps_comm, overlaps_iff_splits hs, or_iff_right (not_shared_of_isEmpty (.inr hs)),
      or_iff_right (not_splits_of_isEmpty hs)]
  · have hsplits : ¬ (r.Splits s ∨ s.Splits r) := by
      rintro (h | h)
      · exact hr h.1
      · exact hs h.1
    rw [overlaps_iff hr hs, or_iff_left hsplits]

/-- Two ranges overlap, each with the other, when they share an address, or when one of them is
empty and stands inside the other. So to overlap is to share an address exactly where neither range
splits the other. An empty range holds no address; it overlaps the ranges that it splits, and no
others. -/
theorem overlaps_exact (r s : Range) :
    (r.Overlaps s ↔ (∃ addr, addr ∈ r ∧ addr ∈ s) ∨ r.Splits s ∨ s.Splits r) ∧
    ((r.Overlaps s ↔ ∃ addr, addr ∈ r ∧ addr ∈ s) ↔ ¬ r.Splits s ∧ ¬ s.Splits r) ∧
    (r.Overlaps s ↔ s.Overlaps r) ∧
    (r.IsEmpty → (∀ addr, addr ∉ r) ∧ (r.Overlaps s ↔ r.Splits s)) := by
  refine ⟨overlaps_iff_shared_or_splits, ?_, overlaps_comm,
    fun h => ⟨fun _ => not_mem_of_isEmpty h, overlaps_iff_splits h⟩⟩
  rw [overlaps_iff_shared_or_splits, ← not_or]
  constructor
  · intro hshares hsplits
    exact not_shared_of_splits hsplits (hshares.1 (.inr hsplits))
  · exact or_iff_left

/-- An empty range inside a page: it holds no address, so there is none in common with the page, and
yet the two overlap. -/
theorem overlaps_exact_emptyInside :
    let r : Range := ⟨0x1800, 0⟩
    let s : Range := ⟨0x1000, 0x1000⟩
    r.IsEmpty ∧ r.Overlaps s ∧ s.Overlaps r ∧ (¬ ∃ addr, addr ∈ r ∧ addr ∈ s) ∧
      ¬ (r.Overlaps s ↔ ∃ addr, addr ∈ r ∧ addr ∈ s) := by
  intro r s
  have hempty : r.IsEmpty := rfl
  have hsplits : r.Splits s := by decide
  obtain ⟨hoverlaps, hshares, hcomm, hnone⟩ := overlaps_exact r s
  obtain ⟨hmem, -⟩ := hnone hempty
  have hrs : r.Overlaps s := hoverlaps.2 (.inr (.inl hsplits))
  exact ⟨hempty, hrs, hcomm.1 hrs, fun ⟨addr, haddr, _⟩ => hmem addr haddr,
    fun h => (hshares.1 h).1 hsplits⟩

/-! ## How far into a range -/

/-- The offset of an address leads from the base to it without a wrap. -/
theorem offset?_eq_some_iff_toNat :
    r.offset? addr = some o ↔ addr ∈ r ∧ addr.toNat = r.base.toNat + o.toNat := by
  rw [offset?_eq_some_iff]
  refine and_congr_right fun hmem => ?_
  have hle : r.base ≤ addr := hmem.1
  rw [← UInt32.toNat_inj, UInt32.toNat_sub_of_le _ _ hle]
  have hle := UInt32.le_iff_toNat_le.1 hle
  omega

/-! ## Inclusive pairs -/

/-- A range counts from `first` up to `last`, for a pair out of order by way of the top, and has the
number of these steps and one more, modulo `2 ^ 32`, for its size. -/
theorem toNat_size_inclusive (first last : UInt32) :
    (inclusive first last).size.toNat =
      (UInt32.size - first.toNat + last.toNat + 1) % UInt32.size := by
  show (last - first + 1).toNat = _
  rw [UInt32.toNat_add, UInt32.toNat_sub, UInt32.toNat_one, UInt32.size]
  omega

/-- The addresses of the range of any pair. If the pair is out of order the range runs past the top,
so it holds all addresses from `first` on. It is empty where counting on from `last` leads straight
to `first`. -/
theorem mem_inclusive_iff :
    addr ∈ inclusive first last ↔
      first ≤ addr ∧ (first ≤ last → addr ≤ last) ∧ last + 1 ≠ first := by
  have haddr := addr.toNat_lt
  have hfirst := first.toNat_lt
  have hlast := last.toNat_lt
  rw [mem_iff, stop, toNat_size_inclusive, UInt32.size, UInt32.le_iff_toNat_le,
    UInt32.le_iff_toNat_le, UInt32.le_iff_toNat_le, ne_eq, ← UInt32.toNat_inj, UInt32.toNat_add,
    UInt32.toNat_one]
  show first.toNat ≤ _ ∧ _ < first.toNat + _ ↔ _
  omega

/-- The one ordered pair with `2 ^ 32` addresses: counting on from its last leads to its first. -/
theorem add_one_eq_iff_of_le (h : first ≤ last) :
    last + 1 = first ↔ first = 0 ∧ last = 0xffffffff := by
  constructor
  · intro hround
    have hle := UInt32.le_iff_toNat_le.1 h
    have hlast := last.toNat_lt
    rw [← UInt32.toNat_inj, UInt32.toNat_add, UInt32.toNat_one] at hround
    have hlow : first.toNat = 0 := by omega
    have hhigh : last.toNat = 2 ^ 32 - 1 := by omega
    exact ⟨UInt32.toNat_inj.1 hlow, UInt32.toNat_inj.1 hhigh⟩
  · rintro ⟨rfl, rfl⟩
    rfl

theorem mem_inclusive_iff_of_le (h : first ≤ last) :
    addr ∈ inclusive first last ↔
      (first ≤ addr ∧ addr ≤ last) ∧ ¬ (first = 0 ∧ last = 0xffffffff) := by
  rw [mem_inclusive_iff, imp_iff_right h, ne_eq, add_one_eq_iff_of_le h, and_assoc]

/-- The range of an ordered pair holds the addresses from the first to the last, and tells each of
them by how many bytes it lies behind the first, unless the pair is that of the lowest and the
highest address. These two span all addresses, one more than a size can count, and their range holds
none. So a pair stands for what it spans exactly if it does not span everything. -/
theorem inclusive_exact (h : first ≤ last) :
    (∀ addr, addr ∈ inclusive first last ↔
      (first ≤ addr ∧ addr ≤ last) ∧ ¬ (first = 0 ∧ last = 0xffffffff)) ∧
    (∀ addr o, (inclusive first last).offset? addr = some o ↔
      addr ∈ inclusive first last ∧ addr.toNat = first.toNat + o.toNat) ∧
    ((∀ addr, (addr ∈ inclusive first last ↔ first ≤ addr ∧ addr ≤ last) ∧
        (addr ∈ inclusive first last → (inclusive first last).offset? addr = some (addr - first))) ↔
      ¬ (first = 0 ∧ last = 0xffffffff)) := by
  refine ⟨fun _ => mem_inclusive_iff_of_le h, fun _ _ => offset?_eq_some_iff_toNat, ?_⟩
  constructor
  · intro hspan
    -- what is spanned is not empty, so the range is not
    have hmem := (hspan first).1.2 ⟨UInt32.le_refl first, h⟩
    exact ((mem_inclusive_iff_of_le h).1 hmem).2
  · intro hpart addr
    refine ⟨?_, fun hmem => offset?_eq_some_iff.2 ⟨hmem, rfl⟩⟩
    rw [mem_inclusive_iff_of_le h, and_iff_left hpart]

/-- All addresses, and all but the lowest: the first range is empty, and the second holds what it
should. -/
theorem inclusive_exact_whole :
    (0 : UInt32) ≤ 0xffffffff ∧
    (∀ addr : UInt32, (0 ≤ addr ∧ addr ≤ 0xffffffff) ∧ addr ∉ inclusive 0 0xffffffff) ∧
    (¬ ∀ addr, addr ∈ inclusive 0 0xffffffff ↔ 0 ≤ addr ∧ addr ≤ 0xffffffff) ∧
    ∀ addr, (addr ∈ inclusive 1 0xffffffff ↔ 1 ≤ addr ∧ addr ≤ 0xffffffff) ∧
      (addr ∈ inclusive 1 0xffffffff →
        (inclusive 1 0xffffffff).offset? addr = some (addr - 1)) := by
  have hle : (0 : UInt32) ≤ 0xffffffff := by decide
  obtain ⟨hmem, -, -⟩ := inclusive_exact hle
  obtain ⟨-, -, hspan⟩ := inclusive_exact (show (1 : UInt32) ≤ 0xffffffff by decide)
  have hnone : ∀ addr, addr ∉ inclusive 0 0xffffffff :=
    fun addr haddr => ((hmem addr).1 haddr).2 ⟨rfl, rfl⟩
  have hall : ∀ addr : UInt32, 0 ≤ addr ∧ addr ≤ 0xffffffff :=
    fun addr => ⟨UInt32.zero_le, Nat.le_of_lt_succ addr.toNat_lt⟩
  exact ⟨hle, fun addr => ⟨hall addr, hnone addr⟩,
    fun h => hnone 0 ((h 0).2 (hall 0)), hspan.2 (by decide)⟩

end Range

end PagedMemory
