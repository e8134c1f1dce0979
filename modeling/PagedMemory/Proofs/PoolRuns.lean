import Mathlib.Data.Set.Card
import Mathlib.Order.Interval.Finset.Nat
import PagedMemory.Proofs.Contracts
import PagedMemory.Proofs.FrameBudget

/-!
# Pools until they run out, and after that

A pool hands out the whole pages of its range, one after the other, and then refuses. How many there
are is told by the range alone: its first page may be cut off, and so may its last one.

- `Range.wholePages`: the pages that lie in a range as a whole;
- `ncard_wholePages`: a pool has a frame for each of them;
- `calls_eq`: any number of calls, with all their answers;
- `calls_exhaust`: what this says of them.
-/

namespace PagedMemory

/-- The numbers of the pages all of whose bytes lie in the range. -/
def Range.wholePages (range : Range) : Set Nat :=
  {q | range.base.toNat ≤ Page.size * q ∧ Page.size * q + Page.size ≤ range.stop}

namespace Pool

variable {pool : Pool} {range : Range} {n k : Nat}

/-- Calls for a frame, `n` of them: the pool afterwards, and what they answered. -/
def calls (pool : Pool) (n : Nat) : Pool × List (Except Error UInt32) :=
  let (pool, log) := Op.runAll (fun _ : Nat => (FrameSource.allocate : Op Pool UInt32)) pool
    (List.range n)
  (pool, log.map Prod.snd)

/-- What the pool answers after `k` calls. -/
def answer (pool : Pool) (k : Nat) : Except Error UInt32 :=
  if k < pool.remaining then .ok (pool.after k).fresh
  else .error (.outOfFrames (pool.after pool.remaining).next pool.limit)

/-! ## How many frames there are -/

/-- The pool of a range begins with its first whole page. -/
theorem mem_wholePages_iff {q : Nat} : q ∈ range.wholePages ↔
    (ofRange range).next ≤ Page.size * q ∧ Page.size * q + Page.size ≤ range.stop := by
  show range.base.toNat ≤ Page.size * q ∧ _ ↔ _
  simp only [ofRange, Page.roundUp, Page.count, Page.size]
  omega

/-- The pool of a range has a frame for each of its whole pages. -/
theorem ncard_wholePages (range : Range) :
    range.wholePages.ncard = (ofRange range).remaining := by
  have hpages : range.wholePages =
      ↑(Finset.Ico (Page.count range.base.toNat) (range.stop / Page.size)) := by
    ext q
    rw [mem_wholePages_iff, Finset.mem_coe, Finset.mem_Ico]
    simp only [ofRange, Page.roundUp, Page.size]
    omega
  rw [hpages, Set.ncard_coe_finset, Nat.card_Ico]
  simp only [remaining, ofRange, Page.roundUp, Page.size]
  omega

/-- The first frame begins where the first page does that does not begin before the range. -/
theorem isLeast_next (range : Range) :
    IsLeast {a | range.base.toNat ≤ a ∧ Page.size ∣ a} (ofRange range).next := by
  constructor
  · show range.base.toNat ≤ (ofRange range).next ∧ Page.size ∣ (ofRange range).next
    simp only [ofRange, Page.roundUp, Page.count, Page.size]
    omega
  · rintro a ⟨hbase, hpage⟩
    simp only [ofRange, Page.roundUp, Page.count, Page.size] at hpage ⊢
    omega

/-! ## One call after the other -/

theorem hasNext_after_iff : (pool.after k).HasNext ↔ k < pool.remaining := by
  rw [hasNext_iff, remaining_after, Nat.sub_pos_iff_lt]

theorem calls_succ (pool : Pool) (n : Nat) :
    pool.calls (n + 1) = (((FrameSource.allocate : Op Pool UInt32).run (pool.calls n).1).state,
      (pool.calls n).2 ++
        [((FrameSource.allocate : Op Pool UInt32).run (pool.calls n).1).result]) := by
  simp only [calls, List.range_succ, Op.runAll_concat, List.map_append, List.map_singleton]

/-- Taking one more frame. -/
theorem advance_after (pool : Pool) (n : Nat) : (pool.after n).advance = pool.after (n + 1) :=
  after_after pool n 1

/-- A call on a pool from which `k` frames were taken, or all that there were. -/
theorem run_allocate_after (pool : Pool) (k : Nat) :
    (FrameSource.allocate : Op Pool UInt32).run (pool.after (min k pool.remaining)) =
      ⟨pool.answer k, pool.after (min (k + 1) pool.remaining), []⟩ := by
  rw [answer]
  by_cases hk : k < pool.remaining
  · rw [if_pos hk, Nat.min_eq_left hk.le, Nat.min_eq_left hk,
      run_allocate_of_hasNext (hasNext_after_iff.2 hk), advance_after]
  · have hspent : ¬ (pool.after pool.remaining).HasNext :=
      fun h => Nat.lt_irrefl _ (hasNext_after_iff.1 h)
    rw [if_neg hk, Nat.min_eq_right (by omega), Nat.min_eq_right (by omega),
      run_allocate_of_not_hasNext hspent]
    rfl

/-- Any number of calls: each takes a frame as long as one is left, and after that the pool stays as
it is. -/
theorem calls_eq (pool : Pool) (n : Nat) :
    pool.calls n = (pool.after (min n pool.remaining), (List.range n).map pool.answer) := by
  induction n with
  | zero =>
    rw [Nat.zero_min, after_zero]
    rfl
  | succ n ih =>
    rw [calls_succ, ih, List.range_succ, List.map_append, List.map_singleton, run_allocate_after]

/-- What is known of the calls is known of each answer. -/
theorem getElem?_calls_eq_some_iff {r : Except Error UInt32} :
    (pool.calls n).2[k]? = some r ↔ k < n ∧ pool.answer k = r := by
  rw [calls_eq]
  show ((List.range n).map pool.answer)[k]? = some r ↔ _
  rw [List.getElem?_map]
  by_cases hk : k < n
  · rw [List.getElem?_range hk, Option.map_some, Option.some_inj, and_iff_right hk]
  · rw [List.getElem?_eq_none (by rw [List.length_range]; omega), Option.map_none]
    exact ⟨(nomatch ·), fun h => absurd h.1 hk⟩

/-! ## What the answers are -/

theorem answer_eq_ok_iff {frame : UInt32} :
    pool.answer k = .ok frame ↔ k < pool.remaining ∧ frame = (pool.after k).fresh := by
  rw [answer]
  split <;> simp_all [eq_comm]

theorem answer_eq_error_iff {e : Error} : pool.answer k = .error e ↔
    pool.remaining ≤ k ∧ e = .outOfFrames (pool.after pool.remaining).next pool.limit := by
  rw [answer]
  split <;> simp_all [eq_comm]

/-- Frames taken from a sound pool at different times differ, even where they are cut to 32 bits:
the pool ends before it comes around. -/
theorem Sound.fresh_after_inj (h : pool.Sound) {j : Nat} (hj : j < pool.remaining)
    (hk : k < pool.remaining) (heq : (pool.after j).fresh = (pool.after k).fresh) : j = k := by
  obtain ⟨-, hstart, hspan⟩ := h
  have heq := congrArg UInt32.toNat heq
  simp only [fresh, after, Page.size, UInt32.toNat_ofNat'] at heq
  simp only [remaining, Page.size] at hj hk
  omega

theorem Sound.after (h : pool.Sound) (n : Nat) : (pool.after n).Sound := by
  induction n with
  | zero => exact h
  | succ n ih =>
    rw [← advance_after]
    exact ih.advance

/-- `n` calls on the pool of a range that has `frames` frames, the first of them at `first`. -/
structure HandsOut (range : Range) (first frames n : Nat) : Prop where
  answers : ((ofRange range).calls n).2.length = n
  allocated : ((ofRange range).calls n).1.allocated = min n frames
  remaining : ((ofRange range).calls n).1.remaining = frames - min n frames
  /-- A call succeeds exactly when fewer calls were made than there are frames. -/
  succeeds : ∀ k < n,
    (∃ frame : UInt32, ((ofRange range).calls n).2[k]? = some (.ok frame)) ↔ k < frames
  /-- The frames follow each other, and their addresses are cut to 32 bits. -/
  frame : ∀ (k : Nat) (frame : UInt32), ((ofRange range).calls n).2[k]? = some (.ok frame) →
    frame = UInt32.ofNat (first + Page.size * k) ∧ Page.Aligned frame
  /-- No frame is handed out twice. -/
  distinct : ∀ (j k : Nat) (frame : UInt32), ((ofRange range).calls n).2[j]? = some (.ok frame) →
    ((ofRange range).calls n).2[k]? = some (.ok frame) → j = k
  /-- A call that fails names where the next frame would begin, which is too near to the end; it
  changes nothing, and every call after it fails in the same way. -/
  fails : ∀ (k : Nat) (e : Error), ((ofRange range).calls n).2[k]? = some (.error e) →
    (∃ next, e = .outOfFrames next range.stop ∧ range.stop < next + Page.size) ∧
      ((ofRange range).calls (k + 1)).1 = ((ofRange range).calls k).1 ∧
      ∀ j, k ≤ j → j < n → ((ofRange range).calls n).2[j]? = some (.error e)

/-- Any calls on the pool of any range hand out its whole pages, in order and each once, and fail
after that. -/
theorem calls_exhaust (range : Range) (n : Nat) :
    ∃ first, IsLeast {a | range.base.toNat ≤ a ∧ Page.size ∣ a} first ∧
      HandsOut range first range.wholePages.ncard n := by
  refine ⟨_, isLeast_next range, ?_⟩
  rw [ncard_wholePages]
  have hsound := sound_ofRange range
  constructor
  case answers => rw [calls_eq, List.length_map, List.length_range]
  case allocated =>
    rw [calls_eq]
    exact Nat.zero_add _
  case remaining => rw [calls_eq, remaining_after]
  case succeeds =>
    intro k hk
    simp only [getElem?_calls_eq_some_iff, answer_eq_ok_iff, hk, true_and]
    exact ⟨fun ⟨_, h, _⟩ => h, fun h => ⟨_, h, rfl⟩⟩
  case frame =>
    intro k frame hframe
    obtain ⟨-, rfl⟩ := answer_eq_ok_iff.1 (getElem?_calls_eq_some_iff.1 hframe).2
    exact ⟨rfl, (hsound.after k).aligned_fresh⟩
  case distinct =>
    intro j k frame hj hk
    obtain ⟨hfirst, rfl⟩ := answer_eq_ok_iff.1 (getElem?_calls_eq_some_iff.1 hj).2
    obtain ⟨hsecond, heq⟩ := answer_eq_ok_iff.1 (getElem?_calls_eq_some_iff.1 hk).2
    exact hsound.fresh_after_inj hfirst hsecond heq
  case fails =>
    intro k e hk
    obtain ⟨hspent, rfl⟩ := answer_eq_error_iff.1 (getElem?_calls_eq_some_iff.1 hk).2
    refine ⟨⟨_, rfl, ?_⟩, ?_, ?_⟩
    · -- otherwise there would be one frame more
      have hnext : ¬ ((ofRange range).after (ofRange range).remaining).HasNext :=
        fun h => Nat.lt_irrefl _ (hasNext_after_iff.1 h)
      exact Nat.not_le.1 hnext
    · rw [calls_eq, calls_eq, Nat.min_eq_right hspent, Nat.min_eq_right (Nat.le_succ_of_le hspent)]
    · intro j hj hn
      exact getElem?_calls_eq_some_iff.2 ⟨hn, answer_eq_error_iff.2 ⟨hspent.trans hj, rfl⟩⟩

/-- Of three pages from address 1 on, two are whole. -/
example : (calls (ofRange ⟨1, 12288⟩) 3).2 =
    [.ok 4096, .ok 8192, .error (.outOfFrames 12288 12289)] := rfl

end Pool

end PagedMemory
