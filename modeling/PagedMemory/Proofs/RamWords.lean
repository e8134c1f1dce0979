import PagedMemory.Ram

/-!
# Words in RAM

The tables of an address space are aligned words of RAM, and its pages are frames of it. This module
reads RAM word by word, as a total function of the address, and says which words and which bytes a
store leaves alone.

- `read_word`, `run_write_word`: an access to a whole word, told by `word` and `setWord`;
- `word_setWord`: storing an aligned word changes that word and no other;
- `word_clear`: clearing a frame makes its words zero and changes no other;
- `byte_store_of_outside`: no byte outside of a store changes.
-/

namespace PagedMemory

namespace Ram

/-- The four bytes from `i` on, as a word. -/
def word (ram : Ram) (i : Nat) : UInt32 := UInt32.ofNat (Word.ofBytes (ram.slice i 4))

/-- RAM with the word at `i` replaced. -/
def setWord (ram : Ram) (i : Nat) (v : UInt32) : Ram := ram.store i (Word.bytes 4 v.toNat)

/-- RAM with zeros in the frame at `frame`. -/
def clear (ram : Ram) (frame : UInt32) : Ram := ram.store frame.toNat (List.replicate Page.size 0)

/-- `frame` begins a page, all of which lies in RAM. -/
def HasFrame (ram : Ram) (frame : UInt32) : Prop := Page.Aligned frame ∧ ram.Fits frame Page.size

@[simp] theorem size_setWord (ram : Ram) (i : Nat) (v : UInt32) :
    (ram.setWord i v).size = ram.size := size_store _ _ _

@[simp] theorem size_clear (ram : Ram) (frame : UInt32) : (ram.clear frame).size = ram.size :=
  size_store _ _ _

/-- The frame ends within RAM. -/
theorem HasFrame.fits {ram : Ram} {frame : UInt32} (h : ram.HasFrame frame) :
    frame.toNat + Page.size ≤ ram.size := h.2

theorem HasFrame.of_size {ram ram' : Ram} {frame : UInt32} (h : ram.HasFrame frame)
    (hs : ram'.size = ram.size) : ram'.HasFrame frame := by
  refine ⟨h.1, ?_⟩
  show frame.toNat + Page.size ≤ ram'.size
  rw [hs]
  exact h.fits

/-! ## Bytes that a store leaves alone -/

/-- No byte outside of a store changes. -/
theorem byte_store_of_outside {ram : Ram} {i : Nat} {bs : List UInt8} (h : i + bs.length ≤ ram.size)
    {j : Nat} (hj : j < i ∨ i + bs.length ≤ j) : (ram.store i bs).byte j = ram.byte j := by
  rw [byte_store h]
  rcases hj with hj | hj
  · rw [if_neg (Nat.not_le.2 hj)]
  · rw [List.getElem?_eq_none (by omega)]
    split <;> rfl

theorem getElem?_slice (ram : Ram) (i : Nat) {n j : Nat} (h : j < n) :
    (ram.slice i n)[j]? = some (ram.byte (i + j)) := by
  rw [slice, List.getElem?_map, List.getElem?_range' h, Nat.one_mul]
  rfl

/-- A slice is made of its bytes. -/
theorem slice_congr {ram ram' : Ram} {i n : Nat}
    (h : ∀ j, i ≤ j → j < i + n → ram'.byte j = ram.byte j) : ram'.slice i n = ram.slice i n := by
  refine List.map_congr_left ?_
  intro j hj
  have hj := List.mem_range'_1.1 hj
  exact h j hj.1 hj.2

theorem word_congr {ram ram' : Ram} {i : Nat}
    (h : ∀ j, i ≤ j → j < i + 4 → ram'.byte j = ram.byte j) : ram'.word i = ram.word i := by
  rw [word, word, slice_congr h]

/-- Storing the word at `i` changes none but its four bytes. -/
theorem byte_setWord_of_ne {ram : Ram} {i j : Nat} (h : i + 4 ≤ ram.size) (hi : i % 4 = 0)
    (hne : j / 4 ≠ i / 4) (v : UInt32) : (ram.setWord i v).byte j = ram.byte j := by
  refine byte_store_of_outside (by simpa using h) ?_
  rw [Word.length_bytes]
  omega

/-- Clearing a frame changes none but its bytes. -/
theorem byte_clear_of_ne {ram : Ram} {frame : UInt32} (h : ram.HasFrame frame) {j : Nat}
    (hne : j / 4096 ≠ frame.toNat / 4096) : (ram.clear frame).byte j = ram.byte j := by
  have ha := Page.aligned_iff.1 h.1
  refine byte_store_of_outside (by simpa using h.fits) ?_
  rw [List.length_replicate, Page.size]
  omega

/-! ## Words that a store leaves alone -/

/-- The word that was stored is read back. -/
theorem word_setWord_self {ram : Ram} {i : Nat} (h : i + 4 ≤ ram.size) (v : UInt32) :
    (ram.setWord i v).word i = v := by
  have hs : (ram.setWord i v).slice i 4 = Word.bytes 4 v.toNat := by
    have hlen : i + (Word.bytes 4 v.toNat).length ≤ ram.size := by simpa using h
    have hread := slice_store hlen
    rwa [Word.length_bytes] at hread
  have hv := v.toNat_lt
  rw [word, hs, Word.ofBytes_bytes, Nat.mod_eq_of_lt (by simpa [Word.values] using hv),
    UInt32.ofNat_toNat]

/-- Storing an aligned word changes that word and no other. -/
theorem word_setWord {ram : Ram} {i j : Nat} (h : i + 4 ≤ ram.size) (hi : i % 4 = 0)
    (hj : j % 4 = 0) (v : UInt32) :
    (ram.setWord i v).word j = if i = j then v else ram.word j := by
  by_cases hij : i = j
  · subst hij
    rw [if_pos rfl, word_setWord_self h]
  · rw [if_neg hij]
    exact word_congr fun k hk hk' => byte_setWord_of_ne h hi (by omega) v

/-- Clearing a frame makes its words zero and changes no other. -/
theorem word_clear {ram : Ram} {frame : UInt32} (h : ram.HasFrame frame) {j : Nat}
    (hj : j % 4 = 0) :
    (ram.clear frame).word j = if j / 4096 = frame.toNat / 4096 then 0 else ram.word j := by
  have ha := Page.aligned_iff.1 h.1
  by_cases hf : j / 4096 = frame.toNat / 4096
  · have hz : (ram.clear frame).slice j 4 = List.replicate 4 0 := by
      refine List.eq_replicate_of_mem ?_
      intro b hb
      obtain ⟨k, hk, rfl⟩ := List.mem_map.1 hb
      have hk := List.mem_range'_1.1 hk
      rw [clear, byte_store (by simpa using h.fits), if_pos (by omega),
        List.getElem?_replicate_of_lt (by simp only [Page.size]; omega), Option.getD_some]
    rw [if_pos hf, word, hz]
    rfl
  · rw [if_neg hf]
    exact word_congr fun k _ _ => byte_clear_of_ne h (by omega)

/-! ## RAM that was never written -/

theorem size_of_zeroed {size : Nat} {ram : Ram} (h : zeroed size = .ok ram) : ram.size = size := by
  unfold zeroed at h
  split at h
  · cases h
    rfl
  · cases h

theorem byte_of_zeroed {size : Nat} {ram : Ram} (h : zeroed size = .ok ram) (i : Nat) :
    ram.byte i = 0 := by
  unfold zeroed at h
  split at h
  · cases h
    rw [byte, Array.getElem?_replicate]
    split
    · rename_i frame hframe
      split at hframe
      · cases hframe
        exact Vector.getElem_replicate _
      · cases hframe
    · rfl
  · cases h

theorem word_of_zeroed {size : Nat} {ram : Ram} (h : zeroed size = .ok ram) (i : Nat) :
    ram.word i = 0 := by
  have hs : ram.slice i 4 = List.replicate 4 0 := by
    refine List.eq_replicate_of_mem ?_
    intro b hb
    obtain ⟨k, -, rfl⟩ := List.mem_map.1 hb
    exact byte_of_zeroed h k
  rw [word, hs]
  rfl

/-! ## Accesses to whole words -/

/-- Reading a whole word. -/
theorem read_word (ram : Ram) (addr : UInt32) :
    ram.read addr 4 =
      if ram.Fits addr 4 then .ok (ram.word addr.toNat) else .error (.outOfBounds addr 4) := by
  by_cases h : ram.Fits addr 4
  · have hw : ram.checkWord addr 4 = .ok () := checkWord_eq_ok_iff.2 ⟨.inr (.inr rfl), h⟩
    rw [if_pos h, read, hw]
    rfl
  · have hw : ram.checkWord addr 4 = .error (.outOfBounds addr 4) :=
      checkWord_eq_error_iff.2 (.inr ⟨.inr (.inr rfl), Nat.lt_of_not_le h, rfl⟩)
    rw [if_neg h, read, hw]
    rfl

/-- Writing a whole word that lies in RAM. -/
theorem run_write_word {ram : Ram} {addr : UInt32} (h : ram.Fits addr 4) (v : UInt32) :
    (write addr 4 v).run ram = ⟨.ok (), ram.setWord addr.toNat v, []⟩ := by
  have hw : ram.checkWord addr 4 = .ok () := checkWord_eq_ok_iff.2 ⟨.inr (.inr rfl), h⟩
  simp [write, hw, setWord]

/-- Clearing a frame that lies in RAM. -/
theorem run_fill_frame {ram : Ram} {frame : UInt32} (h : ram.Fits frame Page.size) :
    (fill frame Page.size 0).run ram = ⟨.ok (), ram.clear frame, []⟩ := by
  have hc : ram.check frame Page.size = .ok () := check_eq_ok_iff.2 h
  simp [fill, hc, clear]

/-- Clearing a frame that leaves RAM. -/
theorem run_fill_frame_of_not_fits {ram : Ram} {frame : UInt32} (h : ¬ ram.Fits frame Page.size) :
    (fill frame Page.size 0).run ram = ⟨.error (.outOfBounds frame Page.size), ram, []⟩ := by
  have hc : ram.check frame Page.size = .error (.outOfBounds frame Page.size) :=
    check_eq_error_iff.2 ⟨h, rfl⟩
  simp [fill, hc]

end Ram

end PagedMemory
