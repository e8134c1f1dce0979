import PagedMemory.Op
import PagedMemory.Page
import PagedMemory.Word

/-!
# Random access memory

RAM is an array of frames. Most of a large RAM is never touched, and all its untouched frames are
one and the same frame of zeros.

The view of RAM is `byte`, a byte for every number; everything else is said through it. Beyond the
bytes that the size admits lie those that complete the last frame: no access reaches them.

- `byte_setByte`, `byte_store`: what a store does to each byte;
- `slice_store`: what was stored is read back;
- `ext_byte`: RAM is determined by its size and its bytes.
-/

namespace PagedMemory

/-- The contents of a frame. -/
abbrev Frame := Vector UInt8 4096

/-- A frame of zeros. -/
def Frame.zero : Frame := Vector.replicate 4096 0

/-- Guest RAM. -/
structure Ram where
  /-- How many bytes can be accessed. -/
  size : Nat
  /-- The bytes, in frames. -/
  frames : Array Frame
  /-- There is RAM, and 32-bit addresses reach all of it. -/
  size_bounds : 0 < size ∧ size ≤ UInt32.size
  /-- The frames hold the bytes and no frame more. -/
  frames_size : frames.size = Page.count size

namespace Ram

/-- RAM of `size` bytes, all zero. -/
def zeroed (size : Nat) : Except Error Ram :=
  if h : 0 < size ∧ size ≤ UInt32.size then
    .ok ⟨size, .replicate (Page.count size) .zero, h, by simp⟩
  else .error (.badMemorySize size)

/-! ## Bytes -/

/-- The byte at `i`. -/
def byte (ram : Ram) (i : Nat) : UInt8 :=
  match ram.frames[i / 4096]? with
  | some frame => frame[i % 4096]
  | none => 0

/-- RAM with the byte at `i` replaced. -/
@[inline] def setByte (ram : Ram) (i : Nat) (b : UInt8) : Ram :=
  { ram with
    frames := ram.frames.modify (i / 4096) fun frame => frame.set (i % 4096) b
    frames_size := by rw [Array.size_modify, ram.frames_size] }

/-- The `n` bytes from `i` on. -/
def slice (ram : Ram) (i n : Nat) : List UInt8 := (List.range' i n).map ram.byte

/-- RAM with the bytes from `i` on replaced. -/
def store (ram : Ram) (i : Nat) : List UInt8 → Ram
  | [] => ram
  | b :: bs => (ram.setByte i b).store (i + 1) bs

/-! ## Accesses -/

/-- The bytes `addr, …, addr + len - 1` lie in RAM. -/
def Fits (ram : Ram) (addr : UInt32) (len : Nat) : Prop := addr.toNat + len ≤ ram.size

instance (ram : Ram) (addr : UInt32) (len : Nat) : Decidable (ram.Fits addr len) :=
  inferInstanceAs (Decidable (_ ≤ _))

/-- Refuses an access that leaves RAM. -/
def check (ram : Ram) (addr : UInt32) (len : Nat) : Except Error Unit :=
  if ram.Fits addr len then .ok () else .error (.outOfBounds addr len)

/-- Refuses an access to a word that is none, or leaves RAM. -/
def checkWord (ram : Ram) (addr : UInt32) (len : Nat) : Except Error Unit := do
  Word.checkWidth len
  ram.check addr len

/-- Refuses a frame that is none, or leaves RAM. -/
def checkFrame (ram : Ram) (addr : UInt32) : Except Error Unit :=
  if Page.Aligned addr then ram.check addr Page.size else .error (.misaligned addr)

/-- The word at `addr`. -/
def read (ram : Ram) (addr : UInt32) (len : Nat) : Except Error UInt32 := do
  ram.checkWord addr len
  pure (UInt32.ofNat (Word.ofBytes (ram.slice addr.toNat len)))

/-- Stores the lowest `len` bytes of `data` at `addr`. -/
def write (addr : UInt32) (len : Nat) (data : UInt32) : Op Ram Unit :=
  .amend (·.checkWord addr len) (·.store addr.toNat (Word.bytes len data.toNat))

/-- The `n` bytes from `addr` on. -/
def readBytes (ram : Ram) (addr : UInt32) (n : Nat) : Except Error (List UInt8) := do
  ram.check addr n
  pure (ram.slice addr.toNat n)

/-- Stores bytes from `addr` on. -/
def writeBytes (addr : UInt32) (bytes : List UInt8) : Op Ram Unit :=
  .amend (·.check addr bytes.length) (·.store addr.toNat bytes)

/-- Stores `n` times the same byte from `addr` on. -/
def fill (addr : UInt32) (n : Nat) (value : UInt8) : Op Ram Unit :=
  .amend (·.check addr n) (·.store addr.toNat (List.replicate n value))

/-- The bytes of the frame at `addr`. -/
def readFrame (ram : Ram) (addr : UInt32) : Except Error (List UInt8) := do
  ram.checkFrame addr
  pure (ram.slice addr.toNat Page.size)

/-- Stores bytes into the frame at `addr`, from its beginning on. -/
def writeFrame (addr : UInt32) (bytes : List UInt8) : Op Ram Unit :=
  .amend (·.checkFrame addr) (·.store addr.toNat (bytes.take Page.size))

/-- The fields that tell RAM apart. -/
def debugText (ram : Ram) : String :=
  "PhysicalMemory \x7b size: " ++ toString ram.size ++ " \x7d"

/-! ## What a store does to each byte -/

@[simp] theorem size_setByte (ram : Ram) (i : Nat) (b : UInt8) : (ram.setByte i b).size = ram.size :=
  rfl

@[simp] theorem size_store (ram : Ram) (i : Nat) (bs : List UInt8) :
    (ram.store i bs).size = ram.size := by
  induction bs generalizing ram i with
  | nil => rfl
  | cons b bs ih => rw [store, ih, size_setByte]

/-- A byte that can be accessed lies in a frame. -/
theorem div_lt_frames_size {ram : Ram} {i : Nat} (h : i < ram.size) :
    i / 4096 < ram.frames.size := by
  rw [ram.frames_size]
  simp only [Page.count, Page.size]
  omega

/-- Setting a byte changes that byte and no other. -/
theorem byte_setByte {ram : Ram} {i : Nat} (h : i < ram.size) (b : UInt8) (j : Nat) :
    (ram.setByte i b).byte j = if i = j then b else ram.byte j := by
  have hi := div_lt_frames_size h
  simp only [byte, setByte, Array.getElem?_modify]
  by_cases hf : i / 4096 = j / 4096
  · rw [hf] at hi
    simp only [hf, if_true, Array.getElem?_eq_getElem hi, Option.map_some, Vector.getElem_set]
    have : i % 4096 = j % 4096 ↔ i = j := by omega
    simp only [this]
  · have : i ≠ j := fun h => hf (by rw [h])
    simp [hf, this]

/-- Storing bytes changes the bytes that they cover and no other. -/
theorem byte_store {ram : Ram} {i : Nat} {bs : List UInt8} (h : i + bs.length ≤ ram.size) (j : Nat) :
    (ram.store i bs).byte j = if i ≤ j then bs[j - i]?.getD (ram.byte j) else ram.byte j := by
  induction bs generalizing ram i with
  | nil => simp [store]
  | cons b bs ih =>
    rw [List.length_cons] at h
    rw [store, ih (by rw [size_setByte]; omega), byte_setByte (by omega)]
    by_cases hij : i = j
    · subst hij
      simp [show ¬ i + 1 ≤ i by omega]
    · by_cases hle : i ≤ j
      · have hs : j - i = (j - (i + 1)) + 1 := by omega
        simp [hij, hle, hs, show i + 1 ≤ j by omega]
      · simp [hij, hle, show ¬ i + 1 ≤ j by omega]

@[simp] theorem length_slice (ram : Ram) (i n : Nat) : (ram.slice i n).length = n := by
  simp [slice]

theorem slice_succ (ram : Ram) (i n : Nat) :
    ram.slice i (n + 1) = ram.byte i :: ram.slice (i + 1) n := by
  simp [slice, List.range'_succ]

/-- What was stored is read back. -/
theorem slice_store {ram : Ram} {i : Nat} {bs : List UInt8} (h : i + bs.length ≤ ram.size) :
    (ram.store i bs).slice i bs.length = bs := by
  apply List.ext_getElem
  · simp
  · intro k hk _
    have hb : k < bs.length := by simpa using hk
    simp [slice, byte_store h, hb]

/-- RAM is determined by its size and its bytes. -/
theorem ext_byte {ram ram' : Ram} (hs : ram.size = ram'.size) (h : ∀ i, ram.byte i = ram'.byte i) :
    ram = ram' := by
  have hf : ram.frames = ram'.frames := by
    apply Array.ext
    · rw [ram.frames_size, ram'.frames_size, hs]
    · intro k hk hk'
      apply Vector.ext
      intro m hm
      have hb := h (4096 * k + m)
      have hdiv : (4096 * k + m) / 4096 = k := by omega
      have hmod : (4096 * k + m) % 4096 = m := by omega
      simpa [byte, hdiv, hmod, Array.getElem?_eq_getElem hk, Array.getElem?_eq_getElem hk'] using hb
  cases ram
  cases ram'
  simp_all

/-! ## Which accesses are refused -/

theorem check_eq_ok_iff {ram : Ram} {addr : UInt32} {len : Nat} :
    ram.check addr len = .ok () ↔ ram.Fits addr len := by
  simp [check]

theorem check_eq_error_iff {ram : Ram} {addr : UInt32} {len : Nat} {e : Error} :
    ram.check addr len = .error e ↔ ¬ ram.Fits addr len ∧ e = .outOfBounds addr len := by
  by_cases h : ram.Fits addr len <;> simp [check, h, eq_comm]

/-- A word access passes exactly when its width is that of a word and its bytes lie in RAM. -/
theorem checkWord_eq_ok_iff {ram : Ram} {addr : UInt32} {len : Nat} :
    ram.checkWord addr len = .ok () ↔ Word.IsWidth len ∧ ram.Fits addr len := by
  by_cases hw : Word.IsWidth len <;> by_cases hf : ram.Fits addr len <;>
    simp [checkWord, Word.checkWidth, check, hw, hf, bind, Except.bind]

/-- A word access is refused for its width, or else for its bounds. -/
theorem checkWord_eq_error_iff {ram : Ram} {addr : UInt32} {len : Nat} {e : Error} :
    ram.checkWord addr len = .error e ↔
      ¬ Word.IsWidth len ∧ e = .badWidth len ∨
        Word.IsWidth len ∧ ram.size < addr.toNat + len ∧ e = .outOfBounds addr len := by
  by_cases hw : Word.IsWidth len
  · have hcheck : ram.checkWord addr len = ram.check addr len := by
      simp [checkWord, Word.checkWidth, hw, bind, Except.bind]
    rw [hcheck, check_eq_error_iff, Fits, Nat.not_le]
    simp [hw]
  · simp [checkWord, Word.checkWidth, hw, bind, Except.bind, eq_comm]

/-- A frame passes exactly when it begins a page and lies in RAM. -/
theorem checkFrame_eq_ok_iff {ram : Ram} {addr : UInt32} :
    ram.checkFrame addr = .ok () ↔ Page.Aligned addr ∧ ram.Fits addr Page.size := by
  by_cases h : Page.Aligned addr <;> simp [checkFrame, h, check_eq_ok_iff]

end Ram

end PagedMemory
