import Mathlib.Data.Nat.Digits.Defs
import PagedMemory.Proofs.ByteStore

/-!
# Words, bytes and frames of RAM

RAM is accessed by words, by runs of bytes and by frames. All of these are one access to bytes that
follow each other: a word is its bytes, lowest first, a fill is the same byte many times, and a frame
is the bytes of a page. An access is refused as a whole, or made as a whole and nowhere else.

- `fits_iff_checkedStop`: the bounds are those that a checked sum of machine words gives;
- `run_write_eq`, `read_eq`, `run_fill_eq`, `run_writeFrame_eq`: each access by the one to its bytes;
- `allOrNothing_perform`: when an access succeeds, and what it leaves alone;
- `accesses_agree`: all of this together.
-/

namespace PagedMemory

/-- An access to RAM. -/
inductive RamAccess
  | read (len : Nat)
  | write (len : Nat) (data : UInt32)
  | readBytes (n : Nat)
  | writeBytes (bytes : List UInt8)
  | fill (n : Nat) (value : UInt8)
  | readFrame
  | writeFrame (contents : Frame)

namespace RamAccess

/-- How many bytes the access covers. -/
def span : RamAccess → Nat
  | read len => len
  | write len _ => len
  | readBytes n => n
  | writeBytes bytes => bytes.length
  | fill n _ => n
  | readFrame => Page.size
  | writeFrame _ => Page.size

/-- The access has the width of a word where it is one to a word, and it is aligned where it is one
to a frame. -/
def Allowed (addr : UInt32) : RamAccess → Prop
  | read len => Word.IsWidth len
  | write len _ => Word.IsWidth len
  | readBytes _ => True
  | writeBytes _ => True
  | fill _ _ => True
  | readFrame => Page.Aligned addr
  | writeFrame _ => Page.Aligned addr

/-- Makes the access at `addr`; what a read answers is dropped. -/
def perform (addr : UInt32) : RamAccess → Op Ram Unit
  | read len => (fun _ => ()) <$> .query (·.read addr len)
  | write len data => Ram.write addr len data
  | readBytes n => (fun _ => ()) <$> .query (·.readBytes addr n)
  | writeBytes bytes => Ram.writeBytes addr bytes
  | fill n value => Ram.fill addr n value
  | readFrame => (fun _ => ()) <$> .query (·.readFrame addr)
  | writeFrame contents => Ram.writeFrame addr contents.toList

end RamAccess

namespace Ram

variable {ram : Ram} {addr : UInt32} {len n : Nat} {bytes : List UInt8}

/-! ## Bounds -/

/-- Where `len` bytes from `addr` on stop, as a sum of 64-bit words. There is none if it wraps. -/
def checkedStop (addr : UInt32) (len : UInt64) : Option UInt64 :=
  let stop := addr.toUInt64 + len
  if stop < len then none else some stop

theorem checkedStop_eq_some_iff {len stop : UInt64} :
    checkedStop addr len = some stop ↔ stop.toNat = addr.toNat + len.toNat := by
  have haddr := addr.toNat_lt
  have hlen := len.toNat_lt
  have hstop := stop.toNat_lt
  have hsum : (addr.toUInt64 + len).toNat = (addr.toNat + len.toNat) % 2 ^ 64 := by
    rw [UInt64.toNat_add, UInt32.toNat_toUInt64]
  rw [checkedStop, Option.ite_none_left_eq_some, Option.some_inj, ← UInt64.toNat_inj,
    UInt64.lt_iff_toNat_lt, hsum]
  omega

/-- An access fits exactly if the checked sum gives an end that RAM reaches. -/
theorem fits_iff_checkedStop {len : UInt64} : ram.Fits addr len.toNat ↔
    ∃ stop, checkedStop addr len = some stop ∧ stop ≤ UInt64.ofNat ram.size := by
  have hsize : ram.size ≤ 2 ^ 32 := ram.size_bounds.2
  have hlimit : (UInt64.ofNat ram.size).toNat = ram.size := by
    rw [UInt64.toNat_ofNat', Nat.mod_eq_of_lt (by omega)]
  simp only [checkedStop_eq_some_iff, UInt64.le_iff_toNat_le, hlimit]
  constructor
  · intro h
    have h : addr.toNat + len.toNat ≤ ram.size := h
    refine ⟨UInt64.ofNat (addr.toNat + len.toNat), ?_⟩
    rw [UInt64.toNat_ofNat', Nat.mod_eq_of_lt (by omega)]
    exact ⟨rfl, h⟩
  · rintro ⟨stop, hstop, hle⟩
    show addr.toNat + len.toNat ≤ ram.size
    omega

/-! ## Words are bytes -/

theorem checkWord_of_isWidth (h : Word.IsWidth len) : ram.checkWord addr len = ram.check addr len := by
  rw [checkWord, Word.checkWidth, if_pos h]
  rfl

/-- The bytes of a word, lowest first. -/
theorem bytes_eq_map (n v : Nat) :
    Word.bytes n v = (List.range n).map fun k => UInt8.ofNat (v / 256 ^ k) := by
  apply List.ext_getElem?
  intro k
  by_cases hk : k < n
  · rw [Word.getElem?_bytes hk, List.getElem?_map, List.getElem?_range hk, Option.map_some]
  · rw [List.getElem?_eq_none (by simpa using hk), List.getElem?_eq_none (by simpa using hk)]

/-- The value of bytes is that of their digits in radix 256, lowest first. -/
theorem ofBytes_eq_ofDigits (bs : List UInt8) :
    Word.ofBytes bs = Nat.ofDigits 256 (bs.map UInt8.toNat) := by
  induction bs with
  | nil => rfl
  | cons b bs ih =>
    rw [Word.ofBytes, List.map_cons, Nat.ofDigits_cons, ih]

/-- A store of a word is one of its bytes. -/
theorem run_write_eq (h : Word.IsWidth len) (data : UInt32) :
    (write addr len data).run ram = (writeBytes addr ((List.range len).map fun k =>
      UInt8.ofNat (data.toNat / 256 ^ k))).run ram := by
  rw [← bytes_eq_map, write, writeBytes, Op.amend, Op.amend]
  simp only [checkWord_of_isWidth h, Word.length_bytes]

/-- A word that is read is the value of the bytes that are read there. -/
theorem read_eq (h : Word.IsWidth len) : (ram.read addr len).map UInt32.toNat =
    (ram.readBytes addr len).map fun bytes => Nat.ofDigits 256 (bytes.map UInt8.toNat) := by
  rw [read, readBytes, checkWord_of_isWidth h]
  cases ram.check addr len with
  | error e => rfl
  | ok u =>
    have hlt := Word.ofBytes_lt (ram.slice addr.toNat len)
    rw [length_slice, Word.values_eq_pow] at hlt
    show Except.ok (UInt32.ofNat _).toNat = Except.ok _
    rw [UInt32.toNat_ofNat', Nat.mod_eq_of_lt (Nat.lt_of_lt_of_le hlt h.pow_le),
      ofBytes_eq_ofDigits]

/-- A fill is a store of the same byte many times. -/
theorem run_fill_eq (n : Nat) (value : UInt8) :
    (fill addr n value).run ram = (writeBytes addr (List.replicate n value)).run ram := by
  rw [fill, writeBytes, Op.amend, Op.amend]
  simp only [List.length_replicate]

/-- The frame at an aligned address is the bytes of its page. -/
theorem readFrame_eq (h : Page.Aligned addr) :
    ram.readFrame addr = ram.readBytes addr Page.size := by
  rw [readFrame, readBytes, checkFrame, if_pos h]

theorem run_writeFrame_eq (h : Page.Aligned addr) (contents : Frame) :
    (writeFrame addr contents.toList).run ram = (writeBytes addr contents.toList).run ram := by
  have hlength : contents.toList.length = Page.size := contents.length_toList
  rw [writeFrame, writeBytes, Op.amend, Op.amend]
  simp only [checkFrame, if_pos h, hlength, List.take_of_length_le hlength.le]

/-! ## All or nothing -/

/-- An access to `span` bytes at `addr` had this outcome: it succeeds if it is allowed and its bytes
lie in RAM. Refused, it leaves RAM as it is; made, it leaves all other bytes as they are. -/
structure AllOrNothing (ram : Ram) (addr : UInt32) (span : Nat) (allowed : Prop)
    (o : Outcome Ram Unit) : Prop where
  succeeds : o.result = .ok () ↔ allowed ∧ addr.toNat + span ≤ ram.size
  refused : ∀ e, o.result = .error e → o.state = ram
  size : o.state.size = ram.size
  outside : ∀ i, i < addr.toNat ∨ addr.toNat + span ≤ i → o.state.byte i = ram.byte i

variable {allowed : Prop}

/-- A read that is checked leaves RAM alone. -/
theorem AllOrNothing.query {α : Type} {check : Except Error Unit} {value : α}
    (h : check = .ok () ↔ allowed ∧ ram.Fits addr n) {f : Ram → Except Error α}
    (hf : f ram = do check; pure value) :
    AllOrNothing ram addr n allowed (((fun _ => ()) <$> (.query f : Op Ram α)).run ram) := by
  rw [Op.run_map, Op.run_query, hf]
  cases check with
  | error e => exact ⟨⟨nofun, fun hfit => nomatch h.2 hfit⟩, fun _ _ => rfl, rfl, fun _ _ => rfl⟩
  | ok u => exact ⟨⟨fun _ => h.1 rfl, fun _ => rfl⟩, fun _ _ => rfl, rfl, fun _ _ => rfl⟩

/-- A store that is checked changes its own bytes, or none. -/
theorem AllOrNothing.amend {check : Ram → Except Error Unit}
    (h : check ram = .ok () ↔ allowed ∧ ram.Fits addr n) (hlength : bytes.length = n) :
    AllOrNothing ram addr n allowed ((Op.amend check (·.store addr.toNat bytes)).run ram) := by
  subst hlength
  cases hc : check ram with
  | error e =>
    rw [Op.run_amend_error hc]
    exact ⟨⟨nofun, fun hfit => nomatch hc.symm.trans (h.2 hfit)⟩, fun _ _ => rfl, rfl,
      fun _ _ => rfl⟩
  | ok u =>
    have hfit := h.1 hc
    rw [Op.run_amend_ok hc]
    exact ⟨⟨fun _ => hfit, fun _ => rfl⟩, nofun, size_store _ _ _,
      fun i hi => byte_store_of_outside hfit.2 hi⟩

/-- Every access is made as a whole or refused as a whole. -/
theorem allOrNothing_perform (ram : Ram) (addr : UInt32) (access : RamAccess) :
    AllOrNothing ram addr access.span (access.Allowed addr) ((access.perform addr).run ram) := by
  have hcheck : ∀ n, ram.check addr n = .ok () ↔ True ∧ ram.Fits addr n := by
    intro n
    rw [check_eq_ok_iff, true_and]
  cases access with
  | read len => exact .query checkWord_eq_ok_iff rfl
  | write len data => exact .amend checkWord_eq_ok_iff (Word.length_bytes len data.toNat)
  | readBytes n => exact .query (hcheck n) rfl
  | writeBytes bytes => exact .amend (hcheck bytes.length) rfl
  | fill n value => exact .amend (hcheck n) List.length_replicate
  | readFrame => exact .query checkFrame_eq_ok_iff rfl
  | writeFrame contents =>
    refine .amend checkFrame_eq_ok_iff ?_
    rw [List.length_take, contents.length_toList]
    rfl

/-- A word is stored as its bytes are, lowest first, and its value is that of the bytes that are
read there; a fill stores the same byte many times; and the frame at an aligned address is the bytes
of its page, to be read and to be stored. Every access to words, bytes or frames succeeds exactly if
it has the width of a word, or the alignment of a frame, where it needs one, and its bytes lie in
RAM; a refused access changes nothing, and no other byte is changed by any. Whether bytes lie in RAM
is told by a sum of machine words that may not wrap. -/
theorem accesses_agree (ram : Ram) (addr : UInt32) :
    (∀ len, Word.IsWidth len →
      (∀ data : UInt32, (write addr len data).run ram = (writeBytes addr ((List.range len).map
        fun k => UInt8.ofNat (data.toNat / 256 ^ k))).run ram) ∧
      (ram.read addr len).map UInt32.toNat =
        (ram.readBytes addr len).map fun bytes => Nat.ofDigits 256 (bytes.map UInt8.toNat)) ∧
    (∀ (n : Nat) (value : UInt8),
      (fill addr n value).run ram = (writeBytes addr (List.replicate n value)).run ram) ∧
    (Page.Aligned addr → ram.readFrame addr = ram.readBytes addr Page.size ∧
      ∀ contents : Frame,
        (writeFrame addr contents.toList).run ram = (writeBytes addr contents.toList).run ram) ∧
    (∀ access : RamAccess,
      AllOrNothing ram addr access.span (access.Allowed addr) ((access.perform addr).run ram)) ∧
    ∀ len : UInt64, addr.toNat + len.toNat ≤ ram.size ↔
      ∃ stop, checkedStop addr len = some stop ∧ stop ≤ UInt64.ofNat ram.size :=
  ⟨fun _ h => ⟨run_write_eq h, read_eq h⟩, run_fill_eq,
    fun h => ⟨readFrame_eq h, run_writeFrame_eq h⟩, allOrNothing_perform ram addr,
    fun _ => fits_iff_checkedStop⟩

/-- The last word of 8 KiB of RAM, and a word that ends one byte behind it. -/
theorem accesses_agree_lastWord : ∃ ram : Ram, ram.size = 8192 ∧
    (write 8188 4 0x12345678).run ram = (writeBytes 8188 [0x78, 0x56, 0x34, 0x12]).run ram ∧
    ((write 8188 4 0x12345678).run ram).result = .ok () ∧
    ((write 8189 4 0x12345678).run ram).result ≠ .ok () ∧
    ram.readFrame 4096 = ram.readBytes 4096 4096 := by
  obtain ⟨ram, hram⟩ : ∃ ram, zeroed 8192 = .ok ram := ⟨_, rfl⟩
  have hsize := size_of_zeroed hram
  obtain ⟨hwords, -, -, haccess, -⟩ := accesses_agree ram 8188
  obtain ⟨-, -, -, hbeyond, -⟩ := accesses_agree ram 8189
  obtain ⟨-, -, hframes, -⟩ := accesses_agree ram 4096
  have hwidth : Word.IsWidth 4 := .inr (.inr rfl)
  refine ⟨ram, hsize, (hwords 4 hwidth).1 0x12345678, ?_, ?_, (hframes (by decide)).1⟩
  · refine (haccess (.write 4 0x12345678)).succeeds.2 ⟨hwidth, ?_⟩
    rw [hsize]
    decide
  · intro hok
    have hfit := ((hbeyond (.write 4 0x12345678)).succeeds.1 hok).2
    rw [hsize] at hfit
    exact absurd hfit (by decide)

end Ram

end PagedMemory
