import Mathlib.Algebra.BigOperators.Ring.Finset
import PagedMemory.Proofs.Contracts
import PagedMemory.Proofs.ReadBack

/-!
# Wide accesses are made of byte accesses

A read or a write of a word at a virtual address does what reads or writes of its bytes do, one
after the other. Each of these walks the tables anew, and finds them with the marks of the walks
before it and with the bytes that were written meanwhile; still it takes the same way, since all the
bytes lie on one page. An access for which this is not so is refused before anything else.

- `target_add`, `marked_add`: the bytes of a page are led side by side;
- `marked_store_marked`: the walk after a walk has nothing left to mark;
- `collect_bytes`: accesses to the bytes of a word, one after the other;
- `access_composed`: wide reads, wide writes, and accesses that are refused.
-/

namespace PagedMemory

namespace Page

variable {vaddr : UInt32} {len k : Nat}

/-- The bytes of an access lie on one page, and their addresses do not wrap. -/
theorem Within.toNat_add (hw : Within vaddr len) (hk : k < len) :
    (vaddr + UInt32.ofNat k).toNat = vaddr.toNat + k := by
  have hlt := vaddr.toNat_lt
  have hlen := within_iff.1 hw
  rw [UInt32.toNat_add, UInt32.toNat_ofNat']
  omega

theorem Within.number_add (hw : Within vaddr len) (hk : k < len) :
    number (vaddr + UInt32.ofNat k) = number vaddr := by
  have hlen := within_iff.1 hw
  rw [number, hw.toNat_add hk, number]
  omega

/-- Each byte of an access that stays on its page stays there. -/
theorem Within.byte (hw : Within vaddr len) (hk : k < len) :
    Within (vaddr + UInt32.ofNat k) 1 := by
  rw [within_iff, hw.toNat_add hk]
  omega

/-- An access with at least one byte stays on its page exactly when all of its bytes do. -/
theorem not_within_iff :
    ¬ Within vaddr len ↔ ∃ k < len, (vaddr.toNat + k) / size ≠ vaddr.toNat / size := by
  rw [within_iff, size]
  constructor
  · intro h
    exact ⟨len - 1, by omega, by omega⟩
  · rintro ⟨k, hk, hne⟩
    omega

end Page

namespace Word

/-- The byte of a word at place `k`, counted from the lowest. -/
def byteAt (data : UInt32) (k : Nat) : UInt32 := UInt32.ofNat (data.toNat / 256 ^ k % 256)

theorem IsWidth.pos {len : Nat} (h : IsWidth len) : 0 < len := by
  rcases h with rfl | rfl | rfl <;> decide

/-- One more byte of a number. -/
theorem bytes_concat (n v : Nat) : bytes (n + 1) v = bytes n v ++ [UInt8.ofNat (v / 256 ^ n)] := by
  induction n generalizing v with
  | zero => rw [Nat.pow_zero, Nat.div_one]; rfl
  | succ n ih =>
    rw [bytes, ih, Nat.div_div_eq_div_mul, ← Nat.pow_succ', bytes, List.cons_append]

theorem bytes_byteAt (data : UInt32) (k : Nat) :
    bytes 1 (byteAt data k).toNat = [UInt8.ofNat (data.toNat / 256 ^ k)] := by
  rw [bytes, bytes, byteAt, UInt32.toNat_ofNat', List.cons.injEq, ← UInt8.toNat_inj,
    UInt8.toNat_ofNat', UInt8.toNat_ofNat']
  exact ⟨by omega, rfl⟩

end Word

namespace Ram

variable {ram ram' : Ram} {regs : Registers} {vaddr p : UInt32} {tracking : Tracking}
  {access : Access} {len k : Nat}

/-! ## Bytes one after the other -/

/-- Storing bytes in two parts. -/
theorem store_append (ram : Ram) (i : Nat) (bs cs : List UInt8) :
    ram.store i (bs ++ cs) = (ram.store i bs).store (i + bs.length) cs := by
  induction bs generalizing ram i with
  | nil => rfl
  | cons b bs ih =>
    rw [List.cons_append, store, store, ih, List.length_cons, Nat.add_assoc, Nat.add_comm 1]

/-- A word is the sum of its bytes, each at its place. -/
theorem ofBytes_slice (ram : Ram) (i n : Nat) :
    Word.ofBytes (ram.slice i n) = ∑ k ∈ Finset.range n, 256 ^ k * (ram.byte (i + k)).toNat := by
  induction n generalizing i with
  | zero => rfl
  | succ n ih =>
    rw [slice_succ, Word.ofBytes, ih, Finset.sum_range_succ', Nat.pow_zero, Nat.one_mul,
      Nat.add_zero, Nat.add_comm, Finset.mul_sum]
    congr 1
    refine Finset.sum_congr rfl fun k _ => ?_
    rw [← Nat.mul_assoc, ← Nat.pow_succ', Nat.add_assoc, Nat.add_comm 1]

/-! ## The bytes of a page are led side by side -/

/-- The entries that are consulted for an address depend on its page alone. -/
theorem consulted_congr {a b : UInt32} (h : Page.number a = Page.number b) :
    ram.consulted regs a = ram.consulted regs b := by
  obtain ⟨hdirectory, htable⟩ := Page.number_eq_iff.1 h
  rw [consulted, consulted, pde_congr h, Entry.directorySlot, Entry.directorySlot, hdirectory,
    Entry.tableSlot, Entry.tableSlot, htable]

/-- So do the marks. -/
theorem marked_congr {a b : UInt32} (h : Page.number a = Page.number b) :
    ram.marked regs tracking access a = ram.marked regs tracking access b := by
  obtain ⟨hdirectory, htable⟩ := Page.number_eq_iff.1 h
  simp only [marked, tracked, pde_congr h, pte_congr h, Entry.directorySlot, Entry.tableSlot,
    hdirectory, htable]

/-- The bytes of an access that stays on its page are led to bytes that follow each other. -/
theorem target_add (h : ram.target regs vaddr = .ok p) (hw : Page.Within vaddr len)
    (hk : k < len) : ram.target regs (vaddr + UInt32.ofNat k) = .ok (p + UInt32.ofNat k) := by
  unfold target at h ⊢
  by_cases hp : regs.pagingEnabled = true
  · rw [if_pos hp] at h ⊢
    have hnumber := hw.number_add hk
    obtain ⟨hdirectory, htable⟩ := Page.number_eq_iff.1 hnumber
    obtain ⟨hd, hpresent, ht, hpresent', rfl⟩ := path_eq_ok_iff.1 h
    refine path_eq_ok_iff.2 ?_
    rw [pde_congr hnumber, pte_congr hnumber, Entry.directorySlot, Entry.tableSlot, hdirectory,
      htable]
    refine ⟨hd, hpresent, ht, hpresent', ?_⟩
    have hlen := Page.within_iff.1 hw
    have hframe := (Entry.aligned_frame (ram.pte regs.directory vaddr)).toNat_eq
    have hlt := (ram.pte regs.directory vaddr).frame.toNat_lt
    rw [← UInt32.toNat_inj, UInt32.toNat_add, UInt32.toNat_ofNat', Entry.toNat_resolve,
      Entry.toNat_resolve, hw.toNat_add hk]
    omega
  · rw [if_neg hp] at h ⊢
    cases h
    rfl

/-! ## Walks after walks -/

/-- The bits that a translation sets depend on the entries that it consults. -/
theorem marksAt_congr (h : ram'.consulted regs vaddr = ram.consulted regs vaddr) (b : Nat) :
    ram'.marksAt regs tracking access vaddr b = ram.marksAt regs tracking access vaddr b := by
  unfold consulted at h
  unfold marksAt
  by_cases hp : regs.pagingEnabled = true
  · rw [if_pos hp, if_pos hp] at h
    rw [(List.cons.inj (List.cons.inj h).2).1]
  · rw [if_neg fun hand => hp hand.1, if_neg fun hand => hp hand.1]

/-- A translation finds its marks set if there was the same before, and nothing was stored since but
beside the entries that it consults. -/
theorem marked_store_marked (h : ram.target regs vaddr = .ok p) {i : Nat} {bytes : List UInt8}
    (hfit : i + bytes.length ≤ ram.size)
    (happart : ∀ slot ∈ ram.consulted regs vaddr,
      i + bytes.length ≤ slot.toNat ∨ slot.toNat + 4 ≤ i) :
    ((ram.marked regs tracking access vaddr).store i bytes).marked regs tracking access vaddr =
      (ram.marked regs tracking access vaddr).store i bytes := by
  obtain ⟨htarget, hconsulted⟩ := target_marked_store h tracking access hfit happart
  refine ext_byte (size_marked ..) fun b => ?_
  rw [byte_marked htarget, marksAt_congr hconsulted]
  have hfit : i + bytes.length ≤ (ram.marked regs tracking access vaddr).size := by
    rwa [size_marked]
  by_cases hb : b < i ∨ i + bytes.length ≤ b
  · rw [byte_store_of_outside hfit hb, byte_marked h, UInt8.or_assoc, UInt8.or_self]
  · have hmarks : ram.marksAt regs tracking access vaddr b = 0 := by
      refine marksAt_eq_zero fun slot hslot => ?_
      have happart := happart slot hslot
      omega
    rw [hmarks, UInt8.or_zero]

end Ram

/-! ## Who refuses what -/

namespace Op

variable {σ τ ι α β : Type} {op : Op σ α} {f : α → Op σ β}

/-- The operation never ends with the error of an access that crosses a page. -/
def Crossless (op : Op σ α) : Prop := ∀ s a n, (op.run s).result ≠ .error (.crossesPage a n)

theorem Crossless.pure (a : α) : (pure a : Op σ α).Crossless := fun _ _ _ => nofun

theorem Crossless.bind (h : op.Crossless) (hf : ∀ a, (f a).Crossless) : (op >>= f).Crossless := by
  intro s a n
  have h := h s a n
  rw [run_bind]
  rcases hop : op.run s with ⟨e | b, s', es⟩
  · rw [hop] at h
    exact fun he => h (congrArg Except.error (Except.error.inj he))
  · exact hf b s' a n

theorem Crossless.within {split : σ → τ × ι} {join : τ → ι → σ} {op : Op τ α}
    (h : op.Crossless) : (op.within split join).Crossless :=
  fun s => h (split s).1

end Op

namespace Bus

variable {δ : Type} [Device δ]

/-- The check of the bus knows nothing of pages. -/
theorem checkWord_ne_crossesPage {ram : Ram} {addr : UInt32} {len : Nat} {e : Error}
    (h : ram.checkWord addr len = .error e) (a : UInt32) (n : Nat) : e ≠ .crossesPage a n := by
  rcases Ram.checkWord_eq_error_iff.1 h with ⟨-, rfl⟩ | ⟨-, -, rfl⟩ <;> exact nofun

theorem crossless_read (addr : UInt32) (len : Nat) :
    (read addr len : Op (Bus δ) UInt32).Crossless := by
  intro bus a n
  cases hc : bus.ram.checkWord addr len with
  | error e =>
    rw [run_read_of_refused hc]
    exact fun h => checkWord_ne_crossesPage hc a n (Except.error.inj h)
  | ok u =>
    cases hf : bus.table.find? addr with
    | none => rw [run_read_of_not_find hc hf]; exact nofun
    | some found => rw [run_read_of_find hc hf]; exact nofun

theorem crossless_write (addr : UInt32) (len : Nat) (data : UInt32) :
    (write addr len data : Op (Bus δ) Unit).Crossless := by
  intro bus a n
  cases hc : bus.ram.checkWord addr len with
  | error e =>
    rw [run_write_of_refused hc]
    exact fun h => checkWord_ne_crossesPage hc a n (Except.error.inj h)
  | ok u =>
    cases hf : bus.table.find? addr with
    | none => rw [run_write_of_not_find hc hf]; exact nofun
    | some found => rw [run_write_of_find hc hf]; exact nofun

theorem crossless_fetch (level : Level) (vaddr slot : UInt32) :
    (fetch level vaddr slot : Op (Bus δ) Entry).Crossless := by
  refine (crossless_read slot 4).bind fun bits => ?_
  dsimp only
  split
  · exact .pure _
  · exact fun _ _ _ => nofun

theorem crossless_track (tracking : Tracking) (slot : UInt32) (entry marked : Entry) :
    (track tracking slot entry marked : Op (Bus δ) Unit).Crossless := by
  cases tracking with
  | discard => exact .pure ()
  | writeBack =>
    show (if marked = entry then pure () else write slot 4 marked.bits : Op (Bus δ) Unit).Crossless
    split
    · exact .pure ()
    · exact crossless_write slot 4 marked.bits

/-- A translation takes an address by itself. -/
theorem crossless_translate (regs : Registers) (tracking : Tracking) (access : Access)
    (vaddr : UInt32) : (translate regs tracking access vaddr : Op (Bus δ) UInt32).Crossless := by
  unfold translate
  split
  · refine (crossless_fetch _ _ _).bind fun pde => (crossless_fetch _ _ _).bind fun pte => ?_
    refine (crossless_track _ _ _ _).bind fun _ => (crossless_track _ _ _ _).bind fun _ => ?_
    exact Op.Crossless.bind (fun _ _ _ => nofun) fun _ => .pure _
  · exact .pure vaddr

end Bus

namespace Machine

open Ram

variable {δ α β : Type} {m : Machine δ} {regs : Registers} {vaddr p v : UInt32} {access : Access}
  {len : Nat}

/-! ## Accesses to the bytes of a word -/

/-- The machine with this RAM. -/
def withRam (m : Machine δ) (ram : Ram) : Machine δ := ⟨⟨ram, m.bus.table⟩, m.tracking⟩

/-- An access that stays on its page is led into RAM, where no device serves its bytes or the
entries that are consulted. -/
structure Unserved (m : Machine δ) (regs : Registers) (vaddr : UInt32) (len : Nat)
    (p : UInt32) : Prop where
  within : Page.Within vaddr len
  target : m.bus.ram.target regs vaddr = .ok p
  fits : m.bus.ram.Fits p len
  slots : ∀ slot ∈ m.bus.ram.consulted regs vaddr, m.bus.Unclaimed slot
  bytes : ∀ b : UInt32, p.toNat ≤ b.toNat → b.toNat < p.toNat + len → m.bus.Unclaimed b

/-- In this RAM the address is led as in the RAM of the machine, by the same entries, and a
translation would leave `after`. -/
structure Onward (m : Machine δ) (regs : Registers) (access : Access) (vaddr p : UInt32)
    (ram after : Ram) : Prop where
  size : ram.size = m.bus.ram.size
  target : ram.target regs vaddr = .ok p
  consulted : ram.consulted regs vaddr = m.bus.ram.consulted regs vaddr
  marked : ram.marked regs m.tracking access vaddr = after

namespace Unserved

variable {ram after : Ram} {k : Nat}

/-- Bytes of RAM do not wrap. -/
theorem toNat_add (h : Unserved m regs vaddr len p) (hk : k < len) :
    (p + UInt32.ofNat k).toNat = p.toNat + k := by
  have hfits := h.fits
  have hsize := m.bus.ram.size_bounds.2
  rw [Fits] at hfits
  rw [UInt32.size] at hsize
  rw [UInt32.toNat_add, UInt32.toNat_ofNat']
  omega

theorem unclaimed (h : Unserved m regs vaddr len p) (hlen : 0 < len) : m.bus.Unclaimed p :=
  h.bytes p (Nat.le_refl _) (Nat.lt_add_of_pos_right hlen)

theorem checkWord (h : Unserved m regs vaddr len p) (hwidth : Word.IsWidth len) :
    m.bus.ram.checkWord p len = .ok () :=
  checkWord_eq_ok_iff.2 ⟨hwidth, h.fits⟩

/-- What holds of an access holds of each of its bytes, in RAM that leads the same way. -/
theorem byte (h : Unserved m regs vaddr len p) (hon : Onward m regs access vaddr p ram after)
    (hk : k < len) : Unserved (m.withRam ram) regs (vaddr + UInt32.ofNat k) 1
      (p + UInt32.ofNat k) where
  within := h.within.byte hk
  target := target_add hon.target h.within hk
  fits := by
    have hfits := h.fits
    rw [Fits] at hfits
    rw [Fits, h.toNat_add hk, show (m.withRam ram).bus.ram.size = _ from hon.size]
    omega
  slots := by
    show ∀ slot ∈ ram.consulted regs (vaddr + UInt32.ofNat k), m.bus.Unclaimed slot
    rw [consulted_congr (h.within.number_add hk), hon.consulted]
    exact h.slots
  bytes b hb hb' := by
    rw [h.toNat_add hk] at hb hb'
    exact h.bytes b (by omega) (by omega)

/-- The marks of an access are those of each of its bytes. -/
theorem marked_byte (h : Unserved m regs vaddr len p)
    (hon : Onward m regs access vaddr p ram after) (hk : k < len) :
    ram.marked regs m.tracking access (vaddr + UInt32.ofNat k) = after := by
  rw [marked_congr (h.within.number_add hk), hon.marked]

/-- Neither the marks of a translation nor bytes that are stored beside the entries that it consults
lead a later one astray, and it has nothing left to mark. -/
theorem onward_store (h : Unserved m regs vaddr len p) (access : Access) (i : Nat)
    (bytes : List UInt8) (hfit : i + bytes.length ≤ m.bus.ram.size)
    (happart : ∀ slot ∈ m.bus.ram.consulted regs vaddr,
      i + bytes.length ≤ slot.toNat ∨ slot.toNat + 4 ≤ i) :
    let ram := (m.bus.ram.marked regs m.tracking access vaddr).store i bytes
    Onward m regs access vaddr p ram ram := by
  obtain ⟨htarget, hconsulted⟩ := target_marked_store h.target m.tracking access hfit happart
  exact ⟨by rw [size_store, size_marked], htarget, hconsulted,
    marked_store_marked h.target hfit happart⟩

/-- Accesses to the bytes of a word, one after the other. Access `k` finds RAM that leads its way,
and with the marks of its translation it is `rams k`; it leaves `rams (k + 1)`, which leads the same
way and has all the marks. -/
theorem collect_bytes {f : Nat → Op (Machine δ) β} (rams : Nat → Ram) (value : Nat → β)
    (hstart : Onward m regs access vaddr p m.bus.ram (rams 0))
    (hmarked : ∀ k ≤ len, Onward m regs access vaddr p (rams k) (rams k))
    (hstep : ∀ k < len, ∀ ram, Onward m regs access vaddr p ram (rams k) →
      ∃ es, (f k).run (m.withRam ram) = ⟨.ok (value k), m.withRam (rams (k + 1)), es⟩)
    (hlen : 0 < len) :
    ∃ es, (Op.collect f (List.range len)).run m =
      ⟨.ok ((List.range len).map value), m.withRam (rams len), es⟩ := by
  -- before the first access the marks may be missing, and after that they are there
  have hloop := Op.Meets.collect_range (f := f) (n := len) (E := fun _ _ => False)
    (I := fun k done s => done = (List.range k).map value ∧ ∃ ram, s = m.withRam ram ∧
      Onward m regs access vaddr p ram (rams k) ∧ (0 < k → ram = rams k)) ?_
  · obtain ⟨_, _, es, hrun, rfl, ram, rfl, -, hram⟩ := hloop.succeeds (s := m)
      ⟨rfl, m.bus.ram, rfl, hstart, fun h => absurd h (Nat.lt_irrefl 0)⟩ fun _ _ h => h
    exact ⟨es, by rw [hrun, hram hlen]⟩
  · rintro k hk done
    refine Op.Meets.of_states ?_
    rintro _ ⟨rfl, ram, rfl, hon, -⟩ _ rfl
    obtain ⟨es, hrun⟩ := hstep k hk ram hon
    rw [hrun]
    refine ⟨?_, _, rfl, hmarked (k + 1) hk, fun _ => rfl⟩
    rw [List.range_succ, List.map_append, List.map_singleton]

variable [Device δ]

theorem run_read (h : Unserved m regs vaddr len p) (hwidth : Word.IsWidth len) :
    let ram := m.bus.ram.marked regs m.tracking .read vaddr
    ∃ es, (read regs vaddr len).run m =
      ⟨.ok (UInt32.ofNat (Word.ofBytes (ram.slice p.toNat len))), m.withRam ram, es⟩ := by
  have hp := h.unclaimed hwidth.pos
  obtain ⟨hresult, hstate⟩ := run_read_of_check h.within h.slots h.target hp (h.checkWord hwidth)
  exact ⟨_, Outcome.ext hresult hstate rfl⟩

theorem run_write (h : Unserved m regs vaddr len p) (hwidth : Word.IsWidth len) (data : UInt32) :
    let ram := m.bus.ram.marked regs m.tracking .write vaddr
    ∃ es, (write regs vaddr len data).run m =
      ⟨.ok (), m.withRam (ram.store p.toNat (Word.bytes len data.toNat)), es⟩ := by
  have hp := h.unclaimed hwidth.pos
  obtain ⟨hresult, hstate⟩ :=
    run_write_of_check h.within h.slots h.target hp (h.checkWord hwidth) data
  exact ⟨_, Outcome.ext hresult hstate rfl⟩

/-- The reads of the bytes, one after the other: the first of them leaves the marks. -/
theorem run_read_bytes (h : Unserved m regs vaddr len p) (hlen : 0 < len) :
    let ram := m.bus.ram.marked regs m.tracking .read vaddr
    ∃ es, (Op.collect (fun k => read regs (vaddr + UInt32.ofNat k) 1) (List.range len)).run m =
      ⟨.ok ((List.range len).map fun k => UInt32.ofNat (ram.byte (p.toNat + k)).toNat),
        m.withRam ram, es⟩ := by
  intro ram
  have hmarked : Onward m regs .read vaddr p ram ram :=
    h.onward_store .read 0 [] (Nat.zero_le _) fun _ _ => .inl (Nat.zero_le _)
  refine collect_bytes (fun _ => ram) _ ⟨rfl, h.target, rfl, rfl⟩ (fun _ _ => hmarked) ?_ hlen
  intro k hk ram' hon
  obtain ⟨es, hrun⟩ := (h.byte hon hk).run_read (.inl rfl)
  rw [show (m.withRam ram').bus.ram.marked regs (m.withRam ram').tracking .read
    (vaddr + UInt32.ofNat k) = ram from h.marked_byte hon hk, h.toNat_add hk] at hrun
  exact ⟨es, hrun⟩

/-- The writes of the bytes, one after the other: the first of them leaves the marks. -/
theorem run_write_bytes (h : Unserved m regs vaddr len p) (hlen : 0 < len)
    (happart : ∀ slot ∈ m.bus.ram.consulted regs vaddr,
      p.toNat + len ≤ slot.toNat ∨ slot.toNat + 4 ≤ p.toNat) (data : UInt32) :
    let ram := m.bus.ram.marked regs m.tracking .write vaddr
    ∃ es, (Op.each (fun k => write regs (vaddr + UInt32.ofNat k) 1 (Word.byteAt data k))
        (List.range len)).run m =
      ⟨.ok (), m.withRam (ram.store p.toNat (Word.bytes len data.toNat)), es⟩ := by
  intro ram
  let rams : Nat → Ram := fun k => ram.store p.toNat (Word.bytes k data.toNat)
  have hmarked : ∀ k ≤ len, Onward m regs .write vaddr p (rams k) (rams k) := by
    intro k hk
    refine h.onward_store .write p.toNat (Word.bytes k data.toNat) ?_ fun slot hslot => ?_
    · rw [Word.length_bytes]
      exact (Nat.add_le_add_left hk _).trans h.fits
    · rw [Word.length_bytes]
      have happart := happart slot hslot
      omega
  have hstep : ∀ k < len, ∀ ram', Onward m regs .write vaddr p ram' (rams k) →
      ∃ es, (write regs (vaddr + UInt32.ofNat k) 1 (Word.byteAt data k)).run (m.withRam ram') =
        ⟨.ok (), m.withRam (rams (k + 1)), es⟩ := by
    intro k hk ram' hon
    obtain ⟨es, hrun⟩ := (h.byte hon hk).run_write (.inl rfl) (Word.byteAt data k)
    have hnext : (rams k).store (p.toNat + k) [UInt8.ofNat (data.toNat / 256 ^ k)] =
        rams (k + 1) := by
      show _ = ram.store p.toNat (Word.bytes (k + 1) data.toNat)
      rw [Word.bytes_concat, store_append, Word.length_bytes]
    rw [show (m.withRam ram').bus.ram.marked regs (m.withRam ram').tracking .write
      (vaddr + UInt32.ofNat k) = rams k from h.marked_byte hon hk, h.toNat_add hk,
      Word.bytes_byteAt, hnext] at hrun
    exact ⟨es, hrun⟩
  obtain ⟨es, hrun⟩ := collect_bytes rams (fun _ => ()) ⟨rfl, h.target, rfl, rfl⟩ hmarked hstep
    hlen
  refine ⟨es, ?_⟩
  rw [Op.each, Op.run_bind, hrun, Outcome.andThen_ok, Op.run_pure, Outcome.after_mk,
    List.append_nil]

end Unserved

variable [Device δ]

/-! ## Accesses that are refused -/

/-- How an access ends as to the pages of its bytes: it is refused if they do not all lie on one,
before RAM or a device is reached, and for no other reason does it end with that error. -/
structure MindsPages (m : Machine δ) (vaddr : UInt32) (len : Nat)
    (o : Outcome (Machine δ) α) : Prop where
  refused : (∃ k < len, (vaddr.toNat + k) / Page.size ≠ vaddr.toNat / Page.size) →
    o = ⟨.error (.crossesPage vaddr len), m, [.crossingRefused vaddr len]⟩
  only : ∀ a n, o.result = .error (.crossesPage a n) →
    ∃ k < len, (vaddr.toNat + k) / Page.size ≠ vaddr.toNat / Page.size

theorem mindsPages {f : UInt32 → Op (Bus δ) α} (hf : ∀ p, (f p).Crossless) (m : Machine δ)
    (regs : Registers) (access : Access) (vaddr : UInt32) (len : Nat) :
    MindsPages m vaddr len
      ((do checkCrossing vaddr len
           let p ← translate regs access vaddr
           onBus (f p) : Op (Machine δ) α).run m) := by
  by_cases hw : Page.Within vaddr len
  · have hrest : (do let p ← translate regs access vaddr
                     onBus (f p) : Op (Machine δ) α).Crossless := by
      refine Op.Crossless.bind ?_ fun p => (hf p).within
      refine Op.Crossless.bind (fun _ _ _ => nofun) fun tracking => ?_
      exact (Bus.crossless_translate regs tracking access vaddr).within
    constructor
    · intro hcross
      exact absurd hw (Page.not_within_iff.2 hcross)
    · intro a n hresult
      rw [Op.run_bind, checkCrossing, if_pos hw] at hresult
      exact absurd hresult (hrest m a n)
  · constructor
    · intro _
      rw [Op.run_bind, checkCrossing, if_neg hw]
      rfl
    · exact fun _ _ _ => Page.not_within_iff.1 hw

/-! ## Wide accesses -/

/-- Reads of the bytes of a word, one after the other, succeed; `v` is the sum of their answers, each
at its place; and they leave the state that a read of the word leaves. -/
structure ReadsByBytes (m : Machine δ) (regs : Registers) (vaddr : UInt32) (len : Nat)
    (v : UInt32) : Prop where
  values : ∃ value : Nat → UInt32,
    ((Op.collect (fun k => read regs (vaddr + UInt32.ofNat k) 1) (List.range len)).run m).result =
        .ok ((List.range len).map value) ∧
      v.toNat = ∑ k ∈ Finset.range len, 256 ^ k * (value k).toNat
  state :
    ((Op.collect (fun k => read regs (vaddr + UInt32.ofNat k) 1) (List.range len)).run m).state =
      ((read regs vaddr len).run m).state

/-- A write of a word succeeds, and so do writes of its bytes, one after the other, which leave the
same state. -/
structure WritesByBytes (m : Machine δ) (regs : Registers) (vaddr : UInt32) (len : Nat)
    (data : UInt32) : Prop where
  wide : ((write regs vaddr len data).run m).result = .ok ()
  bytes : ((Op.each (fun k => write regs (vaddr + UInt32.ofNat k) 1 (Word.byteAt data k))
    (List.range len)).run m).result = .ok ()
  state : ((Op.each (fun k => write regs (vaddr + UInt32.ofNat k) 1 (Word.byteAt data k))
    (List.range len)).run m).state = ((write regs vaddr len data).run m).state

theorem Unserved.readsByBytes (h : Unserved m regs vaddr len p) (hwidth : Word.IsWidth len)
    (hok : ((read regs vaddr len).run m).result = .ok v) : ReadsByBytes m regs vaddr len v := by
  obtain ⟨es, hwide⟩ := h.run_read hwidth
  obtain ⟨es', hbytes⟩ := h.run_read_bytes hwidth.pos
  rw [hwide] at hok
  cases hok
  constructor
  case values =>
    refine ⟨_, by rw [hbytes], ?_⟩
    have hlt := Word.ofBytes_lt
      ((m.bus.ram.marked regs m.tracking .read vaddr).slice p.toNat len)
    rw [length_slice, Word.values_eq_pow] at hlt
    rw [UInt32.toNat_ofNat', Nat.mod_eq_of_lt (Nat.lt_of_lt_of_le hlt hwidth.pow_le),
      ofBytes_slice]
    refine Finset.sum_congr rfl fun k _ => ?_
    have hbyte := ((m.bus.ram.marked regs m.tracking .read vaddr).byte (p.toNat + k)).toNat_lt
    rw [UInt32.toNat_ofNat', Nat.mod_eq_of_lt (by omega)]
  case state => rw [hbytes, hwide]

theorem Unserved.writesByBytes (h : Unserved m regs vaddr len p) (hwidth : Word.IsWidth len)
    (happart : ∀ slot ∈ m.bus.ram.consulted regs vaddr,
      p.toNat + len ≤ slot.toNat ∨ slot.toNat + 4 ≤ p.toNat) (data : UInt32) :
    WritesByBytes m regs vaddr len data := by
  obtain ⟨es, hwide⟩ := h.run_write hwidth data
  obtain ⟨es', hbytes⟩ := h.run_write_bytes hwidth.pos happart data
  constructor
  case wide => rw [hwide]
  case bytes => rw [hbytes]
  case state => rw [hbytes, hwide]

/-- Wide accesses are made of byte accesses, with any devices, in either tracking, with paging on or
off and whatever the tables are. This goes for reads of two or four bytes that succeed where no
device serves the bytes or the entries that are consulted, and for writes there whose bytes are not
part of these entries. An access whose bytes do not all lie on one page is refused for that, and no
other is. -/
theorem access_composed (m : Machine δ) (regs : Registers) (vaddr : UInt32) :
    (∀ (len : Nat) (v p : UInt32), len = 2 ∨ len = 4 →
      ((read regs vaddr len).run m).result = .ok v →
      ((translate regs .read vaddr).run m).result = .ok p →
      (∀ b : UInt32, p.toNat ≤ b.toNat → b.toNat < p.toNat + len →
        ∀ region ∈ m.bus.table.regions, b ∉ region.range) →
      (∀ slot ∈ m.bus.ram.consulted regs vaddr,
        ∀ region ∈ m.bus.table.regions, slot ∉ region.range) →
      ReadsByBytes m regs vaddr len v ∧
        ((∀ slot ∈ m.bus.ram.consulted regs vaddr,
            p.toNat + len ≤ slot.toNat ∨ slot.toNat + 4 ≤ p.toNat) →
          ∀ data, WritesByBytes m regs vaddr len data)) ∧
    ∀ (len : Nat) (data : UInt32),
      MindsPages m vaddr len ((read regs vaddr len).run m) ∧
        MindsPages m vaddr len ((write regs vaddr len data).run m) := by
  constructor
  · intro len v p hlen hok hp hbytes hslots
    have hwidth : Word.IsWidth len := .inr hlen
    have htarget := (result_translate hslots .read).symm.trans hp
    have hc : m.bus.ram.checkWord p len = .ok () :=
      checkWord_of_ok (fun _ _ hc => by rw [Bus.run_read_of_refused hc]) hok hslots htarget
    have h : Unserved m regs vaddr len p :=
      ⟨within_of_ok hok, htarget, (checkWord_eq_ok_iff.1 hc).2, hslots, hbytes⟩
    exact ⟨h.readsByBytes hwidth hok, h.writesByBytes hwidth⟩
  · intro len data
    exact ⟨mindsPages (fun p => Bus.crossless_read p len) m regs .read vaddr len,
      mindsPages (fun p => Bus.crossless_write p len data) m regs .write vaddr len⟩

/-- The page of a directory that is its own table is read and written beside the one entry, and not
beyond its end. -/
theorem access_composed_selfNamed : ∃ (ram : Ram) (v : UInt32),
    let m : Machine RegisterDevice := ⟨⟨ram, ⟨[⟨"latch", ⟨0x1800, 16⟩, ⟨.latch, 0⟩⟩]⟩⟩, .writeBack⟩
    ((read (.paged 0x1000) 0x123 2).run m).result = .ok v ∧
      ReadsByBytes m (.paged 0x1000) 0x123 2 v ∧
      WritesByBytes m (.paged 0x1000) 0x123 2 0x1234 ∧
      ((read (.paged 0x1000) 0x123 4096).run m).result = .error (.crossesPage 0x123 4096) := by
  obtain ⟨ram, h⟩ := exists_selfNamed
  let m : Machine RegisterDevice := ⟨⟨ram, ⟨[⟨"latch", ⟨0x1800, 16⟩, ⟨.latch, 0⟩⟩]⟩⟩, .writeBack⟩
  have hdirectory : (Registers.paged 0x1000).directory = 0x1000 := by decide
  have hconsulted : ram.consulted (.paged 0x1000) 0x123 = [0x1000, 0x1000] := by
    rw [consulted, if_pos (by decide), hdirectory, h.pde]
    decide
  have hslot : ∀ slot ∈ ram.consulted (.paged 0x1000) 0x123, slot = 0x1000 := by
    intro slot hslot
    simpa [hconsulted] using hslot
  have hslots : ∀ slot ∈ ram.consulted (.paged 0x1000) 0x123,
      ∀ region ∈ m.bus.table.regions, slot ∉ region.range := by
    intro slot hslot' region hregion
    rw [hslot slot hslot', List.mem_singleton.1 hregion]
    decide
  have hbytes : ∀ b : UInt32, (0x1123 : UInt32).toNat ≤ b.toNat →
      b.toNat < (0x1123 : UInt32).toNat + 2 →
        ∀ region ∈ m.bus.table.regions, b ∉ region.range := by
    intro b hb hb' region hregion
    rw [List.mem_singleton.1 hregion, Range.mem_iff]
    have hlt : b.toNat < 0x1800 := Nat.lt_of_lt_of_le hb' (by decide)
    exact fun hmem => absurd hmem.1 (Nat.not_le.2 hlt)
  have htarget : ram.target (.paged 0x1000) 0x123 = .ok 0x1123 := by
    rw [target, if_pos (by decide), hdirectory, h.path_first]
  have hc : ram.checkWord 0x1123 2 = .ok () := by
    rw [checkWord_eq_ok_iff, Fits, h.size]
    decide
  have hp := (result_translate (m := m) hslots .read).trans htarget
  obtain ⟨hok, -⟩ := run_read_of_check (m := m) (show Page.Within 0x123 2 by decide) hslots htarget
    (hbytes 0x1123 (by decide) (by decide)) hc
  obtain ⟨hcomposed, hminds⟩ := access_composed m (.paged 0x1000) 0x123
  obtain ⟨hreads, hwrites⟩ := hcomposed 2 _ _ (.inl rfl) hok hp hbytes hslots
  refine ⟨ram, _, hok, hreads, hwrites (fun slot hslot' => .inr ?_) 0x1234, ?_⟩
  · rw [hslot slot hslot']
    decide
  · rw [(hminds 4096 0).1.refused ⟨4095, by decide⟩]

end Machine

end PagedMemory
