import PagedMemory.Machine
import PagedMemory.Proofs.ByteStore
import PagedMemory.Proofs.Marks

/-!
# What was written is read back

A virtual write translates its address, marks the two entries that it used, and stores its bytes. The
bytes may belong to tables, as long as they are not those two entries: a read of the same address then
takes the same way and finds them.

- `Ram.target`, `Ram.consulted`: where registers lead an address, and which entries have a say in it,
  with paging on or off;
- `byte_marked`: a translation sets at most three bits of RAM;
- `target_marked_store`: neither its marks nor bytes stored elsewhere lead an address astray;
- `write_readBack`: a write and the read after it.
-/

namespace PagedMemory

namespace Word

/-- Setting bits of the lowest byte of a word sets them in that byte, and in no other. -/
theorem ofNat_or_div {w m : UInt32} (hm : m.toNat < 256) (k : Nat) :
    UInt8.ofNat ((w ||| m).toNat / 256 ^ k) =
      UInt8.ofNat (w.toNat / 256 ^ k) ||| if k = 0 then m.toUInt8 else 0 := by
  have hpow : 256 ^ k = 2 ^ (8 * k) := by rw [Nat.pow_mul]
  have hor : (w ||| m).toNat / 256 ^ k = w.toNat / 256 ^ k ||| m.toNat / 256 ^ k := by
    rw [UInt32.toNat_or, hpow, Nat.or_div_two_pow]
  rw [hor, UInt8.ofNat_or]
  congr 1
  cases k with
  | zero => simp
  | succ k =>
    have hle : 256 ≤ 256 ^ (k + 1) := Nat.le_self_pow k.succ_ne_zero 256
    rw [Nat.div_eq_of_lt (Nat.lt_of_lt_of_le hm hle)]
    rfl

end Word

namespace Ram

variable {ram ram' : Ram} {regs : Registers} {vaddr p : UInt32} {tracking : Tracking}
  {access : Access}

/-! ## Bytes of words -/

/-- A byte is part of the word in which it lies. -/
theorem byte_eq_of_word (ram : Ram) (b : Nat) :
    ram.byte b = UInt8.ofNat ((ram.word (b - b % 4)).toNat / 256 ^ (b % 4)) := by
  have hlt : b % 4 < 4 := Nat.mod_lt _ (by decide)
  have hbyte := getElem?_slice ram (b - b % 4) hlt
  rw [Nat.sub_add_cancel (Nat.mod_le b 4)] at hbyte
  have hword : (ram.word (b - b % 4)).toNat = Word.ofBytes (ram.slice (b - b % 4) 4) := by
    have hof := Word.ofBytes_lt (ram.slice (b - b % 4) 4)
    rw [length_slice] at hof
    rw [word, UInt32.toNat_ofNat']
    exact Nat.mod_eq_of_lt hof
  rw [hword]
  exact (Word.ofNat_ofBytes_div hbyte).symm

/-- Setting bits of the lowest byte of aligned words sets them in these bytes, and in no other. -/
theorem byte_of_words {m : Nat → UInt32} (hm : ∀ a, (m a).toNat < 256)
    (h : ∀ a, a % 4 = 0 → ram'.word a = ram.word a ||| m a) (b : Nat) :
    ram'.byte b = ram.byte b ||| if b % 4 = 0 then (m b).toUInt8 else 0 := by
  rw [byte_eq_of_word ram', byte_eq_of_word ram, h _ (by omega), Word.ofNat_or_div (hm _)]
  split
  · rename_i hb
    rw [hb, Nat.sub_zero]
  · rfl

/-! ## Where registers lead -/

/-- The address to which the registers lead, or why they lead nowhere. -/
def target (ram : Ram) (regs : Registers) (vaddr : UInt32) : Except Error UInt32 :=
  if regs.pagingEnabled then ram.path regs.directory vaddr else .ok vaddr

/-- The slots of the entries that are consulted for that; with paging off there are none. -/
def consulted (ram : Ram) (regs : Registers) (vaddr : UInt32) : List UInt32 :=
  if regs.pagingEnabled then
    [Entry.directorySlot regs.directory vaddr,
      Entry.tableSlot (ram.pde regs.directory vaddr).frame vaddr]
  else []

/-- RAM with the marks that a translation leaves. -/
def marked (ram : Ram) (regs : Registers) (tracking : Tracking) (access : Access)
    (vaddr : UInt32) : Ram :=
  if regs.pagingEnabled then ram.tracked regs.directory tracking access vaddr else ram

/-- The bits that a translation sets in the byte at `b`, with paging on and marks written back. The
marks of an entry lie in the first of its bytes. -/
def marksAt (ram : Ram) (regs : Registers) (tracking : Tracking) (access : Access)
    (vaddr : UInt32) (b : Nat) : UInt8 :=
  if regs.pagingEnabled ∧ tracking = .writeBack then
    ((if b = (Entry.directorySlot regs.directory vaddr).toNat then Entry.marks .read else 0) |||
      (if b = (Entry.tableSlot (ram.pde regs.directory vaddr).frame vaddr).toNat then
        Entry.marks access else 0)).toUInt8
  else 0

theorem consulted_aligned {slot : UInt32} (h : slot ∈ ram.consulted regs vaddr) :
    slot.toNat % 4 = 0 := by
  unfold consulted at h
  split at h
  · rcases List.mem_cons.1 h with rfl | h
    · exact Entry.directorySlot_mod (Page.aligned_base _) _
    · obtain rfl := List.mem_singleton.1 h
      exact Entry.tableSlot_mod (Entry.aligned_frame _) _
  · cases h

/-- No byte is marked but the first bytes of the entries that were consulted. -/
theorem marksAt_eq_zero {b : Nat} (h : ∀ slot ∈ ram.consulted regs vaddr, b ≠ slot.toNat) :
    ram.marksAt regs tracking access vaddr b = 0 := by
  unfold marksAt
  split
  · rename_i hp
    have hslots : ram.consulted regs vaddr = [Entry.directorySlot regs.directory vaddr,
      Entry.tableSlot (ram.pde regs.directory vaddr).frame vaddr] := if_pos hp.1
    rw [if_neg (h _ (by simp [hslots])), if_neg (h _ (by simp [hslots]))]
    rfl
  · rfl

@[simp] theorem size_marked (ram : Ram) (regs : Registers) (tracking : Tracking) (access : Access)
    (vaddr : UInt32) : (ram.marked regs tracking access vaddr).size = ram.size := by
  unfold marked
  split
  · cases tracking <;> simp [tracked]
  · rfl

/-- A translation that leads somewhere sets its marks, and not a bit elsewhere. -/
theorem byte_marked (h : ram.target regs vaddr = .ok p) (tracking : Tracking) (access : Access)
    (b : Nat) : (ram.marked regs tracking access vaddr).byte b =
      ram.byte b ||| ram.marksAt regs tracking access vaddr b := by
  unfold target at h
  unfold marked marksAt
  by_cases hp : regs.pagingEnabled = true
  · have hd : Page.Aligned regs.directory := Page.aligned_base _
    have ht := Entry.aligned_frame (ram.pde regs.directory vaddr)
    rw [if_pos hp] at h ⊢
    cases tracking with
    | discard => simp [tracked]
    | writeBack =>
      rw [if_pos ⟨hp, rfl⟩, byte_of_words (m := fun a =>
        (if a = (Entry.directorySlot regs.directory vaddr).toNat then Entry.marks .read else 0) |||
          if a = (Entry.tableSlot (ram.pde regs.directory vaddr).frame vaddr).toNat then
            Entry.marks access else 0) ?_
        fun a ha => (word_tracked hd h ha).trans (UInt32.or_assoc _ _ _)]
      · -- slots are aligned, so a byte in the middle of a word begins no slot
        split
        · rfl
        · rename_i hb
          have hdirectory := Entry.directorySlot_mod hd vaddr
          have htable := Entry.tableSlot_mod ht vaddr
          rw [if_neg (by rintro rfl; exact hb hdirectory), if_neg (by rintro rfl; exact hb htable)]
          rfl
      · intro a
        cases access <;> split <;> split <;> decide
  · rw [if_neg hp, if_neg fun hand => hp hand.1, UInt8.or_zero]

/-- Where the entries that were consulted differ in marks at most, the way is the same. -/
theorem target_of_alike (h : ram.target regs vaddr = .ok p) (hs : ram'.size = ram.size)
    (he : ∀ slot ∈ ram.consulted regs vaddr, Entry.Alike (ram.entryAt slot) (ram'.entryAt slot)) :
    ram'.target regs vaddr = .ok p ∧ ram'.consulted regs vaddr = ram.consulted regs vaddr := by
  unfold target at h ⊢
  unfold consulted at he ⊢
  by_cases hp : regs.pagingEnabled = true
  · rw [if_pos hp] at h he
    rw [if_pos hp, if_pos hp, if_pos hp]
    obtain ⟨hd, hpresent, ht, hpresent', rfl⟩ := path_eq_ok_iff.1 h
    have hpde : Entry.Alike (ram.pde regs.directory vaddr) (ram'.pde regs.directory vaddr) :=
      he _ List.mem_cons_self
    have hpte : Entry.Alike (ram.pte regs.directory vaddr) (ram'.pte regs.directory vaddr) := by
      rw [pte, pte, hpde.frame]
      exact he _ (List.mem_cons_of_mem _ List.mem_cons_self)
    refine ⟨path_eq_ok_iff.2 ?_, by rw [hpde.frame]⟩
    rw [hpde.present, hpte.present, hpde.frame, Entry.resolve, Entry.resolve, hpte.frame]
    unfold Fits at hd ht ⊢
    rw [hs]
    exact ⟨hd, hpresent, ht, hpresent', rfl⟩
  · rw [if_neg hp] at h
    rw [if_neg hp, if_neg hp, if_neg hp]
    exact ⟨h, rfl⟩

/-- A translation leaves the entries that it consulted alike. -/
theorem alike_marked (h : ram.target regs vaddr = .ok p) (tracking : Tracking) (access : Access)
    {slot : UInt32} (hslot : slot.toNat % 4 = 0) :
    Entry.Alike (ram.entryAt slot) ((ram.marked regs tracking access vaddr).entryAt slot) := by
  unfold target at h
  unfold marked
  split
  · rename_i hp
    rw [if_pos hp] at h
    exact (alikeOn_tracked (Page.aligned_base _) h tracking access).word _ hslot trivial
  · exact Entry.Alike.refl _

/-- Neither the marks of a translation nor bytes that are stored elsewhere lead the address
astray. -/
theorem target_marked_store (h : ram.target regs vaddr = .ok p) (tracking : Tracking)
    (access : Access) {i : Nat} {bytes : List UInt8} (hfit : i + bytes.length ≤ ram.size)
    (happart : ∀ slot ∈ ram.consulted regs vaddr,
      i + bytes.length ≤ slot.toNat ∨ slot.toNat + 4 ≤ i) :
    ((ram.marked regs tracking access vaddr).store i bytes).target regs vaddr = .ok p ∧
      ((ram.marked regs tracking access vaddr).store i bytes).consulted regs vaddr =
        ram.consulted regs vaddr := by
  refine target_of_alike h (by rw [size_store, size_marked]) ?_
  intro slot hslot
  have hapart := happart slot hslot
  have hword : ((ram.marked regs tracking access vaddr).store i bytes).word slot.toNat =
      (ram.marked regs tracking access vaddr).word slot.toNat := by
    refine word_congr fun j hj hj' => byte_store_of_outside ?_ (by omega)
    rwa [size_marked]
  show Entry.Alike _ ⟨((ram.marked regs tracking access vaddr).store i bytes).word slot.toNat⟩
  rw [hword]
  exact alike_marked h tracking access (consulted_aligned hslot)

end Ram

namespace Machine

open Ram

variable {δ α : Type} [Device δ] {m m' : Machine δ} {regs : Registers} {vaddr p : UInt32}
  {len : Nat} {data : UInt32} {access : Access}

/-! ## Accesses step by step -/

/-- A translation through entries in RAM leads where the registers do. -/
theorem result_translate (hfree : ∀ slot ∈ m.bus.ram.consulted regs vaddr, m.bus.Unclaimed slot)
    (access : Access) :
    ((translate regs access vaddr).run m).result = m.bus.ram.target regs vaddr := by
  unfold consulted at hfree
  unfold target
  show ((Bus.translate regs m.tracking access vaddr).run m.bus).result = _
  split
  · rename_i hp
    rw [if_pos hp] at hfree
    exact Bus.result_translate hp (hfree _ List.mem_cons_self)
      (fun _ _ => hfree _ (List.mem_cons_of_mem _ List.mem_cons_self)) _ _
  · rename_i hp
    rw [Bus.translate, if_neg hp]
    rfl

/-- A translation that leads somewhere leaves its marks, and nothing else. -/
theorem state_translate (hfree : ∀ slot ∈ m.bus.ram.consulted regs vaddr, m.bus.Unclaimed slot)
    (h : m.bus.ram.target regs vaddr = .ok p) (access : Access) :
    ((translate regs access vaddr).run m).state =
      ⟨⟨m.bus.ram.marked regs m.tracking access vaddr, m.bus.table⟩, m.tracking⟩ := by
  unfold consulted at hfree
  unfold target at h
  unfold marked
  show Machine.mk ((Bus.translate regs m.tracking access vaddr).run m.bus).state m.tracking = _
  split
  · rename_i hp
    rw [if_pos hp] at h hfree
    rw [(Bus.translate_of_path hp (hfree _ List.mem_cons_self)
      (hfree _ (List.mem_cons_of_mem _ List.mem_cons_self)) h m.tracking access).2]
  · rename_i hp
    rw [Bus.translate, if_neg hp]
    rfl

/-- An access that stays on its page and is translated reaches the bus. -/
theorem run_access (f : UInt32 → Op (Bus δ) α) (hw : Page.Within vaddr len)
    (hr : ((translate regs access vaddr).run m).result = .ok p)
    (hs : ((translate regs access vaddr).run m).state = m') :
    let o := (do
      checkCrossing vaddr len
      let p ← translate regs access vaddr
      onBus (f p) : Op (Machine δ) α).run m
    o.result = ((f p).run m'.bus).result ∧ o.state = ⟨((f p).run m'.bus).state, m'.tracking⟩ := by
  dsimp only
  rw [Op.run_bind, checkCrossing, if_pos hw, Op.run_pure, Outcome.andThen_ok, Outcome.after_nil,
    Op.run_bind]
  rcases hrun : (translate regs access vaddr).run m with ⟨r, s, es⟩
  rw [hrun] at hr hs
  cases hr
  cases hs
  exact ⟨rfl, rfl⟩

/-- An access that succeeds stays on its page. -/
theorem within_of_ok {f : UInt32 → Op (Bus δ) α} {a : α}
    (hok : ((do checkCrossing vaddr len
                let p ← translate regs access vaddr
                onBus (f p) : Op (Machine δ) α).run m).result = .ok a) : Page.Within vaddr len := by
  refine Decidable.byContradiction fun hw => ?_
  rw [Op.run_bind, checkCrossing, if_neg hw] at hok
  cases hok

section

variable (hw : Page.Within vaddr len)
  (hslots : ∀ slot ∈ m.bus.ram.consulted regs vaddr, m.bus.Unclaimed slot)
  (h : m.bus.ram.target regs vaddr = .ok p) (hp : m.bus.Unclaimed p)

include hw hslots h hp

/-- A read that no device serves answers the bytes that are there once its translation has left its
marks. -/
theorem run_read_of_check (hc : m.bus.ram.checkWord p len = .ok ()) :
    let ram := m.bus.ram.marked regs m.tracking .read vaddr
    ((read regs vaddr len).run m).result =
        .ok (UInt32.ofNat (Word.ofBytes (ram.slice p.toNat len))) ∧
      ((read regs vaddr len).run m).state = ⟨⟨ram, m.bus.table⟩, m.tracking⟩ := by
  obtain ⟨hresult, hstate⟩ := run_access (fun p => Bus.read p len) hw
    ((result_translate hslots .read).trans h) (state_translate hslots h .read)
  let bus : Bus δ := ⟨m.bus.ram.marked regs m.tracking .read vaddr, m.bus.table⟩
  have hc : bus.ram.checkWord p len = .ok () := by
    rwa [checkWord_eq_ok_iff, Fits, size_marked, ← Fits, ← checkWord_eq_ok_iff]
  have hrun := Bus.run_read_of_not_find hc (Bus.unclaimed_iff.1 hp)
  exact ⟨hresult.trans (by rw [hrun]), hstate.trans (by rw [hrun])⟩

/-- A write that no device serves stores its bytes once its translation has left its marks. -/
theorem run_write_of_check (hc : m.bus.ram.checkWord p len = .ok ()) (data : UInt32) :
    ((write regs vaddr len data).run m).result = .ok () ∧
      ((write regs vaddr len data).run m).state =
        ⟨⟨(m.bus.ram.marked regs m.tracking .write vaddr).store p.toNat
          (Word.bytes len data.toNat), m.bus.table⟩, m.tracking⟩ := by
  obtain ⟨hresult, hstate⟩ := run_access (fun p => Bus.write p len data) hw
    ((result_translate hslots .write).trans h) (state_translate hslots h .write)
  let bus : Bus δ := ⟨m.bus.ram.marked regs m.tracking .write vaddr, m.bus.table⟩
  have hc : bus.ram.checkWord p len = .ok () := by
    rwa [checkWord_eq_ok_iff, Fits, size_marked, ← Fits, ← checkWord_eq_ok_iff]
  have hrun := Bus.run_write_of_not_find hc (Bus.unclaimed_iff.1 hp) data
  exact ⟨hresult.trans (by rw [hrun]), hstate.trans (by rw [hrun])⟩

end

/-- An access that succeeds has passed the check of the bus. -/
theorem checkWord_of_ok {f : UInt32 → Op (Bus δ) α} {a : α}
    (hf : ∀ (bus : Bus δ) (e : Error), bus.ram.checkWord p len = .error e →
      ((f p).run bus).result = .error e)
    (hok : ((do checkCrossing vaddr len
                let p ← translate regs access vaddr
                onBus (f p) : Op (Machine δ) α).run m).result = .ok a)
    (hslots : ∀ slot ∈ m.bus.ram.consulted regs vaddr, m.bus.Unclaimed slot)
    (h : m.bus.ram.target regs vaddr = .ok p) : m.bus.ram.checkWord p len = .ok () := by
  obtain ⟨hresult, -⟩ := run_access f (within_of_ok hok)
    ((result_translate hslots access).trans h) (state_translate hslots h access)
  cases hc : m.bus.ram.checkWord p len with
  | ok u => rfl
  | error e =>
    have hc' : (m.bus.ram.marked regs m.tracking access vaddr).checkWord p len = .error e := by
      rwa [checkWord_eq_error_iff, size_marked, ← checkWord_eq_error_iff]
    have herror := hf ⟨m.bus.ram.marked regs m.tracking access vaddr, m.bus.table⟩ e hc'
    exact nomatch hok.symm.trans (hresult.trans herror)

/-- A write that succeeds stays on its page. -/
theorem within_of_write (hok : ((write regs vaddr len data).run m).result = .ok ()) :
    Page.Within vaddr len :=
  within_of_ok hok

/-- A write that succeeds where no device serves it stores its bytes after the marks of its
translation. -/
theorem run_write_of_unclaimed (hok : ((write regs vaddr len data).run m).result = .ok ())
    (hslots : ∀ slot ∈ m.bus.ram.consulted regs vaddr, m.bus.Unclaimed slot)
    (h : m.bus.ram.target regs vaddr = .ok p) (hp : m.bus.Unclaimed p) :
    Word.IsWidth len ∧ m.bus.ram.Fits p len ∧
      ((write regs vaddr len data).run m).state =
        ⟨⟨(m.bus.ram.marked regs m.tracking .write vaddr).store p.toNat
          (Word.bytes len data.toNat), m.bus.table⟩, m.tracking⟩ := by
  have hc : m.bus.ram.checkWord p len = .ok () :=
    checkWord_of_ok (fun _ _ hc => by rw [Bus.run_write_of_refused hc]) hok hslots h
  obtain ⟨hwidth, hfit⟩ := checkWord_eq_ok_iff.1 hc
  exact ⟨hwidth, hfit, (run_write_of_check (within_of_write hok) hslots h hp hc data).2⟩

/-- A read where no device serves it answers the bytes that are there. -/
theorem result_read_of_unclaimed (hw : Page.Within vaddr len)
    (hslots : ∀ slot ∈ m.bus.ram.consulted regs vaddr, m.bus.Unclaimed slot)
    (h : m.bus.ram.target regs vaddr = .ok p) (hp : m.bus.Unclaimed p) (hwidth : Word.IsWidth len)
    (hfit : m.bus.ram.Fits p len)
    (happart : ∀ slot ∈ m.bus.ram.consulted regs vaddr,
      p.toNat + len ≤ slot.toNat ∨ slot.toNat + 4 ≤ p.toNat) :
    ((read regs vaddr len).run m).result =
      .ok (UInt32.ofNat (Word.ofBytes (m.bus.ram.slice p.toNat len))) := by
  obtain ⟨hresult, -⟩ :=
    run_read_of_check hw hslots h hp (checkWord_eq_ok_iff.2 ⟨hwidth, hfit⟩)
  have hslice : (m.bus.ram.marked regs m.tracking .read vaddr).slice p.toNat len =
      m.bus.ram.slice p.toNat len := by
    refine slice_congr fun j hj hj' => ?_
    have hmarks : m.bus.ram.marksAt regs m.tracking .read vaddr j = 0 := by
      refine marksAt_eq_zero fun slot hslot => ?_
      have happart := happart slot hslot
      omega
    rw [byte_marked h, hmarks, UInt8.or_zero]
  rw [hresult, hslice]

/-- A write that succeeds is read back, as far as its width goes, with paging on or off and whatever
the tables are. It changes its own bytes, the marks of the entries that it consulted, and nothing
else. No device may serve the bytes or the entries, and the bytes may not be part of the entries. -/
theorem write_readBack (m : Machine δ) (regs : Registers) (vaddr : UInt32) (len : Nat)
    (data : UInt32) {p : UInt32} (hok : ((write regs vaddr len data).run m).result = .ok ())
    (hp : ((translate regs .write vaddr).run m).result = .ok p)
    (hfree : ∀ region ∈ m.bus.table.regions, p ∉ region.range)
    (hslots : ∀ slot ∈ m.bus.ram.consulted regs vaddr,
      (∀ region ∈ m.bus.table.regions, slot ∉ region.range) ∧
        (p.toNat + len ≤ slot.toNat ∨ slot.toNat + 4 ≤ p.toNat)) :
    let after := ((write regs vaddr len data).run m).state
    ((read regs vaddr len).run after).result = .ok (UInt32.ofNat (data.toNat % 256 ^ len)) ∧
    (after.tracking = m.tracking ∧ after.bus.table = m.bus.table ∧
      after.bus.ram.size = m.bus.ram.size) ∧
    ∀ b, b < p.toNat ∨ p.toNat + len ≤ b → after.bus.ram.byte b =
      m.bus.ram.byte b ||| m.bus.ram.marksAt regs m.tracking .write vaddr b := by
  have hunclaimed : ∀ slot ∈ m.bus.ram.consulted regs vaddr, m.bus.Unclaimed slot :=
    fun slot hslot => (hslots slot hslot).1
  have htarget := (result_translate hunclaimed .write).symm.trans hp
  obtain ⟨hwidth, hfit, hstate⟩ := run_write_of_unclaimed hok hunclaimed htarget hfree
  have hlen : p.toNat + (Word.bytes len data.toNat).length ≤ m.bus.ram.size := by
    rw [Word.length_bytes]
    exact hfit
  have hlen' : p.toNat + (Word.bytes len data.toNat).length ≤
      (m.bus.ram.marked regs m.tracking .write vaddr).size := by rwa [size_marked]
  -- the read takes the way of the write
  obtain ⟨htarget', hconsulted⟩ := target_marked_store htarget m.tracking .write hlen
    fun slot hslot => by
      rw [Word.length_bytes]
      exact (hslots slot hslot).2
  dsimp only
  rw [hstate]
  refine ⟨?_, ⟨rfl, rfl, by rw [size_store, size_marked]⟩, ?_⟩
  · have hslice := slice_store hlen'
    generalize hram : (m.bus.ram.marked regs m.tracking .write vaddr).store p.toNat
      (Word.bytes len data.toNat) = ram at htarget' hconsulted hslice ⊢
    have hfit' : ram.Fits p len := by
      rw [Fits, ← hram, size_store, size_marked]
      exact hfit
    have hread : ((read regs vaddr len).run (⟨⟨ram, m.bus.table⟩, m.tracking⟩ : Machine δ)).result =
        .ok (UInt32.ofNat (Word.ofBytes (ram.slice p.toNat len))) := by
      refine result_read_of_unclaimed (within_of_write hok) ?_ htarget' hfree hwidth hfit' ?_
      · rw [hconsulted]
        exact hunclaimed
      · rw [hconsulted]
        exact fun slot hslot => (hslots slot hslot).2
    rw [Word.length_bytes] at hslice
    rw [hread, hslice, Word.ofBytes_bytes, Word.values_eq_pow]
  · intro b hb
    rw [← byte_marked htarget]
    refine byte_store_of_outside hlen' ?_
    rwa [Word.length_bytes]

/-- A directory that is its own table: its first page is written beside the one entry. -/
theorem write_readBack_selfNamed : ∃ ram : Ram,
    let m : Machine RegisterDevice := ⟨⟨ram, ⟨[⟨"latch", ⟨0x1800, 16⟩, ⟨.latch, 0⟩⟩]⟩⟩, .writeBack⟩
    let after := ((write (.paged 0x1000) 0x123 2 0x12345678).run m).state
    ((read (.paged 0x1000) 0x123 2).run after).result = .ok 0x5678 ∧
      ram.byte 0x1000 = 0x01 ∧ after.bus.ram.byte 0x1000 = 0x61 := by
  obtain ⟨ram, h⟩ := exists_selfNamed
  let m : Machine RegisterDevice := ⟨⟨ram, ⟨[⟨"latch", ⟨0x1800, 16⟩, ⟨.latch, 0⟩⟩]⟩⟩, .writeBack⟩
  have hdirectory : (Registers.paged 0x1000).directory = 0x1000 := by decide
  have hconsulted : ram.consulted (.paged 0x1000) 0x123 = [0x1000, 0x1000] := by
    rw [consulted, if_pos (by decide), hdirectory, h.pde]
    decide
  have hslots : ∀ slot ∈ ram.consulted (.paged 0x1000) 0x123, m.bus.Unclaimed slot ∧
      ((0x1123 : UInt32).toNat + 2 ≤ slot.toNat ∨ slot.toNat + 4 ≤ (0x1123 : UInt32).toNat) := by
    intro slot hslot
    obtain rfl : slot = 0x1000 := by simpa [hconsulted] using hslot
    refine ⟨fun region hregion => ?_, .inr (by decide)⟩
    obtain rfl := List.mem_singleton.1 hregion
    decide
  have hfree : ∀ slot ∈ ram.consulted (.paged 0x1000) 0x123, m.bus.Unclaimed slot :=
    fun slot hslot => (hslots slot hslot).1
  have htarget : ram.target (.paged 0x1000) 0x123 = .ok 0x1123 := by
    rw [target, if_pos (by decide), hdirectory, h.path_first]
  have hp := (result_translate (m := m) hfree .write).trans htarget
  have hok : ((write (.paged 0x1000) 0x123 2 0x12345678).run m).result = .ok () := by
    obtain ⟨hresult, -⟩ := run_access (fun p => Bus.write p 2 0x12345678)
      (show Page.Within 0x123 2 by decide) hp (state_translate (m := m) hfree htarget .write)
    have hc : (ram.marked (.paged 0x1000) .writeBack .write 0x123).checkWord 0x1123 2 = .ok () := by
      rw [checkWord_eq_ok_iff, Fits, size_marked, h.size]
      decide
    exact hresult.trans (congrArg Outcome.result (Bus.run_write_of_not_find hc rfl _))
  have hfirst : ram.byte 0x1000 = 0x01 := by
    rw [byte_eq_of_word, h.word _ (by decide)]
    decide
  have hmarks : ram.marksAt (.paged 0x1000) .writeBack .write 0x123 0x1000 = 0x60 := by
    rw [marksAt, hdirectory, h.pde]
    decide
  have hlatch : ∀ region ∈ m.bus.table.regions, (0x1123 : UInt32) ∉ region.range := by
    intro region hregion
    obtain rfl := List.mem_singleton.1 hregion
    decide
  obtain ⟨hread, -, hbyte⟩ := write_readBack m _ _ _ _ hok hp hlatch hslots
  refine ⟨ram, hread, hfirst, ?_⟩
  refine (hbyte 0x1000 (.inl (by decide))).trans ?_
  rw [show m.bus.ram.byte 0x1000 = 0x01 from hfirst]
  exact (congrArg (0x01 ||| ·) hmarks).trans (by decide)

end Machine

end PagedMemory
