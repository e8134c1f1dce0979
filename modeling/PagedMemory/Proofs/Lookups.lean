import PagedMemory.Proofs.Contracts
import PagedMemory.Proofs.RegionTables
import PagedMemory.Proofs.WalkPath

/-!
# Looking up and walking agree

An address space is looked up in RAM, past all devices and without marks; a walk goes over the bus
and may leave marks. Where no device serves the tables, both end alike on every RAM, with one
difference: where an entry is not present, looking up finds nothing and a walk fails.

- `AddressSpace.Obtained`: the ways to get hold of an address space;
- `Ram.StopsAt`: the entry at which a walk comes to its end before time;
- `path_eq_notPresent_iff`, `path_error_cases`: the two ways to fail;
- `translate_agrees`: a walk against a lookup.
-/

namespace PagedMemory

namespace AddressSpace

/-! ## Address spaces in use -/

/-- A space is created, with frames of any source, or it is the one that a register names. -/
inductive Obtained : AddressSpace → Prop
  | create {α : Type} [FrameSource α] {s s' : Ram × α} {space : AddressSpace} {es : List Event}
    (h : create.run s = ⟨.ok space, s', es⟩) : Obtained space
  | ofRegister (cr3 : UInt32) : Obtained (ofRegister cr3)

variable {α : Type} [FrameSource α] {space : AddressSpace}

/-- A source may hand out anything, but a fresh frame begins a page. -/
theorem freshFrame_aligned :
    Op.Meets (fun _ => True) (freshFrame : Op (Ram × α) UInt32) (fun frame _ => Page.Aligned frame)
      (fun _ _ => True) := by
  refine (Op.Meets.any _).bind fun frame => ?_
  have hrequire : Op.Meets (σ := Ram × α) (fun _ => True)
      (.require (Page.Aligned frame) (.misaligned frame)) (fun _ _ => Page.Aligned frame)
      (fun _ _ => True) := Op.Meets.require (fun _ _ h => h) fun _ _ _ => trivial
  refine hrequire.bind fun _ => Op.Meets.of_imp (fun _ h => h) fun h => ?_
  exact (Op.Meets.any _).bind fun _ => Op.Meets.pure fun _ _ => h

theorem create_aligned :
    Op.Meets (fun _ => True) (create : Op (Ram × α) AddressSpace)
      (fun space _ => Page.Aligned space.directory) (fun _ _ => True) :=
  freshFrame_aligned.bind fun _ => Op.Meets.report_bind (Op.Meets.pure fun _ h => h)

omit [FrameSource α] in
/-- However a space was obtained, its directory begins a page. -/
theorem Obtained.aligned (h : space.Obtained) : Page.Aligned space.directory := by
  cases h with
  | @create β _ s s' space es hrun =>
    have haligned := create_aligned (α := β) s trivial
    rw [hrun] at haligned
    exact haligned
  | ofRegister cr3 => exact Page.aligned_base cr3

end AddressSpace

namespace Ram

/-! ## Walks that fail -/

variable {ram : Ram} {directory vaddr : UInt32} {level : Level} {v entry : UInt32}

/-- The walk of `vaddr` comes to an entry that is not present: to `entry` in the directory, or to
`entry` in the table that a present entry of the directory names. -/
def StopsAt (ram : Ram) (directory vaddr : UInt32) : Level → UInt32 → Prop
  | .directory, entry => ram.read (Entry.directorySlot directory vaddr) 4 = .ok entry ∧
      (⟨entry⟩ : Entry).has .present = false
  | .table, entry => ∃ pde, ram.read (Entry.directorySlot directory vaddr) 4 = .ok pde ∧
      (⟨pde⟩ : Entry).has .present = true ∧
      ram.read (Entry.tableSlot (⟨pde⟩ : Entry).frame vaddr) 4 = .ok entry ∧
      (⟨entry⟩ : Entry).has .present = false

theorem read_word_eq_ok_iff {addr word : UInt32} :
    ram.read addr 4 = .ok word ↔ ram.Fits addr 4 ∧ ram.word addr.toNat = word := by
  rw [read_word]
  split <;> simp_all

theorem stopsAt_iff : ram.StopsAt directory vaddr level entry ↔
    ram.Fits (Entry.directorySlot directory vaddr) 4 ∧ match level with
      | .directory =>
        (ram.pde directory vaddr).has .present = false ∧ (ram.pde directory vaddr).bits = entry
      | .table => (ram.pde directory vaddr).has .present = true ∧
        ram.Fits (Entry.tableSlot (ram.pde directory vaddr).frame vaddr) 4 ∧
        (ram.pte directory vaddr).has .present = false ∧
          (ram.pte directory vaddr).bits = entry := by
  cases level with
  | directory =>
    rw [StopsAt, read_word_eq_ok_iff]
    constructor
    · rintro ⟨⟨hfit, rfl⟩, ha⟩
      exact ⟨hfit, ha, rfl⟩
    · rintro ⟨hfit, ha, rfl⟩
      exact ⟨⟨hfit, rfl⟩, ha⟩
  | table =>
    simp only [StopsAt, read_word_eq_ok_iff]
    constructor
    · rintro ⟨pde, ⟨hfit, rfl⟩, hp, ⟨hfit', rfl⟩, ha⟩
      exact ⟨hfit, hp, hfit', ha, rfl⟩
    · rintro ⟨hfit, hp, hfit', ha, rfl⟩
      exact ⟨_, ⟨hfit, rfl⟩, hp, ⟨hfit', rfl⟩, ha⟩

/-- A walk misses an entry exactly where it stops at it. -/
theorem path_eq_notPresent_iff : ram.path directory vaddr = .error (.notPresent level v entry) ↔
    v = vaddr ∧ ram.StopsAt directory vaddr level entry := by
  rw [stopsAt_iff, @eq_comm _ v vaddr]
  rcases path_cases ram directory vaddr with
    ⟨hd, h⟩ | ⟨hd, ⟨hp, h⟩ | ⟨hp, ⟨ht, h⟩ | ⟨ht, ⟨hpt, h⟩ | ⟨hpt, h⟩⟩⟩⟩
  · simp [h, hd]
  · cases level <;> simp [h, hd, hp]
  · cases level <;> simp [h, hd, hp, ht]
  · cases level <;> simp [h, hd, hp, ht, hpt]
  · cases level <;> simp [h, hd, hp, ht, hpt]

/-- Any other failure is an access that leaves RAM. -/
theorem path_error_cases {e : Error} (h : ram.path directory vaddr = .error e) :
    (∃ level v entry, e = .notPresent level v entry) ∨ ∃ addr len, e = .outOfBounds addr len := by
  rcases path_cases ram directory vaddr with
    ⟨-, h'⟩ | ⟨-, ⟨-, h'⟩ | ⟨-, ⟨-, h'⟩ | ⟨-, ⟨-, h'⟩ | ⟨-, h'⟩⟩⟩⟩
  · exact .inr ⟨_, _, Except.error.inj (h.symm.trans h')⟩
  · exact .inl ⟨_, _, _, Except.error.inj (h.symm.trans h')⟩
  · exact .inr ⟨_, _, Except.error.inj (h.symm.trans h')⟩
  · exact .inl ⟨_, _, _, Except.error.inj (h.symm.trans h')⟩
  · cases h.symm.trans h'

/-- RAM with a directory at `0x1000` whose first entry names it as its own table. -/
structure SelfNamed (ram : Ram) : Prop where
  size : ram.size = 8192
  word : ∀ a, a % 4 = 0 → ram.word a = if 0x1000 = a then 0x1001 else 0

theorem exists_selfNamed : ∃ ram, SelfNamed ram := by
  obtain ⟨zero, hzero⟩ : ∃ zero, zeroed 8192 = .ok zero := ⟨_, rfl⟩
  have hsize := size_of_zeroed hzero
  refine ⟨zero.setWord 0x1000 0x1001, ?_, ?_⟩
  · rw [size_setWord, hsize]
  · intro a ha
    rw [word_setWord (by rw [hsize]; decide) (by decide) ha, word_of_zeroed hzero]

namespace SelfNamed

theorem fits (h : SelfNamed ram) {addr : UInt32} (hlt : addr.toNat + 4 ≤ 8192) :
    ram.Fits addr 4 := by
  rw [Fits, h.size]
  exact hlt

theorem pde (h : SelfNamed ram) : ram.pde 0x1000 0x123 = ⟨0x1001⟩ :=
  congrArg Entry.mk (h.word 0x1000 rfl)

theorem pte (h : SelfNamed ram) : ram.pte 0x1000 0x123 = ⟨0x1001⟩ := by
  rw [Ram.pte, h.pde]
  exact congrArg Entry.mk (h.word 0x1000 rfl)

/-- The first page is the directory itself. -/
theorem path_first (h : SelfNamed ram) : ram.path 0x1000 0x123 = .ok 0x1123 := by
  rw [path_eq_ok_iff, h.pde, h.pte]
  exact ⟨h.fits (by decide), by decide, h.fits (by decide), by decide, by decide⟩

end SelfNamed

/-! ## What looking up makes of them -/

theorem found_eq_none_iff {r : Except Error UInt32} :
    found r = .ok none ↔ ∃ level v entry, r = .error (.notPresent level v entry) := by
  rcases r with e | p
  · cases e <;> simp [found]
  · simp [found]

theorem found_eq_outOfBounds_iff {r : Except Error UInt32} {addr : UInt32} {len : Nat} :
    found r = .error (.outOfBounds addr len) ↔ r = .error (.outOfBounds addr len) := by
  rcases r with e | p
  · cases e <;> simp [found]
  · simp [found]

end Ram

namespace Bus

variable {δ : Type} [Device δ] {bus : Bus δ} {regs : Registers} {vaddr : UInt32}

/-! ## Walks through tables in RAM -/

/-- A translation with paging on, through tables that no device serves. -/
theorem run_translate (hp : regs.pagingEnabled = true)
    (hd : bus.Unclaimed (Entry.directorySlot regs.directory vaddr))
    (ht : bus.ram.Fits (Entry.directorySlot regs.directory vaddr) 4 →
      (bus.ram.pde regs.directory vaddr).has .present = true →
        bus.Unclaimed (Entry.tableSlot (bus.ram.pde regs.directory vaddr).frame vaddr))
    (tracking : Tracking) (access : Access) :
    (translate regs tracking access vaddr).run bus =
      match bus.ram.path regs.directory vaddr with
      | .ok p => ⟨.ok p, ⟨bus.ram.tracked regs.directory tracking access vaddr, bus.table⟩,
          [.walked access vaddr ((bus.ram.pde regs.directory vaddr).touched .read)
            ((bus.ram.pte regs.directory vaddr).touched access) p]⟩
      | .error e => ⟨.error e, bus, []⟩ := by
  rw [translate, if_pos hp]
  exact run_walk (unclaimed_iff.1 hd) (fun hfit hpde => unclaimed_iff.1 (ht hfit hpde)) _ _

/-- A translation ends as its path does. -/
theorem result_translate (hp : regs.pagingEnabled = true)
    (hd : bus.Unclaimed (Entry.directorySlot regs.directory vaddr))
    (ht : bus.ram.Fits (Entry.directorySlot regs.directory vaddr) 4 →
      (bus.ram.pde regs.directory vaddr).has .present = true →
        bus.Unclaimed (Entry.tableSlot (bus.ram.pde regs.directory vaddr).frame vaddr))
    (tracking : Tracking) (access : Access) :
    ((translate regs tracking access vaddr).run bus).result =
      bus.ram.path regs.directory vaddr := by
  rw [run_translate hp hd ht]
  cases bus.ram.path regs.directory vaddr <;> rfl

/-- With its tables in RAM an address is translated where it is looked up. Where looking up finds
nothing, the translation fails at the entry at which the walk stops, and where the one leaves RAM, so
does the other. -/
theorem translate_agrees {space : AddressSpace} (hs : space.Obtained) (tracking : Tracking)
    (access : Access) (vaddr : UInt32)
    (hd : ∀ region ∈ bus.table.regions,
      Entry.directorySlot space.directory vaddr ∉ region.range)
    (ht : ∀ word, bus.ram.read (Entry.directorySlot space.directory vaddr) 4 = .ok word →
      (⟨word⟩ : Entry).has .present = true → ∀ region ∈ bus.table.regions,
        Entry.tableSlot (⟨word⟩ : Entry).frame vaddr ∉ region.range) :
    let r := ((translate (.paged space.cr3) tracking access vaddr).run bus).result
    (∀ p, r = .ok p ↔ space.lookup bus.ram vaddr = .ok (some p)) ∧
    ((∃ level v entry, r = .error (.notPresent level v entry)) ↔
      space.lookup bus.ram vaddr = .ok none) ∧
    (∀ level v entry, r = .error (.notPresent level v entry) ↔
      v = vaddr ∧ bus.ram.StopsAt space.directory vaddr level entry) ∧
    (∀ addr len, r = .error (.outOfBounds addr len) ↔
      space.lookup bus.ram vaddr = .error (.outOfBounds addr len)) ∧
    ∀ e, space.lookup bus.ram vaddr = .error e → ∃ addr len, e = .outOfBounds addr len := by
  have hregister := AddressSpace.directory_paged hs.aligned
  have hr : ((translate (.paged space.cr3) tracking access vaddr).run bus).result =
      bus.ram.path space.directory vaddr := by
    have hresult := @result_translate _ _ bus (.paged space.cr3) vaddr
      (Registers.pagingEnabled_paged _)
    rw [hregister] at hresult
    exact hresult hd (fun hfit hp => ht _ (Ram.read_word_eq_ok_iff.2 ⟨hfit, rfl⟩) hp) tracking access
  dsimp only
  rw [hr, Ram.lookup_eq_found]
  refine ⟨fun p => Ram.found_eq_some_iff.symm, Ram.found_eq_none_iff.symm,
    fun level v entry => Ram.path_eq_notPresent_iff,
    fun addr len => Ram.found_eq_outOfBounds_iff.symm, ?_⟩
  intro e he
  cases hpath : bus.ram.path space.directory vaddr with
  | ok p =>
    rw [hpath] at he
    cases he
  | error e' =>
    rw [hpath] at he
    rcases Ram.path_error_cases hpath with ⟨level, v, entry, rfl⟩ | ⟨addr, len, rfl⟩
    · cases he
    · cases he
      exact ⟨addr, len, rfl⟩

/-- A directory that is its own table, and a device beside it. -/
theorem translate_agrees_selfNamed : ∃ ram : Ram,
    let bus : Bus RegisterDevice := ⟨ram, ⟨[⟨"latch", ⟨0x1800, 16⟩, ⟨.latch, 0⟩⟩]⟩⟩
    let space := AddressSpace.ofRegister 0x1fff
    ((translate (.paged space.cr3) .writeBack .write 0x123).run bus).result = .ok 0x1123 ∧
      space.lookup ram 0x123 = .ok (some 0x1123) := by
  obtain ⟨ram, h⟩ := Ram.exists_selfNamed
  have hdirectory : (AddressSpace.ofRegister 0x1fff).directory = 0x1000 := by decide
  have hlookup : (AddressSpace.ofRegister 0x1fff).lookup ram 0x123 = .ok (some 0x1123) := by
    rw [Ram.lookup_eq_some_iff, hdirectory, h.path_first]
  refine ⟨ram, ?_, hlookup⟩
  refine ((translate_agrees (.ofRegister 0x1fff) .writeBack .write 0x123 ?_ ?_).1 0x1123).2 hlookup
  · rw [hdirectory]
    show ∀ region ∈ [_], _
    decide
  · intro word hword _
    rw [hdirectory] at hword
    obtain ⟨-, rfl⟩ := Ram.read_word_eq_ok_iff.1 hword
    have hfirst : ram.word (Entry.directorySlot 0x1000 0x123).toNat = 0x1001 := h.word 0x1000 rfl
    rw [hfirst]
    show ∀ region ∈ [_], _
    decide

end Bus

end PagedMemory
