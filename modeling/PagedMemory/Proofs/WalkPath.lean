import PagedMemory.Paging.Walk
import PagedMemory.Proofs.TableWords

/-!
# Where a walk leads, and what it marks

A walk reads two entries and may write two back. Where no device serves them, it is told by two
functions of RAM: `path` is the address or the error in which it ends, and `tracked` is RAM with the
marks that it leaves. Entries that differ in marks alone are `Alike`, and walks do not tell them
apart.

- `run_walk`: a walk as `path` and `tracked`;
- `path_cases`: the five ways in which a walk can end;
- `lookup_eq_found`: looking up finds what a walk finds;
- `path_eq_of_alikeOn`: alike tables lead to the same addresses, and to the same errors;
- `AlikeOn.tracked`: marks leave tables alike.
-/

namespace PagedMemory

namespace Entry

/-! ## Entries that differ in marks alone -/

/-- The entries agree once both are marked, and an entry that is not present is never marked. -/
structure Alike (e e' : Entry) : Prop where
  touched : e'.touched .write = e.touched .write
  absent : e.has .present = false → e' = e

theorem Alike.refl (e : Entry) : Alike e e := ⟨rfl, fun _ => rfl⟩

theorem Alike.frame {e e' : Entry} (h : Alike e e') : e'.frame = e.frame := by
  rw [← frame_touched e' .write, h.touched, frame_touched]

theorem Alike.present {e e' : Entry} (h : Alike e e') : e'.has .present = e.has .present := by
  rw [← present_touched e' .write, h.touched, present_touched]

/-- Marks of a walk are among those of a write. -/
theorem touched_write_touched (e : Entry) (access : Access) :
    (e.touched access).touched .write = e.touched .write := by
  cases access with
  | read =>
    show ((e.mark .accessed).mark .accessed).mark .dirty = (e.mark .accessed).mark .dirty
    rw [mark_eq_self (f := .accessed) (by simp)]
  | write => exact touched_touched e .write

/-- Marking an entry that is present leaves it alike. -/
theorem Alike.mark {e e' : Entry} (h : Alike e e') (hp : e'.has .present = true) (access : Access) :
    Alike e (e'.touched access) where
  touched := by rw [touched_write_touched, h.touched]
  absent ha := by
    rw [← h.present, hp] at ha
    cases ha

end Entry

namespace Ram

/-! ## The end of a walk -/

variable {ram ram' : Ram} {directory vaddr : UInt32}

/-- The physical address to which a walk leads, or why it leads nowhere. -/
def path (ram : Ram) (directory vaddr : UInt32) : Except Error UInt32 :=
  let pde := ram.pde directory vaddr
  let pte := ram.pte directory vaddr
  if ram.Fits (Entry.directorySlot directory vaddr) 4 then
    if pde.has .present then
      if ram.Fits (Entry.tableSlot pde.frame vaddr) 4 then
        if pte.has .present then .ok (pte.resolve vaddr)
        else .error (.notPresent .table vaddr pte.bits)
      else .error (.outOfBounds (Entry.tableSlot pde.frame vaddr) 4)
    else .error (.notPresent .directory vaddr pde.bits)
  else .error (.outOfBounds (Entry.directorySlot directory vaddr) 4)

/-- The ways in which a walk can end. -/
theorem path_cases (ram : Ram) (directory vaddr : UInt32) :
    (¬ ram.Fits (Entry.directorySlot directory vaddr) 4 ∧ ram.path directory vaddr =
      .error (.outOfBounds (Entry.directorySlot directory vaddr) 4)) ∨
    ram.Fits (Entry.directorySlot directory vaddr) 4 ∧
      ((ram.pde directory vaddr).has .present = false ∧ ram.path directory vaddr =
        .error (.notPresent .directory vaddr (ram.pde directory vaddr).bits) ∨
      (ram.pde directory vaddr).has .present = true ∧
        (¬ ram.Fits (Entry.tableSlot (ram.pde directory vaddr).frame vaddr) 4 ∧
          ram.path directory vaddr =
            .error (.outOfBounds (Entry.tableSlot (ram.pde directory vaddr).frame vaddr) 4) ∨
        ram.Fits (Entry.tableSlot (ram.pde directory vaddr).frame vaddr) 4 ∧
          ((ram.pte directory vaddr).has .present = false ∧ ram.path directory vaddr =
            .error (.notPresent .table vaddr (ram.pte directory vaddr).bits) ∨
          (ram.pte directory vaddr).has .present = true ∧ ram.path directory vaddr =
            .ok ((ram.pte directory vaddr).resolve vaddr)))) := by
  unfold path
  by_cases hd : ram.Fits (Entry.directorySlot directory vaddr) 4
  · cases hp : (ram.pde directory vaddr).has .present with
    | false => simp [hd, hp]
    | true =>
      by_cases ht : ram.Fits (Entry.tableSlot (ram.pde directory vaddr).frame vaddr) 4
      · cases hpt : (ram.pte directory vaddr).has .present <;> simp [hd, hp, ht, hpt]
      · simp [hd, hp, ht]
  · simp [hd]

/-- A walk leads somewhere when it finds both entries in RAM, and present. -/
theorem path_eq_ok_iff {p : UInt32} : ram.path directory vaddr = .ok p ↔
    ram.Fits (Entry.directorySlot directory vaddr) 4 ∧
    (ram.pde directory vaddr).has .present = true ∧
    ram.Fits (Entry.tableSlot (ram.pde directory vaddr).frame vaddr) 4 ∧
    (ram.pte directory vaddr).has .present = true ∧
    p = (ram.pte directory vaddr).resolve vaddr := by
  rcases path_cases ram directory vaddr with
    ⟨hd, h⟩ | ⟨hd, ⟨hp, h⟩ | ⟨hp, ⟨ht, h⟩ | ⟨ht, ⟨hpt, h⟩ | ⟨hpt, h⟩⟩⟩⟩
  · simp [h, hd]
  · simp [h, hp]
  · simp [h, ht]
  · simp [h, hpt]
  · simp [h, hd, hp, ht, hpt, eq_comm]

/-- The bytes of an access that stays on its page lie on the page to which it leads. -/
theorem div_of_path {p : UInt32} (h : ram.path directory vaddr = .ok p) {len : Nat}
    (hw : Page.Within vaddr len) {j : Nat} (hj : p.toNat ≤ j) (hj' : j < p.toNat + len) :
    j / 4096 = Page.number p := by
  obtain ⟨-, -, -, -, rfl⟩ := path_eq_ok_iff.1 h
  have hframe := (Entry.aligned_frame (ram.pte directory vaddr)).toNat_eq
  rw [Entry.number_resolve]
  rw [Entry.toNat_resolve, hframe] at hj hj'
  rcases Page.within_iff.1 hw with rfl | hlen <;> omega

/-- The entry with its marks, if that makes a difference. -/
def mark (ram : Ram) (slot : UInt32) (entry marked : Entry) : Ram :=
  if marked = entry then ram else ram.setWord slot.toNat marked.bits

/-- RAM after a walk that leads somewhere. -/
def tracked (ram : Ram) (directory : UInt32) (tracking : Tracking) (access : Access)
    (vaddr : UInt32) : Ram :=
  let pde := ram.pde directory vaddr
  let pte := ram.pte directory vaddr
  match tracking with
  | .discard => ram
  | .writeBack =>
    (ram.mark (Entry.directorySlot directory vaddr) pde (pde.touched .read)).mark
      (Entry.tableSlot pde.frame vaddr) pte (pte.touched access)

@[simp] theorem size_mark (ram : Ram) (slot : UInt32) (entry marked : Entry) :
    (ram.mark slot entry marked).size = ram.size := by
  unfold mark
  split <;> simp

/-! ## Looking up -/

/-- What looking up answers where a walk ends so: an entry that is not present is no error. -/
def found : Except Error UInt32 → Except Error (Option UInt32)
  | .ok p => .ok (some p)
  | .error (.notPresent _ _ _) => .ok none
  | .error e => .error e

/-- Looking up follows the path of a walk. -/
theorem lookup_eq_found (space : AddressSpace) (ram : Ram) (vaddr : UInt32) :
    space.lookup ram vaddr = found (ram.path space.directory vaddr) := by
  rw [AddressSpace.lookup, read_word, path]
  by_cases hd : ram.Fits (Entry.directorySlot space.directory vaddr) 4
  · rw [if_pos hd, if_pos hd]
    show (if (ram.pde space.directory vaddr).has .present then
      (do let word ← ram.read (Entry.tableSlot (ram.pde space.directory vaddr).frame vaddr) 4
          pure (if (⟨word⟩ : Entry).has .present then some ((⟨word⟩ : Entry).resolve vaddr)
            else none) : Except Error (Option UInt32)) else .ok none) = _
    by_cases hp : (ram.pde space.directory vaddr).has .present = true
    · rw [if_pos hp, if_pos hp, read_word]
      by_cases ht : ram.Fits (Entry.tableSlot (ram.pde space.directory vaddr).frame vaddr) 4
      · rw [if_pos ht, if_pos ht]
        show Except.ok (if (ram.pte space.directory vaddr).has .present then
          some ((ram.pte space.directory vaddr).resolve vaddr) else none) = _
        split <;> rfl
      · rw [if_neg ht, if_neg ht]
        rfl
    · rw [if_neg hp, if_neg hp]
      rfl
  · rw [if_neg hd, if_neg hd]
    rfl

theorem found_eq_some_iff {r : Except Error UInt32} {p : UInt32} :
    found r = .ok (some p) ↔ r = .ok p := by
  rcases r with e | q
  · cases e <;> simp [found]
  · simp [found]

/-- Looking up finds what a walk finds, and nothing else. -/
theorem lookup_eq_some_iff {space : AddressSpace} {p : UInt32} :
    space.lookup ram vaddr = .ok (some p) ↔ ram.path space.directory vaddr = .ok p := by
  rw [lookup_eq_found, found_eq_some_iff]

/-! ## Tables that differ in marks alone -/

variable {T : Nat → Prop} {ram'' : Ram} {tracking : Tracking} {access : Access}

/-- The words of the pages in `T` differ in marks alone. -/
structure AlikeOn (T : Nat → Prop) (ram ram' : Ram) : Prop where
  size : ram'.size = ram.size
  word : ∀ a, a % 4 = 0 → T (a / 4096) → Entry.Alike ⟨ram.word a⟩ ⟨ram'.word a⟩

theorem AlikeOn.refl (T : Nat → Prop) (ram : Ram) : AlikeOn T ram ram :=
  ⟨rfl, fun _ _ _ => Entry.Alike.refl _⟩

/-- Tables with the same bytes are alike. -/
theorem AlikeOn.congr (h : AlikeOn T ram ram') (hs : ram''.size = ram'.size)
    (hb : ∀ b, T (b / 4096) → ram''.byte b = ram'.byte b) : AlikeOn T ram ram'' where
  size := hs.trans h.size
  word a ha hT := by
    have hword : ram''.word a = ram'.word a := by
      refine word_congr fun k hk hk' => hb k ?_
      rwa [show k / 4096 = a / 4096 by omega]
    rw [hword]
    exact h.word a ha hT

/-- The pages in `T` hold the directory and all its tables. -/
structure TablesIn (T : Nat → Prop) (ram : Ram) (directory : UInt32) : Prop where
  aligned : Page.Aligned directory
  top : T (Page.number directory)
  table : ∀ vaddr, ram.Fits (Entry.directorySlot directory vaddr) 4 →
    (ram.pde directory vaddr).has .present = true →
      T (Page.number (ram.pde directory vaddr).frame)

theorem AlikeOn.fits (h : AlikeOn T ram ram') (addr : UInt32) (len : Nat) :
    ram'.Fits addr len ↔ ram.Fits addr len := by
  rw [Fits, Fits, h.size]

theorem AlikeOn.pde (h : AlikeOn T ram ram') (hs : TablesIn T ram directory) (vaddr : UInt32) :
    Entry.Alike (ram.pde directory vaddr) (ram'.pde directory vaddr) := by
  refine h.word _ (Entry.directorySlot_mod hs.aligned _) ?_
  rw [Entry.directorySlot_div hs.aligned]
  exact hs.top

theorem AlikeOn.pte (h : AlikeOn T ram ram') (hs : TablesIn T ram directory)
    (hfit : ram.Fits (Entry.directorySlot directory vaddr) 4)
    (hp : (ram.pde directory vaddr).has .present = true) :
    Entry.Alike (ram.pte directory vaddr) (ram'.pte directory vaddr) := by
  have ha := Entry.aligned_frame (ram.pde directory vaddr)
  have hframe := (h.pde hs vaddr).frame
  show Entry.Alike (ram.entryAt _) (ram'.entryAt (Entry.tableSlot _ vaddr))
  rw [hframe]
  refine h.word _ (Entry.tableSlot_mod ha _) ?_
  rw [Entry.tableSlot_div ha]
  exact hs.table vaddr hfit hp

/-- Alike tables lead to the same addresses, and to the same errors. -/
theorem path_eq_of_alikeOn (hs : TablesIn T ram directory) (h : AlikeOn T ram ram')
    (vaddr : UInt32) : ram'.path directory vaddr = ram.path directory vaddr := by
  have hpde := h.pde hs vaddr
  simp only [path, h.fits, hpde.frame, hpde.present]
  by_cases hfit : ram.Fits (Entry.directorySlot directory vaddr) 4
  · rw [if_pos hfit, if_pos hfit]
    cases hp : (ram.pde directory vaddr).has .present with
    | false => simp [hpde.absent hp]
    | true =>
      have hpte := h.pte hs hfit hp
      rw [hpte.present, Entry.resolve, Entry.resolve, hpte.frame]
      cases ht : (ram.pte directory vaddr).has .present with
      | false => simp [hpte.absent ht]
      | true => simp
  · rw [if_neg hfit, if_neg hfit]

/-- Nor does looking up tell alike tables apart. -/
theorem lookup_eq_of_alikeOn {space : AddressSpace} (hs : TablesIn T ram space.directory)
    (h : AlikeOn T ram ram') (vaddr : UInt32) :
    space.lookup ram' vaddr = space.lookup ram vaddr := by
  rw [lookup_eq_found, lookup_eq_found, path_eq_of_alikeOn hs h]

theorem AlikeOn.mark (h : AlikeOn T ram ram') {slot : UInt32} {entry marked : Entry}
    (hfit : ram.Fits slot 4) (hmod : slot.toNat % 4 = 0)
    (halike : Entry.Alike (ram.entryAt slot) marked) :
    AlikeOn T ram (ram'.mark slot entry marked) where
  size := (size_mark _ _ _ _).trans h.size
  word a ha hT := by
    unfold Ram.mark
    split
    · exact h.word a ha hT
    · rw [word_setWord ((h.fits _ _).2 hfit) hmod ha]
      split
      · rename_i haddr
        rw [← haddr]
        exact halike
      · exact h.word a ha hT

theorem byte_mark_of_ne {slot : UInt32} {entry marked : Entry} (hfit : ram.Fits slot 4)
    (hmod : slot.toNat % 4 = 0) {b : Nat} (hne : b / 4096 ≠ slot.toNat / 4096) :
    (ram.mark slot entry marked).byte b = ram.byte b := by
  unfold Ram.mark
  split
  · rfl
  · exact byte_setWord_of_ne hfit hmod (by omega) _

/-- The marks of a walk leave its tables alike. -/
theorem AlikeOn.tracked (h : AlikeOn T ram ram') (hs : TablesIn T ram directory) {p : UInt32}
    (hpath : ram.path directory vaddr = .ok p) (tracking : Tracking) (access : Access) :
    AlikeOn T ram (ram'.tracked directory tracking access vaddr) := by
  obtain ⟨hd, hp, ht, hpt, -⟩ := path_eq_ok_iff.1 hpath
  have hpde := h.pde hs vaddr
  have hpte := h.pte hs hd hp
  cases tracking with
  | discard => exact h
  | writeBack =>
    have hfirst : AlikeOn T ram (ram'.mark (Entry.directorySlot directory vaddr)
        (ram'.pde directory vaddr) ((ram'.pde directory vaddr).touched .read)) :=
      h.mark hd (Entry.directorySlot_mod hs.aligned _) (hpde.mark (hpde.present.trans hp) .read)
    have hslot := Entry.tableSlot_mod (Entry.aligned_frame (ram.pde directory vaddr)) vaddr
    show AlikeOn T ram ((ram'.mark _ _ _).mark _ _ _)
    rw [hpde.frame]
    exact hfirst.mark ht hslot (hpte.mark (hpte.present.trans hpt) access)

/-- Bytes stored elsewhere leave tables as they are. -/
theorem AlikeOn.store (h : AlikeOn T ram ram') {i : Nat} {bytes : List UInt8}
    (hfit : i + bytes.length ≤ ram'.size)
    (hT : ∀ j, i ≤ j → j < i + bytes.length → ¬ T (j / 4096)) :
    AlikeOn T ram (ram'.store i bytes) := by
  refine h.congr (size_store _ _ _) fun b hb => byte_store_of_outside hfit ?_
  exact Decidable.byContradiction fun hin => hT b (by omega) (by omega) hb

/-- The marks of a walk reach its tables alone. -/
theorem byte_tracked_of_not (h : AlikeOn T ram ram') (hs : TablesIn T ram directory) {p : UInt32}
    (hpath : ram.path directory vaddr = .ok p) {b : Nat} (hb : ¬ T (b / 4096)) :
    (ram'.tracked directory tracking access vaddr).byte b = ram'.byte b := by
  obtain ⟨hd, hp, ht, -⟩ := path_eq_ok_iff.1 hpath
  have ha := Entry.aligned_frame (ram.pde directory vaddr)
  have hT := hs.table vaddr hd hp
  cases tracking with
  | discard => rfl
  | writeBack =>
    show ((ram'.mark _ _ _).mark _ _ _).byte b = _
    rw [(h.pde hs vaddr).frame, byte_mark_of_ne _ (Entry.tableSlot_mod ha _),
      byte_mark_of_ne ((h.fits _ _).2 hd) (Entry.directorySlot_mod hs.aligned _)]
    · rw [Entry.directorySlot_div hs.aligned]
      rintro hb'
      exact hb (hb' ▸ hs.top)
    · rw [Entry.tableSlot_div ha]
      rintro hb'
      exact hb (hb' ▸ hT)
    · rw [Fits, size_mark]
      exact (h.fits _ _).2 ht

end Ram

/-! ## Running a walk -/

namespace Bus

variable {δ : Type} [Device δ] {bus : Bus δ} {slot : UInt32}

/-- A word that no device serves is read from RAM. -/
theorem run_read_word (hf : bus.table.find? slot = none) :
    (read slot 4).run bus = ⟨bus.ram.read slot 4, bus, []⟩ := by
  rw [Ram.read_word]
  by_cases h : bus.ram.Fits slot 4
  · have hc : bus.ram.checkWord slot 4 = .ok () := Ram.checkWord_eq_ok_iff.2 ⟨.inr (.inr rfl), h⟩
    rw [if_pos h, run_read_of_not_find hc hf]
    rfl
  · have hc : bus.ram.checkWord slot 4 = .error (.outOfBounds slot 4) :=
      Ram.checkWord_eq_error_iff.2 (.inr ⟨.inr (.inr rfl), Nat.lt_of_not_le h, rfl⟩)
    rw [if_neg h, run_read_of_refused hc]

/-- A word that no device serves is written to RAM. -/
theorem run_write_word (hf : bus.table.find? slot = none) (h : bus.ram.Fits slot 4) (v : UInt32) :
    (write slot 4 v).run bus = ⟨.ok (), ⟨bus.ram.setWord slot.toNat v, bus.table⟩, []⟩ :=
  run_write_of_not_find (Ram.checkWord_eq_ok_iff.2 ⟨.inr (.inr rfl), h⟩) hf v

/-- An entry that no device serves is read from RAM, and must be present. -/
theorem run_fetch (hf : bus.table.find? slot = none) (level : Level) (vaddr : UInt32) :
    (fetch level vaddr slot).run bus =
      ⟨if bus.ram.Fits slot 4 then
          if (bus.ram.entryAt slot).has .present then .ok (bus.ram.entryAt slot)
          else .error (.notPresent level vaddr (bus.ram.entryAt slot).bits)
        else .error (.outOfBounds slot 4), bus, []⟩ := by
  rw [fetch, Op.run_bind, run_read_word hf, Ram.read_word]
  by_cases h : bus.ram.Fits slot 4
  · rw [if_pos h, if_pos h, Outcome.andThen_ok, Outcome.after_nil]
    show (if (bus.ram.entryAt slot).has .present then _ else _ : Op (Bus δ) Entry).run bus = _
    split <;> rfl
  · rw [if_neg h, if_neg h, Outcome.andThen_error]

/-- Marks of an entry that no device serves go to RAM. -/
theorem run_track (hf : bus.table.find? slot = none) (h : bus.ram.Fits slot 4)
    (tracking : Tracking) (entry marked : Entry) :
    (track tracking slot entry marked).run bus =
      ⟨.ok (), ⟨match tracking with
        | .discard => bus.ram
        | .writeBack => bus.ram.mark slot entry marked, bus.table⟩, []⟩ := by
  cases tracking with
  | discard => rfl
  | writeBack =>
    rw [track, Ram.mark]
    split
    · rfl
    · exact run_write_word hf h _

/-- What is left of a walk that found both entries. -/
theorem run_mark {directory vaddr : UInt32}
    (hd : bus.table.find? (Entry.directorySlot directory vaddr) = none)
    (ht : bus.table.find? (Entry.tableSlot (bus.ram.pde directory vaddr).frame vaddr) = none)
    (hfit : bus.ram.Fits (Entry.directorySlot directory vaddr) 4)
    (hfit' : bus.ram.Fits (Entry.tableSlot (bus.ram.pde directory vaddr).frame vaddr) 4)
    (tracking : Tracking) (access : Access) :
    (do let pde := bus.ram.pde directory vaddr
        let pte := bus.ram.pte directory vaddr
        track tracking (Entry.directorySlot directory vaddr) pde (pde.touched .read)
        track tracking (Entry.tableSlot pde.frame vaddr) pte (pte.touched access)
        .report (.walked access vaddr (pde.touched .read) (pte.touched access) (pte.resolve vaddr))
        pure (pte.resolve vaddr) : Op (Bus δ) UInt32).run bus =
      ⟨.ok ((bus.ram.pte directory vaddr).resolve vaddr),
        ⟨bus.ram.tracked directory tracking access vaddr, bus.table⟩,
        [.walked access vaddr ((bus.ram.pde directory vaddr).touched .read)
          ((bus.ram.pte directory vaddr).touched access)
          ((bus.ram.pte directory vaddr).resolve vaddr)]⟩ := by
  cases tracking with
  | discard => rfl
  | writeBack =>
    have hmark := run_track hd hfit .writeBack (bus.ram.pde directory vaddr)
      ((bus.ram.pde directory vaddr).touched .read)
    let first : Bus δ := ⟨bus.ram.mark (Entry.directorySlot directory vaddr)
      (bus.ram.pde directory vaddr) ((bus.ram.pde directory vaddr).touched .read), bus.table⟩
    have ht' : first.table.find? (Entry.tableSlot (bus.ram.pde directory vaddr).frame vaddr) =
      none := ht
    have hfit'' : first.ram.Fits (Entry.tableSlot (bus.ram.pde directory vaddr).frame vaddr) 4 := by
      rw [Ram.Fits, Ram.size_mark]
      exact hfit'
    have hmark' := run_track ht' hfit'' .writeBack (bus.ram.pte directory vaddr)
      ((bus.ram.pte directory vaddr).touched access)
    dsimp only
    rw [Op.run_bind, hmark, Outcome.andThen_ok, Outcome.after_nil, Op.run_bind, hmark',
      Outcome.andThen_ok, Outcome.after_nil]
    rfl

/-- A walk through tables that no device serves. -/
theorem run_walk {directory vaddr : UInt32}
    (hd : bus.table.find? (Entry.directorySlot directory vaddr) = none)
    (ht : bus.ram.Fits (Entry.directorySlot directory vaddr) 4 →
      (bus.ram.pde directory vaddr).has .present = true →
        bus.table.find? (Entry.tableSlot (bus.ram.pde directory vaddr).frame vaddr) = none)
    (tracking : Tracking) (access : Access) :
    (walk directory tracking access vaddr).run bus =
      match bus.ram.path directory vaddr with
      | .ok p => ⟨.ok p, ⟨bus.ram.tracked directory tracking access vaddr, bus.table⟩,
          [.walked access vaddr ((bus.ram.pde directory vaddr).touched .read)
            ((bus.ram.pte directory vaddr).touched access) p]⟩
      | .error e => ⟨.error e, bus, []⟩ := by
  rw [walk, Op.run_bind, run_fetch hd, Ram.path]
  by_cases hfit : bus.ram.Fits (Entry.directorySlot directory vaddr) 4
  · rw [if_pos hfit, if_pos hfit]
    show (Outcome.andThen ⟨if (bus.ram.pde directory vaddr).has .present then _ else _, _, _⟩ _) = _
    by_cases hp : (bus.ram.pde directory vaddr).has .present = true
    · have hslot := ht hfit hp
      rw [if_pos hp, if_pos hp, Outcome.andThen_ok, Outcome.after_nil]
      show (Op.run (fetch .table vaddr
        (Entry.tableSlot (bus.ram.pde directory vaddr).frame vaddr) >>= _) bus) = _
      rw [Op.run_bind, run_fetch hslot]
      by_cases hfit' : bus.ram.Fits (Entry.tableSlot (bus.ram.pde directory vaddr).frame vaddr) 4
      · rw [if_pos hfit', if_pos hfit']
        show (Outcome.andThen ⟨if (bus.ram.pte directory vaddr).has .present then _ else _, _, _⟩ _)
          = _
        by_cases hpt : (bus.ram.pte directory vaddr).has .present = true
        · rw [if_pos hpt, if_pos hpt, Outcome.andThen_ok, Outcome.after_nil]
          exact run_mark hd hslot hfit hfit' tracking access
        · rw [if_neg hpt, if_neg hpt, Outcome.andThen_error]
          rfl
      · rw [if_neg hfit', if_neg hfit', Outcome.andThen_error]
    · rw [if_neg hp, if_neg hp, Outcome.andThen_error]
      rfl
  · rw [if_neg hfit, if_neg hfit, Outcome.andThen_error]

end Bus

end PagedMemory
