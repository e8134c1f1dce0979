import PagedMemory.Proofs.Lookups

/-!
# Mapping a page is all or nothing

Mapping a page can fail at several places, and some of them come after the source of frames was
asked. Nothing is assumed here about what the tables hold, nor about the frames that the source
hands out: a frame may be no frame at all, it may lie outside RAM, and it may be the directory
itself. Still no step can fail once the first byte of RAM was changed.

- `Ram.NeedsTable`: the directory can be read at the slot of an address, and names no table there;
- `freshFrame_ends`, `tableFor_ends`, `map_ends`: what is left of RAM and of the source,
  whatever comes of the operation;
- `map_all_or_nothing`: with a source that records what it was asked for.
-/

namespace PagedMemory

/-- The slot of the directory that belongs to `vaddr` lies in RAM, and its entry names no table. -/
def Ram.NeedsTable (ram : Ram) (directory vaddr : UInt32) : Prop :=
  ram.Fits (Entry.directorySlot directory vaddr) 4 ∧
    (ram.pde directory vaddr).has .present = false

instance (ram : Ram) (directory vaddr : UInt32) : Decidable (ram.NeedsTable directory vaddr) :=
  inferInstanceAs (Decidable (_ ∧ _))

theorem Ram.needsTable_iff {ram : Ram} {directory vaddr : UInt32} :
    ram.NeedsTable directory vaddr ↔ ∃ entry,
      ram.read (Entry.directorySlot directory vaddr) 4 = .ok entry ∧
        (⟨entry⟩ : Entry).has .present = false := by
  simp only [read_word_eq_ok_iff]
  constructor
  · rintro ⟨hfit, hp⟩
    exact ⟨_, ⟨hfit, rfl⟩, hp⟩
  · rintro ⟨_, ⟨hfit, rfl⟩, hp⟩
    exact ⟨hfit, hp⟩

/-- The source once it was asked for a frame. -/
def FrameSource.afterCall {α : Type} [FrameSource α] (source : α) : α :=
  (allocate.run source).state

/-! ## A source with a record -/

/-- A source of frames with a record of its answers. -/
structure Asked (α : Type) where
  source : α
  answers : List (Except Error UInt32)

instance {α : Type} [FrameSource α] : FrameSource (Asked α) where
  allocate := ⟨fun s =>
    let o := FrameSource.allocate.run s.source
    ⟨o.result, ⟨o.state, s.answers ++ [o.result]⟩, o.events⟩⟩

/-- Each frame that is asked for is recorded, with what the source answered. -/
theorem Asked.answers_afterCall {α : Type} [FrameSource α] (s : Asked α) :
    (FrameSource.afterCall s).answers =
      s.answers ++ [(FrameSource.allocate.run s.source).result] := rfl

namespace AddressSpace

open FrameSource (afterCall)

variable {α : Type} [FrameSource α] {space : AddressSpace} {ram : Ram} {source : α}

/-! ## A frame, a table, a page -/

/-- A fresh frame lies in RAM and is cleared there. Where none is to be had, RAM is as it was,
though the source was asked. -/
theorem freshFrame_ends (ram : Ram) (source : α) :
    Op.Meets (· = (ram, source)) freshFrame
      (fun frame s => ram.HasFrame frame ∧ s = (ram.clear frame, afterCall source))
      (fun _ s => s = (ram, afterCall source)) := by
  rintro _ rfl
  rw [freshFrame, Op.run_bind, Op.run_snd, afterCall]
  rcases FrameSource.allocate.run source with ⟨e | frame, source', es⟩
  · exact rfl
  · by_cases ha : Page.Aligned frame
    · by_cases hf : ram.Fits frame Page.size
      · simp [ha, Ram.run_fill_frame hf, Ram.HasFrame, hf]
      · simp [ha, Ram.run_fill_frame_of_not_fits hf]
    · simp [ha]

/-- A table is opened in a fresh frame if the directory names none, and the source is asked for no
other reason. Without a table RAM is as it was. -/
theorem tableFor_ends (space : AddressSpace) (vaddr : UInt32) (ram : Ram) (source : α) :
    Op.Meets (· = (ram, source)) (space.tableFor vaddr)
      (fun table s => if ram.NeedsTable space.directory vaddr then
          s.1.HasFrame table ∧ s.2 = afterCall source
        else s = (ram, source))
      (fun _ s => s =
        (ram, if ram.NeedsTable space.directory vaddr then afterCall source else source)) := by
  rw [tableFor]
  by_cases hfit : ram.Fits (Entry.directorySlot space.directory vaddr) 4
  · refine Op.Meets.step_query (a := (ram.pde space.directory vaddr).bits)
      (Ram.read_word_eq_ok_iff.2 ⟨hfit, rfl⟩) ?_
    show Op.Meets _ (if (ram.pde space.directory vaddr).has .present then _ else _) _ _
    cases hp : (ram.pde space.directory vaddr).has .present with
    | true =>
      have hneeds : ¬ ram.NeedsTable space.directory vaddr := by simp [Ram.NeedsTable, hp]
      rw [if_pos rfl]
      exact Op.Meets.pure fun _ hs => by rwa [if_neg hneeds]
    | false =>
      have hneeds : ram.NeedsTable space.directory vaddr := ⟨hfit, hp⟩
      rw [if_neg Bool.false_ne_true]
      simp only [if_pos hneeds]
      refine (freshFrame_ends ram source).bind fun table => ?_
      refine Op.Meets.of_imp (fun _ h => h.1) fun hf => ?_
      refine Op.Meets.onStart (P := (· = (ram.clear table, afterCall source))) ?_ fun _ h => h.2
      -- the slot was there to be read, and clearing a frame leaves the size of RAM alone
      have hslot : (ram.clear table).Fits (Entry.directorySlot space.directory vaddr) 4 := by
        rw [Ram.Fits, Ram.size_clear]
        exact hfit
      refine Op.Meets.step (by rw [Op.run_fst, Ram.run_write_word hslot]) ?_
      refine Op.Meets.report_bind (Op.Meets.pure ?_)
      rintro _ rfl
      refine ⟨hf.of_size ?_, rfl⟩
      rw [Ram.size_setWord, Ram.size_clear]
  · have hneeds : ¬ ram.NeedsTable space.directory vaddr := fun h => hfit h.1
    refine Op.Meets.stop_query
      (e := .outOfBounds (Entry.directorySlot space.directory vaddr) 4) ?_ ?_
    · show ram.read _ 4 = _
      rw [Ram.read_word, if_neg hfit]
    · rw [if_neg hneeds]

omit [FrameSource α] in
/-- The entry of a page is written if its slot can be read, and otherwise nothing is. -/
theorem writeEntry_ends (slot vaddr frame : UInt32) (s : Ram × α) :
    Op.Meets (· = s) (do
        let old : Entry := ⟨← .query fun (ram, _) => ram.read slot 4⟩
        if old.has .present then .report (.remapped vaddr old.frame frame) else pure ()
        .fst (Ram.write slot 4 (Entry.make frame Entry.openFlags).bits)
        .report (.mapped vaddr frame))
      (fun _ s' => s'.2 = s.2) (fun _ s' => ¬ s.1.Fits slot 4 ∧ s' = s) := by
  by_cases hfit : s.1.Fits slot 4
  · refine Op.Meets.step_query (Ram.read_word_eq_ok_iff.2 ⟨hfit, rfl⟩) ?_
    have hwrite : Op.Meets (· = s)
        (do .fst (Ram.write slot 4 (Entry.make frame Entry.openFlags).bits)
            .report (.mapped vaddr frame))
        (fun _ s' => s'.2 = s.2) (fun _ s' => ¬ s.1.Fits slot 4 ∧ s' = s) := by
      refine Op.Meets.step (by rw [Op.run_fst, Ram.run_write_word hfit]) (Op.Meets.report ?_)
      rintro _ rfl
      rfl
    show Op.Meets _ (if (⟨s.1.word slot.toNat⟩ : Entry).has .present then _ else _) _ _
    split
    · exact Op.Meets.report_bind hwrite
    · exact hwrite
  · refine Op.Meets.stop_query (e := .outOfBounds slot 4) ?_ ⟨hfit, rfl⟩
    show s.1.read slot 4 = _
    rw [Ram.read_word, if_neg hfit]

/-- Mapping asks for a frame if both addresses begin pages and the page needs a table. -/
def Asks (space : AddressSpace) (ram : Ram) (vaddr frame : UInt32) : Prop :=
  Page.Aligned vaddr ∧ Page.Aligned frame ∧ ram.NeedsTable space.directory vaddr

instance (space : AddressSpace) (ram : Ram) (vaddr frame : UInt32) :
    Decidable (space.Asks ram vaddr frame) :=
  inferInstanceAs (Decidable (_ ∧ _))

/-- A page that was not mapped changes no byte of RAM, and whatever comes of it, the source is asked
once or left alone. -/
theorem map_ends (space : AddressSpace) (vaddr frame : UInt32) (ram : Ram) (source : α) :
    Op.Meets (· = (ram, source)) (space.map vaddr frame)
      (fun _ s => s.2 = if space.Asks ram vaddr frame then afterCall source else source)
      (fun _ s => s = (ram, if space.Asks ram vaddr frame then afterCall source else source)) := by
  by_cases hv : Page.Aligned vaddr
  · by_cases hf : Page.Aligned frame
    · have hasks : space.Asks ram vaddr frame ↔ ram.NeedsTable space.directory vaddr := by
        simp [Asks, hv, hf]
      simp only [hasks]
      refine Op.Meets.step (by rw [Op.run_require, if_pos hv]) ?_
      refine Op.Meets.step (by rw [Op.run_require, if_pos hf]) ?_
      refine (tableFor_ends space vaddr ram source).bind fun table => Op.Meets.of_states ?_
      intro s hs
      by_cases hneeds : ram.NeedsTable space.directory vaddr
      · -- a table that was opened lies in RAM, so the slot of the page does
        rw [if_pos hneeds] at hs
        refine (writeEntry_ends _ vaddr frame s).weaken (fun _ h => h) ?_ ?_
        · intro _ s' h
          rw [if_pos hneeds, h, hs.2]
        · rintro _ s' ⟨hfit, -⟩
          exact absurd (hs.1.fits_tableSlot vaddr) hfit
      · -- where the directory names a table, nothing was written before
        rw [if_neg hneeds] at hs
        subst hs
        refine (writeEntry_ends _ vaddr frame _).weaken (fun _ h => h) ?_ ?_
        · intro _ s' h
          rw [if_neg hneeds, h]
        · rintro _ s' ⟨-, h⟩
          rw [if_neg hneeds, h]
    · have hasks : ¬ space.Asks ram vaddr frame := fun h => hf h.2.1
      rintro _ rfl
      simp [map, hv, hf, hasks]
  · have hasks : ¬ space.Asks ram vaddr frame := fun h => hv h.1
    rintro _ rfl
    simp [map, hv, hasks]

/-- What is left of RAM and of the source. -/
theorem state_map (space : AddressSpace) (vaddr frame : UInt32) (ram : Ram) (source : α) :
    (∀ e, ((space.map vaddr frame).run (ram, source)).result = .error e →
      ((space.map vaddr frame).run (ram, source)).state.1 = ram) ∧
    ((space.map vaddr frame).run (ram, source)).state.2 =
      if space.Asks ram vaddr frame then afterCall source else source := by
  refine Op.Meets.outcome (R := fun r s => (∀ e, r = .error e → s.1 = ram) ∧
    s.2 = if space.Asks ram vaddr frame then afterCall source else source)
    ((map_ends space vaddr frame ram source).weaken (fun _ h => h) ?_ ?_) rfl
  · intro _ s h
    exact ⟨fun _ => nofun, h⟩
  · rintro _ _ rfl
    exact ⟨fun _ _ => rfl, rfl⟩

/-- A page that was not mapped changes no byte of RAM. At most one frame is asked for, and that only
if both addresses begin pages and the directory can be read at the slot of the page and names no
table there. -/
theorem map_all_or_nothing (space : AddressSpace) (ram : Ram) (source : Asked α)
    (vaddr frame : UInt32) :
    (∀ e, ((space.map vaddr frame).run (ram, source)).result = .error e →
      ((space.map vaddr frame).run (ram, source)).state.1 = ram) ∧
    ∃ asked, ((space.map vaddr frame).run (ram, source)).state.2.answers = source.answers ++ asked ∧
      asked.length ≤ 1 ∧
      (asked ≠ [] ↔ Page.Aligned vaddr ∧ Page.Aligned frame ∧
        ∃ entry, ram.read (Entry.directorySlot space.directory vaddr) 4 = .ok entry ∧
          (⟨entry⟩ : Entry).has .present = false) := by
  obtain ⟨hram, hsource⟩ := state_map space vaddr frame ram source
  refine ⟨hram, ?_⟩
  rw [hsource, ← Ram.needsTable_iff, ← Asks]
  by_cases hasks : space.Asks ram vaddr frame
  · rw [if_pos hasks]
    exact ⟨_, Asked.answers_afterCall source, Nat.le_refl 1, by simp [hasks]⟩
  · rw [if_neg hasks]
    exact ⟨[], (List.append_nil _).symm, Nat.zero_le 1, by simp [hasks]⟩

/-- A frame that lies outside RAM is lost, and RAM stays as it was. -/
theorem map_all_or_nothing_outside : ∃ ram, Ram.SelfNamed ram ∧
    (((ofRegister 0x1000).map 0x400000 0).run
      (ram, Asked.mk (FrameList.ofList [0x2000]) [])).result =
      .error (.outOfBounds 0x2000 Page.size) ∧
    (((ofRegister 0x1000).map 0x400000 0).run
      (ram, Asked.mk (FrameList.ofList [0x2000]) [])).state.1 = ram := by
  obtain ⟨ram, hram⟩ := Ram.exists_selfNamed
  have hread : ram.read (Entry.directorySlot (ofRegister 0x1000).directory 0x400000) 4 = .ok 0 :=
    Ram.read_word_eq_ok_iff.2 ⟨hram.fits (by decide), hram.word 0x1004 rfl⟩
  have hfits : ¬ ram.Fits 0x2000 Page.size := by
    rw [Ram.Fits, hram.size]
    decide
  have hresult : (((ofRegister 0x1000).map 0x400000 0).run
      (ram, Asked.mk (FrameList.ofList [0x2000]) [])).result =
        .error (.outOfBounds 0x2000 Page.size) := by
    have hv : Page.Aligned 0x400000 := by decide
    have hz : Page.Aligned 0 := by decide
    have hf : Page.Aligned 0x2000 := by decide
    simp [map, tableFor, freshFrame, hread, hv, hz, hf, Ram.run_fill_frame_of_not_fits hfits,
      FrameSource.allocate, FrameList.allocate, FrameList.ofList, Entry.not_present_zero]
  exact ⟨ram, hram, hresult, (map_all_or_nothing _ _ _ _ _).1 _ hresult⟩

end AddressSpace

end PagedMemory
