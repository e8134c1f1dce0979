import PagedMemory.Proofs.Contracts
import PagedMemory.Proofs.FrameBudget

/-!
# Contracts of creating and mapping

Each operation on address spaces has one contract. It starts from the state of a valid layout, and
names the layouts to which the operation leads and the errors with which it leaves them. What these
layouts have in common with the first one was shown apart from the operations.

- `create_meets`: a new directory, or no frame for it;
- `map_meets`: the entry of the page, written in a table that was there or was opened for it;
- `map_takes`, `map_evolves`: whatever comes of it, no other page is touched, and no frame is taken
  but for a table that was missing;
- `mapEach_meets`: pages mapped to themselves one after the other, all of them or the first ones;
- `mapIdentity_evolves`: no other pages are touched by that, nor are other spaces.
-/

namespace PagedMemory

namespace Layout

/-- Why there is no fresh frame, and what is left: the pool has none, or the one that it has does
not lie in RAM. A frame of the second kind is lost. -/
inductive NoFrame (l : Layout) : Error → Ram × Pool → Prop
  | spent : ¬ l.pool.HasNext → NoFrame l (.outOfFrames l.pool.next l.pool.limit) l.state
  | outside : l.pool.HasNext → ¬ l.ram.HasFrame l.pool.fresh →
      NoFrame l (.outOfBounds l.pool.fresh Page.size) l.skip.state

/-- The layouts in which the space `i` has a table for `vaddr`, with as little change as that
takes. -/
inductive WithTable (l : Layout) (i : Nat) (directory vaddr : UInt32) : Layout → Prop
  | there : (l.ram.pde directory vaddr).has .present = true → WithTable l i directory vaddr l
  | opened : (l.ram.pde directory vaddr).has .present = false → l.pool.HasNext →
      l.ram.HasFrame l.pool.fresh → WithTable l i directory vaddr (l.openTable i directory vaddr)

/-- Why a page was not mapped, and what is left. -/
inductive Refused (l : Layout) (directory vaddr frame : UInt32) : Error → Ram × Pool → Prop
  | vaddr : ¬ Page.Aligned vaddr → Refused l directory vaddr frame (.misaligned vaddr) l.state
  | frame : Page.Aligned vaddr → ¬ Page.Aligned frame →
      Refused l directory vaddr frame (.misaligned frame) l.state
  | table {e : Error} {s : Ram × Pool} : Page.Aligned vaddr → Page.Aligned frame →
      (l.ram.pde directory vaddr).has .present = false → l.NoFrame e s →
        Refused l directory vaddr frame e s

/-- The state of a layout that comes from `l` by work on the touched pages of the space `i`. -/
def Reaches (spaces : List AddressSpace) (i : Nat) (touched : Nat → Prop) (l : Layout)
    (s : Ram × Pool) : Prop :=
  ∃ l' : Layout, s = l'.state ∧ Evolves spaces i touched l l'

variable {spaces : List AddressSpace} {l l' : Layout} {i j : Nat} {space space' : AddressSpace}
  {touched : Nat → Prop} {vaddr frame : UInt32} {e : Error} {s : Ram × Pool}

/-- A frame that could not be had changes no byte of RAM. -/
theorem NoFrame.evolves (h : l.NoFrame e s) (hl : l.Valid spaces) :
    ∃ l' : Layout, s = l'.state ∧ l'.ram = l.ram ∧ Evolves spaces i touched l l' := by
  cases h with
  | spent _ => exact ⟨l, rfl, rfl, hl.evolves⟩
  | outside _ _ => exact ⟨l.skip, rfl, rfl, hl.evolves_skip⟩

/-- A page that was not mapped changes no byte of RAM. -/
theorem Refused.evolves {directory : UInt32} (h : l.Refused directory vaddr frame e s)
    (hl : l.Valid spaces) :
    ∃ l' : Layout, s = l'.state ∧ l'.ram = l.ram ∧ Evolves spaces i touched l l' := by
  cases h with
  | vaddr _ => exact ⟨l, rfl, rfl, hl.evolves⟩
  | frame _ _ => exact ⟨l, rfl, rfl, hl.evolves⟩
  | table _ _ _ h => exact h.evolves hl

theorem NoFrame.not_roomy (h : l.NoFrame e s) (hl : l.Valid spaces) : ¬ l.Roomy 1 := by
  cases h with
  | spent hn => exact fun hr => hn hr.hasNext
  | outside _ hf => exact fun hr => hf (hr.hasFrame hl.sound)

/-- In a pool that ends within RAM there is no fresh frame only when none is left. -/
theorem NoFrame.short {directory : UInt32} (h : l.NoFrame e s) (hl : l.Valid spaces)
    (hp : (l.ram.pde directory vaddr).has .present = false) (hsize : l.pool.limit ≤ l.ram.size) :
    l.Short directory [vaddr] 0 e := by
  have hcard : (l.ram.missing directory [vaddr]).card = 1 := by
    rw [Ram.missing_singleton, hp]
    rfl
  cases h with
  | spent hn =>
    refine ⟨⟨_, _, rfl⟩, ?_⟩
    rw [Pool.hasNext_iff] at hn
    omega
  | outside hn hf =>
    have hr : l.Roomy 1 := ⟨hsize, hn⟩
    exact absurd (hr.hasFrame hl.sound) hf

/-- With aligned addresses a page is not mapped only when its table has no frame. -/
theorem Refused.short {directory : UInt32} (h : l.Refused directory vaddr frame e s)
    (hl : l.Valid spaces) (hv : Page.Aligned vaddr) (hf : Page.Aligned frame)
    (hsize : l.pool.limit ≤ l.ram.size) : l.Short directory [vaddr] 0 e := by
  cases h with
  | vaddr h => exact absurd hv h
  | frame _ h => exact absurd hf h
  | table _ _ hp h => exact h.short hl hp hsize

/-- The frame for a table is all that is taken. -/
theorem WithTable.takes (h : l.WithTable i space.directory vaddr l') (hl : l.Valid spaces)
    (hi : spaces[i]? = some space) : l.Takes space.directory [vaddr] 0 l' := by
  cases h with
  | there hp => exact Takes.there hp
  | opened hp hn hf => exact hl.takes_openTable hi hn hf hp

theorem WithTable.evolves (h : l.WithTable i space.directory vaddr l') (hl : l.Valid spaces)
    (hi : spaces[i]? = some space) (ht : touched (Page.number vaddr)) :
    Evolves spaces i touched l l' := by
  cases h with
  | there _ => exact hl.evolves
  | opened hp hn hf => exact hl.evolves_openTable hn hf hi hp ht

theorem WithTable.present (h : l.WithTable i space.directory vaddr l') (hl : l.Valid spaces)
    (hi : spaces[i]? = some space) : (l'.ram.pde space.directory vaddr).has .present = true := by
  cases h with
  | there hp => exact hp
  | opened _ hn hf =>
    rw [hl.pde_openTable hn hf hi hi, if_pos ⟨rfl, rfl⟩]
    exact Entry.present_make hf.1

/-! ## One page after the other -/

/-- Pages of the space `i` were mapped to themselves, one after the other. -/
inductive MapsEach (spaces : List AddressSpace) (i : Nat) (space : AddressSpace) :
    Layout → List UInt32 → Layout → Prop
  | nil {l : Layout} : l.Valid spaces → MapsEach spaces i space l [] l
  | cons {l l' l'' : Layout} {page : UInt32} {pages : List UInt32} :
      Evolves spaces i (· = Page.number page) l l' →
      l'.ram.frame? space.directory page = some page → l.Takes space.directory [page] 0 l' →
      MapsEach spaces i space l' pages l'' → MapsEach spaces i space l (page :: pages) l''

/-- The pages were mapped to themselves until the error came up: the next page needed a table for
which there was no frame. -/
def MapsUntil (spaces : List AddressSpace) (i : Nat) (space : AddressSpace) (l : Layout)
    (pages : List UInt32) (e : Error) (s : Ram × Pool) : Prop :=
  ∃ (done : List UInt32) (page : UInt32) (rest : List UInt32) (mid l' : Layout),
    pages = done ++ page :: rest ∧ MapsEach spaces i space l done mid ∧
    (Page.Aligned page → mid.pool.limit ≤ mid.ram.size → mid.Short space.directory [page] 0 e) ∧
    s = l'.state ∧ l'.ram = mid.ram ∧ Evolves spaces i (fun _ => False) mid l'

variable {pages : List UInt32} {page : UInt32}

/-- No page but those is touched. -/
theorem MapsEach.evolves (h : MapsEach spaces i space l pages l') :
    Evolves spaces i (fun n => ∃ page ∈ pages, n = Page.number page) l l' := by
  induction h with
  | nil hl => exact hl.evolves
  | cons hev _ _ _ ih =>
    refine (hev.mono ?_).trans (ih.mono ?_)
    · rintro _ rfl
      exact ⟨_, List.mem_cons_self, rfl⟩
    · rintro n ⟨page, hpage, hn⟩
      exact ⟨page, List.mem_cons_of_mem _ hpage, hn⟩

/-- Each of the pages has itself as its frame in the end. -/
theorem MapsEach.frame? (h : MapsEach spaces i space l pages l') (hi : spaces[i]? = some space)
    (ha : ∀ page ∈ pages, Page.Aligned page) :
    ∀ page ∈ pages, l'.ram.frame? space.directory page = some page := by
  induction h with
  | nil _ => exact nofun
  | @cons l l' l'' first pages _ hframe _ hrest ih =>
    have hpages := ih fun page hpage => ha page (List.mem_cons_of_mem _ hpage)
    intro page hpage
    rcases List.mem_cons.1 hpage with rfl | hpage
    · by_cases hagain : page ∈ pages
      · exact hpages page hagain
      · -- what comes after the page does not touch it
        rw [hrest.evolves.frame i space page hi ?_, hframe]
        rintro - ⟨other, hother, hnumber⟩
        have hother' := ha other (List.mem_cons_of_mem _ hother)
        have heq : page = other := by
          rw [← UInt32.toNat_inj, (ha page hpage).toNat_eq, hother'.toNat_eq, hnumber]
        exact hagain (heq ▸ hother)
    · exact hpages page hpage

/-- The pages take a frame for each table that they need. -/
theorem MapsEach.takes (h : MapsEach spaces i space l pages l') :
    l.Takes space.directory pages 0 l' := by
  induction h with
  | nil _ => exact Takes.none rfl fun _ => rfl
  | cons _ _ htakes _ ih => exact htakes.trans ih

/-- Mapping pages stops only when the pool has too few frames for the tables that they need. -/
theorem MapsUntil.short (h : MapsUntil spaces i space l pages e s)
    (ha : ∀ page ∈ pages, Page.Aligned page) (hlimit : l.pool.limit ≤ l.ram.size) :
    l.Short space.directory pages 0 e := by
  obtain ⟨done, page, rest, mid, l', rfl, hdone, hshort, -⟩ := h
  have hmid : mid.pool.limit ≤ mid.ram.size := by
    rw [hdone.takes.pool, hdone.evolves.size]
    exact hlimit
  have hshort := hdone.takes.short (hshort (ha page (by simp)) hmid)
  refine hshort.mono ?_ (Nat.le_refl _)
  exact List.append_subset.2 ⟨List.subset_append_left _ _, by simp⟩

end Layout

namespace AddressSpace

open Layout

variable {spaces : List AddressSpace} {l : Layout} {i : Nat} {space : AddressSpace}
  {vaddr frame : UInt32}

/-! ## Taking a frame -/

/-- A fresh frame is cleared, if there is one. -/
theorem freshFrame_meets (hl : l.Valid spaces) :
    Op.Meets (· = l.state) freshFrame
      (fun t s => l.pool.HasNext ∧ l.ram.HasFrame l.pool.fresh ∧ t = l.pool.fresh ∧
        s = (l.ram.clear l.pool.fresh, l.pool.advance))
      l.NoFrame := by
  rintro _ rfl
  by_cases hn : l.pool.HasNext
  · have ha := hl.sound.aligned_fresh
    by_cases hf : l.ram.Fits l.pool.fresh Page.size
    · have hrun : freshFrame.run l.state =
          ⟨.ok l.pool.fresh, (l.ram.clear l.pool.fresh, l.pool.advance), []⟩ := by
        simp only [freshFrame, state, Op.run_bind, Op.run_snd, Pool.run_allocate_of_hasNext hn,
          Outcome.andThen_ok, Outcome.after_nil, Op.run_require, if_pos ha, Op.run_fst,
          Ram.run_fill_frame hf, Op.run_pure]
      rw [hrun]
      exact ⟨hn, ⟨ha, hf⟩, rfl, rfl⟩
    · -- the pool is not given back the frame that could not be cleared
      have hrun : freshFrame.run l.state =
          ⟨.error (.outOfBounds l.pool.fresh Page.size), l.skip.state, []⟩ := by
        simp only [freshFrame, state, Op.run_bind, Op.run_snd, Pool.run_allocate_of_hasNext hn,
          Outcome.andThen_ok, Outcome.after_nil, Op.run_require, if_pos ha, Op.run_fst,
          Ram.run_fill_frame_of_not_fits hf, Outcome.andThen_error, skip]
      rw [hrun]
      exact .outside hn fun h => hf h.2
  · have hrun : freshFrame.run l.state =
        ⟨.error (.outOfFrames l.pool.next l.pool.limit), l.state, []⟩ := by
      simp only [freshFrame, state, Op.run_bind, Op.run_snd, Pool.run_allocate_of_not_hasNext hn,
        Outcome.andThen_error]
    rw [hrun]
    exact .spent hn

/-- A space that is created lies in a fresh frame. -/
theorem create_meets (hl : l.Valid spaces) :
    Op.Meets (· = l.state) create
      (fun space s => l.pool.HasNext ∧ l.ram.HasFrame l.pool.fresh ∧ space = ⟨l.pool.fresh⟩ ∧
        s = (l.openDirectory spaces.length).state)
      l.NoFrame := by
  refine (freshFrame_meets hl).bind fun t => Op.Meets.of_states ?_
  rintro s ⟨hn, hf, rfl, rfl⟩
  refine Op.Meets.step (Op.run_report _ _) (Op.Meets.pure ?_)
  rintro _ rfl
  exact ⟨hn, hf, rfl, (state_openDirectory _ _).symm⟩

/-! ## Mapping a page -/

/-- The table for an address is the one that the directory names, or a new one. -/
theorem tableFor_meets (hl : l.Valid spaces) (hi : spaces[i]? = some space) (vaddr : UInt32) :
    Op.Meets (· = l.state) (space.tableFor vaddr)
      (fun t s => ∃ l', l.WithTable i space.directory vaddr l' ∧
        t = (l'.ram.pde space.directory vaddr).frame ∧ s = l'.state)
      (fun e s => (l.ram.pde space.directory vaddr).has .present = false ∧ l.NoFrame e s) := by
  have hd := hl.hasDirectory i space hi
  have hslot := hd.fits_directorySlot vaddr
  have hread : l.ram.read (Entry.directorySlot space.directory vaddr) 4 =
      .ok (l.ram.pde space.directory vaddr).bits := by
    rw [Ram.read_word, if_pos hslot]
    rfl
  refine Op.Meets.step_query hread ?_
  show Op.Meets _ (if (l.ram.pde space.directory vaddr).has .present then _ else _) _ _
  cases hp : (l.ram.pde space.directory vaddr).has .present with
  | true =>
    rw [if_pos rfl]
    refine Op.Meets.pure ?_
    rintro _ rfl
    exact ⟨l, .there hp, rfl, rfl⟩
  | false =>
    rw [if_neg Bool.false_ne_true]
    refine ((freshFrame_meets hl).weaken (fun _ h => h) (fun _ _ h => h)
      fun _ _ h => ⟨rfl, h⟩).bind fun t => Op.Meets.of_states ?_
    rintro _ ⟨hn, hf, rfl, rfl⟩
    -- the frame is cleared first, and then the directory names it
    have hfit : (l.ram.clear l.pool.fresh).Fits (Entry.directorySlot space.directory vaddr) 4 :=
      (hd.of_size (Ram.size_clear _ _)).fits_directorySlot vaddr
    have hwrite : (Op.fst (Ram.write (Entry.directorySlot space.directory vaddr) 4
        (Entry.make l.pool.fresh Entry.openFlags).bits)).run
          (l.ram.clear l.pool.fresh, l.pool.advance) =
        ⟨.ok (), (l.openTable i space.directory vaddr).state, []⟩ := by
      rw [Op.run_fst, Ram.run_write_word hfit]
      rfl
    refine Op.Meets.step hwrite (Op.Meets.step (Op.run_report _ _) (Op.Meets.pure ?_))
    rintro _ rfl
    refine ⟨_, .opened hp hn hf, ?_, rfl⟩
    rw [hl.pde_openTable hn hf hi hi, if_pos ⟨rfl, rfl⟩, Entry.frame_make hf.1]

/-- The entry of a page is written in a table that lies in RAM. -/
theorem setEntry_meets
    (hfit : l.ram.Fits (Entry.tableSlot (l.ram.pde space.directory vaddr).frame vaddr) 4) :
    Op.Meets (· = l.state)
      (do let slot := Entry.tableSlot (l.ram.pde space.directory vaddr).frame vaddr
          let old : Entry := ⟨← .query fun (ram, _) => ram.read slot 4⟩
          if old.has .present then .report (.remapped vaddr old.frame frame) else pure ()
          .fst (Ram.write slot 4 (Entry.make frame Entry.openFlags).bits)
          .report (.mapped vaddr frame) : Op (Ram × Pool) Unit)
      (fun _ s => s = (l.setEntry space.directory vaddr frame).state) (fun _ _ => False) := by
  have hread : l.ram.read (Entry.tableSlot (l.ram.pde space.directory vaddr).frame vaddr) 4 =
      .ok (l.ram.pte space.directory vaddr).bits := by
    rw [Ram.read_word, if_pos hfit]
    rfl
  refine Op.Meets.step_query hread ?_
  -- what comes after the report is the same whether or not there is one
  have hend : Op.Meets (· = l.state)
      (do .fst (Ram.write (Entry.tableSlot (l.ram.pde space.directory vaddr).frame vaddr) 4
            (Entry.make frame Entry.openFlags).bits)
          .report (.mapped vaddr frame) : Op (Ram × Pool) Unit)
      (fun _ s => s = (l.setEntry space.directory vaddr frame).state) (fun _ _ => False) := by
    have hwrite : (Op.fst (Ram.write (Entry.tableSlot (l.ram.pde space.directory vaddr).frame vaddr)
        4 (Entry.make frame Entry.openFlags).bits)).run l.state =
        ⟨.ok (), (l.setEntry space.directory vaddr frame).state, []⟩ := by
      rw [state, Op.run_fst, Ram.run_write_word hfit]
      rfl
    refine Op.Meets.step hwrite (Op.Meets.report ?_)
    rintro _ rfl
    rfl
  show Op.Meets _ (if (l.ram.pte space.directory vaddr).has .present then _ else _) _ _
  split
  · exact Op.Meets.step (Op.run_report _ _) hend
  · exact hend

/-- A page gets its frame by one entry, in a table that was there or was opened for it. -/
theorem map_meets (hl : l.Valid spaces) (hi : spaces[i]? = some space) (vaddr frame : UInt32) :
    Op.Meets (· = l.state) (space.map vaddr frame)
      (fun _ s => Page.Aligned vaddr ∧ Page.Aligned frame ∧
        ∃ l', l.WithTable i space.directory vaddr l' ∧
          s = (l'.setEntry space.directory vaddr frame).state)
      (l.Refused space.directory vaddr frame) := by
  refine Op.Meets.bind (Q := fun _ s => Page.Aligned vaddr ∧ s = l.state)
    (Op.Meets.require (fun _ hs hv => ⟨hv, hs⟩) ?_) fun _ => ?_
  · rintro _ rfl hv
    exact .vaddr hv
  refine Op.Meets.bind (Q := fun _ s => Page.Aligned vaddr ∧ Page.Aligned frame ∧ s = l.state)
    (Op.Meets.require (fun _ hs hf => ⟨hs.1, hf, hs.2⟩) ?_) fun _ => Op.Meets.of_states ?_
  · rintro _ ⟨hv, rfl⟩ hf
    exact .frame hv hf
  rintro _ ⟨hv, hf, rfl⟩
  refine ((tableFor_meets hl hi vaddr).weaken (fun _ h => h) (fun _ _ h => h)
    fun _ _ h => .table hv hf h.1 h.2).bind fun t => Op.Meets.of_states ?_
  rintro _ ⟨l', ht, rfl, rfl⟩
  have hev : Evolves spaces i (· = Page.number vaddr) l l' := ht.evolves hl hi rfl
  have htable := hev.valid.hasTable i space vaddr hi (ht.present hl hi)
  exact (setEntry_meets (htable.fits_tableSlot vaddr)).weaken (fun _ h => h)
    (fun _ _ h => ⟨hv, hf, l', ht, h⟩) fun _ _ => False.elim

/-! ## What mapping touches -/

/-- Mapping a page touches that page alone, and takes a frame only for a table that was missing.
With aligned addresses it fails only when there is no frame for that table, and then it touches no
page. -/
theorem map_takes (hl : l.Valid spaces) (hi : spaces[i]? = some space) (vaddr frame : UInt32) :
    Op.Meets (· = l.state) (space.map vaddr frame)
      (fun _ s => ∃ l', s = l'.state ∧ Evolves spaces i (· = Page.number vaddr) l l' ∧
        l'.ram.frame? space.directory vaddr = some frame ∧ l.Takes space.directory [vaddr] 0 l')
      (fun e s => (Page.Aligned vaddr → Page.Aligned frame → l.pool.limit ≤ l.ram.size →
          l.Short space.directory [vaddr] 0 e) ∧
        ∃ l', s = l'.state ∧ l'.ram = l.ram ∧ Evolves spaces i (fun _ => False) l l') := by
  refine (map_meets hl hi vaddr frame).weaken (fun _ h => h) ?_
    fun e s h => ⟨h.short hl, h.evolves hl⟩
  rintro _ s ⟨-, hf, l', ht, rfl⟩
  have hev : Evolves spaces i (· = Page.number vaddr) l l' := ht.evolves hl hi rfl
  have hp := ht.present hl hi
  have hset : Evolves spaces i (· = Page.number vaddr) l'
      (l'.setEntry space.directory vaddr frame) := hev.valid.evolves_setEntry hi hp rfl
  exact ⟨_, rfl, hev.trans hset, hev.valid.frame?_setEntry_self hi hp hf,
    (ht.takes hl hi).trans (hev.valid.takes_setEntry hi hp frame)⟩

/-- Mapping a page touches that page alone, and none when it fails. -/
theorem map_evolves (hl : l.Valid spaces) (hi : spaces[i]? = some space) (vaddr frame : UInt32) :
    Op.Meets (· = l.state) (space.map vaddr frame)
      (fun _ s => ∃ l', s = l'.state ∧ Evolves spaces i (· = Page.number vaddr) l l' ∧
        l'.ram.frame? space.directory vaddr = some frame ∧ ∀ n, l.Roomy (n + 1) → l'.Roomy n)
      (fun _ s => ¬ (Page.Aligned vaddr ∧ Page.Aligned frame ∧ l.Roomy 1) ∧
        ∃ l', s = l'.state ∧ l'.ram = l.ram ∧ Evolves spaces i (fun _ => False) l l') := by
  refine (map_takes hl hi vaddr frame).weaken (fun _ h => h) ?_ ?_
  · rintro _ s ⟨l', rfl, hev, hframe, htakes⟩
    exact ⟨l', rfl, hev, hframe, fun n hr => htakes.roomy hev.size hr⟩
  · rintro e s ⟨hshort, hleft⟩
    refine ⟨?_, hleft⟩
    rintro ⟨hv, hf, hr⟩
    exact (hshort hv hf hr.1).not_roomy hr

/-- Pages are mapped to themselves one after the other, up to the first one that cannot be mapped.
Induction on the pages. -/
theorem mapEach_meets (hl : l.Valid spaces) (hi : spaces[i]? = some space) (pages : List UInt32) :
    Op.Meets (· = l.state) (.each (fun page => space.map page page) pages)
      (fun _ s => ∃ l', s = l'.state ∧ MapsEach spaces i space l pages l')
      (MapsUntil spaces i space l pages) := by
  induction pages generalizing l with
  | nil =>
    rw [Op.each_nil]
    refine Op.Meets.pure ?_
    rintro _ rfl
    exact ⟨l, rfl, .nil hl⟩
  | cons page pages ih =>
    rw [Op.each_cons]
    refine ((map_takes hl hi page page).weaken (fun _ h => h) (fun _ _ h => h) ?_).bind
      fun _ => Op.Meets.of_states ?_
    · rintro e _ ⟨hshort, l', rfl, hram, hev⟩
      exact ⟨[], page, pages, l, l', rfl, .nil hl, fun ha => hshort ha ha, rfl, hram, hev⟩
    · rintro _ ⟨l', rfl, hev, hframe, htakes⟩
      refine (ih hev.valid).weaken (fun _ h => h) ?_ ?_
      · rintro _ _ ⟨l'', rfl, hrest⟩
        exact ⟨l'', rfl, .cons hev hframe htakes hrest⟩
      · rintro e s ⟨done, next, rest, mid, l'', rfl, hdone, hlast⟩
        exact ⟨page :: done, next, rest, mid, l'', rfl, .cons hev hframe htakes hdone, hlast⟩

/-- Mapping a range to itself touches no pages but its own. -/
theorem mapIdentity_evolves (hl : l.Valid spaces) (hi : spaces[i]? = some space) (range : Range) :
    Op.Meets (· = l.state) (space.mapIdentity range)
      (fun _ => l.Reaches spaces i fun n => ∃ page ∈ identityPages range, n = Page.number page)
      fun _ => l.Reaches spaces i fun n => ∃ page ∈ identityPages range, n = Page.number page := by
  refine (mapEach_meets hl hi (identityPages range)).weaken (fun _ h => h) ?_ ?_
  · rintro _ _ ⟨l', rfl, hpages⟩
    exact ⟨l', rfl, hpages.evolves⟩
  · rintro _ _ ⟨done, page, rest, mid, l', hpages, hdone, -, rfl, -, hev⟩
    refine ⟨l', rfl, (hdone.evolves.mono ?_).trans (hev.mono fun _ => False.elim)⟩
    rintro n ⟨page, hpage, hn⟩
    exact ⟨page, hpages ▸ List.mem_append_left _ hpage, hn⟩

end AddressSpace

end PagedMemory
