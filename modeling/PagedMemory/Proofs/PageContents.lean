import PagedMemory.Image
import PagedMemory.Proofs.TableLayout

/-!
# Pages with contents

Loading takes a frame for each page, maps the page to it, and fills it. This module adds the last
step to the layouts: bytes go into a frame that was taken for a page, and so touch no table. What a
page holds then outlasts all work on other pages.

- `Evolves.fill`: filling a page that was just taken leaves alone what taking it left alone;
- `Holds.evolves`: a page keeps its contents while other pages are worked on;
- `Loads`: every frame that a page got was taken for that very page.
-/

namespace PagedMemory

namespace Layout

variable {spaces : List AddressSpace} {l l' l'' : Layout} {i j n : Nat} {space : AddressSpace}
  {touched touched' : Nat → Prop} {frame vaddr : UInt32} {bytes : List UInt8}

/-! ## Filling a frame -/

/-- The layout with bytes stored in a frame. -/
def fill (l : Layout) (frame : UInt32) (bytes : List UInt8) : Layout :=
  { l with ram := l.ram.store frame.toNat bytes }

@[simp] theorem size_fill (l : Layout) (frame : UInt32) (bytes : List UInt8) :
    (l.fill frame bytes).ram.size = l.ram.size := Ram.size_store _ _ _

theorem byte_fill_of_ne (hf : l.ram.HasFrame frame) (hb : bytes.length = Page.size) {b : Nat}
    (hne : b / 4096 ≠ Page.number frame) : (l.fill frame bytes).ram.byte b = l.ram.byte b := by
  have hfit := hf.fits
  have ha := hf.1.toNat_eq
  simp only [Page.size] at hfit hb
  refine Ram.byte_store_of_outside (by rw [hb]; exact hfit) ?_
  rw [hb, ha]
  omega

theorem word_fill_of_ne (hf : l.ram.HasFrame frame) (hb : bytes.length = Page.size) {a : Nat}
    (ha : a % 4 = 0) (hne : a / 4096 ≠ Page.number frame) :
    (l.fill frame bytes).ram.word a = l.ram.word a :=
  Ram.word_congr fun k _ _ => byte_fill_of_ne hf hb (by omega)

section

variable (hl : l.Valid spaces) (hf : l.ram.HasFrame frame) (hb : bytes.length = Page.size)
  (hu : l.use (Page.number frame) = some (.page j n)) (hi : spaces[i]? = some space)

include hl hf hb hu hi

/-- A page that is filled is no directory. -/
theorem Valid.pde_fill (vaddr : UInt32) :
    (l.fill frame bytes).ram.pde space.directory vaddr = l.ram.pde space.directory vaddr := by
  have ha := (hl.hasDirectory i space hi).1
  have hd := hl.directory i space hi
  rw [Ram.pde, Ram.entryAt, word_fill_of_ne hf hb (Entry.directorySlot_mod ha _)]
  · rfl
  · rw [Entry.directorySlot_div ha]
    intro h
    rw [h, hu] at hd
    cases hd

/-- A page that is filled is no table. -/
theorem Valid.pte_fill (hp : (l.ram.pde space.directory vaddr).has .present = true) :
    (l.fill frame bytes).ram.pte space.directory vaddr = l.ram.pte space.directory vaddr := by
  have ha := Entry.aligned_frame (l.ram.pde space.directory vaddr)
  have ht := hl.table i space vaddr hi hp
  rw [Ram.pte, hl.pde_fill hf hb hu hi, Ram.entryAt,
    word_fill_of_ne hf hb (Entry.tableSlot_mod ha _)]
  · rfl
  · rw [Entry.tableSlot_div ha]
    intro h
    rw [h, hu] at ht
    cases ht

theorem Valid.frame?_fill (vaddr : UInt32) :
    (l.fill frame bytes).ram.frame? space.directory vaddr = l.ram.frame? space.directory vaddr :=
  Ram.frame?_of_entries (hl.pde_fill hf hb hu hi vaddr) (hl.pte_fill hf hb hu hi)

end

/-- Filling a page that was taken meanwhile leaves alone what taking it left alone. -/
theorem Evolves.fill (h : Evolves spaces i touched l l') (hf : l'.ram.HasFrame frame)
    (hb : bytes.length = Page.size) (hu : l'.use (Page.number frame) = some (.page j n))
    (hg : ¬ l.pool.Gave (Page.number frame)) :
    Evolves spaces i touched l (l'.fill frame bytes) where
  valid := h.valid.withRam (size_fill _ _ _) fun k space' vaddr hk => by
    have hpde : (l'.fill frame bytes).ram.pde space'.directory vaddr =
        l'.ram.pde space'.directory vaddr := h.valid.pde_fill hf hb hu hk vaddr
    exact ⟨congrArg Entry.frame hpde, congrArg (Entry.has · .present) hpde⟩
  size := (size_fill _ _ _).trans h.size
  use := h.use
  gave := h.gave
  fresh := h.fresh
  table k space' vaddr hk hp := (h.valid.pde_fill hf hb hu hk vaddr).trans
    (h.table k space' vaddr hk hp)
  frame k space' vaddr hk hn := (h.valid.frame?_fill hf hb hu hk vaddr).trans
    (h.frame k space' vaddr hk hn)
  byte b hgave hslots := by
    -- the frame was handed out meanwhile, so it is not the frame of `b`
    have hne : b / 4096 ≠ Page.number frame := by
      intro hbf
      rw [hbf] at hgave
      exact hg (hgave (h.valid.gave _ _ hu))
    rw [byte_fill_of_ne hf hb hne]
    refine h.byte b hgave ?_
    intro space' vaddr hi ht
    have hslots := hslots space' vaddr hi ht
    rwa [h.valid.pde_fill hf hb hu hi] at hslots

/-! ## What a page holds -/

/-- The page has its frame, which was taken for it and holds the bytes. -/
structure Holds (l : Layout) (i : Nat) (space : AddressSpace) (page : PageMapping)
    (bytes : List UInt8) : Prop where
  use : l.use (Page.number page.frame) = some (.page i (Page.number page.vaddr))
  hasFrame : l.ram.HasFrame page.frame
  mapped : l.ram.frame? space.directory page.vaddr = some page.frame
  slice : l.ram.slice page.frame.toNat Page.size = bytes

/-- A page keeps its contents while other pages are worked on. -/
theorem Holds.evolves {page : PageMapping} (h : l.Holds i space page bytes) (hl : l.Valid spaces)
    (hi : spaces[i]? = some space) (hev : Evolves spaces j touched l l')
    (hn : i = j → ¬ touched (Page.number page.vaddr)) : l'.Holds i space page bytes where
  use := hev.use _ _ h.use
  hasFrame := h.hasFrame.of_size hev.size
  mapped := (hev.frame i space page.vaddr hi hn).trans h.mapped
  slice := by
    refine (Ram.slice_congr ?_).trans h.slice
    intro k hk hk'
    have hpage : k / 4096 = Page.number page.frame := by
      rw [h.hasFrame.1.toNat_eq] at hk hk'
      simp only [Page.size] at hk'
      omega
    have hu := h.use
    rw [← hpage] at hu
    exact hev.byte_of_page hl hu

/-- A frame that was taken for a page, mapped and filled holds what it was filled with. -/
theorem holds_fill (hl : l.Valid spaces) (hi : spaces[i]? = some space)
    (hf : l.ram.HasFrame frame) (hb : bytes.length = Page.size)
    (hu : l.use (Page.number frame) = some (.page i (Page.number vaddr)))
    (hm : l.ram.frame? space.directory vaddr = some frame) :
    (l.fill frame bytes).Holds i space ⟨vaddr, frame⟩ bytes where
  use := hu
  hasFrame := hf.of_size (size_fill _ _ _)
  mapped := (hl.frame?_fill hf hb hu hi _).trans hm
  slice := by
    have hfit : frame.toNat + bytes.length ≤ l.ram.size := by
      rw [hb]
      exact hf.fits
    have hslice := Ram.slice_store hfit
    rwa [hb] at hslice

/-! ## Loading -/

/-- `l'` comes from `l` by loading into the touched pages of the space `i`. -/
structure Loads (spaces : List AddressSpace) (i : Nat) (space : AddressSpace)
    (touched : Nat → Prop) (l l' : Layout) : Prop extends Evolves spaces i touched l l' where
  /-- A page keeps its frame, or got one that was handed out meanwhile and taken for it. -/
  taken : ∀ vaddr, l'.ram.frame? space.directory vaddr = l.ram.frame? space.directory vaddr ∨
    ∃ frame, l'.ram.frame? space.directory vaddr = some frame ∧
      l'.use (Page.number frame) = some (.page i (Page.number vaddr)) ∧
      ¬ l.pool.Gave (Page.number frame)

/-- A page that got a frame got one that was taken for it. -/
theorem Loads.owned (h : Loads spaces i space touched l l') (vaddr frame : UInt32)
    (hf : l'.ram.frame? space.directory vaddr = some frame) :
    l.ram.frame? space.directory vaddr = some frame ∨
      l'.use (Page.number frame) = some (.page i (Page.number vaddr)) := by
  rcases h.taken vaddr with hsame | ⟨frame', hf', hu, -⟩
  · exact .inl (hsame.symm.trans hf)
  · rw [hf'] at hf
    cases hf
    exact .inr hu

/-- Work that maps nothing new loads nothing. -/
theorem Evolves.loads (h : Evolves spaces i (fun _ => False) l l') (hi : spaces[i]? = some space) :
    Loads spaces i space touched l l' where
  toEvolves := h.mono fun _ => False.elim
  taken vaddr := .inl (h.frame i space vaddr hi fun _ => not_false)

/-- Mapping one page to a frame that was taken for it is loading. -/
theorem Evolves.loads_of_mapped (h : Evolves spaces i (· = Page.number vaddr) l l')
    (hi : spaces[i]? = some space) (hg : ¬ l.pool.Gave (Page.number frame))
    (hu : l'.use (Page.number frame) = some (.page i (Page.number vaddr)))
    (hm : l'.ram.frame? space.directory vaddr = some frame) :
    Loads spaces i space (· = Page.number vaddr) l l' where
  toEvolves := h
  taken vaddr' := by
    -- the page that was mapped has the one frame, and all others have those that they had
    by_cases hv : Page.number vaddr' = Page.number vaddr
    · exact .inr ⟨frame, (Ram.frame?_congr hv).trans hm, hv ▸ hu, hg⟩
    · exact .inl (h.frame i space vaddr' hi fun _ => hv)

theorem Loads.mono (h : Loads spaces i space touched l l') (ht : ∀ n, touched n → touched' n) :
    Loads spaces i space touched' l l' where
  toEvolves := h.toEvolves.mono ht
  taken := h.taken

theorem Loads.trans (h : Loads spaces i space touched l l')
    (h' : Loads spaces i space touched l' l'') : Loads spaces i space touched l l'' where
  toEvolves := h.toEvolves.trans h'.toEvolves
  taken vaddr := by
    -- the frame was taken in the second part, or else it is as it was after the first
    rcases h'.taken vaddr with hsame' | ⟨frame, hf, hu, hg⟩
    · rcases h.taken vaddr with hsame | ⟨frame, hf, hu, hg⟩
      · exact .inl (hsame'.trans hsame)
      · exact .inr ⟨frame, hsame'.trans hf, h'.use _ _ hu, hg⟩
    · exact .inr ⟨frame, hf, hu, fun hgave => hg (h.gave _ hgave)⟩

end Layout

end PagedMemory
