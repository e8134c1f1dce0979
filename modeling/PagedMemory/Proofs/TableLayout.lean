import Mathlib.Logic.Function.Basic
import PagedMemory.Proofs.TableWords

/-!
# What the frames of a pool are used for

Address spaces that take their frames from one pool share RAM with each other and with the pages of
the images that were loaded. What keeps them apart is not written down anywhere in RAM: each frame
that was handed out serves at most one purpose. A `Layout` puts RAM and pool side by side with that
purpose, and all separation of spaces is read off it.

- `Layout.Valid`: directories and tables lie in frames that were taken for them;
- `Layout.Evolves`: what an operation on the pages of one space leaves alone; it is reflexive and
  transitive, so that loops need no argument of their own;
- `Evolves.byte_of_page`: the bytes of a page that was taken for an image do not change.
-/

namespace PagedMemory

/-- What a frame was taken for. Spaces go by their numbers. -/
inductive Use
  /-- The directory of a space. -/
  | directory (space : Nat)
  /-- The table of a space that its directory names in a slot. -/
  | table (space : Nat) (slot : UInt32)
  /-- The contents of a page of a space. -/
  | page (space : Nat) (number : Nat)
deriving DecidableEq

/-- RAM, the pool of its frames, and what each frame was taken for. -/
structure Layout where
  ram : Ram
  pool : Pool
  use : Nat → Option Use

namespace Layout

/-- The part of the layout that operations run on. -/
def state (l : Layout) : Ram × Pool := (l.ram, l.pool)

/-- Only frames that were handed out are in use, and every directory and every table that a
directory names lies in a frame that was taken for it. -/
structure Valid (spaces : List AddressSpace) (l : Layout) : Prop where
  sound : l.pool.Sound
  gave : ∀ n u, l.use n = some u → l.pool.Gave n
  directory : ∀ (i : Nat) (space : AddressSpace), spaces[i]? = some space →
    l.use (Page.number space.directory) = some (.directory i)
  hasDirectory : ∀ (i : Nat) (space : AddressSpace), spaces[i]? = some space →
    l.ram.HasFrame space.directory
  table : ∀ (i : Nat) (space : AddressSpace) (vaddr : UInt32), spaces[i]? = some space →
    (l.ram.pde space.directory vaddr).has .present = true →
      l.use (Page.number (l.ram.pde space.directory vaddr).frame) =
        some (.table i (Page.directoryIndex vaddr))
  hasTable : ∀ (i : Nat) (space : AddressSpace) (vaddr : UInt32), spaces[i]? = some space →
    (l.ram.pde space.directory vaddr).has .present = true →
      l.ram.HasFrame (l.ram.pde space.directory vaddr).frame

variable {spaces : List AddressSpace} {l : Layout}

/-- In a valid layout looking up never fails. -/
theorem Valid.lookup_eq (hl : l.Valid spaces) {i : Nat} {space : AddressSpace}
    (hi : spaces[i]? = some space) (vaddr : UInt32) :
    space.lookup l.ram vaddr = .ok ((l.ram.frame? space.directory vaddr).map fun frame =>
      frame ||| Page.offset vaddr) :=
  AddressSpace.lookup_eq_frame? (hl.hasDirectory i space hi) (hl.hasTable i space vaddr hi)

/-- A frame that is about to be handed out is not in use. -/
theorem Valid.use_fresh (hl : l.Valid spaces) (hn : l.pool.HasNext) :
    l.use (Page.number l.pool.fresh) = none := by
  cases hu : l.use (Page.number l.pool.fresh) with
  | none => rfl
  | some u => exact absurd (hl.gave _ u hu) (hl.sound.not_gave_fresh hn)

/-- Which entries of directories are present, and which tables they name, is all that a valid layout
asks of the contents of RAM. -/
theorem Valid.withRam (hl : l.Valid spaces) {ram : Ram} (hs : ram.size = l.ram.size)
    (hp : ∀ (i : Nat) (space : AddressSpace) (vaddr : UInt32), spaces[i]? = some space →
      (ram.pde space.directory vaddr).frame = (l.ram.pde space.directory vaddr).frame ∧
        (ram.pde space.directory vaddr).has .present =
          (l.ram.pde space.directory vaddr).has .present) :
    Valid spaces { l with ram } where
  sound := hl.sound
  gave := hl.gave
  directory := hl.directory
  hasDirectory i space hi := (hl.hasDirectory i space hi).of_size hs
  table i space vaddr hi h := by
    obtain ⟨hf, hp⟩ := hp i space vaddr hi
    show l.use (Page.number (ram.pde space.directory vaddr).frame) = _
    rw [hf]
    exact hl.table i space vaddr hi (hp ▸ h)
  hasTable i space vaddr hi h := by
    obtain ⟨hf, hp⟩ := hp i space vaddr hi
    show ram.HasFrame (ram.pde space.directory vaddr).frame
    rw [hf]
    exact (hl.hasTable i space vaddr hi (hp ▸ h)).of_size hs

/-! ## What an operation on one space leaves alone -/

/-- `l'` comes from `l` by work on those pages of the space `i` that `touched` holds of. -/
structure Evolves (spaces : List AddressSpace) (i : Nat) (touched : Nat → Prop)
    (l l' : Layout) : Prop where
  valid : l'.Valid spaces
  size : l'.ram.size = l.ram.size
  /-- No frame changes its purpose. -/
  use : ∀ n u, l.use n = some u → l'.use n = some u
  gave : ∀ n, l.pool.Gave n → l'.pool.Gave n
  /-- Only frames that were handed out meanwhile get a purpose. -/
  fresh : ∀ n u, l.use n = none → l'.use n = some u → ¬ l.pool.Gave n
  /-- No table is replaced. -/
  table : ∀ (j : Nat) (space : AddressSpace) (vaddr : UInt32), spaces[j]? = some space →
    (l.ram.pde space.directory vaddr).has .present = true →
      l'.ram.pde space.directory vaddr = l.ram.pde space.directory vaddr
  /-- Pages that are not touched keep their frames. -/
  frame : ∀ (j : Nat) (space : AddressSpace) (vaddr : UInt32), spaces[j]? = some space →
    (j = i → ¬ touched (Page.number vaddr)) →
      l'.ram.frame? space.directory vaddr = l.ram.frame? space.directory vaddr
  /-- Only frames that were handed out meanwhile and the entries of touched pages are written. -/
  byte : ∀ b, (l'.pool.Gave (b / 4096) → l.pool.Gave (b / 4096)) →
    (∀ (space : AddressSpace) (vaddr : UInt32), spaces[i]? = some space →
      touched (Page.number vaddr) → b / 4 ≠ (Entry.directorySlot space.directory vaddr).toNat / 4 ∧
        ((l'.ram.pde space.directory vaddr).has .present = true → b / 4 ≠
          (Entry.tableSlot (l'.ram.pde space.directory vaddr).frame vaddr).toNat / 4)) →
      l'.ram.byte b = l.ram.byte b

variable {i : Nat} {touched touched' : Nat → Prop} {l' l'' : Layout}

theorem Valid.evolves (hl : l.Valid spaces) : Evolves spaces i touched l l where
  valid := hl
  size := rfl
  use _ _ h := h
  gave _ h := h
  fresh _ _ h h' := by rw [h] at h'; cases h'
  table _ _ _ _ _ := rfl
  frame _ _ _ _ _ := rfl
  byte _ _ _ := rfl

theorem Evolves.mono (h : Evolves spaces i touched l l') (ht : ∀ n, touched n → touched' n) :
    Evolves spaces i touched' l l' where
  valid := h.valid
  size := h.size
  use := h.use
  gave := h.gave
  fresh := h.fresh
  table := h.table
  frame j space vaddr hj hn := h.frame j space vaddr hj fun hji hv => hn hji (ht _ hv)
  byte b hg hb := h.byte b hg fun space vaddr hi hv => hb space vaddr hi (ht _ hv)

theorem Evolves.trans (h : Evolves spaces i touched l l') (h' : Evolves spaces i touched l' l'') :
    Evolves spaces i touched l l'' where
  valid := h'.valid
  size := h'.size.trans h.size
  use n u hu := h'.use n u (h.use n u hu)
  gave n hn := h'.gave n (h.gave n hn)
  fresh n u hn hu := by
    -- the purpose was given either before the layout in between or after it
    cases hm : l'.use n with
    | none => exact fun hg => h'.fresh n u hm hu (h.gave n hg)
    | some v => exact h.fresh n v hn hm
  table j space vaddr hj hp := by
    have ht := h.table j space vaddr hj hp
    rw [h'.table j space vaddr hj (by rw [ht]; exact hp), ht]
  frame j space vaddr hj hn := (h'.frame j space vaddr hj hn).trans (h.frame j space vaddr hj hn)
  byte b hg hb := by
    have hg' : l''.pool.Gave (b / 4096) → l'.pool.Gave (b / 4096) := fun hn => h.gave _ (hg hn)
    rw [h'.byte b hg' hb]
    refine h.byte b (fun hn => hg (h'.gave _ hn)) ?_
    intro space vaddr hi hv
    obtain ⟨hd, ht⟩ := hb space vaddr hi hv
    refine ⟨hd, ?_⟩
    -- a table that was there in between is still there, so its slot is among those excluded
    intro hp
    rw [h'.table i space vaddr hi hp] at ht
    exact ht hp

/-- Pages that are not touched lead where they led. -/
theorem Evolves.lookup (h : Evolves spaces i touched l l') (hl : l.Valid spaces) {j : Nat}
    {space : AddressSpace} (hj : spaces[j]? = some space) {vaddr : UInt32}
    (hn : j = i → ¬ touched (Page.number vaddr)) :
    space.lookup l'.ram vaddr = space.lookup l.ram vaddr := by
  rw [h.valid.lookup_eq hj, hl.lookup_eq hj, h.frame j space vaddr hj hn]

/-- The bytes of a frame that is no table of the space and was taken before do not change. -/
theorem Evolves.byte_of_use (h : Evolves spaces i touched l l') {b : Nat} {u : Use}
    (hu : l.use (b / 4096) = some u) (hg : l.pool.Gave (b / 4096)) (hd : u ≠ .directory i)
    (ht : ∀ slot, u ≠ .table i slot) : l'.ram.byte b = l.ram.byte b := by
  have hu' := h.use _ _ hu
  -- were the byte part of a slot, its frame would be in use as that directory or table
  refine h.byte b (fun _ => hg) fun space vaddr hi _ =>
    ⟨fun hb => hd ?_, fun hp hb => ht (Page.directoryIndex vaddr) ?_⟩
  · have hdir := h.valid.directory i space hi
    have ha := (h.valid.hasDirectory i space hi).1
    rw [show b / 4096 = Page.number space.directory by
      rw [← Entry.directorySlot_div ha vaddr]; omega, hdir] at hu'
    exact (Option.some.inj hu').symm
  · have htab := h.valid.table i space vaddr hi hp
    rw [show b / 4096 = Page.number (l'.ram.pde space.directory vaddr).frame by
      rw [← Entry.tableSlot_div (Entry.aligned_frame _) vaddr]; omega, htab] at hu'
    exact (Option.some.inj hu').symm

/-- The bytes of a page that was taken for an image do not change. -/
theorem Evolves.byte_of_page (hl : l.Valid spaces) (h : Evolves spaces i touched l l') {b j n : Nat}
    (hu : l.use (b / 4096) = some (.page j n)) : l'.ram.byte b = l.ram.byte b :=
  h.byte_of_use hu (hl.gave _ _ hu) nofun nofun

/-! ## Taking frames -/

/-- The layout after a frame was handed out and left without a purpose. -/
def skip (l : Layout) : Layout := { l with pool := l.pool.advance }

/-- The layout after a frame was handed out for a purpose. -/
def grant (l : Layout) (u : Use) : Layout :=
  { l with
    pool := l.pool.advance
    use := Function.update l.use (Page.number l.pool.fresh) (some u) }

theorem Valid.skip (hl : l.Valid spaces) : l.skip.Valid spaces where
  sound := hl.sound.advance
  gave n u hu := (hl.gave n u hu).advance
  directory := hl.directory
  hasDirectory := hl.hasDirectory
  table := hl.table
  hasTable := hl.hasTable

theorem Valid.evolves_skip (hl : l.Valid spaces) : Evolves spaces i touched l l.skip where
  valid := hl.skip
  size := rfl
  use _ _ h := h
  gave _ h := h.advance
  fresh _ _ h h' := by rw [show l.use _ = some _ from h'] at h; cases h
  table _ _ _ _ _ := rfl
  frame _ _ _ _ _ := rfl
  byte _ _ _ := rfl

/-- What was in use before is in use for the same purpose. -/
theorem Valid.use_grant (hl : l.Valid spaces) (hn : l.pool.HasNext) {n : Nat} {u v : Use}
    (h : l.use n = some v) : (l.grant u).use n = some v := by
  have hne : n ≠ Page.number l.pool.fresh := by
    rintro rfl
    rw [hl.use_fresh hn] at h
    cases h
  show Function.update l.use _ (some u) n = _
  rw [Function.update_of_ne hne, h]

theorem use_grant_self (l : Layout) (u : Use) :
    (l.grant u).use (Page.number l.pool.fresh) = some u := Function.update_self ..

theorem Valid.grant (hl : l.Valid spaces) (hn : l.pool.HasNext) (u : Use) :
    (l.grant u).Valid spaces where
  sound := hl.sound.advance
  gave n v hv := by
    by_cases h : n = Page.number l.pool.fresh
    · exact Pool.gave_advance_iff.2 (.inl h)
    · rw [show (l.grant u).use n = l.use n from Function.update_of_ne h _ _] at hv
      exact (hl.gave n v hv).advance
  directory j space hj := hl.use_grant hn (hl.directory j space hj)
  hasDirectory := hl.hasDirectory
  table j space vaddr hj hp := hl.use_grant hn (hl.table j space vaddr hj hp)
  hasTable := hl.hasTable

theorem Valid.evolves_grant (hl : l.Valid spaces) (hn : l.pool.HasNext) (u : Use) :
    Evolves spaces i touched l (l.grant u) where
  valid := hl.grant hn u
  size := rfl
  use n v h := hl.use_grant hn h
  gave _ h := h.advance
  fresh n v h h' := by
    have he : n = Page.number l.pool.fresh := by
      by_contra hne
      rw [show (l.grant u).use n = l.use n from Function.update_of_ne hne _ _, h] at h'
      cases h'
    rw [he]
    exact hl.sound.not_gave_fresh hn
  table _ _ _ _ _ := rfl
  frame _ _ _ _ _ := rfl
  byte _ _ _ := rfl

/-! ## Frames that are left -/

/-- At least `n` frames are left in the pool, which ends within RAM. -/
def Roomy (l : Layout) (n : Nat) : Prop :=
  l.pool.limit ≤ l.ram.size ∧ l.pool.next + Page.size * n ≤ l.pool.limit

theorem Roomy.mono {m n : Nat} (h : l.Roomy n) (hm : m ≤ n) : l.Roomy m := by
  refine ⟨h.1, Nat.le_trans ?_ h.2⟩
  exact Nat.add_le_add_left (Nat.mul_le_mul_left _ hm) _

theorem Roomy.hasNext {n : Nat} (h : l.Roomy (n + 1)) : l.pool.HasNext := by
  have hnext := h.2
  rw [Nat.mul_succ] at hnext
  show l.pool.next + Page.size ≤ l.pool.limit
  omega

/-- The next frame of a pool that ends within RAM lies in RAM. -/
theorem Roomy.hasFrame {n : Nat} (h : l.Roomy (n + 1)) (hs : l.pool.Sound) :
    l.ram.HasFrame l.pool.fresh := by
  have hnext : l.pool.next + Page.size ≤ l.pool.limit := h.hasNext
  have hlimit := h.1
  have hsize := l.ram.size_bounds.2
  simp only [Page.size, UInt32.size] at hnext hsize
  refine ⟨hs.aligned_fresh, ?_⟩
  show (UInt32.ofNat l.pool.next).toNat + 4096 ≤ l.ram.size
  rw [UInt32.toNat_ofNat']
  omega

/-- One more frame was taken. -/
theorem Roomy.advance {n : Nat} (h : l.Roomy (n + 1)) (hs : l'.ram.size = l.ram.size)
    (hp : l'.pool = l.pool.advance) : l'.Roomy n := by
  have hnext := h.2
  rw [Nat.mul_succ] at hnext
  rw [Roomy, hs, hp]
  refine ⟨h.1, ?_⟩
  show l.pool.next + Page.size + Page.size * n ≤ l.pool.limit
  omega

end Layout

end PagedMemory
