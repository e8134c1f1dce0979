import PagedMemory.Proofs.SpaceContracts

/-!
# Memory that address spaces share

A `Memory` is RAM, one pool of its frames, and the address spaces that were created so far, which go
by their numbers. The operations on spaces are lifted to it, and so are their contracts: they lead
from the memory of one valid layout to the memory of another.

- `create_meets`: a new space maps nothing, and no other space notices it;
- `map_meets`: a page that is mapped has its frame, and no other page notices it;
- `valid_start`: memory in which nothing was created has a valid layout, whatever its bytes are.
-/

namespace PagedMemory

/-- RAM, the pool of its frames, and the spaces that were created so far. -/
structure Memory where
  ram : Ram
  pool : Pool
  spaces : List AddressSpace

namespace Memory

variable {α : Type}

/-- No space was created, and no frame was taken from the range. -/
def start (ram : Ram) (range : Range) : Memory := ⟨ram, .ofRange range, []⟩

/-- Runs an operation on RAM and the pool. -/
def onFrames (op : Op (Ram × Pool) α) : Op Memory α :=
  op.within (fun m => ((m.ram, m.pool), m.spaces)) (fun (ram, pool) spaces => ⟨ram, pool, spaces⟩)

/-- The space with the number `i`. -/
def space (i : Nat) : Op Memory AddressSpace :=
  .query fun m => match m.spaces[i]? with
    | some space => .ok space
    | none => .error (.badDescriptor i)

/-- Creates a space, which gets the next number. -/
def create : Op Memory Unit := do
  let space ← onFrames AddressSpace.create
  .update fun m => { m with spaces := m.spaces ++ [space] }

/-- Maps a page of the space `i`. -/
def map (i : Nat) (vaddr frame : UInt32) : Op Memory Unit := do
  let space ← space i
  onFrames (space.map vaddr frame)

/-- Maps the pages of a range to themselves in the space `i`. -/
def mapIdentity (i : Nat) (range : Range) : Op Memory Unit := do
  let space ← space i
  onFrames (space.mapIdentity range)

/-- The frame of a page of the space `i`; none if there is no such space. -/
def frame? (m : Memory) (i : Nat) (vaddr : UInt32) : Option UInt32 :=
  m.spaces[i]?.bind fun space => m.ram.frame? space.directory vaddr

end Memory

namespace Layout

/-- The memory of a layout with these spaces. -/
def memory (l : Layout) (spaces : List AddressSpace) : Memory := ⟨l.ram, l.pool, spaces⟩

theorem memory_of_state (l : Layout) (spaces : List AddressSpace) :
    (⟨l.state.1, l.state.2, spaces⟩ : Memory) = l.memory spaces :=
  rfl

theorem memory_concat (l : Layout) (spaces : List AddressSpace) (space : AddressSpace) :
    { l.memory spaces with spaces := (l.memory spaces).spaces ++ [space] } =
      l.memory (spaces ++ [space]) :=
  rfl

/-- Nothing is in use. -/
def start (ram : Ram) (range : Range) : Layout := ⟨ram, .ofRange range, fun _ => none⟩

theorem memory_start (ram : Ram) (range : Range) :
    (start ram range).memory [] = Memory.start ram range :=
  rfl

/-- Memory in which nothing was created has a valid layout, whatever its bytes are. -/
theorem valid_start (ram : Ram) (range : Range) : (start ram range).Valid [] where
  sound := Pool.sound_ofRange range
  gave _ _ h := nomatch h
  directory _ _ h := nomatch h
  hasDirectory _ _ h := nomatch h
  table _ _ _ h := nomatch h
  hasTable _ _ _ h := nomatch h

theorem roomy_start {ram : Ram} {range : Range} {n : Nat} (hs : range.stop ≤ ram.size)
    (hn : Page.roundUp range.base.toNat + Page.size * n ≤ range.stop) : (start ram range).Roomy n :=
  ⟨hs, hn⟩

variable {spaces : List AddressSpace} {l l' : Layout} {i j : Nat} {space : AddressSpace}
  {touched : Nat → Prop}

theorem frame?_memory_of_some (hi : spaces[i]? = some space) (vaddr : UInt32) :
    (l.memory spaces).frame? i vaddr = l.ram.frame? space.directory vaddr := by
  show spaces[i]?.bind _ = _
  rw [hi]
  rfl

theorem frame?_memory_of_none (hi : spaces[i]? = none) (vaddr : UInt32) :
    (l.memory spaces).frame? i vaddr = none := by
  show spaces[i]?.bind _ = _
  rw [hi]
  rfl

/-- Pages that are not touched keep their frames. -/
theorem Evolves.frame?_memory (h : Evolves spaces i touched l l') {vaddr : UInt32}
    (hn : j = i → ¬ touched (Page.number vaddr)) :
    (l'.memory spaces).frame? j vaddr = (l.memory spaces).frame? j vaddr := by
  cases hj : spaces[j]? with
  | none => rw [frame?_memory_of_none hj, frame?_memory_of_none hj]
  | some space =>
    rw [frame?_memory_of_some hj, frame?_memory_of_some hj]
    exact h.frame j space vaddr hj hn

/-- Looking up in the memory of a valid layout reads off the frame, and never fails. -/
theorem Valid.lookup_memory (hl : l.Valid spaces) (hi : spaces[i]? = some space) (vaddr : UInt32) :
    space.lookup l.ram vaddr = .ok (((l.memory spaces).frame? i vaddr).map fun frame =>
      frame ||| Page.offset vaddr) := by
  rw [hl.lookup_eq hi, frame?_memory_of_some hi]

end Layout

namespace Memory

open Layout

variable {α : Type} {spaces : List AddressSpace} {l : Layout} {i : Nat} {space : AddressSpace}

/-- An operation on RAM and the pool leaves the list of spaces alone. -/
theorem onFrames_meets {op : Op (Ram × Pool) α} {Q : α → Memory → Prop} {E : Error → Memory → Prop}
    (h : Op.Meets (· = l.state) op (fun a s => Q a ⟨s.1, s.2, spaces⟩)
      (fun e s => E e ⟨s.1, s.2, spaces⟩)) : Op.Meets (· = l.memory spaces) (onFrames op) Q E := by
  refine Op.Meets.within ?_
  rintro _ rfl
  exact h

/-- A call that names no space fails and changes nothing. -/
theorem space_bind_meets {f : AddressSpace → Op Memory α} {Q : α → Memory → Prop}
    {E : Error → Memory → Prop}
    (hsome : ∀ space, spaces[i]? = some space → Op.Meets (· = l.memory spaces) (f space) Q E)
    (hnone : spaces[i]? = none → E (.badDescriptor i) (l.memory spaces)) :
    Op.Meets (· = l.memory spaces) (Memory.space i >>= f) Q E := by
  cases hi : spaces[i]? with
  | none =>
    refine Op.Meets.bind (Q := fun _ _ => False) (Op.Meets.query ?_ ?_) fun _ _ => False.elim
    · rintro _ a rfl h
      rw [show (l.memory spaces).spaces[i]? = none from hi] at h
      cases h
    · rintro _ e rfl h
      rw [show (l.memory spaces).spaces[i]? = none from hi] at h
      cases h
      exact hnone hi
  | some space =>
    refine Op.Meets.step_query (a := space) ?_ (hsome space hi)
    rw [show (l.memory spaces).spaces[i]? = some space from hi]

/-- A new space maps nothing, and no other space notices it. -/
theorem create_meets (hl : l.Valid spaces) :
    Op.Meets (· = l.memory spaces) create
      (fun _ m => ∃ l' space, m = l'.memory (spaces ++ [space]) ∧ l'.Valid (spaces ++ [space]) ∧
        Evolves spaces spaces.length (fun _ => False) l l' ∧
        (∀ vaddr, l'.ram.frame? space.directory vaddr = none) ∧
        ∀ n, l.Roomy (n + 1) → l'.Roomy n)
      (fun _ m => ¬ l.Roomy 1 ∧ ∃ l', m = l'.memory spaces ∧ l'.ram = l.ram ∧
        Evolves spaces spaces.length (fun _ => False) l l') := by
  have hcreate : Op.Meets (· = l.memory spaces) (onFrames AddressSpace.create)
      (fun space m => l.pool.HasNext ∧ l.ram.HasFrame l.pool.fresh ∧ space = ⟨l.pool.fresh⟩ ∧
        m = (l.openDirectory spaces.length).memory spaces)
      (fun _ m => ¬ l.Roomy 1 ∧ ∃ l', m = l'.memory spaces ∧ l'.ram = l.ram ∧
        Evolves spaces spaces.length (fun _ => False) l l') := by
    refine onFrames_meets ((AddressSpace.create_meets hl).weaken (fun _ h => h) ?_ ?_)
    · rintro space _ ⟨hn, hf, rfl, rfl⟩
      exact ⟨hn, hf, rfl, memory_of_state _ _⟩
    · rintro e s h
      obtain ⟨l', rfl, hram, hev⟩ := h.evolves hl
      exact ⟨h.not_roomy hl, l', rfl, hram, hev⟩
  refine hcreate.bind fun space => Op.Meets.of_states ?_
  rintro _ ⟨hn, hf, rfl, rfl⟩ _ rfl
  rw [Op.run_update]
  exact ⟨l.openDirectory spaces.length, ⟨l.pool.fresh⟩, memory_concat _ _ _,
    hl.openDirectory hn hf, hl.evolves_openDirectory hn hf,
    frame?_openDirectory_fresh hf _,
    fun n hr => hr.advance (size_openDirectory _ _) (pool_openDirectory _ _)⟩

/-- A space is created as long as a frame is left. -/
theorem create_of_roomy (hl : l.Valid spaces) {n : Nat} (h : l.Roomy (n + 1)) :
    ∃ (l' : Layout) (space : AddressSpace), (create.run (l.memory spaces)).state =
      l'.memory (spaces ++ [space]) ∧ l'.Valid (spaces ++ [space]) ∧ l'.Roomy n := by
  have hone : l.Roomy 1 := h.mono (Nat.le_add_left 1 n)
  obtain ⟨_, _, es, hrun, l', space, rfl, hl', -, -, hroom⟩ :=
    (create_meets hl).succeeds rfl fun _ _ he => he.1 hone
  rw [hrun]
  exact ⟨l', space, rfl, hl', hroom n h⟩

/-- A page that is mapped has its frame, and no other page notices it. -/
theorem map_meets (hl : l.Valid spaces) (i : Nat) (vaddr frame : UInt32) :
    Op.Meets (· = l.memory spaces) (map i vaddr frame)
      (fun _ m => ∃ l' space, spaces[i]? = some space ∧ m = l'.memory spaces ∧
        Evolves spaces i (· = Page.number vaddr) l l' ∧
        l'.ram.frame? space.directory vaddr = some frame)
      (fun _ m => ¬ (i < spaces.length ∧ Page.Aligned vaddr ∧ Page.Aligned frame ∧ l.Roomy 1) ∧
        ∃ l', m = l'.memory spaces ∧ l'.ram = l.ram ∧
          Evolves spaces i (fun _ => False) l l') := by
  refine space_bind_meets (fun space hi => onFrames_meets ?_) ?_
  · refine (AddressSpace.map_evolves hl hi vaddr frame).weaken (fun _ h => h) ?_ ?_
    · rintro _ _ ⟨l', rfl, hev, hframe, -⟩
      exact ⟨l', space, hi, rfl, hev, hframe⟩
    · rintro _ _ ⟨hn, l', rfl, hram, hev⟩
      exact ⟨fun h => hn h.2, l', rfl, hram, hev⟩
  · intro hi
    have hlen := List.getElem?_eq_none_iff.1 hi
    exact ⟨fun h => Nat.not_lt.2 hlen h.1, l, rfl, rfl, hl.evolves⟩

/-- With aligned addresses a page is mapped as long as a frame is left. -/
theorem map_of_roomy (hl : l.Valid spaces) (vaddr frame : UInt32) (hi : i < spaces.length)
    (hv : Page.Aligned vaddr) (hf : Page.Aligned frame) (h : l.Roomy 1) :
    ∃ (l' : Layout) (es : List Event), (map i vaddr frame).run (l.memory spaces) =
      ⟨.ok (), l'.memory spaces, es⟩ := by
  obtain ⟨_, _, es, hrun, l', space, -, rfl, -⟩ :=
    (map_meets hl i vaddr frame).succeeds rfl fun _ _ he => he.1 ⟨hi, hv, hf, h⟩
  exact ⟨l', es, hrun⟩

/-- Mapping a range to itself touches no other space. -/
theorem mapIdentity_meets (hl : l.Valid spaces) (i : Nat) (range : Range) :
    Op.Meets (· = l.memory spaces) (mapIdentity i range)
      (fun _ m => ∃ l', m = l'.memory spaces ∧ Evolves spaces i
        (fun n => ∃ page ∈ AddressSpace.identityPages range, n = Page.number page) l l')
      (fun _ m => ∃ l', m = l'.memory spaces ∧ Evolves spaces i
        (fun n => ∃ page ∈ AddressSpace.identityPages range, n = Page.number page) l l') := by
  refine space_bind_meets (fun space hi => onFrames_meets ?_) fun _ => ⟨l, rfl, hl.evolves⟩
  refine (AddressSpace.mapIdentity_evolves hl hi range).weaken (fun _ h => h) ?_ ?_
  · rintro _ _ ⟨l', rfl, hev⟩
    exact ⟨l', rfl, hev⟩
  · rintro _ _ ⟨l', rfl, hev⟩
    exact ⟨l', rfl, hev⟩

end Memory

end PagedMemory
