import PagedMemory.FrameSource
import PagedMemory.Paging.Registers
import PagedMemory.Ram

/-!
# Address spaces

An address space is a page directory in RAM. Creating one and mapping pages in it take frames from
a source; these operations run on RAM together with that source, and reach RAM past all devices.
-/

namespace PagedMemory

/-- A page directory. -/
structure AddressSpace where
  /-- The frame of the directory. -/
  directory : UInt32
deriving DecidableEq, Repr

namespace AddressSpace

/-- The address space whose directory the register names. -/
def ofRegister (cr3 : UInt32) : AddressSpace := ⟨Page.base cr3⟩

/-- The register value that selects the address space. -/
def cr3 (space : AddressSpace) : UInt32 := Page.base space.directory

/-- The frame to which `vaddr` leads, if it is mapped. Looking up marks nothing. -/
def lookup (space : AddressSpace) (ram : Ram) (vaddr : UInt32) : Except Error (Option UInt32) := do
  let pde : Entry := ⟨← ram.read (Entry.directorySlot space.directory vaddr) 4⟩
  if pde.has .present then
    let pte : Entry := ⟨← ram.read (Entry.tableSlot pde.frame vaddr) 4⟩
    pure (if pte.has .present then some (pte.resolve vaddr) else none)
  else
    pure none

variable {α : Type} [FrameSource α]

/-- Takes a frame from the source and clears it. -/
def freshFrame : Op (Ram × α) UInt32 := do
  let frame ← .snd FrameSource.allocate
  .require (Page.Aligned frame) (.misaligned frame)
  .fst (Ram.fill frame Page.size 0)
  pure frame

/-- An address space in which nothing is mapped. -/
def create : Op (Ram × α) AddressSpace := do
  let directory ← freshFrame
  .report (.spaceCreated directory)
  pure ⟨directory⟩

/-- The frame of the table that covers `vaddr`. A missing table is created. -/
def tableFor (space : AddressSpace) (vaddr : UInt32) : Op (Ram × α) UInt32 := do
  let slot := Entry.directorySlot space.directory vaddr
  let pde : Entry := ⟨← .query fun (ram, _) => ram.read slot 4⟩
  if pde.has .present then
    pure pde.frame
  else
    let table ← freshFrame
    .fst (Ram.write slot 4 (Entry.make table Entry.openFlags).bits)
    .report (.tableCreated table (Page.directoryIndex vaddr))
    pure table

/-- Maps the page at `vaddr` to `frame`, in place of any frame that it had. Both addresses must be
bases. -/
def map (space : AddressSpace) (vaddr frame : UInt32) : Op (Ram × α) Unit := do
  .require (Page.Aligned vaddr) (.misaligned vaddr)
  .require (Page.Aligned frame) (.misaligned frame)
  let slot := Entry.tableSlot (← space.tableFor vaddr) vaddr
  let old : Entry := ⟨← .query fun (ram, _) => ram.read slot 4⟩
  if old.has .present then .report (.remapped vaddr old.frame frame) else pure ()
  .fst (Ram.write slot 4 (Entry.make frame Entry.openFlags).bits)
  .report (.mapped vaddr frame)

/-- The bases of the pages from that of the range's base up to its stop, cut to 32 bits. -/
def identityPages (range : Range) : List UInt32 :=
  if range.IsEmpty then [] else
    let first := (Page.base range.base).toNat
    (List.range (Page.count (range.stop - first))).map fun k => UInt32.ofNat (first + Page.size * k)

/-- Maps each page of the range to itself, in ascending order. -/
def mapIdentity (space : AddressSpace) (range : Range) : Op (Ram × α) Unit :=
  .each (fun page => space.map page page) (identityPages range)

end AddressSpace

end PagedMemory
