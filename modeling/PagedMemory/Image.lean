import PagedMemory.AddressSpace
import PagedMemory.Files.Store

/-!
# Loading images

An image is a file that is copied into fresh frames, a page at a time, and mapped at a base. The last
page ends with zeros. Loading runs on a file store, RAM, and a source of frames. A file that was
opened is closed, whatever happens in between, but for one way out: where the size that the store
tells is too large to be worked with, the program ends with the file open.
-/

namespace PagedMemory

/-- A page and its frame. -/
structure PageMapping where
  vaddr : UInt32
  frame : UInt32
deriving DecidableEq, Repr

/-- An image in memory. -/
structure Image where
  /-- Where the image begins. -/
  entry : UInt32
  /-- How many bytes its file has. -/
  size : Nat
  /-- Its pages in ascending order. -/
  pages : List PageMapping
deriving DecidableEq, Repr

/-- Loads images at a base. -/
structure Loader where
  base : UInt32
deriving DecidableEq, Repr

namespace Loader

/-- Images usually begin here. -/
def standard : Loader := ⟨0x08048000⟩

/-- Loads images at `base`, which must be the base of a page. -/
def withBase (base : UInt32) : Except Error Loader :=
  if Page.Aligned base then .ok ⟨base⟩ else .error (.misaligned base)

/-- The sums fit into 64 bits that a load of `size` bytes takes before it looks at the range: a page
and the size, which is so rounded up, and the base and the bytes of all pages. -/
def SumsFit (loader : Loader) (size : Nat) : Prop :=
  Page.size + size < UInt64.size ∧ loader.base.toNat + Page.roundUp size < UInt64.size

instance (loader : Loader) (size : Nat) : Decidable (loader.SumsFit size) :=
  inferInstanceAs (Decidable (_ ∧ _))

/-- Pages that end at or below 2 ^ 32 cause no large sums. -/
theorem sumsFit_of_roundUp_le {loader : Loader} {size : Nat}
    (h : loader.base.toNat + Page.roundUp size ≤ UInt32.size) : loader.SumsFit size := by
  have hsize := Page.le_roundUp size
  simp only [SumsFit, Page.size, UInt32.size, UInt64.size] at *
  omega

variable {φ α : Type} [FileStore φ] [FrameSource α]

/-- Maps the page at `vaddr` to a fresh frame, and fills it with the next bytes of the file. -/
def loadPage (space : AddressSpace) (fd : Nat) (vaddr : UInt32) :
    Op (φ × Ram × α) PageMapping := do
  let frame ← .snd (.snd FrameSource.allocate)
  .snd (space.map vaddr frame)
  .query fun (_, ram, _) => ram.checkFrame frame
  let bytes ← .fst (FileStore.readAt fd Page.size)
  .snd (.fst (Ram.writeFrame frame (padded Page.size bytes)))
  .report (.pageLoaded vaddr frame)
  pure ⟨vaddr, frame⟩

/-- Loads the pages of an open file of this size. They must end at or below 2 ^ 32. -/
def loadPages (loader : Loader) (space : AddressSpace) (fd size : Nat) :
    Op (φ × Ram × α) Image := do
  .require (loader.base.toNat + Page.roundUp size ≤ UInt32.size)
    (.badRange ⟨loader.base, UInt32.ofNat (min size (UInt32.size - 1))⟩)
  let pages ← .collect (fun k => loadPage space fd (loader.base + UInt32.ofNat (Page.size * k)))
    (List.range (Page.count size))
  pure ⟨loader.base, size, pages⟩

/-- Loads the file of this name. -/
def load (loader : Loader) (space : AddressSpace) (name : String) : Op (φ × Ram × α) Image := do
  let fd ← .fst (FileStore.openName name)
  .report (.imageOpened name fd)
  let size ← (.fst (FileStore.sizeAt fd) : Op (φ × Ram × α) Nat).onFailure
    (.fst (FileStore.closeAt fd))
  -- where these sums do not fit the program ends, and the file stays open
  .require (loader.SumsFit size) .sumTooLarge
  let image ← (loader.loadPages space fd size).andFinally (.fst (FileStore.closeAt fd))
  .report (.imageLoaded name image.size image.pages.length image.entry)
  pure image

end Loader

end PagedMemory
