import PagedMemory.Op
import PagedMemory.Page

/-!
# Sources of frames

Page tables and loaded pages need fresh frames of RAM. A source hands them out, one at a time.

- `Pool`: the whole frames of a range, in order. It counts in numbers and cuts each frame address
  to 32 bits.
- `FrameList`: given addresses, whatever they are.
-/

namespace PagedMemory

/-- `α` hands out frames. -/
class FrameSource (α : Type) where
  /-- Hands out the address of a frame. -/
  allocate : Op α UInt32

/-- The frames of a range from `next` on. -/
structure Pool where
  /-- Where the next frame begins. -/
  next : Nat
  /-- One past the last address of the range. -/
  limit : Nat
  /-- How many frames were handed out. -/
  allocated : Nat
deriving DecidableEq, Repr

namespace Pool

/-- The whole frames of a range. -/
def ofRange (range : Range) : Pool := ⟨Page.roundUp range.base.toNat, range.stop, 0⟩

/-- How many frames are left. -/
def remaining (pool : Pool) : Nat := (pool.limit - pool.next) / Page.size

/-- The pool after one more frame. -/
def advance (pool : Pool) : Pool := ⟨pool.next + Page.size, pool.limit, pool.allocated + 1⟩

/-- The next frame, if it ends within the range. -/
def allocate : Op Pool UInt32 := ⟨fun pool =>
  if pool.next + Page.size ≤ pool.limit then ⟨.ok (UInt32.ofNat pool.next), pool.advance, []⟩
  else ⟨.error (.outOfFrames pool.next pool.limit), pool, []⟩⟩

instance : FrameSource Pool := ⟨allocate⟩

/-- A pool hands out a frame exactly when one is left. -/
theorem remaining_pos_iff {pool : Pool} :
    0 < pool.remaining ↔ pool.next + Page.size ≤ pool.limit := by
  simp only [remaining, Page.size]
  omega

end Pool

/-- Frames to be handed out as they are given. -/
structure FrameList where
  /-- The frames that are left. -/
  left : List UInt32
  /-- How many frames were handed out. -/
  allocated : Nat
deriving DecidableEq, Repr

namespace FrameList

/-- The frames of the list, in order. -/
def ofList (frames : List UInt32) : FrameList := ⟨frames, 0⟩

/-- The next frame of the list. -/
def allocate : Op FrameList UInt32 := ⟨fun source =>
  match source.left with
  | frame :: rest => ⟨.ok frame, ⟨rest, source.allocated + 1⟩, []⟩
  | [] => ⟨.error (.outOfFrames source.allocated source.allocated), source, []⟩⟩

instance : FrameSource FrameList := ⟨allocate⟩

end FrameList

end PagedMemory
