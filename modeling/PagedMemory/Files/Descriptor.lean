import PagedMemory.Op

/-!
# Descriptors

A table of open files, each under a number. A file gets the smallest number that is free, and keeps
it, with an offset of its own, until it is closed.
-/

namespace PagedMemory

/-- A file that is open, and how far it has been read. -/
structure OpenFile (κ : Type) where
  file : κ
  offset : Nat
deriving DecidableEq, Repr

namespace OpenFile

variable {κ : Type} (f : OpenFile κ) (data : Array UInt8) (len : Nat)

/-- The next bytes of the file, whose contents are `data`: at most `len` of them. The offset lies
beyond the end only where the contents were replaced by shorter ones after a read. There are no bytes
to be taken from there, and the answer is empty; a program that takes the slice all the same stops. -/
def next : List UInt8 :=
  if f.offset ≤ data.size then (data.extract f.offset (f.offset + len)).toList else []

/-- What is next is a part of the contents, cut off at their end. -/
theorem next_eq_extract : f.next data len = (data.extract f.offset (f.offset + len)).toList := by
  rw [next]
  split
  · rfl
  · rename_i h
    rw [Array.extract_eq_empty_of_le (by omega)]

end OpenFile

/-- The open files; the place in the list is the descriptor. -/
structure DescriptorTable (κ : Type) where
  slots : List (Option (OpenFile κ))
deriving DecidableEq, Repr

namespace DescriptorTable

variable {κ : Type}

/-- No file is open. -/
def empty : DescriptorTable κ := ⟨[]⟩

/-- The open file under `fd`. -/
def get? (table : DescriptorTable κ) (fd : Nat) : Option (OpenFile κ) := table.slots[fd]?.join

/-- Puts a file into the first free slot of the list, and answers its place. -/
def place (file : κ) : List (Option (OpenFile κ)) → Nat × List (Option (OpenFile κ))
  | [] => (0, [some ⟨file, 0⟩])
  | none :: rest => (0, some ⟨file, 0⟩ :: rest)
  | some f :: rest => ((place file rest).1 + 1, some f :: (place file rest).2)

/-- Opens a file under the smallest free number. -/
def insert (file : κ) : Op (DescriptorTable κ) Nat :=
  .change fun table => ((place file table.slots).1, ⟨(place file table.slots).2⟩)

/-- The open file under `fd`, which must be open. -/
def find (table : DescriptorTable κ) (fd : Nat) : Except Error (OpenFile κ) :=
  match table.get? fd with
  | some f => .ok f
  | none => .error (.badDescriptor fd)

/-- Moves the offset of `fd` on. -/
def advance (fd n : Nat) : Op (DescriptorTable κ) Unit :=
  .update fun table =>
    ⟨table.slots.modify fd (Option.map fun f => { f with offset := f.offset + n })⟩

/-- Closes `fd`, which must be open. -/
def close (fd : Nat) : Op (DescriptorTable κ) Unit :=
  .amend (fun table => (table.find fd).map fun _ => ()) fun table => ⟨table.slots.set fd none⟩

/-- How many files are open. -/
def count (table : DescriptorTable κ) : Nat := table.slots.countP Option.isSome

/-- Reads from `fd` on from its offset, in the contents that `contents` gives of the open file. -/
def read (contents : κ → Array UInt8) (fd len : Nat) : Op (DescriptorTable κ) (List UInt8) := do
  let f ← .query (·.find fd)
  let bytes := f.next (contents f.file) len
  advance fd bytes.length
  pure bytes

/-! ## The smallest free number -/

/-- The number that a new file gets was free, and all smaller ones are taken. -/
theorem place_fst (file : κ) (slots : List (Option (OpenFile κ))) :
    slots[(place file slots).1]?.join = none ∧
      ∀ j < (place file slots).1, (slots[j]?.join).isSome := by
  induction slots with
  | nil => simp [place]
  | cons slot rest ih =>
    cases slot with
    | none => simp [place]
    | some f =>
      refine ⟨by simpa [place] using ih.1, fun j hj => ?_⟩
      cases j with
      | zero => simp
      | succ j => simpa using ih.2 j (Nat.lt_of_succ_lt_succ hj)

/-- Opening a file puts it under its number, and leaves the others alone. -/
theorem place_snd (file : κ) (slots : List (Option (OpenFile κ))) (fd : Nat) :
    (place file slots).2[fd]?.join =
      if fd = (place file slots).1 then some ⟨file, 0⟩ else slots[fd]?.join := by
  induction slots generalizing fd with
  | nil => cases fd <;> simp [place]
  | cons slot rest ih =>
    cases slot with
    | none => cases fd <;> simp [place]
    | some f =>
      cases fd with
      | zero => simp [place]
      | succ fd => simpa [place] using ih fd

end DescriptorTable

end PagedMemory
