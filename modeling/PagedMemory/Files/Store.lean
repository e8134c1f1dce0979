import PagedMemory.Op

/-!
# File stores

Images come from files. A store opens files under descriptors; each descriptor has an offset from
which it reads on. A read delivers as many bytes as are left, up to what is asked for; whoever fills
a buffer with them fills up the rest with zeros.
-/

namespace PagedMemory

/-- `φ` keeps files that can be opened and read. -/
class FileStore (φ : Type) where
  /-- Opens a file, and answers its descriptor. -/
  openName : String → Op φ Nat
  /-- How many bytes the open file has. -/
  sizeAt : Nat → Op φ Nat
  /-- The next bytes of the open file, at most as many as asked for. -/
  readAt : (fd : Nat) → (len : Nat) → Op φ (List UInt8)
  /-- Gives the descriptor back. -/
  closeAt : Nat → Op φ Unit

/-- A buffer of `len` bytes that takes the bytes and ends with zeros. -/
def padded (len : Nat) (bytes : List UInt8) : List UInt8 :=
  bytes.take len ++ List.replicate (len - bytes.length) 0

@[simp] theorem length_padded (len : Nat) (bytes : List UInt8) :
    (padded len bytes).length = len := by
  simp only [padded, List.length_append, List.length_take, List.length_replicate]
  omega

/-- Byte by byte, a padded buffer is the bytes and zeros after them. -/
theorem getElem?_padded {len : Nat} {bytes : List UInt8} (i : Nat) (h : i < len) :
    (padded len bytes)[i]? = some (bytes[i]?.getD 0) := by
  simp only [padded, List.getElem?_append, List.length_take, List.getElem?_take,
    List.getElem?_replicate]
  by_cases hi : i < bytes.length
  · have h1 : i < min len bytes.length := by omega
    rw [if_pos h1]
    simp [hi, h]
  · have h1 : ¬ i < min len bytes.length := by omega
    have h2 : i - min len bytes.length < len - bytes.length := by omega
    simp [h1, h2, List.getElem?_eq_none (Nat.not_lt.1 hi)]

/-- Fills a buffer with the next bytes of an open file, and answers how many there were. -/
def readInto {φ : Type} [FileStore φ] (fd : Nat) : Op (φ × List UInt8) Nat := do
  let len ← .ask fun (_, buffer) => buffer.length
  let bytes ← .fst (FileStore.readAt fd len)
  .update fun (files, _) => (files, padded len bytes)
  pure bytes.length

end PagedMemory
