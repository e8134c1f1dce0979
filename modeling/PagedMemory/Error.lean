import PagedMemory.Paging.Entry
import PagedMemory.Range

/-!
# Errors

An error names its cause. `Error.message` is its wording, the only place where errors have one, and
`Error.faultAddress?` the address of an access that memory refused. One of them is no error that a
caller can deal with: where a sum does not fit into 64 bits the program ends.
-/

namespace PagedMemory

/-- Why the file system of the host refused an operation. -/
inductive HostFault
  /-- The path leads nowhere. -/
  | missing
  /-- The path leads to a directory where a file is needed. -/
  | isDirectory
  /-- The path leads through something that is not a directory. -/
  | notDirectory
  /-- A component of the path, or the whole of it, has too many bytes. -/
  | nameTooLong
  /-- The path holds a NUL character. -/
  | nulInName
  /-- Any other reason, in the host's own words. -/
  | other (reason : String)
deriving DecidableEq, Repr

/-- The host's words for the fault. -/
def HostFault.message : HostFault → String
  | .missing => "No such file or directory (os error 2)"
  | .isDirectory => "Is a directory (os error 21)"
  | .notDirectory => "Not a directory (os error 20)"
  | .nameTooLong => "File name too long (os error 36)"
  | .nulInName => "file name contained an unexpected NUL byte"
  | .other reason => reason

/-- Why an operation failed. -/
inductive Error
  /-- The bytes of a physical access do not all lie in RAM. -/
  | outOfBounds (addr : UInt32) (len : Nat)
  /-- The walk of `vaddr` met an entry that is not present. -/
  | notPresent (level : Level) (vaddr entry : UInt32)
  /-- The bytes of a virtual access do not lie on one page. -/
  | crossesPage (addr : UInt32) (len : Nat)
  /-- A word has one, two or four bytes. -/
  | badWidth (len : Nat)
  /-- RAM has at least one byte and at most 2 ^ 32. -/
  | badMemorySize (bytes : Nat)
  /-- The range is empty, or goes further than it may. -/
  | badRange (range : Range)
  /-- The range meets that of a region in place. -/
  | overlap (range : Range) (existing : String)
  /-- No frame is left between `next` and `limit`. -/
  | outOfFrames (next limit : Nat)
  /-- The address is not the base of a page. -/
  | misaligned (addr : UInt32)
  /-- No file has this name. -/
  | fileNotFound (name : String)
  /-- The number names no open file. -/
  | badDescriptor (fd : Nat)
  /-- The host failed. -/
  | host (fault : HostFault)
  /-- A sum of 64-bit numbers does not fit into 64 bits. The program ends on the spot: nothing that
  was to follow is done, not even what is done after any other error. -/
  | sumTooLarge
deriving DecidableEq, Repr

namespace Error

/-- The level as messages name it. -/
def levelName : Level → String
  | .directory => "page directory"
  | .table => "page table"

/-- The wording of an access that leaves its page, shared with the log. -/
def crossesPageText (addr : UInt32) (len : Nat) : String :=
  s!"access crosses a page boundary: addr={Text.address addr}, len={len}"

/-- The wording of the error. -/
def message : Error → String
  | .outOfBounds addr len => s!"physical address {Text.address addr} (len {len}) is out of bound"
  | .notPresent level vaddr entry =>
    s!"{levelName level} entry not present for vaddr {Text.address vaddr} (entry {Text.address entry})"
  | .crossesPage addr len => crossesPageText addr len
  | .badWidth len => s!"invalid access length: {len} (must be 1, 2 or 4)"
  | .badMemorySize bytes => s!"invalid memory size: {bytes} bytes (must be > 0 and <= 4 GiB)"
  | .badRange r =>
    s!"invalid physical range: base={Text.address r.base}, size={Text.hex r.size.toNat}"
  | .overlap r existing =>
    s!"MMIO range {Text.address r.base}+{Text.hex r.size.toNat} overlaps region '{existing}'"
  | .outOfFrames next limit =>
    s!"out of physical frames (next {Text.wideHex next}, limit {Text.wideHex limit})"
  | .misaligned addr => s!"address {Text.address addr} is not page aligned"
  | .fileNotFound name => s!"file not found: {name}"
  | .badDescriptor fd => s!"bad file descriptor: {fd}"
  | .host fault => s!"I/O error: {fault.message}"
  | .sumTooLarge => "attempt to add with overflow"

/-- The address of the access that memory refused. -/
def faultAddress? : Error → Option UInt32
  | .outOfBounds addr _ => some addr
  | .notPresent _ vaddr _ => some vaddr
  | .crossesPage addr _ => some addr
  | _ => none

/-- A guest's own access caused the error, and not its setting or the host. -/
def isMemoryFault (e : Error) : Bool := e.faultAddress?.isSome

end Error

end PagedMemory
