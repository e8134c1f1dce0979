import PagedMemory.Files.Descriptor
import PagedMemory.Files.Store

/-!
# Files in memory

A RAM disk keeps its files by name. An open file is looked up by its name at each call: a file that
is replaced is replaced for those who have it open, too.
-/

namespace PagedMemory

/-- Files by name, and the names of those that are open. -/
structure Ramdisk where
  files : List (String × Array UInt8)
  opened : DescriptorTable String

namespace Ramdisk

/-- No files. -/
def empty : Ramdisk := ⟨[], .empty⟩

/-- The contents under a name. -/
def contents? (disk : Ramdisk) (name : String) : Option (Array UInt8) := disk.files.lookup name

/-- The contents under a name; nothing where there is no file. -/
def contents (disk : Ramdisk) (name : String) : Array UInt8 := (disk.contents? name).getD #[]

/-- Adds a file, in place of any of this name. -/
def add (name : String) (data : Array UInt8) : Op Ramdisk Unit :=
  .update fun disk => { disk with files := (name, data) :: disk.files.eraseP (·.1 == name) }

/-- Runs an operation on the open files. -/
@[inline] def onOpened {α : Type} (op : Op (DescriptorTable String) α) : Op Ramdisk α :=
  op.within (fun ⟨files, opened⟩ => (opened, files)) (fun opened files => ⟨files, opened⟩)

instance : FileStore Ramdisk where
  openName name := do
    match ← .ask (·.contents? name) with
    | some _ => onOpened (DescriptorTable.insert name)
    | none => .fail (.fileNotFound name)
  sizeAt fd := .query fun disk => (disk.opened.find fd).map fun f => (disk.contents f.file).size
  readAt fd len := do
    let contents ← .ask contents
    onOpened (DescriptorTable.read contents fd len)
  closeAt fd := onOpened (DescriptorTable.close fd)

end Ramdisk

end PagedMemory
