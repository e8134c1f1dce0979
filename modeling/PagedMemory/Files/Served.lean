import PagedMemory.Files.Descriptor
import PagedMemory.Files.Store
import PagedMemory.Files.Tree

/-!
# Served directories

A served directory gives out files of the host. A file is read as a whole when it is opened; what
becomes of it on the host afterwards no longer matters to those who have it open.
-/

namespace PagedMemory

/-- The files of the host as they stand, and the contents of those that are open. -/
structure Served where
  /-- The contents under a name, or why there are none. -/
  fetch : String → Except HostFault (Array UInt8)
  opened : DescriptorTable (Array UInt8)

namespace Served

/-- Serves what `fetch` answers; no file is open. -/
def ofFetch (fetch : String → Except HostFault (Array UInt8)) : Served := ⟨fetch, .empty⟩

/-- How names are looked up in the directory `root` of a tree, with `here` as the place where
relative paths start. Slashes at the front of a name are dropped. -/
def fetchIn (tree : Tree) (here : Place) (root name : String) : Except HostFault (Array UInt8) :=
  tree.read here (Path.join root (Path.relative name))

/-- The host's files have changed. -/
def refetch (fetch : String → Except HostFault (Array UInt8)) : Op Served Unit :=
  .update fun served => { served with fetch }

/-- Runs an operation on the open files. -/
@[inline] def onOpened {α : Type} (op : Op (DescriptorTable (Array UInt8)) α) : Op Served α :=
  op.within (fun ⟨fetch, opened⟩ => (opened, fetch)) (fun opened fetch => ⟨fetch, opened⟩)

instance : FileStore Served where
  openName name := do
    match ← .ask (·.fetch name) with
    | .ok data => onOpened (DescriptorTable.insert data)
    | .error .missing => .fail (.fileNotFound name)
    | .error fault => .fail (.host fault)
  sizeAt fd := .query fun served => (served.opened.find fd).map (·.file.size)
  readAt fd len := onOpened (DescriptorTable.read id fd len)
  closeAt fd := onOpened (DescriptorTable.close fd)

end Served

end PagedMemory
