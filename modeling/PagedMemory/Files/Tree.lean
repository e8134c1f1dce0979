import PagedMemory.Error
import PagedMemory.Files.Path

/-!
# Directory trees

A tree says at which places there are files, with which contents, and at which there are
directories. A place is given by the names that lead to it from the top. Paths are followed component
by component, each of which needs a directory to stand in.
-/

namespace PagedMemory

/-- A place in a tree: the names that lead to it from the top. -/
abbrev Place := List String

/-- Where steps lead from a place, whether or not there is anything. -/
def Place.walk (place : Place) (steps : List String) : Place :=
  steps.foldl (fun place c => if c == ".." then place.dropLast else place ++ [c]) place

/-- Steps are taken one after the other. -/
theorem Place.walk_append (place : Place) (steps steps' : List String) :
    place.walk (steps ++ steps') = (place.walk steps).walk steps' := List.foldl_append

/-- Files and directories. -/
structure Tree where
  files : List (Place × Array UInt8)
  /-- The directories below the top. -/
  directories : List Place

/-- What there is at a place. -/
inductive Node
  | file (data : Array UInt8)
  | directory

namespace Tree

/-- Only the top. -/
def empty : Tree := ⟨[], []⟩

/-- What there is at a place. -/
def node? (tree : Tree) (place : Place) : Option Node :=
  match tree.files.lookup place with
  | some data => some (.file data)
  | none => if place = [] ∨ place ∈ tree.directories then some .directory else none

/-- Where one component leads from a place that there is. A name may have 255 bytes. -/
def enter (tree : Tree) (here : Place) (component : String) : Except HostFault Place :=
  match tree.node? here with
  | some .directory =>
    if Path.stays component then .ok here
    else if component == ".." then .ok here.dropLast
    else if 255 < component.utf8ByteSize then .error .nameTooLong
    else
      match tree.node? (here ++ [component]) with
      | some _ => .ok (here ++ [component])
      | none => .error .missing
  | some (.file _) => .error .notDirectory
  | none => .error .missing

/-- Where a path leads; a path that is not absolute starts at `here`. A path has at least one byte and
at most 4095, none of them NUL. -/
def resolve (tree : Tree) (here : Place) (path : String) : Except HostFault Place :=
  if path.toList.contains '\x00' then .error .nulInName
  else if path == "" then .error .missing
  else if 4096 ≤ path.utf8ByteSize then .error .nameTooLong
  else (Path.components path).foldlM tree.enter (if Path.isAbsolute path then [] else here)

/-- The contents of the file to which a path leads. -/
def read (tree : Tree) (here : Place) (path : String) : Except HostFault (Array UInt8) := do
  match tree.node? (← tree.resolve here path) with
  | some (.file data) => pure data
  | some .directory => throw .isDirectory
  | none => throw .missing

/-- The place that a path names, whether or not there is anything. -/
def locate (here : Place) (path : String) : Place :=
  Place.walk (if Path.isAbsolute path then [] else here) (Path.steps path)

end Tree

end PagedMemory
