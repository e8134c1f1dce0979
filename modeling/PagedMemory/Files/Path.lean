import PagedMemory.Text.Fields

/-!
# Paths

A path is a text of components with slashes between them. It is absolute if it starts with a slash.
Empty components and single dots name the directory in which they stand; two dots name its parent.
-/

namespace PagedMemory

namespace Path

/-- The path starts at the top of the tree. -/
def isAbsolute (path : String) : Bool := path.toList.head? == some '/'

/-- The components of the path, with the empty ones. -/
def components (path : String) : List String := Text.fields '/' path

/-- The component stays in the directory in which it stands. -/
def stays (component : String) : Bool := component == "" || component == "."

/-- The components of the path that lead anywhere. -/
def steps (path : String) : List String := (components path).filter fun c => !stays c

/-- The last component that leads anywhere, if it is a name. -/
def fileName? (path : String) : Option String :=
  match (steps path).getLast? with
  | some name => if name == ".." then none else some name
  | none => none

/-- The components up to the last one that leads anywhere. -/
def trimEnd (components : List String) : List String :=
  (components.reverse.dropWhile stays).reverse

/-- The path up to the component before the last one that leads anywhere, as it is written. -/
def parent (path : String) : String :=
  match trimEnd (trimEnd (components path)).dropLast with
  | [] => if isAbsolute path then "/" else ""
  | kept => "/".intercalate kept

/-- The name without the slashes at its front. -/
def relative (name : String) : String := String.ofList (name.toList.dropWhile (· == '/'))

/-- The path of a name that is looked up in the directory `root`. -/
def join (root name : String) : String :=
  if root == "" then name
  else if root.toList.getLast? == some '/' then root ++ name
  else root ++ "/" ++ name

end Path

end PagedMemory
