import PagedMemory.Log
import PagedMemory.Text.Blank
import PagedMemory.Text.Fields

/-!
# What the log prints

Two settings of the environment choose the lines that are printed: one names the least severity, the
other the categories that are switched on. All their words are ASCII, and no other character has one
of their letters as its lower case, so cases are compared in ASCII.
-/

namespace PagedMemory

namespace Log

/-- The choice of lines. -/
structure Filter where
  /-- The rank of the least severity that is printed. -/
  threshold : Nat
  /-- The categories that are switched on. -/
  categories : List Category
deriving DecidableEq, Repr

namespace Filter

/-- The categories that a setting switches on: all of them, or those that it lists. -/
def categoriesOf (setting? : Option String) : List Category :=
  let all : List Category := [.mmu, .mmio, .loader]
  match setting? with
  | none => []
  | some setting =>
    if setting == "1" || setting.toLower == "all" then all
    else
      let names := (Text.fields ',' setting.toLower).map Text.trimmed
      all.filter fun category => names.contains category.name

/-- The threshold that a setting names; otherwise warnings are printed, and with any category
switched on everything. -/
def thresholdOf (setting? : Option String) (categories : List Category) : Nat :=
  match setting?.map fun setting => (Text.trimmed setting).toLower with
  | some "off" => 0
  | some "error" => 1
  | some "warn" => 2
  | some "info" => 3
  | some "debug" => 4
  | some "trace" => 5
  | _ => if categories.isEmpty then 2 else 4

/-- The filter of an environment, of which the settings of severity and of categories are given. -/
def ofSettings (severity? categories? : Option String) : Filter :=
  let categories := categoriesOf categories?
  ⟨thresholdOf severity? categories, categories⟩

/-- Lines of this severity are printed. -/
def admits (filter : Filter) (severity : Severity) : Bool := severity.rank ≤ filter.threshold

/-- The event's line is printed. -/
def prints (filter : Filter) (e : Event) : Bool :=
  filter.admits e.severity &&
    match e.category? with
    | some category => filter.categories.contains category
    | none => true

/-- The lines that are printed of what happened. -/
def lines (filter : Filter) (events : List Event) : List String :=
  (events.filter filter.prints).map fun e => e.record.line

end Filter

end Log

end PagedMemory
