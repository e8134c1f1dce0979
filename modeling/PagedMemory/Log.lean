import PagedMemory.Error
import PagedMemory.Event

/-!
# The log

Each event has one line in the log: a severity, the part of the program that speaks, and a text.
Lines of a category are printed only where that category is switched on; the others only depend on
their severity.
-/

namespace PagedMemory

namespace Log

/-- How much a line matters. -/
inductive Severity
  | error
  | warn
  | info
  | debug
deriving DecidableEq, Repr

/-- The severity as the log names it. -/
def Severity.name : Severity → String
  | .error => "ERROR"
  | .warn => "WARN"
  | .info => "INFO"
  | .debug => "DEBUG"

/-- How many severities matter more. -/
def Severity.rank : Severity → Nat
  | .error => 1
  | .warn => 2
  | .info => 3
  | .debug => 4

/-- The kinds of lines that can be switched on apart. -/
inductive Category
  | mmu
  | mmio
  | loader
deriving DecidableEq, Repr

/-- The name that switches the category on. -/
def Category.name : Category → String
  | .mmu => "mmu"
  | .mmio => "mmio"
  | .loader => "loader"

/-- A line of the log. -/
structure Record where
  severity : Severity
  /-- The part of the program that speaks. -/
  target : String
  text : String
deriving DecidableEq, Repr

/-- The line as it is printed: the severity fills five columns. -/
def Record.line (r : Record) : String :=
  let name := r.severity.name
  "[" ++ name ++ String.ofList (List.replicate (5 - name.length) ' ') ++ " " ++ r.target ++ "] " ++
    r.text

end Log

namespace Event

open Log

/-- The category that the event's line belongs to, if it belongs to one. -/
def category? : Event → Option Category
  | .walked .. | .spaceCreated .. | .tableCreated .. | .mapped .. => some .mmu
  | .attached .. | .deviceRead .. | .deviceWrite .. => some .mmio
  | .imageOpened .. | .pageLoaded .. => some .loader
  | .remapped .. | .built .. | .crossingRefused .. | .imageLoaded .. => none

/-- How much the event matters. -/
def severity : Event → Severity
  | .crossingRefused .. => .error
  | .remapped .. => .warn
  | .imageLoaded .. => .info
  | _ => .debug

/-- The part of the program that reports the event. -/
def target : Event → String
  | .walked .. | .spaceCreated .. | .tableCreated .. | .mapped .. => "guestmem::mmu"
  | .remapped .. => "guestmem::mmu::space"
  | .attached .. | .deviceRead .. | .deviceWrite .. => "guestmem::mmio"
  | .built .. => "guestmem::builder"
  | .crossingRefused .. => "guestmem::guest"
  | .imageOpened .. | .pageLoaded .. | .imageLoaded .. => "guestmem::loader"

/-- The text of the event's line. -/
def text : Event → String
  | .walked access vaddr directory table paddr =>
    let entries := s!"pde={directory.debugText .directory} pte={table.debugText .table}"
    s!"{access.name} va={Text.address vaddr} {entries} -> pa={Text.address paddr}"
  | .spaceCreated directory => s!"new address space, pgdir={Text.address directory}"
  | .tableCreated table slot => s!"new page table {Text.address table} for pdx {slot.toNat}"
  | .mapped vaddr frame => s!"map va={Text.address vaddr} -> pa={Text.address frame}"
  | .remapped vaddr old new =>
    s!"remapping vaddr {Text.address vaddr}: {Text.address old} -> {Text.address new}"
  | .attached name range => s!"registered '{name}' at {range.text}"
  | .deviceRead name addr len value =>
    s!"read  '{name}' addr={Text.address addr} len={len} -> {Text.address value}"
  | .deviceWrite name addr len data =>
    s!"write '{name}' addr={Text.address addr} len={len} <- {Text.address data}"
  | .built ramSize regions tracking =>
    s!"guest memory: {ramSize} bytes, {regions} MMIO regions, {tracking.name}"
  | .crossingRefused addr len => Error.crossesPageText addr len
  | .imageOpened name fd => s!"filename={name}, fd={fd}"
  | .pageLoaded vaddr frame => s!"va={Text.address vaddr}, pa={Text.address frame}"
  | .imageLoaded name size pages entry =>
    s!"loaded '{name}' ({size} bytes, {pages} pages) at {Text.address entry}"

/-- The event's line in the log. -/
def record (e : Event) : Record := ⟨e.severity, e.target, e.text⟩

end Event

end PagedMemory
