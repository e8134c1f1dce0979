import PagedMemory.Cli.Options
import PagedMemory.Files.Path
import PagedMemory.Log.Filter
import PagedMemory.Machine.Loading
import PagedMemory.Setup

/-!
# The command line

The program prints what it is asked for, and exits with 0, or with 1 if something failed. What it
prints is told apart from what the log and the errors print. The files of the host come from a store
that the caller chooses for the directory of the image.
-/

namespace PagedMemory

namespace Cli

/-- What a run printed, and its exit code. -/
structure Transcript where
  exit : UInt32
  stdout : String
  stderr : String
deriving DecidableEq, Repr

/-- Lines as they are printed. -/
def unlines (lines : List String) : String := String.join (lines.map (· ++ "\n"))

/-- How the program is called. -/
def usage (program : String) : List String := [
  "guestmem - guest memory inspector",
  "",
  "USAGE:",
  s!"    {program} <COMMAND> [OPTIONS]",
  "",
  "COMMANDS:",
  "    load    Load a program image with paging enabled",
  "    info    Show memory layout defaults",
  "    help    Show this help message",
  "    version Show version information",
  "",
  "LOAD OPTIONS:",
  "    --image <PATH>        Program image to load (required)",
  "    --memory <MB>         Guest RAM in MB (default: 128)",
  "    --pool-start <ADDR>   First physical address handed out as a frame (default: 0x2000000)",
  "    --dump <VADDR>[:N]    Read N 32-bit words at VADDR through the MMU (default N: 4)",
  "    --write-back          Persist accessed/dirty bits into the page tables",
  "",
  "ENVIRONMENT:",
  "    GUESTMEM_LOG          error|warn|info|debug|trace",
  "    GUESTMEM_DEBUG        1 | mmu,mmio,loader",
  "",
  "EXAMPLES:",
  s!"    {program} load --image hello.bin",
  s!"    {program} load --image hello.bin --dump 0x8048000:8 --write-back",
  ""]

/-- The version of the program. -/
def version : List String := ["guestmem 0.1.0", "Built with Rust unknown"]

/-- The sizes and addresses that hold where nothing else is asked for. -/
def info : List String := [
  "Guest Memory Defaults",
  "=====================",
  s!"RAM: {Options.initial.memory.toNat} MB",
  s!"Page size: {Page.size} bytes",
  "Paging: x86 two-level (10/10/12)",
  s!"Program entry: {Text.address Loader.standard.base}",
  s!"Frame pool start: {Text.address Options.initial.poolStart}"]

/-! ## Loading and dumping -/

/-- What a dump read, what happened, and why it ended early. -/
structure Dumped where
  /-- Addresses and words, in ascending order. -/
  words : List (UInt32 × UInt32)
  events : List Event
  error? : Option Error

/-- Reads up to `count` words from `vaddr` on; behind the highest address follows the lowest one. The
words and events so far are given last first. -/
def dumpFrom {δ : Type} [Device δ] (regs : Registers) (machine : Machine δ) (vaddr : UInt32)
    (words : List (UInt32 × UInt32)) (events : List Event) : (count : Nat) → Dumped
  | 0 => ⟨words.reverse, events.reverse, none⟩
  | count + 1 =>
    match (Machine.read regs vaddr 4).run machine with
    | ⟨.ok word, machine, es⟩ =>
      dumpFrom regs machine (vaddr + 4) ((vaddr, word) :: words) (es.reverseAux events) count
    | ⟨.error e, _, es⟩ => ⟨words.reverse, events.reverse ++ es, some e⟩

/-- The lines about an image that was loaded. -/
def imageLines (path : String) (space : AddressSpace) (pool : Pool) (image : Image) : List String :=
  ["guestmem - Loaded program",
    "=========================",
    s!"Image: {path}",
    s!"Size: {image.size} bytes",
    s!"Page directory: {Text.address space.directory}",
    s!"Entry: {Text.address image.entry}",
    s!"Frames used: {pool.allocated}"] ++
  image.pages.map fun p => s!"  va {Text.address p.vaddr} -> pa {Text.address p.frame}"

/-- The line of a word in a dump. -/
def wordLine (word : UInt32 × UInt32) : String :=
  s!"{Text.address word.1}: {Text.address word.2}"

/-- What a command printed, what happened, and why it failed. -/
structure Report where
  lines : List String
  events : List Event
  fault? : Option Fault

/-- A command that failed before anything happened. -/
def Report.failed (fault : Fault) : Report := ⟨[], [], some fault⟩

/-- A new address space with the image in it. -/
def loadFresh {φ α δ : Type} [FileStore φ] [FrameSource α] (name : String) :
    Op (φ × Machine δ × α) (AddressSpace × Image) := do
  let space ← .snd Machine.createSpace
  let image ← Machine.load space name
  pure (space, image)

/-- The frames of RAM from `start` on; none if RAM ends before. -/
def poolFrom (ram : Ram) (start : UInt32) : Option Pool :=
  let size := ram.size - start.toNat
  if size = 0 then none else some (.ofRange ⟨start, UInt32.ofNat (min size (UInt32.size - 1))⟩)

/-- Loads an image into a machine without devices, and dumps words. -/
def loadOn {φ : Type} [FileStore φ] (files : φ) (options : Options) (path name : String)
    (machine : Machine Empty) : Report :=
  match poolFrom machine.bus.ram options.poolStart with
  | none => .failed (.poolBeyondRam options.poolStart)
  | some pool =>
    match (loadFresh name).run (files, machine, pool) with
    | ⟨.error e, _, events⟩ => ⟨[], events, some (.machine e)⟩
    | ⟨.ok (space, image), (_, machine, pool), events⟩ =>
      let lines := imageLines path space pool image
      match options.dump? with
      | none => ⟨lines, events, none⟩
      | some dump =>
        let dumped :=
          dumpFrom (.paged space.cr3) machine dump.start [] [] dump.count.toNat
        ⟨lines ++ "" :: dumped.words.map wordLine, events ++ dumped.events,
          dumped.error?.map .machine⟩

/-- The directory and the name of the image. -/
def imageFile (options : Options) : Except Fault (String × String × String) :=
  match options.image? with
  | none => throw .noImage
  | some path =>
    match Path.fileName? path with
    | none => throw .noFileName
    | some name => pure (path, Path.parent path, name)

/-- Loads the image that the words ask for. -/
def load {φ : Type} [FileStore φ] (serve : String → φ) (words : List String) : Report :=
  match (do let options ← Options.initial.read words; pure (options, ← imageFile options)) with
  | .error fault => .failed fault
  | .ok (options, path, directory, name) =>
    let setup : Setup Empty :=
      .ofList [.mebibytes options.memory, .tracking options.tracking]
    match setup.build with
    | (.error e, events) => ⟨[], events, some (.machine e)⟩
    | (.ok machine, events) =>
      let report := loadOn (serve directory) options path name machine
      { report with events := events ++ report.events }

/-- The path of the file that the words ask to load. -/
def imagePath? (words : List String) : Option String :=
  match words with
  | "load" :: words =>
    match (do imageFile (← Options.initial.read words)) with
    | .ok (_, directory, name) => some (Path.join directory (Path.relative name))
    | .error _ => none
  | _ => none

/-! ## Running the program -/

/-- The log's line about a command that failed. -/
def Fault.record (fault : Fault) : Log.Record := ⟨.error, "guestmem", fault.message⟩

/-- What is printed of a report. -/
def Report.transcript (filter : Log.Filter) (report : Report) : Transcript :=
  let log := filter.lines report.events
  match report.fault? with
  | none => ⟨0, unlines report.lines, unlines log⟩
  | some fault =>
    let record := if filter.admits .error then [fault.record.line] else []
    ⟨1, unlines report.lines, unlines (log ++ record ++ ["Error: " ++ fault.message])⟩

/-- Lines that are printed, and nothing else. -/
def Transcript.ofLines (lines : List String) : Transcript := ⟨0, unlines lines, ""⟩

/-- Runs the program under its name, with the words behind it. -/
def run {φ : Type} [FileStore φ] (filter : Log.Filter) (serve : String → φ) (program : String)
    (words : List String) : Transcript :=
  match words with
  | [] => .ofLines (usage program)
  | command :: rest =>
    match command with
    | "load" => (load serve rest).transcript filter
    | "info" => .ofLines info
    | "help" | "--help" | "-h" => .ofLines (usage program)
    | "version" | "--version" | "-V" => .ofLines version
    | _ => ⟨1, unlines (usage program), unlines ["Unknown command: " ++ command]⟩

end Cli

end PagedMemory
