import PagedMemory.Error
import PagedMemory.Paging.Access
import PagedMemory.Text.Fields
import PagedMemory.Text.Numeral

/-!
# Options of the command line

The words after `load` are read from left to right, and the first fault ends the reading. A word that
is no option names the image, unless one is named already.
-/

namespace PagedMemory

namespace Cli

/-- The options that are followed by a value. -/
inductive Valued
  | image
  | memory
  | poolStart
  | dump
deriving DecidableEq, Repr

/-- Why a command failed. -/
inductive Fault
  /-- An option stands at the end, without its value. -/
  | missingValue (option : Valued)
  | badNumeral (fault : Text.NumeralFault)
  /-- The words of a dump do not fit into 32 bits of bytes. -/
  | dumpTooLarge (count : UInt32)
  | unknownArgument (word : String)
  | noImage
  | noFileName
  /-- RAM ends before the frames that images are to be loaded into. -/
  | poolBeyondRam (start : UInt32)
  | machine (error : Error)
deriving DecidableEq, Repr

/-- What has to follow the option. -/
def Valued.demand : Valued → String
  | .image => "--image requires a path"
  | .memory => "--memory requires a number"
  | .poolStart => "--pool-start requires an address"
  | .dump => "--dump requires an address"

/-- The wording of the fault. -/
def Fault.message : Fault → String
  | .missingValue option => option.demand
  | .badNumeral fault => fault.message
  | .dumpTooLarge count => s!"--dump count too large: {count.toNat}"
  | .unknownArgument word => s!"Unknown argument: {word}"
  | .noImage => "Image path is required"
  | .noFileName => "Image path has no file name"
  | .poolBeyondRam start => s!"frame pool start {Text.address start} is beyond guest RAM"
  | .machine error => error.message

/-- Words to be read through the tables. -/
structure Dump where
  /-- The address of the first word. -/
  start : UInt32
  /-- How many words there are. -/
  count : UInt32
deriving DecidableEq, Repr

/-- What `load` is asked for. -/
structure Options where
  image? : Option String
  /-- The size of RAM, in mebibytes. -/
  memory : UInt32
  /-- Where the frames begin that images are loaded into. -/
  poolStart : UInt32
  dump? : Option Dump
  tracking : Tracking
deriving DecidableEq, Repr

namespace Options

/-- Nothing was asked for. -/
def initial : Options := ⟨none, 128, 0x02000000, none, .discard⟩

/-- A numeral as the value of an option. -/
def numeric (r : Except Text.NumeralFault UInt32) : Except Fault UInt32 := r.mapError .badNumeral

/-- An address and, behind the first colon, how many words there are; four if there is no colon. -/
def readDump (s : String) : Except Fault Dump := do
  let (start, count) ←
    match s.toList.span (· != ':') with
    | (_, []) => pure (← numeric (Text.readAddress s), 4)
    | (address, _ :: count) =>
      let start ← numeric (Text.readAddress (String.ofList address))
      pure (start, ← numeric (Text.decimal (String.ofList count)))
  if count.toNat * 4 < UInt32.size then pure ⟨start, count⟩ else throw (.dumpTooLarge count)

/-- The options with one more value. -/
def set (o : Options) (option : Valued) (value : String) : Except Fault Options :=
  match option with
  | .image => pure { o with image? := some value }
  | .memory => return { o with memory := ← numeric (Text.decimal value) }
  | .poolStart => return { o with poolStart := ← numeric (Text.readAddress value) }
  | .dump => return { o with dump? := some (← readDump value) }

/-- The option that a word names. -/
def valued? : String → Option Valued
  | "--image" | "-i" => some .image
  | "--memory" | "-m" => some .memory
  | "--pool-start" => some .poolStart
  | "--dump" | "-d" => some .dump
  | _ => none

/-- Reads the words behind those that led to `o`. -/
def read (o : Options) : List String → Except Fault Options
  | [] => pure o
  | word :: rest =>
    match valued? word with
    | some option =>
      match rest with
      | [] => throw (.missingValue option)
      | value :: rest => do read (← o.set option value) rest
    | none =>
      if word == "--write-back" then read { o with tracking := .writeBack } rest
      else if o.image?.isNone then read { o with image? := some word } rest
      else throw (.unknownArgument word)

end Options

end Cli

end PagedMemory
