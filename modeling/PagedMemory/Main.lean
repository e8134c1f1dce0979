import PagedMemory.Cli.Program
import PagedMemory.Files.Served

/-!
# The program

The outer layer of the command line: it takes the words and the environment, reads the file that is
asked for, and prints what the run printed.
-/

namespace PagedMemory

/-- The host's reason, in the words of errors. -/
def hostFault (e : IO.Error) : HostFault :=
  match e with
  | .noFileOrDirectory .. => .missing
  | .inappropriateType _ 21 _ => .isDirectory
  | .inappropriateType _ 20 _ => .notDirectory
  | e => .other (toString e)

/-- The contents of a file of the host. -/
def readHost (path : String) : BaseIO (Except HostFault (Array UInt8)) := do
  match ← (IO.FS.readBinFile path).toBaseIO with
  | .ok bytes => pure (.ok bytes.data)
  | .error e => pure (.error (hostFault e))

end PagedMemory

open PagedMemory in
/-- Runs the program on the words of the command line. -/
def main (words : List String) : IO UInt32 := do
  let filter := Log.Filter.ofSettings (← IO.getEnv "GUESTMEM_LOG") (← IO.getEnv "GUESTMEM_DEBUG")
  let fetched ← match Cli.imagePath? words with
    | some path => readHost path
    | none => pure (.error .missing)
  let transcript := Cli.run filter (fun _ => Served.ofFetch fun _ => fetched) "guestmem" words
  IO.print transcript.stdout
  IO.eprint transcript.stderr
  pure transcript.exit
