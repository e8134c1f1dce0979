/-!
# Named bits of a word

Table entries and the control register are 32-bit words some of whose bits have names. A type of
names says which bit each of them is; the operations here read, set and print them.
-/

namespace PagedMemory

/-- `ι` names bits of a 32-bit word. -/
class Flag (ι : Type) where
  /-- The names, lowest bit first. -/
  all : List ι
  /-- The position of the bit. -/
  bit : ι → Nat
  /-- The name as text. -/
  name : ι → String

namespace Flag

variable {ι : Type} [Flag ι]

/-- The word in which only the bit of `f` is set. -/
def mask (f : ι) : UInt32 := UInt32.ofNat (1 <<< bit f)

/-- The bit of `f` is set in `word`. -/
def isSet (word : UInt32) (f : ι) : Bool := word.toNat.testBit (bit f)

/-- `word` with the bit of `f` set. -/
def set (word : UInt32) (f : ι) : UInt32 := word ||| mask f

variable (ι) in
/-- The named bits that are set in `word`, lowest first. -/
def allSet (word : UInt32) : List ι := all.filter (isSet word)

variable (ι) in
/-- `word` without the bits that have no name. -/
def known (word : UInt32) : UInt32 := (allSet ι word).foldl set 0

variable (ι) in
/-- The named bits that are set in `word`, joined by bars; `0x0` if there is none. -/
def text (word : UInt32) : String :=
  match allSet ι word with
  | [] => "0x0"
  | fs => " | ".intercalate (fs.map name)

end Flag

end PagedMemory
