/-!
# Hexadecimal text

Numbers in messages are lower-case hexadecimal. An address has at least eight digits
(`Text.address`); the size of a range has as few as it needs (`Text.hex`).
-/

namespace PagedMemory

namespace Text

/-- The lower-case hexadecimal digits of `n`, the leading one not zero unless `n` is. -/
def hexDigits (n : Nat) : List Char := Nat.toDigits 16 n

/-- `n` in hexadecimal, after `0x`. -/
def hex (n : Nat) : String := "0x" ++ String.ofList (hexDigits n)

/-- `n` in hexadecimal, after `0x`, with zeros in front up to eight digits. -/
def wideHex (n : Nat) : String :=
  let digits := hexDigits n
  "0x" ++ String.ofList (List.replicate (8 - digits.length) '0' ++ digits)

/-- An address as messages print it. -/
def address (addr : UInt32) : String := wideHex addr.toNat

end Text

end PagedMemory
