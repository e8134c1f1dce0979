/-!
# Blanks

The characters of the Unicode property White_Space, and texts without them at their ends.
-/

namespace PagedMemory

namespace Text

/-- The code points of blanks as ranges, in ascending order, both ends included. -/
def blanks : List (Nat × Nat) := [
    (0x9, 0xd), (0x20, 0x20), (0x85, 0x85), (0xa0, 0xa0), (0x1680, 0x1680), (0x2000, 0x200a),
    (0x2028, 0x2029), (0x202f, 0x202f), (0x205f, 0x205f), (0x3000, 0x3000)]

/-- The character is a blank. -/
def isBlank (c : Char) : Bool := blanks.any fun (first, last) => first ≤ c.toNat && c.toNat ≤ last

/-- The text without blanks at its ends. -/
def trimmed (s : String) : String :=
  String.ofList (((s.toList.dropWhile isBlank).reverse.dropWhile isBlank).reverse)

end Text

end PagedMemory
