import PagedMemory.Text.Hex
import PagedMemory.Text.Printable

/-!
# Quoted text

A quoted text stands between double quotes. Quotes and backslashes in it follow a backslash, the
common controls have letters, and every other character that does not print by itself is given by
its code point.
-/

namespace PagedMemory

namespace Text

/-- A character inside quotes. -/
def escape (c : Char) : List Char :=
  match c with
  | '\x00' => ['\\', '0']
  | '\t' => ['\\', 't']
  | '\n' => ['\\', 'n']
  | '\r' => ['\\', 'r']
  | '"' => ['\\', '"']
  | '\\' => ['\\', '\\']
  | c => if isPrintable c then [c] else ['\\', 'u', '\x7b'] ++ hexDigits c.toNat ++ ['\x7d']

/-- A text between quotes. -/
def quoted (s : String) : String := "\"" ++ String.ofList (s.toList.flatMap escape) ++ "\""

end Text

end PagedMemory
