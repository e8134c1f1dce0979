/-!
# Fields of a text

A separator cuts a text into fields: one more field than there are separators, none of which holds
one.
-/

namespace PagedMemory

namespace Text

/-- The fields of a list of characters. -/
def fieldsOf (sep : Char) : List Char → List (List Char)
  | [] => [[]]
  | c :: cs =>
    if c = sep then [] :: fieldsOf sep cs
    else match fieldsOf sep cs with
      | [] => [[c]]
      | f :: fs => (c :: f) :: fs

/-- The fields of a text. -/
def fields (sep : Char) (s : String) : List String := (fieldsOf sep s.toList).map String.ofList

theorem fieldsOf_ne_nil (sep : Char) (cs : List Char) : fieldsOf sep cs ≠ [] := by
  cases cs with
  | nil => simp [fieldsOf]
  | cons c cs =>
    rw [fieldsOf]
    split
    · simp
    · split <;> simp

end Text

end PagedMemory
