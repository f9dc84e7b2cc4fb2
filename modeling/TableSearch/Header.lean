import TableSearch.Image

/-!
# C headers

An image as C source: its two constants as definitions, a blank line, and its values as an array
of unsigned literals, eight to a line.
-/

namespace TableSearch.Header

/-- How many values stand on a line. -/
def valuesPerRow : Nat := 8

/-- The values of each line. -/
def rows (values : List UInt64) : List (List UInt64) :=
  match values with
  | [] => []
  | value :: rest =>
    (value :: rest).take valuesPerRow :: rows ((value :: rest).drop valuesPerRow)
termination_by values.length
decreasing_by
  rw [List.length_drop, List.length_cons, valuesPerRow]
  omega

/-- A number in decimal digits. -/
def decimal (n : Nat) : List Char := Nat.toDigits 10 n

/-- An element of the array. -/
def element (value : UInt64) : List Char := decimal value.toNat ++ "ULL,".toList

/-- A line of the array. -/
def row (values : List UInt64) : List Char :=
  "    ".toList ++ [' '].intercalate (values.map element) ++ ['\n']

/-- The definition of a constant. -/
def definition (name : String) (value : UInt32) : List Char :=
  "#define ".toList ++ name.toList ++ [' '] ++ decimal value.toNat ++ ['\n']

/-- The line that opens the array. -/
def opening (size : Nat) : List Char :=
  "unsigned long long array[".toList ++ decimal size ++ "] = \x7b\n".toList

/-- The characters of the header of an image. -/
def chars (m : Image) : List Char :=
  definition "FAILED" m.failed ++ definition "RIGHT" m.right ++ ['\n'] ++
    opening m.table.size ++ (rows m.table.values.toList).flatMap row ++ "\x7d;\n".toList

/-- The header of an image. -/
def render (m : Image) : String := String.ofList (chars m)

end TableSearch.Header
