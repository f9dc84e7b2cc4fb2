/-!
# ASCII bytes

Formats of bytes are described by the characters that the bytes stand for.
-/

namespace TableSearch

/-- The byte of an ASCII character. -/
abbrev ascii (c : Char) : UInt8 := c.toUInt8

/-- The bytes of an ASCII text. -/
def asciiBytes (s : String) : List UInt8 := s.toList.map ascii

theorem asciiBytes_append (s t : String) :
    asciiBytes (s ++ t) = asciiBytes s ++ asciiBytes t := by
  rw [asciiBytes, String.toList_append, List.map_append]
  rfl

end TableSearch
