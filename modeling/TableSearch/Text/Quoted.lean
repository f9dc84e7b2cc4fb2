import TableSearch.Text.Visible

/-!
# Quoted text

Text in messages stands between double quotes. A quote and a backslash are marked with a
backslash, four control characters have a letter of their own, and every other character that
does not show is given by the hexadecimal number of its code point.
-/

namespace TableSearch.Quoted

/-- How a character is written between quotes. -/
def char (c : Char) : List Char :=
  if c = '"' then ['\\', '"']
  else if c = '\\' then ['\\', '\\']
  else if c = '\t' then ['\\', 't']
  else if c = '\n' then ['\\', 'n']
  else if c = '\r' then ['\\', 'r']
  else if c = '\x00' then ['\\', '0']
  else if isVisible c then [c]
  else ['\\', 'u', '\x7b'] ++ Nat.toDigits 16 c.toNat ++ ['\x7d']

/-- Text between quotes. -/
def text (s : String) : String :=
  String.ofList ('"' :: (s.toList.flatMap char ++ ['"']))

end TableSearch.Quoted
