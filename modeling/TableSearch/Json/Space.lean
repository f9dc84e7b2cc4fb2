import TableSearch.Bytes.Ascii
import TableSearch.Json.Fault

/-!
# White space and words

Between the parts of a text any number of spaces, tabs, line feeds and carriage returns may stand.
A word such as `null` is spelled out exactly.
-/

namespace TableSearch.Json

/-- The byte is white space. -/
def isSpace (b : UInt8) : Bool :=
  b = ascii ' ' || b = ascii '\t' || b = ascii '\n' || b = ascii '\r'

/-- The input behind its leading white space. -/
def skipSpace (input : List UInt8) : List UInt8 := input.dropWhile isSpace

/-- Takes the bytes of a word. -/
def word : List UInt8 → List UInt8 → Except Fault (List UInt8)
  | [], input => .ok input
  | _ :: _, [] => .error (.ended .value)
  | letter :: letters, b :: rest =>
    if b = letter then word letters rest else .error (.malformed .expectedWord rest)

theorem length_skipSpace_le (input : List UInt8) : (skipSpace input).length ≤ input.length :=
  (List.dropWhile_sublist isSpace).length_le

theorem length_lt_of_skipSpace {input rest : List UInt8} {b : UInt8}
    (skipped : skipSpace input = b :: rest) : rest.length < input.length := by
  have kept := length_skipSpace_le input
  rw [skipped] at kept
  exact kept

theorem length_word_le {letters input rest : List UInt8}
    (read : word letters input = .ok rest) : rest.length ≤ input.length := by
  induction letters generalizing input with
  | nil =>
    obtain rfl := Except.ok.inj read
    exact Nat.le_refl _
  | cons letter letters ih =>
    cases input with
    | nil => cases read
    | cons b input =>
      rw [word] at read
      split at read
      · exact Nat.le_succ_of_le (ih read)
      · cases read

end TableSearch.Json
