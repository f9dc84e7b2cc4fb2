import TableSearch.Bytes.Ascii
import TableSearch.Bytes.Hex
import TableSearch.Json.Fault
import TableSearch.Text.Utf8

/-!
# Strings

A string is a sequence of plain bytes and escapes up to a quote. `text` reads one for its
characters: the number of a surrogate has to be the first of a pair, and once the closing quote has
been read, the bytes that the string stands for have to be UTF-8. `skipText` only looks for its end,
so that it takes any plain bytes and any four digits of an escape. Both start behind the opening
quote and take the closing one.
-/

namespace TableSearch.Json

/-- The byte stands for itself between quotes. -/
def isPlain (b : UInt8) : Bool := b ≠ ascii '"' && b ≠ ascii '\\' && 0x20 ≤ b

/-- The character of an escape of one letter. -/
def letterEscape? (b : UInt8) : Option Char :=
  if b = ascii '"' then some '"'
  else if b = ascii '\\' then some '\\'
  else if b = ascii '/' then some '/'
  else if b = ascii 'b' then some '\x08'
  else if b = ascii 'f' then some '\x0c'
  else if b = ascii 'n' then some '\n'
  else if b = ascii 'r' then some '\r'
  else if b = ascii 't' then some '\t'
  else none

/-- The number that four hexadecimal digits stand for. -/
def hexNumber? (a b c d : UInt8) : Option Nat := do
  let a ← Hex.value? (Char.ofUInt8 a)
  let b ← Hex.value? (Char.ofUInt8 b)
  let c ← Hex.value? (Char.ofUInt8 c)
  let d ← Hex.value? (Char.ofUInt8 d)
  return 4096 * a + 256 * b + 16 * c + d

/-- Reads a number of four hexadecimal digits. -/
def hexNumber : List UInt8 → Except Fault (Nat × List UInt8)
  | a :: b :: c :: d :: rest =>
    match hexNumber? a b c d with
    | some n => .ok (n, rest)
    | none => .error (.malformed .invalidEscape rest)
  | _ => .error (.ended .text)

/-- The number is the first of a pair that stands for one character. -/
def isLeadingSurrogate (n : Nat) : Bool := 0xD800 ≤ n && n ≤ 0xDBFF

/-- The number is the second of a pair that stands for one character. -/
def isTrailingSurrogate (n : Nat) : Bool := 0xDC00 ≤ n && n ≤ 0xDFFF

/-- The character that the two numbers of a pair stand for. -/
def charOfPair (first second : Nat) : Char :=
  Char.ofNat (0x10000 + 0x400 * (first - 0xD800) + (second - 0xDC00))

/-- Reads the second number of a pair, in an escape of its own, behind the first. -/
def secondOfPair (first : Nat) : List UInt8 → Except Fault (Char × List UInt8)
  | [] => .error (.ended .text)
  | b :: rest =>
    if b = ascii '\\' then
      match rest with
      | [] => .error (.ended .text)
      | c :: rest =>
        if c = ascii 'u' then
          match hexNumber rest with
          | .error fault => .error fault
          | .ok (second, rest) =>
            if isTrailingSurrogate second then .ok (charOfPair first second, rest)
            else .error (.malformed .loneSurrogate rest)
        else .error (.malformed .unfinishedPair rest)
    else .error (.malformed .unfinishedPair rest)

/-- Reads an escape behind its backslash. -/
def escape : List UInt8 → Except Fault (Char × List UInt8)
  | [] => .error (.ended .text)
  | b :: rest =>
    if b = ascii 'u' then
      match hexNumber rest with
      | .error fault => .error fault
      | .ok (n, rest) =>
        if isTrailingSurrogate n then .error (.malformed .loneSurrogate rest)
        else if isLeadingSurrogate n then secondOfPair n rest
        else .ok (Char.ofNat n, rest)
    else match letterEscape? b with
      | some c => .ok (c, rest)
      | none => .error (.malformed .invalidEscape rest)

/-- Takes an escape behind its backslash, whatever its number stands for. -/
def skipEscape : List UInt8 → Except Fault (List UInt8)
  | [] => .error (.ended .text)
  | b :: rest =>
    if b = ascii 'u' then
      match hexNumber rest with
      | .error fault => .error fault
      | .ok (_, rest) => .ok rest
    else match letterEscape? b with
      | some _ => .ok rest
      | none => .error (.malformed .invalidEscape rest)

theorem length_hexNumber_lt {input rest : List UInt8} {n : Nat}
    (read : hexNumber input = .ok (n, rest)) : rest.length < input.length := by
  unfold hexNumber at read
  repeat' split at read
  all_goals first
    | contradiction
    | (obtain ⟨-, rfl⟩ := Prod.mk.inj (Except.ok.inj read)
       simp only [List.length_cons]
       omega)

theorem length_secondOfPair_lt {first : Nat} {input rest : List UInt8} {c : Char}
    (read : secondOfPair first input = .ok (c, rest)) : rest.length < input.length := by
  unfold secondOfPair at read
  repeat' split at read
  all_goals first
    | contradiction
    | (obtain ⟨-, rfl⟩ := Prod.mk.inj (Except.ok.inj read)
       have shorter := length_hexNumber_lt ‹hexNumber _ = _›
       simp only [List.length_cons]
       omega)

/-- An escape takes at least one byte. -/
theorem length_escape_lt {input rest : List UInt8} {c : Char}
    (read : escape input = .ok (c, rest)) : rest.length < input.length := by
  unfold escape at read
  repeat' split at read
  all_goals first
    | contradiction
    | (have shorter := length_hexNumber_lt ‹hexNumber _ = _›
       have further := length_secondOfPair_lt read
       simp only [List.length_cons]
       omega)
    | (obtain ⟨-, rfl⟩ := Prod.mk.inj (Except.ok.inj read)
       have shorter := length_hexNumber_lt ‹hexNumber _ = _›
       simp only [List.length_cons]
       omega)
    | (obtain ⟨-, rfl⟩ := Prod.mk.inj (Except.ok.inj read)
       exact Nat.lt_succ_self _)

/-- An escape takes at least one byte. -/
theorem length_skipEscape_lt {input rest : List UInt8}
    (read : skipEscape input = .ok rest) : rest.length < input.length := by
  unfold skipEscape at read
  repeat' split at read
  all_goals first
    | contradiction
    | (obtain rfl := Except.ok.inj read
       have shorter := length_hexNumber_lt ‹hexNumber _ = _›
       simp only [List.length_cons]
       omega)
    | (obtain rfl := Except.ok.inj read
       exact Nat.lt_succ_self _)

theorem length_lt_of_dropWhile {p : UInt8 → Bool} {input rest : List UInt8} {b : UInt8}
    (dropped : input.dropWhile p = b :: rest) : rest.length < input.length := by
  have kept := (List.dropWhile_sublist p (l := input)).length_le
  rw [dropped] at kept
  exact kept

/-- Reads the bytes that a string stands for and puts them behind those in `done`. -/
def textBytesAfter (done : Array UInt8) (input : List UInt8) :
    Except Fault (Array UInt8 × List UInt8) :=
  match stop : input.dropWhile isPlain with
  | [] => .error (.ended .text)
  | b :: rest =>
    if b = ascii '"' then .ok (done ++ input.takeWhile isPlain, rest)
    else if b = ascii '\\' then
      match escaped : escape rest with
      | .error fault => .error fault
      | .ok (c, behind) =>
        have := length_lt_of_dropWhile stop
        have := length_escape_lt escaped
        textBytesAfter (done ++ input.takeWhile isPlain ++ String.utf8EncodeChar c) behind
    else .error (.malformed .controlCharacter rest)
termination_by input.length

/-- Reads a string behind its opening quote. One that is not UTF-8 is reported as far before its
end as the first wrong byte stands before the end of the bytes that it stands for. -/
def text (input : List UInt8) : Except Fault (String × List UInt8) :=
  match textBytesAfter #[] input with
  | .error fault => .error fault
  | .ok (bytes, rest) =>
    match Utf8.decode bytes.toList with
    | (chars, []) => .ok (String.ofList chars, rest)
    | (_, wrong) =>
      .error (.malformed .invalidUtf8 (input.drop (input.length - (rest.length + wrong.length))))

/-- Takes a string behind its opening quote. -/
def skipText (input : List UInt8) : Except Fault (List UInt8) :=
  match stop : input.dropWhile isPlain with
  | [] => .error (.ended .text)
  | b :: rest =>
    if b = ascii '"' then .ok rest
    else if b = ascii '\\' then
      match escaped : skipEscape rest with
      | .error fault => .error fault
      | .ok behind =>
        have := length_lt_of_dropWhile stop
        have := length_skipEscape_lt escaped
        skipText behind
    else .error (.malformed .controlCharacter (b :: rest))
termination_by input.length

/-- A string takes at least its closing quote. -/
theorem length_textBytesAfter_lt {done bytes : Array UInt8} {input rest : List UInt8}
    (read : textBytesAfter done input = .ok (bytes, rest)) : rest.length < input.length := by
  fun_induction textBytesAfter done input
  all_goals try contradiction
  · obtain ⟨-, rfl⟩ := Prod.mk.inj (Except.ok.inj read)
    exact length_lt_of_dropWhile ‹List.dropWhile _ _ = _›
  · next shorter further ih =>
    have last := ih read
    omega

/-- A string takes at least its closing quote. -/
theorem length_text_lt {input rest : List UInt8} {s : String}
    (read : text input = .ok (s, rest)) : rest.length < input.length := by
  unfold text at read
  split at read
  · cases read
  · next bytes =>
    split at read
    · obtain ⟨-, rfl⟩ := Prod.mk.inj (Except.ok.inj read)
      exact length_textBytesAfter_lt bytes
    · cases read

/-- A string takes at least its closing quote. -/
theorem length_skipText_lt {input rest : List UInt8}
    (read : skipText input = .ok rest) : rest.length < input.length := by
  fun_induction skipText input
  all_goals try contradiction
  · obtain rfl := Except.ok.inj read
    exact length_lt_of_dropWhile ‹List.dropWhile _ _ = _›
  · next shorter further ih =>
    have last := ih read
    omega

end TableSearch.Json
