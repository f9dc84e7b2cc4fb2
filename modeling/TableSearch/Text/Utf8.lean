/-!
# UTF-8

`decodeChar?` takes one character off the front of a byte sequence: one byte below 0x80, or a
leading byte with one to three continuation bytes, where the code is as long as its value needs,
no surrogate and at most U+10FFFF. `decode` takes characters as long as it can and returns the
bytes that start no character, so a sequence is valid exactly when none are left.
-/

namespace TableSearch.Utf8

/-- The byte continues a character. -/
def isContinuation (b : UInt8) : Bool := 0x80 ≤ b && b < 0xC0

/-- The six bits that a continuation byte adds. -/
def low (b : UInt8) : Nat := b.toNat % 64

/-- The character of a code that is not below `least`. -/
def charAtLeast? (least code : Nat) : Option Char :=
  if least ≤ code ∧ code.isValidChar then some (Char.ofNat code) else none

/-- The first character of a byte sequence, with the bytes behind it. -/
def decodeChar? : List UInt8 → Option (Char × List UInt8)
  | [] => none
  | a :: rest =>
    if a < 0x80 then some (Char.ofNat a.toNat, rest)
    else if a < 0xC0 then none
    else if a < 0xE0 then
      match rest with
      | b :: rest =>
        if isContinuation b then
          (charAtLeast? 0x80 (a.toNat % 32 * 64 + low b)).map (·, rest)
        else none
      | _ => none
    else if a < 0xF0 then
      match rest with
      | b :: c :: rest =>
        if isContinuation b && isContinuation c then
          (charAtLeast? 0x800 (a.toNat % 16 * 4096 + low b * 64 + low c)).map (·, rest)
        else none
      | _ => none
    else if a < 0xF8 then
      match rest with
      | b :: c :: d :: rest =>
        if isContinuation b && isContinuation c && isContinuation d then
          (charAtLeast? 0x10000
            (a.toNat % 8 * 262144 + low b * 4096 + low c * 64 + low d)).map (·, rest)
        else none
      | _ => none
    else none

theorem eq_of_map_pair_eq_some {c : Char} {before after : List UInt8} {o : Option Char}
    (mapped : o.map (·, before) = some (c, after)) : after = before := by
  obtain ⟨_, _, pair⟩ := Option.map_eq_some_iff.mp mapped
  exact (Prod.mk.inj pair).2.symm

/-- A character takes at least one byte. -/
theorem length_lt_of_decodeChar? {bytes rest : List UInt8} {c : Char}
    (decoded : decodeChar? bytes = some (c, rest)) : rest.length < bytes.length := by
  cases bytes with
  | nil => cases decoded
  | cons a tail =>
    simp only [decodeChar?] at decoded
    repeat' split at decoded
    all_goals first
      | contradiction
      | (have same := eq_of_map_pair_eq_some decoded
         subst same
         simp only [List.length_cons]
         omega)
      | (cases decoded
         exact Nat.lt_succ_self _)

/-- Takes characters off the front as long as it can, puts them behind those in `done`, and
returns them with the bytes that start no character. -/
def decodeAfter (done : Array Char) (bytes : List UInt8) : Array Char × List UInt8 :=
  match _decoded : decodeChar? bytes with
  | some (c, rest) => decodeAfter (done.push c) rest
  | none => (done, bytes)
termination_by bytes.length
decreasing_by exact length_lt_of_decodeChar? _decoded

/-- The characters at the front of a byte sequence, with the bytes that start no character. -/
def decode (bytes : List UInt8) : List Char × List UInt8 :=
  let (chars, rest) := decodeAfter #[] bytes
  (chars.toList, rest)

/-- The text that a byte sequence encodes, if it encodes one. -/
def text? (bytes : List UInt8) : Option String :=
  match decode bytes with
  | (chars, []) => some (String.ofList chars)
  | _ => none

/-- The bytes of a text. -/
def encode (s : String) : List UInt8 := s.toUTF8.toList

end TableSearch.Utf8
