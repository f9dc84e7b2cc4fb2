import TableSearch.Json.Number
import TableSearch.Json.Space
import TableSearch.Json.Text

/-!
# Values that are passed over

A member that nobody asked for only has to be well-formed. Its value may be nested to any depth,
so the brackets that are still open are kept in a list, the innermost first, and `skipWithin` goes
from one value to the next. Numbers are checked for their form and not computed.
-/

namespace TableSearch.Json

/-- A bracket that is still open. -/
inductive Bracket where
  | list
  | object
  deriving DecidableEq

namespace Bracket

/-- The byte that closes the bracket. -/
def closing : Bracket → UInt8
  | list => ascii ']'
  | object => ascii '\x7d'

/-- The fault of a text that ends inside the bracket. -/
def ended : Bracket → Fault
  | list => .ended .list
  | object => .ended .object

/-- The fault of a value in the bracket that is followed neither by a comma nor by its end. -/
def unseparated : Bracket → Malformed
  | list => .expectedCommaOrBracket
  | object => .expectedCommaOrBrace

end Bracket

/-! ## Numbers -/

/-- Takes the exponent of a number behind its mark. -/
def skipExponent (input : List UInt8) : Except Fault (List UInt8) :=
  match (exponentSign input).2 with
  | [] => .error (.malformed .invalidNumber [])
  | b :: rest =>
    if isDigit b then .ok (rest.dropWhile isDigit) else .error (.malformed .invalidNumber rest)

/-- Takes the exponent of a number that has one. -/
def skipExponentIfAny : List UInt8 → Except Fault (List UInt8)
  | [] => .ok []
  | b :: rest => if isExponentMark b then skipExponent rest else .ok (b :: rest)

/-- Takes what follows the integer part of a number. -/
def skipAfterInteger : List UInt8 → Except Fault (List UInt8)
  | [] => .ok []
  | b :: rest =>
    if b = ascii '.' then
      if startsWithDigit rest then skipExponentIfAny (rest.dropWhile isDigit)
      else .error (.malformed .invalidNumber rest.tail)
    else skipExponentIfAny (b :: rest)

/-- Takes a number behind its sign. -/
def skipNumber : List UInt8 → Except Fault (List UInt8)
  | [] => .error (.malformed .invalidNumber [])
  | b :: rest =>
    if b = ascii '0' then
      if startsWithDigit rest then .error (.malformed .invalidNumber rest.tail)
      else skipAfterInteger rest
    else if isDigit b then skipAfterInteger (rest.dropWhile isDigit)
    else .error (.malformed .invalidNumber rest)

/-! ## Nested values -/

/-- Takes the key of a member, its colon and the white space around it. -/
def skipKey (input : List UInt8) : Except Fault (List UInt8) :=
  match skipSpace input with
  | [] => .error (.ended .object)
  | b :: rest =>
    if b = ascii '"' then
      match skipText rest with
      | .error fault => .error fault
      | .ok behind =>
        match skipSpace behind with
        | [] => .error (.ended .object)
        | c :: further =>
          if c = ascii ':' then .ok further else .error (.malformed .expectedColon further)
    else .error (.malformed .keyNotText rest)

/-- Goes from inside a bracket to its next value, over the key if there is one. -/
def skipToValue (bracket : Bracket) (input : List UInt8) : Except Fault (List UInt8) :=
  match bracket with
  | .list => .ok input
  | .object => skipKey input

/-- The brackets still open, with the input. Without open brackets the whole value has been
taken, and otherwise a value follows. -/
abbrev Progress : Type := List Bracket × List UInt8

/-- Goes on behind a value: closes brackets as long as they end here, then takes a comma and goes
to the next value. -/
def skipBehindValue : List Bracket → List UInt8 → Except Fault Progress
  | [], input => .ok ([], input)
  | bracket :: outer, input =>
    match skipSpace input with
    | [] => .error bracket.ended
    | b :: rest =>
      if b = ascii ',' then
        match skipToValue bracket rest with
        | .error fault => .error fault
        | .ok behind => .ok (bracket :: outer, behind)
      else if b = bracket.closing then skipBehindValue outer rest
      else .error (.malformed bracket.unseparated rest)

/-- Goes on behind an opening bracket: to its first value, or behind its end. -/
def skipIntoBracket (bracket : Bracket) (outer : List Bracket) (input : List UInt8) :
    Except Fault Progress :=
  match skipSpace input with
  | [] => .error bracket.ended
  | b :: rest =>
    if b = bracket.closing then skipBehindValue outer rest
    else match skipToValue bracket (b :: rest) with
      | .error fault => .error fault
      | .ok behind => .ok (bracket :: outer, behind)

/-- Takes a value without brackets that starts with the byte `b`. -/
def skipPlainValue (b : UInt8) (rest : List UInt8) : Except Fault (List UInt8) :=
  if b = ascii 'n' then word (asciiBytes "ull") rest
  else if b = ascii 't' then word (asciiBytes "rue") rest
  else if b = ascii 'f' then word (asciiBytes "alse") rest
  else if b = ascii '-' then skipNumber rest
  else if isDigit b then skipNumber (b :: rest)
  else if b = ascii '"' then skipText rest
  else .error (.malformed .expectedValue rest)

/-- Takes a value as far as its first bracket, or as a whole if it has none, and goes to the next
value within the brackets. -/
def skipStep (outer : List Bracket) (input : List UInt8) : Except Fault Progress :=
  match skipSpace input with
  | [] => .error (.ended .value)
  | b :: rest =>
    if b = ascii '[' then skipIntoBracket .list outer rest
    else if b = ascii '\x7b' then skipIntoBracket .object outer rest
    else match skipPlainValue b rest with
      | .error fault => .error fault
      | .ok behind => skipBehindValue outer behind

theorem length_skipExponent_le {input rest : List UInt8}
    (read : skipExponent input = .ok rest) : rest.length ≤ input.length := by
  have signed := length_exponentSign_le input
  unfold skipExponent at read
  split at read
  · cases read
  · next b behind found =>
    split at read
    · obtain rfl := Except.ok.inj read
      have dropped := (List.dropWhile_sublist isDigit (l := behind)).length_le
      rw [found, List.length_cons] at signed
      omega
    · cases read

theorem length_skipExponentIfAny_le {input rest : List UInt8}
    (read : skipExponentIfAny input = .ok rest) : rest.length ≤ input.length := by
  unfold skipExponentIfAny at read
  repeat' split at read
  · obtain rfl := Except.ok.inj read
    exact Nat.le_refl _
  · exact Nat.le_succ_of_le (length_skipExponent_le read)
  · obtain rfl := Except.ok.inj read
    exact Nat.le_refl _

theorem length_skipAfterInteger_le {input rest : List UInt8}
    (read : skipAfterInteger input = .ok rest) : rest.length ≤ input.length := by
  unfold skipAfterInteger at read
  repeat' split at read
  · obtain rfl := Except.ok.inj read
    exact Nat.le_refl _
  · next behind _ _ =>
    have shorter := length_skipExponentIfAny_le read
    have dropped := (List.dropWhile_sublist isDigit (l := behind)).length_le
    simp only [List.length_cons]
    omega
  · cases read
  · exact length_skipExponentIfAny_le read

/-- A number takes at least one digit. -/
theorem length_skipNumber_lt {input rest : List UInt8}
    (read : skipNumber input = .ok rest) : rest.length < input.length := by
  unfold skipNumber at read
  repeat' split at read
  · cases read
  · cases read
  · exact Nat.lt_succ_of_le (length_skipAfterInteger_le read)
  · next behind _ _ =>
    have shorter := length_skipAfterInteger_le read
    have dropped := (List.dropWhile_sublist isDigit (l := behind)).length_le
    simp only [List.length_cons]
    omega
  · cases read

theorem length_skipKey_lt {input rest : List UInt8}
    (read : skipKey input = .ok rest) : rest.length < input.length := by
  unfold skipKey at read
  repeat' split at read
  all_goals try contradiction
  next _ _ opening _ _ _ closing _ _ _ colon _ =>
    obtain rfl := Except.ok.inj read
    have first := length_lt_of_skipSpace opening
    have key := length_skipText_lt closing
    have last := length_lt_of_skipSpace colon
    omega

theorem length_skipToValue_le {bracket : Bracket} {input rest : List UInt8}
    (read : skipToValue bracket input = .ok rest) : rest.length ≤ input.length := by
  cases bracket with
  | list =>
    obtain rfl := Except.ok.inj read
    exact Nat.le_refl _
  | object => exact Nat.le_of_lt (length_skipKey_lt read)

theorem length_skipBehindValue_le {brackets still : List Bracket} {input rest : List UInt8}
    (read : skipBehindValue brackets input = .ok (still, rest)) : rest.length ≤ input.length := by
  induction brackets generalizing input with
  | nil =>
    obtain ⟨-, rfl⟩ := Prod.mk.inj (Except.ok.inj read)
    exact Nat.le_refl _
  | cons bracket outer ih =>
    rw [skipBehindValue] at read
    split at read
    · cases read
    · next b behind spaced =>
      have shorter := length_lt_of_skipSpace spaced
      split at read
      · split at read
        · cases read
        · next found =>
          obtain ⟨-, rfl⟩ := Prod.mk.inj (Except.ok.inj read)
          have further := length_skipToValue_le found
          omega
      · split at read
        · have further := ih read
          omega
        · cases read

theorem length_skipIntoBracket_le {bracket : Bracket} {outer still : List Bracket}
    {input rest : List UInt8}
    (read : skipIntoBracket bracket outer input = .ok (still, rest)) :
    rest.length ≤ input.length := by
  unfold skipIntoBracket at read
  split at read
  · cases read
  · next b behind spaced =>
    have shorter := length_lt_of_skipSpace spaced
    split at read
    · have further := length_skipBehindValue_le read
      omega
    · split at read
      · cases read
      · next found =>
        obtain ⟨-, rfl⟩ := Prod.mk.inj (Except.ok.inj read)
        have further := length_skipToValue_le found
        rw [List.length_cons] at further
        omega

theorem length_skipPlainValue_le {b : UInt8} {input rest : List UInt8}
    (read : skipPlainValue b input = .ok rest) : rest.length ≤ input.length := by
  unfold skipPlainValue at read
  repeat' split at read
  · exact length_word_le read
  · exact length_word_le read
  · exact length_word_le read
  · exact Nat.le_of_lt (length_skipNumber_lt read)
  · exact Nat.le_of_lt_succ (length_skipNumber_lt read)
  · exact Nat.le_of_lt (length_skipText_lt read)
  · cases read

/-- Each step takes at least one byte. -/
theorem length_skipStep_lt {outer still : List Bracket} {input rest : List UInt8}
    (read : skipStep outer input = .ok (still, rest)) : rest.length < input.length := by
  unfold skipStep at read
  split at read
  · cases read
  · next b behind spaced =>
    have shorter := length_lt_of_skipSpace spaced
    repeat' split at read
    · have further := length_skipIntoBracket_le read
      omega
    · have further := length_skipIntoBracket_le read
      omega
    · cases read
    · next found =>
      have further := length_skipPlainValue_le found
      have last := length_skipBehindValue_le read
      omega

/-- Takes a value and everything that follows it up to the end of the brackets around it. -/
def skipWithin (brackets : List Bracket) (input : List UInt8) : Except Fault (List UInt8) :=
  match step : skipStep brackets input with
  | .error fault => .error fault
  | .ok ([], rest) => .ok rest
  | .ok (bracket :: outer, rest) =>
    have := length_skipStep_lt step
    skipWithin (bracket :: outer) rest
termination_by input.length

/-- Takes a value of any kind. -/
def skipValue (input : List UInt8) : Except Fault (List UInt8) := skipWithin [] input

theorem length_skipWithin_lt {brackets : List Bracket} {input rest : List UInt8}
    (read : skipWithin brackets input = .ok rest) : rest.length < input.length := by
  fun_induction skipWithin brackets input with
  | case1 => cases read
  | case2 brackets input behind step =>
    obtain rfl := Except.ok.inj read
    exact length_skipStep_lt step
  | case3 brackets input bracket outer behind step shorter ih =>
    have further := ih read
    omega

/-- A value takes at least one byte. -/
theorem length_skipValue_lt {input rest : List UInt8}
    (read : skipValue input = .ok rest) : rest.length < input.length :=
  length_skipWithin_lt read

end TableSearch.Json
