import TableSearch.Bytes.Ascii
import TableSearch.Json.Fault

/-!
# Numbers

An integer without leading zeros, then perhaps a fraction and an exponent. Integers from -2^63 up
to 2^64 - 1 are read exactly, except that minus zero counts as a floating-point number, as all
other numbers do. Digits that do not fit 64 bits any more count for the size of the number alone.

`number` reads from the first digit on, the sign having been read, and takes at least that digit.
-/

namespace TableSearch.Json

/-- A number that was read. -/
inductive Number where
  | natural (n : Nat)
  /-- The integer `-n`. -/
  | negative (n : Nat)
  | float (x : Float)

/-- The number as something found in place of another value. -/
def Number.found : Number → Found
  | natural n => .natural n
  | negative n => .negative n
  | float x => .float x

/-- The byte is a decimal digit. -/
def isDigit (b : UInt8) : Bool := ascii '0' ≤ b && b ≤ ascii '9'

/-- The number of a decimal digit. -/
def digitValue (b : UInt8) : Nat := b.toNat - 48

/-- The input goes on with a decimal digit. -/
def startsWithDigit : List UInt8 → Bool
  | [] => false
  | b :: _ => isDigit b

/-- The byte starts an exponent. -/
def isExponentMark (b : UInt8) : Bool := b = ascii 'e' || b = ascii 'E'

/-- Puts digits behind the number `n` as long as it stays within `limit`. -/
def digits (limit : Nat) (n : Nat) : List UInt8 → Nat × List UInt8
  | [] => (n, [])
  | b :: rest =>
    if isDigit b ∧ 10 * n + digitValue b ≤ limit then
      digits limit (10 * n + digitValue b) rest
    else (n, b :: rest)

/-- The largest integer that is read exactly. -/
def largest : Nat := UInt64.size - 1

/-- The largest exponent. -/
def largestExponent : Nat := 2147483647

/-- The largest integer that is read exactly behind a minus sign. -/
def largestBelowZero : Nat := 9223372036854775808

/-- A floating-point number that ends before `rest`. -/
def floatBefore (negative : Bool) (significand : Nat) (exponent : Int) (rest : List UInt8) :
    Except Fault (Number × List UInt8) :=
  match float? negative significand exponent with
  | some x => .ok (.float x, rest)
  | none => .error (.malformed .numberOutOfRange rest)

/-- Reads the sign of an exponent: whether it is a minus, and what follows it. -/
def exponentSign : List UInt8 → Bool × List UInt8
  | [] => (false, [])
  | b :: rest =>
    if b = ascii '+' then (false, rest)
    else if b = ascii '-' then (true, rest)
    else (false, b :: rest)

/-- Reads an exponent behind its mark. -/
def exponent (negative : Bool) (significand : Nat) (place : Int) (input : List UInt8) :
    Except Fault (Number × List UInt8) :=
  let (down, unsigned) := exponentSign input
  match unsigned with
  | [] => .error (.ended .value)
  | b :: behind =>
    if isDigit b then
      let (size, rest) := digits largestExponent 0 unsigned
      match rest with
      | c :: further =>
        if isDigit c then
          if significand ≠ 0 ∧ ¬ down then .error (.malformed .numberOutOfRange further)
          else .ok (.float (if negative then -0.0 else 0.0), rest.dropWhile isDigit)
        else floatBefore negative significand (if down then place - size else place + size) rest
      | [] => floatBefore negative significand (if down then place - size else place + size) rest
    else .error (.malformed .invalidNumber behind)

/-- Reads the exponent of a number that has one, and ends the number otherwise. -/
def exponentOrEnd (negative : Bool) (significand : Nat) (place : Int) (input : List UInt8) :
    Except Fault (Number × List UInt8) :=
  match input with
  | b :: rest =>
    if isExponentMark b then exponent negative significand place rest
    else floatBefore negative significand place input
  | [] => floatBefore negative significand place input

/-- Reads a fraction behind its point. -/
def fraction (negative : Bool) (significand : Nat) (place : Int) (input : List UInt8) :
    Except Fault (Number × List UInt8) :=
  match input with
  | [] => .error (.ended .value)
  | b :: behind =>
    if isDigit b then
      let (all, rest) := digits largest significand input
      let places := input.length - rest.length
      exponentOrEnd negative all (place - places) (rest.dropWhile isDigit)
    else .error (.malformed .invalidNumber behind)

/-- An integer that ends before `rest`. -/
def integerBefore (negative : Bool) (n : Nat) (rest : List UInt8) :
    Except Fault (Number × List UInt8) :=
  if ¬ negative then .ok (.natural n, rest)
  else if 1 ≤ n ∧ n ≤ largestBelowZero then .ok (.negative n, rest)
  else floatBefore true n 0 rest

/-- Goes on behind the digits of the integer part: `significand` is what was held of them, and
`dropped` counts the others. -/
def afterInteger (negative : Bool) (significand dropped : Nat) (input : List UInt8) :
    Except Fault (Number × List UInt8) :=
  match input with
  | b :: rest =>
    if b = ascii '.' then fraction negative significand dropped rest
    else if isExponentMark b ∨ dropped ≠ 0 then exponentOrEnd negative significand dropped input
    else integerBefore negative significand input
  | [] =>
    if dropped ≠ 0 then floatBefore negative significand dropped input
    else integerBefore negative significand input

/-- Reads a number behind its sign. -/
def number (negative : Bool) (input : List UInt8) : Except Fault (Number × List UInt8) :=
  match input with
  | [] => .error (.ended .value)
  | b :: behind =>
    if b = ascii '0' then
      match behind with
      | c :: further =>
        if isDigit c then .error (.malformed .invalidNumber further)
        else afterInteger negative 0 0 behind
      | [] => afterInteger negative 0 0 behind
    else if isDigit b then
      let (significand, rest) := digits largest 0 input
      afterInteger negative significand (rest.takeWhile isDigit).length (rest.dropWhile isDigit)
    else .error (.malformed .invalidNumber behind)

/-! ## Every number takes input -/

theorem length_digits_le (limit n : Nat) (input : List UInt8) :
    (digits limit n input).2.length ≤ input.length := by
  induction input generalizing n with
  | nil => exact Nat.le_refl _
  | cons b rest ih =>
    rw [digits]
    split
    · exact Nat.le_succ_of_le (ih _)
    · exact Nat.le_refl _

theorem rest_of_floatBefore {negative : Bool} {significand : Nat} {place : Int}
    {input rest : List UInt8} {n : Number}
    (read : floatBefore negative significand place input = .ok (n, rest)) : rest = input := by
  unfold floatBefore at read
  split at read
  · cases read; rfl
  · cases read

theorem length_exponentSign_le (input : List UInt8) :
    (exponentSign input).2.length ≤ input.length := by
  cases input with
  | nil => exact Nat.le_refl _
  | cons b rest =>
    rw [exponentSign]
    repeat' split
    all_goals simp

theorem length_exponent_le {negative : Bool} {significand : Nat} {place : Int}
    {input rest : List UInt8} {n : Number}
    (read : exponent negative significand place input = .ok (n, rest)) :
    rest.length ≤ input.length := by
  have signed := length_exponentSign_le input
  have taken := length_digits_le largestExponent 0 (exponentSign input).2
  have dropped := (List.dropWhile_sublist isDigit
    (l := (digits largestExponent 0 (exponentSign input).2).2)).length_le
  simp only [exponent] at read
  repeat' split at read
  all_goals first
    | contradiction
    | (cases read
       omega)
    | (have same := rest_of_floatBefore read
       subst same
       omega)

theorem length_exponentOrEnd_le {negative : Bool} {significand : Nat} {place : Int}
    {input rest : List UInt8} {n : Number}
    (read : exponentOrEnd negative significand place input = .ok (n, rest)) :
    rest.length ≤ input.length := by
  unfold exponentOrEnd at read
  repeat' split at read
  · have shorter := length_exponent_le read
    simp only [List.length_cons]
    omega
  · exact Nat.le_of_eq (congrArg List.length (rest_of_floatBefore read))
  · exact Nat.le_of_eq (congrArg List.length (rest_of_floatBefore read))

theorem length_fraction_le {negative : Bool} {significand : Nat} {place : Int}
    {input rest : List UInt8} {n : Number}
    (read : fraction negative significand place input = .ok (n, rest)) :
    rest.length ≤ input.length := by
  cases input with
  | nil => cases read
  | cons b behind =>
    simp only [fraction] at read
    split at read
    · have shorter := length_exponentOrEnd_le read
      have dropped := (List.dropWhile_sublist isDigit
        (l := (digits largest significand (b :: behind)).2)).length_le
      have taken := length_digits_le largest significand (b :: behind)
      omega
    · cases read

theorem rest_of_integerBefore {negative : Bool} {m : Nat} {input rest : List UInt8} {n : Number}
    (read : integerBefore negative m input = .ok (n, rest)) : rest = input := by
  unfold integerBefore at read
  split at read
  · cases read; rfl
  · split at read
    · cases read; rfl
    · exact rest_of_floatBefore read

theorem length_afterInteger_le {negative : Bool} {significand dropped : Nat}
    {input rest : List UInt8} {n : Number}
    (read : afterInteger negative significand dropped input = .ok (n, rest)) :
    rest.length ≤ input.length := by
  unfold afterInteger at read
  repeat' split at read
  · have shorter := length_fraction_le read
    simp only [List.length_cons]
    omega
  · exact length_exponentOrEnd_le read
  · exact Nat.le_of_eq (congrArg List.length (rest_of_integerBefore read))
  · exact Nat.le_of_eq (congrArg List.length (rest_of_floatBefore read))
  · exact Nat.le_of_eq (congrArg List.length (rest_of_integerBefore read))

/-- A number takes at least one digit. -/
theorem length_number_lt {negative : Bool} {input rest : List UInt8} {n : Number}
    (read : number negative input = .ok (n, rest)) : rest.length < input.length := by
  cases input with
  | nil => cases read
  | cons b behind =>
    simp only [number] at read
    split at read
    · split at read
      · split at read
        · cases read
        · exact Nat.lt_succ_of_le (length_afterInteger_le read)
      · exact Nat.lt_succ_of_le (length_afterInteger_le read)
    · split at read
      · next digit =>
        have value : digitValue b ≤ largest := by
          have small := b.toNat_lt
          unfold digitValue largest UInt64.size
          omega
        have first : digits largest 0 (b :: behind) = digits largest (digitValue b) behind := by
          rw [digits, if_pos ⟨digit, by omega⟩]
          simp
        have shorter := length_afterInteger_le read
        have kept := (List.dropWhile_sublist isDigit
          (l := (digits largest 0 (b :: behind)).2)).length_le
        have taken := length_digits_le largest (digitValue b) behind
        rw [first] at kept shorter
        simp only [List.length_cons]
        omega
      · cases read

end TableSearch.Json
