import TableSearch.Binary.Writer

/-!
# Reading the binary form

A reader takes what it needs from the front of its input and leaves the rest; `decode` discards
what is left after the value. Input that ends too early is reported as such whatever length it
announces, and a table is checked as soon as its last value is read.
-/

namespace TableSearch.Binary

/-- Why the binary form was not read. -/
inductive Failure where
  /-- The input ends before the value does. -/
  | endOfInput
  /-- The number stands for no channel. -/
  | unknownChannel (index : Nat)
  /-- What was read breaks a rule of tables or images. -/
  | rejected (rejection : Rejection)
  deriving DecidableEq

/-- The text that reports why the binary form was not read. -/
def Failure.message : Failure → String
  | endOfInput => "io error: unexpected end of file"
  | unknownChannel index =>
    s!"invalid value: integer `{index}`, expected variant index 0 <= i < 2"
  | rejected rejection => rejection.message

/-- An action that takes bytes from the front of the input. -/
abbrev Reader (α : Type) : Type := StateT (List UInt8) (Except Failure) α

/-- Takes one byte. -/
def byte : Reader UInt8
  | [] => .error .endOfInput
  | b :: rest => .ok (b, rest)

/-- Takes a number of `width` bytes. -/
def number : (width : Nat) → Reader Nat
  | 0 => return 0
  | width + 1 => do
    let low ← byte
    let high ← number width
    return low.toNat + 256 * high

/-- Takes `count` values and puts them behind those in `taken`. -/
def valuesAfter (taken : Array UInt64) : (count : Nat) → Reader (Array UInt64)
  | 0 => return taken
  | count + 1 => do
    let value ← number 8
    valuesAfter (taken.push (UInt64.ofNat value)) count

/-- Takes a list of values with its length. -/
def values : Reader (Array UInt64) := do
  let count ← number 8
  valuesAfter #[] count

/-- Holds what was read to the rules of tables or images. -/
def check {α : Type} : Except Rejection α → Reader α
  | .ok a => return a
  | .error rejection => throw (.rejected rejection)

/-- Takes a table. -/
def table : Reader Table := do
  check (Table.ofArray (← values))

/-- Takes the constants of a search. -/
def config : Reader Config := do
  let right ← number 4
  let failed ← number 4
  return ⟨UInt32.ofNat right, UInt32.ofNat failed⟩

/-- Takes an image. -/
def image : Reader Image := do
  let constants ← config
  let values ← table
  check (Image.build constants values)

/-- Takes a channel. -/
def channel : Reader Channel := do
  match ← number 4 with
  | 0 => return .privateInput
  | 1 => return .publicInput
  | index => throw (.unknownChannel index)

/-- Reads a value from the front of the input. -/
def decode {α : Type} (reader : Reader α) (input : List UInt8) : Except Failure α :=
  (·.1) <$> reader.run input

end TableSearch.Binary
