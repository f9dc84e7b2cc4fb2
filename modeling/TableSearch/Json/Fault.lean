import TableSearch.Json.Float
import TableSearch.Rejection
import TableSearch.Text.Quoted

/-!
# Faults in JSON text

A fault has a cause and the bytes that were not read when it was reported, from which its line and
column follow. A cause is of one of three categories: the text ends too early, it is not
well-formed, or it holds something else than what was asked for. Faults of the third category that
a record notices between its members are placed only when the record has been left, and one that
no record encloses has no place at all.
-/

namespace TableSearch.Json

/-- What was being read when the text ended. -/
inductive Unfinished where
  | value
  | list
  | object
  | text
  deriving DecidableEq

/-- Where the text departs from the form of JSON. -/
inductive Malformed where
  | expectedValue
  | expectedWord
  | expectedColon
  | expectedCommaOrBracket
  | expectedCommaOrBrace
  | keyNotText
  | trailingComma
  | trailingCharacters
  | invalidNumber
  | numberOutOfRange
  | invalidEscape
  | controlCharacter
  | loneSurrogate
  | unfinishedPair
  | invalidUtf8
  deriving DecidableEq

/-- A value that stands where another one was asked for. -/
inductive Found where
  | null
  | boolean (b : Bool)
  | natural (n : Nat)
  /-- The integer `-n`. -/
  | negative (n : Nat)
  | float (x : Float)
  | text (s : String)
  | list
  | object

/-- Why JSON text was not read. -/
inductive Cause where
  | unfinished (what : Unfinished)
  | malformed (what : Malformed)
  /-- A value of another kind. -/
  | wrongKind (found : Found) (expected : String)
  /-- A value of the right kind that is out of range. -/
  | wrongValue (found : Found) (expected : String)
  | missingField (name : String)
  | duplicateField (name : String)
  /-- A record given as a list of too few items. -/
  | shortRecord (length : Nat) (expected : String)
  | unknownChannel (name : String)
  /-- The values break a rule of tables or images. -/
  | rejected (rejection : Rejection)

/-- The three kinds of causes. -/
inductive Category where
  | unfinished
  | malformed
  | mismatched
  deriving DecidableEq

/-- The word for a category. -/
def Category.name : Category → String
  | unfinished => "eof"
  | malformed => "syntax"
  | mismatched => "data"

/-- The category of a cause. -/
def Cause.category : Cause → Category
  | unfinished _ => .unfinished
  | malformed _ => .malformed
  | _ => .mismatched

/-- A cause with the bytes not read yet when it was reported. -/
structure Fault where
  cause : Cause
  rest : List UInt8
  /-- The fault is reported here, and not where the enclosing record ends. -/
  placed : Bool

namespace Fault

/-- A fault that is reported before `rest`. -/
def here (cause : Cause) (rest : List UInt8) : Fault := ⟨cause, rest, true⟩

/-- A fault noticed before `rest`, to be placed by the enclosing record. -/
def noticed (cause : Cause) (rest : List UInt8) : Fault := ⟨cause, rest, false⟩

/-- The text ends here. -/
def ended (what : Unfinished) : Fault := here (.unfinished what) []

/-- The text departs from the form of JSON before `rest`. -/
def malformed (what : Malformed) (rest : List UInt8) : Fault := here (.malformed what) rest

/-- Places a fault that is not placed yet, after what `close` takes of the bytes not read. -/
def settle (close : List UInt8 → List UInt8) (f : Fault) : Fault :=
  if f.placed then f else here f.cause (close f.rest)

/-- Where a fault is placed does not change its cause. -/
@[simp] theorem cause_settle (close : List UInt8 → List UInt8) (f : Fault) :
    (f.settle close).cause = f.cause := by
  unfold settle
  split
  all_goals rfl

end Fault

/-- A place in a text. -/
structure Position where
  /-- The number of the line, from one. -/
  line : Nat
  /-- How many bytes of the line have been read. -/
  column : Nat
  deriving DecidableEq

/-- The place behind the bytes that have been read. -/
def Position.after (read : List UInt8) : Position :=
  ⟨1 + read.count 10, (read.reverse.takeWhile (· ≠ 10)).length⟩

/-- The outcome of a reading that failed. -/
structure Failure where
  cause : Cause
  /-- The place of the cause, unless it concerns the text as a whole. -/
  position? : Option Position

/-- The failure that a fault in `input` amounts to. -/
def Fault.failure (input : List UInt8) (f : Fault) : Failure :=
  ⟨f.cause,
    if f.placed then some (.after (input.take (input.length - f.rest.length))) else none⟩

/-! ## Texts of causes -/

/-- What a value is called where another one was asked for. -/
def Found.describe : Found → String
  | null => "null"
  | boolean b => s!"boolean `{b}`"
  | natural n => s!"integer `{n}`"
  | negative n => s!"integer `-{n}`"
  | float x => s!"floating point `{floatText x}`"
  | text s => s!"string {Quoted.text s}"
  | list => "sequence"
  | object => "map"

/-- What was being read when the text ended. -/
def Unfinished.message : Unfinished → String
  | value => "EOF while parsing a value"
  | list => "EOF while parsing a list"
  | object => "EOF while parsing an object"
  | text => "EOF while parsing a string"

/-- Where the text departs from the form of JSON. -/
def Malformed.message : Malformed → String
  | expectedValue => "expected value"
  | expectedWord => "expected ident"
  | expectedColon => "expected `:`"
  | expectedCommaOrBracket => "expected `,` or `]`"
  | expectedCommaOrBrace => "expected `,` or `\x7d`"
  | keyNotText => "key must be a string"
  | trailingComma => "trailing comma"
  | trailingCharacters => "trailing characters"
  | invalidNumber => "invalid number"
  | numberOutOfRange => "number out of range"
  | invalidEscape => "invalid escape"
  | controlCharacter => "control character (\\u0000-\\u001F) found while parsing a string"
  | loneSurrogate => "lone leading surrogate in hex escape"
  | unfinishedPair => "unexpected end of hex escape"
  | invalidUtf8 => "invalid unicode code point"

/-- The text of a cause, without its place. -/
def Cause.message : Cause → String
  | unfinished what => what.message
  | malformed what => what.message
  | wrongKind found expected => s!"invalid type: {found.describe}, expected {expected}"
  | wrongValue found expected => s!"invalid value: {found.describe}, expected {expected}"
  | missingField name => s!"missing field `{name}`"
  | duplicateField name => s!"duplicate field `{name}`"
  | shortRecord length expected => s!"invalid length {length}, expected {expected}"
  | unknownChannel name => s!"unknown variant `{name}`, expected `private` or `public`"
  | rejected rejection => rejection.message

/-- The text of a failure, with its place if it has one. -/
def Failure.message (f : Failure) : String :=
  match f.position? with
  | none => f.cause.message
  | some p => s!"{f.cause.message} at line {p.line} column {p.column}"

end TableSearch.Json
