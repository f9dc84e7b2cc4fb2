/-!
# Arguments

The first argument names a command, and options follow. An option with a value has it behind an
equals sign or as the next argument, which then does not look like an option itself. Every
command says which options it takes, which may repeat and which must be there. A list of arguments
that does not follow these rules makes no command.
-/

namespace TableSearch.CommandLine

/-- What the program is asked to do. -/
inductive Command where
  /-- Make the image of the table `0, 1, …, size - 1`, and perhaps its header. -/
  | generate (size : UInt32) (output : String) (header? : Option String)
  /-- Search an image for each public value, with private values that no search draws. -/
  | run (image : String) (publicValues privateValues : List UInt64) (trace : Bool)
  deriving DecidableEq

/-- The options of a command. -/
structure Options where
  /-- Those with a value. -/
  valued : List String
  /-- Those without. -/
  flags : List String

/-- An option as it was given, with its value if it has one. -/
abbrev Given : Type := String × Option String

/-- The argument cannot be a value of its own. A single hyphen can. -/
def looksLikeOption (argument : String) : Bool :=
  argument.toList.head? = some '-' && argument ≠ "-"

/-- An argument as the name of an option and the value attached to it. -/
def splitArgument (argument : String) : Given :=
  let name := String.ofList (argument.toList.takeWhile (· ≠ '='))
  match argument.toList.dropWhile (· ≠ '=') with
  | [] => (name, none)
  | _ :: value => (name, some (String.ofList value))

/-- The options in a list of arguments. Two hyphens alone may end it. -/
def Options.read? (options : Options) : List String → Option (List Given)
  | [] => some []
  | [argument] =>
    if argument = "--" then some []
    else
      let (name, value?) := splitArgument argument
      match value? with
      | some value => if options.valued.contains name then some [(name, some value)] else none
      | none => if options.flags.contains name then some [(name, none)] else none
  | argument :: next :: rest =>
    let (name, value?) := splitArgument argument
    match value? with
    | some value =>
      if options.valued.contains name then
        (options.read? (next :: rest)).map ((name, some value) :: ·)
      else none
    | none =>
      if options.flags.contains name then
        (options.read? (next :: rest)).map ((name, none) :: ·)
      else if options.valued.contains name ∧ ¬ looksLikeOption next then
        (options.read? rest).map ((name, some next) :: ·)
      else none

/-- Every value given for an option. -/
def valuesOf (name : String) (given : List Given) : List String :=
  given.filterMap fun (option, value?) => if option = name then value? else none

/-- The value of an option that may be given once. -/
def atMostOnce? (name : String) (given : List Given) : Option (Option String) :=
  match valuesOf name given with
  | [] => some none
  | [value] => some (some value)
  | _ => none

/-- The value of an option that must be given once. -/
def once? (name : String) (given : List Given) : Option String :=
  match valuesOf name given with
  | [value] => some value
  | _ => none

/-- Whether an option without a value was given, which it may be once. -/
def flag? (name : String) (given : List Given) : Option Bool :=
  match given.filter (·.1 = name) with
  | [] => some false
  | [_] => some true
  | _ => none

/-- The number that decimal digits stand for. -/
def ofDigits? : List Char → Option Nat
  | [] => none
  | digits =>
    if digits.all Char.isDigit then
      some (digits.foldl (fun n c => 10 * n + (c.toNat - 48)) 0)
    else none

/-- A natural number up to a limit. A plus sign may stand before it. -/
def natural? (limit : Nat) (text : String) : Option Nat := do
  let n ← match text.toList with
    | '+' :: digits => ofDigits? digits
    | digits => ofDigits? digits
  if n ≤ limit then some n else none

/-- The size of a table. A sign may stand before it, though a minus only before zero. -/
def size? (text : String) : Option UInt32 :=
  match text.toList with
  | '-' :: digits => if ofDigits? digits = some 0 then some 0 else none
  | _ => (natural? (UInt32.size - 1) text).map UInt32.ofNat

/-- A value of a channel. -/
def value? (text : String) : Option UInt64 := (natural? (UInt64.size - 1) text).map UInt64.ofNat

/-- A path, which is not empty. -/
def path? (text : String) : Option String := if text = "" then none else some text

/-- The options that make an image. -/
def generateOptions : Options := ⟨["--size", "--output", "--header"], []⟩

/-- The options that search an image. -/
def runOptions : Options := ⟨["--image", "--public", "--private"], ["--trace"]⟩

/-- Where an image goes if nothing else is said. -/
def defaultOutput : String := "bsearch-image.json"

/-- The command to make an image. -/
def generate? (arguments : List String) : Option Command := do
  let given ← generateOptions.read? arguments
  let size ← (← once? "--size" given) |> size?
  let output ← path? ((← atMostOnce? "--output" given).getD defaultOutput)
  let header? ← (← atMostOnce? "--header" given).mapM path?
  return .generate size output header?

/-- The command to search an image. -/
def run? (arguments : List String) : Option Command := do
  let given ← runOptions.read? arguments
  let image ← (← once? "--image" given) |> path?
  let publicValues ← (valuesOf "--public" given).mapM value?
  let privateValues ← (valuesOf "--private" given).mapM value?
  let trace ← flag? "--trace" given
  if publicValues = [] then none else return .run image publicValues privateValues trace

/-- The command that arguments make, if they make one. -/
def Command.ofArguments? : List String → Option Command
  | [] => none
  | name :: arguments =>
    if name = "gen" then generate? arguments
    else if name = "run" then run? arguments
    else none

end TableSearch.CommandLine
