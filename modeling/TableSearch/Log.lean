import TableSearch.Text.Quoted

/-!
# Log records

A record has a level, the name of the part of the program that it comes from, a message and named
details. It is shown on one line if its level reaches the threshold for this part.

A setting lists thresholds with commas between them. A word for a threshold is one for all parts of
the program; behind the name of a part and an equals sign it is one for this part and those inside
it, and the name alone lets everything from there pass. What is neither is passed over. Of the
thresholds that apply to a record, the one with the longest name decides, and the last of these.
-/

namespace TableSearch

/-- How much a record matters. -/
inductive Level where
  | error
  | warn
  | info
  | debug
  | trace
  deriving DecidableEq

namespace Level

/-- The word for a level. -/
def name : Level → String
  | error => "ERROR"
  | warn => "WARN"
  | info => "INFO"
  | debug => "DEBUG"
  | trace => "TRACE"

/-- How many levels matter more. -/
def rank : Level → Nat
  | error => 0
  | warn => 1
  | info => 2
  | debug => 3
  | trace => 4

/-- The threshold that a word asks for, in letters of any case or as a digit: the least level that
passes, if one does. -/
def ofWord? (word : List Char) : Option (Option Level) :=
  match String.ofList (word.map Char.toLower) with
  | "off" | "0" => some none
  | "error" | "1" => some (some error)
  | "warn" | "2" => some (some warn)
  | "info" | "3" => some (some info)
  | "debug" | "4" => some (some debug)
  | "trace" | "5" => some (some trace)
  | _ => none

end Level

/-- Which records from a part of the program are shown. -/
structure Threshold where
  /-- How the origins of these records begin. -/
  origin : String
  /-- The least level that passes, if one does. -/
  least? : Option Level
  deriving DecidableEq

namespace Threshold

/-- The text can be the name of a part of the program. -/
def isOrigin (name : List Char) : Bool :=
  name ≠ [] && name.all fun c => c.isAlphanum || c = '_' || c = ':' || c = '-'

/-- The threshold that one item of a setting asks for. -/
def ofItem? (item : List Char) : Option Threshold :=
  match item.splitOn '=' with
  | [word] =>
    match Level.ofWord? word with
    | some least? => some ⟨"", least?⟩
    | none => if isOrigin word then some ⟨String.ofList word, some .trace⟩ else none
  | [origin, word] =>
    if isOrigin origin then
      if word = [] then some ⟨String.ofList origin, some .trace⟩
      else (Level.ofWord? word).map fun least? => ⟨String.ofList origin, least?⟩
    else none
  | _ => none

/-- The more specific of two thresholds, the second one if neither is. -/
def moreSpecific (one other : Threshold) : Threshold :=
  if other.origin.length < one.origin.length then one else other

end Threshold

/-- The thresholds that a setting asks for. Without any, errors alone pass. -/
def Level.threshold (setting? : Option String) : List Threshold :=
  match ((setting?.getD "").toList.splitOn ',').filterMap Threshold.ofItem? with
  | [] => [⟨"", some .error⟩]
  | thresholds => thresholds

/-- The value of a detail. -/
inductive Detail where
  /-- Text between quotes. -/
  | quoted (text : String)
  /-- Text as it is. -/
  | plain (text : String)
  | count (n : Nat)
  | truth (b : Bool)
  deriving DecidableEq

/-- The text of a detail. -/
def Detail.text : Detail → String
  | quoted s => Quoted.text s
  | plain s => s
  | count n => toString n
  | truth b => if b then "true" else "false"

/-- Something that happened. -/
structure LogRecord where
  level : Level
  /-- The part of the program that it happened in. -/
  origin : String
  message : String
  details : List (String × Detail)
  deriving DecidableEq

namespace LogRecord

/-- The threshold that decides about a record, if one applies to it. -/
def deciding? (thresholds : List Threshold) (r : LogRecord) : Option Threshold :=
  (thresholds.filter fun t => r.origin.startsWith t.origin).foldl
    (fun best? t => some (best?.elim t fun best => best.moreSpecific t)) none

/-- The record reaches the level that its threshold asks for. Nothing passes where there is none. -/
def passes (thresholds : List Threshold) (r : LogRecord) : Bool :=
  match (r.deciding? thresholds).bind Threshold.least? with
  | none => false
  | some least => r.level.rank ≤ least.rank

/-- The line of a record: the level, right-aligned to five characters, the origin, the message and
the details. -/
def line (r : LogRecord) : String :=
  let level := r.level.name.toList
  String.ofList (List.replicate (5 - level.length) ' ' ++ level) ++
    s!" {r.origin}: {r.message}" ++
    String.join (r.details.map fun (key, value) => s!" {key}={value.text}")

end LogRecord

end TableSearch
