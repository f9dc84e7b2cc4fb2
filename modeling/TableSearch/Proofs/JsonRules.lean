import TableSearch.Json.Image

/-!
# The rules that a reader reports

A fault is a broken rule only where a value is held to one. All other faults are about the form of
the text, or about values of another kind. So a reader reports the rules that it checks itself and
those that the readers it is made of report, and none of its other faults can be taken for them.

The lemmas follow the functions: a fault is one that the function reports itself, or one that it
passes on from a function before it.
-/

namespace TableSearch.Json

variable {α β : Type} {Rules : Rejection → Prop}

/-- The cause is no broken rule, except one of `Rules`. -/
def Cause.Confined (Rules : Rejection → Prop) : Cause → Prop
  | rejected rejection => Rules rejection
  | _ => True

/-- The reading reports no broken rule, except one of `Rules`. -/
def Confined (Rules : Rejection → Prop) : Except Fault α → Prop
  | .ok _ => True
  | .error fault => fault.cause.Confined Rules

theorem Confined.fault {read : Except Fault α} {fault : Fault} (confined : Confined Rules read)
    (failed : read = .error fault) : fault.cause.Confined Rules := by
  rw [failed] at confined
  exact confined

/-! ## Words and strings -/

theorem confined_word (letters input : List UInt8) : Confined Rules (word letters input) := by
  fun_induction word letters input with
  | case1 => trivial
  | case2 => trivial
  | case3 _ _ _ ih => exact ih
  | case4 => trivial

theorem confined_hexNumber (input : List UInt8) : Confined Rules (hexNumber input) := by
  unfold hexNumber
  repeat' split
  all_goals trivial

theorem confined_secondOfPair (first : Nat) (input : List UInt8) :
    Confined Rules (secondOfPair first input) := by
  unfold secondOfPair
  repeat' split
  all_goals first
    | trivial
    | exact (confined_hexNumber _).fault ‹_›

theorem confined_escape (input : List UInt8) : Confined Rules (escape input) := by
  unfold escape
  repeat' split
  all_goals first
    | trivial
    | exact confined_secondOfPair _ _
    | exact (confined_hexNumber _).fault ‹_›

theorem confined_textBytesAfter (done : Array UInt8) (input : List UInt8) :
    Confined Rules (textBytesAfter done input) := by
  fun_induction textBytesAfter done input
  all_goals first
    | trivial
    | assumption
    | exact (confined_escape _).fault ‹_›

theorem confined_text (input : List UInt8) : Confined Rules (text input) := by
  unfold text
  split
  · exact (confined_textBytesAfter _ _).fault ‹_›
  · split
    all_goals trivial

theorem confined_skipEscape (input : List UInt8) : Confined Rules (skipEscape input) := by
  unfold skipEscape
  repeat' split
  all_goals first
    | trivial
    | exact (confined_hexNumber _).fault ‹_›

theorem confined_skipText (input : List UInt8) : Confined Rules (skipText input) := by
  fun_induction skipText input
  all_goals first
    | trivial
    | assumption
    | exact (confined_skipEscape _).fault ‹_›

/-! ## Numbers -/

theorem confined_floatBefore (negative : Bool) (significand : Nat) (place : Int)
    (input : List UInt8) : Confined Rules (floatBefore negative significand place input) := by
  unfold floatBefore
  split
  all_goals trivial

theorem confined_exponent (negative : Bool) (significand : Nat) (place : Int)
    (input : List UInt8) : Confined Rules (exponent negative significand place input) := by
  simp only [exponent]
  repeat' split
  all_goals first
    | trivial
    | exact confined_floatBefore _ _ _ _

theorem confined_exponentOrEnd (negative : Bool) (significand : Nat) (place : Int)
    (input : List UInt8) : Confined Rules (exponentOrEnd negative significand place input) := by
  unfold exponentOrEnd
  repeat' split
  · exact confined_exponent _ _ _ _
  · exact confined_floatBefore _ _ _ _
  · exact confined_floatBefore _ _ _ _

theorem confined_fraction (negative : Bool) (significand : Nat) (place : Int)
    (input : List UInt8) : Confined Rules (fraction negative significand place input) := by
  unfold fraction
  repeat' split
  · trivial
  · exact confined_exponentOrEnd _ _ _ _
  · trivial

theorem confined_integerBefore (negative : Bool) (n : Nat) (input : List UInt8) :
    Confined Rules (integerBefore negative n input) := by
  unfold integerBefore
  repeat' split
  · trivial
  · trivial
  · exact confined_floatBefore _ _ _ _

theorem confined_afterInteger (negative : Bool) (significand dropped : Nat) (input : List UInt8) :
    Confined Rules (afterInteger negative significand dropped input) := by
  unfold afterInteger
  repeat' split
  · exact confined_fraction _ _ _ _
  · exact confined_exponentOrEnd _ _ _ _
  · exact confined_integerBefore _ _ _
  · exact confined_floatBefore _ _ _ _
  · exact confined_integerBefore _ _ _

theorem confined_number (negative : Bool) (input : List UInt8) :
    Confined Rules (number negative input) := by
  unfold number
  repeat' split
  all_goals first
    | trivial
    | exact confined_afterInteger _ _ _ _

theorem confined_skipExponent (input : List UInt8) : Confined Rules (skipExponent input) := by
  unfold skipExponent
  repeat' split
  all_goals trivial

theorem confined_skipExponentIfAny (input : List UInt8) :
    Confined Rules (skipExponentIfAny input) := by
  unfold skipExponentIfAny
  repeat' split
  · trivial
  · exact confined_skipExponent _
  · trivial

theorem confined_skipAfterInteger (input : List UInt8) :
    Confined Rules (skipAfterInteger input) := by
  unfold skipAfterInteger
  repeat' split
  · trivial
  · exact confined_skipExponentIfAny _
  · trivial
  · exact confined_skipExponentIfAny _

theorem confined_skipNumber (input : List UInt8) : Confined Rules (skipNumber input) := by
  unfold skipNumber
  repeat' split
  · trivial
  · trivial
  · exact confined_skipAfterInteger _
  · exact confined_skipAfterInteger _
  · trivial

/-! ## Values that are passed over -/

theorem confined_skipKey (input : List UInt8) : Confined Rules (skipKey input) := by
  unfold skipKey
  repeat' split
  all_goals first
    | trivial
    | exact (confined_skipText _).fault ‹_›

theorem confined_skipToValue (bracket : Bracket) (input : List UInt8) :
    Confined Rules (skipToValue bracket input) := by
  cases bracket with
  | list => trivial
  | object => exact confined_skipKey input

theorem confined_ended (bracket : Bracket) : bracket.ended.cause.Confined Rules := by
  cases bracket <;> trivial

theorem confined_skipBehindValue (brackets : List Bracket) (input : List UInt8) :
    Confined Rules (skipBehindValue brackets input) := by
  induction brackets generalizing input with
  | nil => trivial
  | cons bracket outer ih =>
    rw [skipBehindValue]
    repeat' split
    · exact confined_ended bracket
    · exact (confined_skipToValue _ _).fault ‹_›
    · trivial
    · exact ih _
    · trivial

theorem confined_skipIntoBracket (bracket : Bracket) (outer : List Bracket) (input : List UInt8) :
    Confined Rules (skipIntoBracket bracket outer input) := by
  unfold skipIntoBracket
  repeat' split
  · exact confined_ended bracket
  · exact confined_skipBehindValue _ _
  · exact (confined_skipToValue _ _).fault ‹_›
  · trivial

theorem confined_skipPlainValue (b : UInt8) (input : List UInt8) :
    Confined Rules (skipPlainValue b input) := by
  unfold skipPlainValue
  repeat' split
  · exact confined_word _ _
  · exact confined_word _ _
  · exact confined_word _ _
  · exact confined_skipNumber _
  · exact confined_skipNumber _
  · exact confined_skipText _
  · trivial

theorem confined_skipStep (outer : List Bracket) (input : List UInt8) :
    Confined Rules (skipStep outer input) := by
  unfold skipStep
  repeat' split
  · trivial
  · exact confined_skipIntoBracket _ _ _
  · exact confined_skipIntoBracket _ _ _
  · exact (confined_skipPlainValue _ _).fault ‹_›
  · exact confined_skipBehindValue _ _

theorem confined_skipValue (input : List UInt8) : Confined Rules (skipValue input) := by
  unfold skipValue
  fun_induction skipWithin [] input with
  | case1 => exact (confined_skipStep _ _).fault ‹_›
  | case2 => trivial
  | case3 _ _ _ _ _ _ _ ih => exact ih

/-! ## Readers -/

theorem confined_refuse (expected : String) (input : List UInt8) :
    (refuse expected input).cause.Confined Rules := by
  have words (letters : String) (found : Found) (input : List UInt8) :
      (refuseWord letters found expected input).cause.Confined Rules := by
    unfold refuseWord
    split
    · exact (confined_word _ _).fault ‹_›
    · trivial
  have numbers (negative : Bool) (input : List UInt8) :
      (refuseNumber expected (number negative input)).cause.Confined Rules := by
    unfold refuseNumber
    split
    · exact (confined_number _ _).fault ‹_›
    · trivial
  unfold refuse
  repeat' split
  all_goals first
    | trivial
    | exact words _ _ _
    | exact numbers _ _
    | exact (confined_text _).fault ‹_›

/-- The reader reports no broken rule, except one of `Rules`. -/
def Reader.Confined (Rules : Rejection → Prop) (r : Reader α) : Prop :=
  ∀ input, Json.Confined Rules (r.read input)

theorem Reader.Confined.map {r : Reader α} (confined : r.Confined Rules) (f : α → β) :
    (r.map f).Confined Rules := by
  intro input
  cases read : r.read input with
  | error fault =>
    simp only [Reader.map, read, Except.map]
    exact (confined input).fault read
  | ok pair =>
    simp only [Reader.map, read, Except.map]
    trivial

theorem Reader.Confined.check {r : Reader α} (confined : r.Confined Rules)
    {f : α → Except Rejection β}
    (rules : ∀ {a rejection}, f a = .error rejection → Rules rejection) :
    (r.check f).Confined Rules := by
  intro input
  simp only [Reader.check]
  split
  · exact (confined input).fault ‹_›
  · split
    · exact rules ‹_›
    · trivial

theorem confined_integer (limit : Nat) (expected : String) :
    (integer limit expected).Confined Rules := by
  intro input
  have kept (negative : Bool) (input : List UInt8) :
      Confined Rules (keepInteger limit expected (number negative input)) := by
    unfold keepInteger
    repeat' split
    all_goals first
      | trivial
      | exact (confined_number _ _).fault ‹_›
  change Confined Rules (readInteger limit expected input)
  unfold readInteger
  repeat' split
  · trivial
  · exact kept _ _
  · exact kept _ _
  · exact confined_refuse _ _

theorem confined_listTurn (first : Bool) (input : List UInt8) :
    Confined Rules (listTurn first input) := by
  unfold listTurn
  repeat' split
  all_goals trivial

theorem confined_list {item : Reader α} (confined : item.Confined Rules) :
    (list item).Confined Rules := by
  intro input
  have items (first : Bool) (taken : Array α) (input : List UInt8) :
      Json.Confined Rules (itemsAfter item first taken input) := by
    fun_induction itemsAfter item first taken input with
    | case1 => exact (confined_listTurn _ _).fault ‹_›
    | case2 => trivial
    | case3 => exact (confined _).fault ‹_›
    | case4 _ _ _ _ _ _ _ _ _ _ ih => exact ih
  change Json.Confined Rules (readList item input)
  unfold readList
  repeat' split
  · trivial
  · exact items _ _ _
  · exact confined_refuse _ _

/-! ## Records -/

theorem Confined.settle {read : Except Fault α} (confined : Confined Rules read)
    (close : List UInt8 → List UInt8) : Confined Rules (read.mapError (Fault.settle close)) := by
  cases read with
  | ok a => trivial
  | error fault =>
    change (Fault.settle close fault).cause.Confined Rules
    rw [Fault.cause_settle]
    exact confined

namespace Record

variable {r : Record α β}

theorem confined_objectTurn (first : Bool) (input : List UInt8) :
    Confined Rules (objectTurn first input) := by
  unfold objectTurn
  repeat' split
  all_goals trivial

theorem confined_colon (input : List UInt8) : Confined Rules (colon input) := by
  unfold colon
  repeat' split
  all_goals trivial

theorem confined_memberValue {value : Reader α} (confined : value.Confined Rules)
    (input : List UInt8) :
    Json.Confined Rules (memberValue value input) := by
  unfold memberValue
  split
  · exact (confined_colon _).fault ‹_›
  · exact confined _

theorem confined_skipMemberValue (input : List UInt8) : Confined Rules (skipMemberValue input) := by
  unfold skipMemberValue
  split
  · exact (confined_colon _).fault ‹_›
  · exact confined_skipValue _

theorem confined_closeList (input : List UInt8) : Confined Rules (closeList input) := by
  unfold closeList
  repeat' split
  all_goals trivial

theorem confined_complete (seen : Members α β) (rest : List UInt8) :
    Confined Rules (r.complete seen rest) := by
  unfold complete
  split
  all_goals trivial

section

variable (first : r.first.Confined Rules) (second : r.second.Confined Rules)

include first second

theorem confined_member (seen : Members α β) (input : List UInt8) :
    Confined Rules (r.member seen input) := by
  unfold member
  repeat' split
  all_goals first
    | trivial
    | exact (confined_text _).fault ‹_›
    | exact (confined_memberValue first _).fault ‹_›
    | exact (confined_memberValue second _).fault ‹_›
    | exact (confined_skipMemberValue _).fault ‹_›

theorem confined_membersAfter (opening : Bool) (seen : Members α β) (input : List UInt8) :
    Confined Rules (r.membersAfter opening seen input) := by
  fun_induction membersAfter r opening seen input with
  | case1 => exact (confined_objectTurn _ _).fault ‹_›
  | case2 => exact confined_complete _ _
  | case3 => exact (confined_member first second _ _).fault ‹_›
  | case4 _ _ _ _ _ _ _ _ _ _ ih => exact ih

theorem confined_items (input : List UInt8) : Confined Rules (r.items input) := by
  unfold items
  repeat' split
  all_goals first
    | trivial
    | exact (confined_listTurn _ _).fault ‹_›
    | exact (first _).fault ‹_›
    | exact (second _).fault ‹_›
    | exact (confined_closeList _).fault ‹_›

theorem confined_reader : r.reader.Confined Rules := by
  intro input
  change Json.Confined Rules (r.readRecord input)
  unfold readRecord
  repeat' split
  · trivial
  · exact (confined_items first second _).settle _
  · exact (confined_membersAfter first second _ _ _).settle _
  · exact confined_refuse _ _

end

end Record

/-! ## Images -/

/-- Tables report the rules of tables alone. -/
theorem confined_table :
    table.Confined fun rejection => ∃ values, Table.ofArray values = .error rejection :=
  (confined_list ((confined_integer _ _).map _)).check fun refused => ⟨_, refused⟩

theorem confined_config : config.Confined Rules :=
  (Record.confined_reader ((confined_integer _ _).map _) ((confined_integer _ _).map _)).map _

/-- The parts of an image report the rules of tables alone, until they are held to each other. -/
theorem confined_parts :
    imageRecord.reader.Confined fun rejection =>
      ∃ values, Table.ofArray values = .error rejection :=
  Record.confined_reader confined_config confined_table

end TableSearch.Json
