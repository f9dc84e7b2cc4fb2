/-!
# Why values and constants do not make an image

Each cause carries the numbers that its message shows. Sizes and positions are natural numbers,
since they are counted before anything is known to fit a machine word.
-/

namespace TableSearch

/-- A rule that a table or an image breaks. -/
inductive Rejection where
  /-- There is no value to search. -/
  | emptyTable
  /-- More values than a 32-bit index can tell apart. -/
  | tableTooLarge (size : Nat)
  /-- The value at `index` is smaller than the one before it, and no earlier value is. -/
  | unsorted (index : Nat)
  /-- The search bound is neither the size of the table nor one less. -/
  | rightOutOfRange (right : UInt32) (size : Nat)
  /-- The answer for an absent target is also the index of a value. -/
  | sentinelCollision (failed : UInt32) (size : Nat)
  deriving DecidableEq

/-- The text that reports the broken rule. -/
def Rejection.message : Rejection → String
  | emptyTable => "Search table is empty"
  | tableTooLarge size =>
    s!"Search table has {size} entries, more than a u32 index can address"
  | unsorted index =>
    s!"Search table is not sorted: element {index} is smaller than its predecessor"
  | rightOutOfRange right size =>
    s!"RIGHT bound {right} must equal table length {size} or one less"
  | sentinelCollision failed size =>
    s!"FAILED sentinel {failed} collides with a valid index (table length {size})"

end TableSearch
