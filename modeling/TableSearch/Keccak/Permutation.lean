/-!
# The permutation Keccak-f[1600]

The state is twenty-five 64-bit lanes, the lane of column `x` and row `y` at position `x + 5 * y`.
A round mixes columns (`theta`), rotates each lane and moves it (`rhoPi`), combines each lane with
the next two of its row (`chi`) and marks the first lane with a constant of the round (`iota`).
Twenty-four rounds make the permutation.
-/

namespace TableSearch.Keccak

/-- Twenty-five lanes. -/
abbrev State : Type := Vector UInt64 25

/-- A lane rotated towards its high end. Shifts count modulo 64, so that a rotation by no place
joins the lane with itself. -/
def rotate (lane : UInt64) (places : UInt64) : UInt64 :=
  (lane <<< places) ||| (lane >>> (64 - places))

/-- How far the lane at each position is rotated. -/
def rotations : Vector UInt64 25 :=
  #v[0, 1, 62, 28, 27,
     36, 44, 6, 55, 20,
     3, 10, 43, 25, 39,
     41, 45, 15, 21, 8,
     18, 2, 61, 56, 14]

/-- The mark of each round. -/
def roundConstants : List UInt64 :=
  [0x0000000000000001, 0x0000000000008082, 0x800000000000808a, 0x8000000080008000,
   0x000000000000808b, 0x0000000080000001, 0x8000000080008081, 0x8000000000008009,
   0x000000000000008a, 0x0000000000000088, 0x0000000080008009, 0x000000008000000a,
   0x000000008000808b, 0x800000000000008b, 0x8000000000008089, 0x8000000000008003,
   0x8000000000008002, 0x8000000000000080, 0x000000000000800a, 0x800000008000000a,
   0x8000000080008081, 0x8000000000008080, 0x0000000080000001, 0x8000000080008008]

/-- The lane of column `x` and row `y`, both taken modulo five. -/
def laneAt (s : State) (x y : Nat) : UInt64 :=
  have : x % 5 + 5 * (y % 5) < 25 := by omega
  s[x % 5 + 5 * (y % 5)]

/-- The sum of a column. -/
def parity (s : State) (x : Nat) : UInt64 :=
  laneAt s x 0 ^^^ laneAt s x 1 ^^^ laneAt s x 2 ^^^ laneAt s x 3 ^^^ laneAt s x 4

/-- Adds to each lane the sums of the columns on both sides of it, one of them rotated. -/
def theta (s : State) : State :=
  let sums : Vector UInt64 5 := Vector.ofFn fun x => parity s x
  let mix : Vector UInt64 5 := Vector.ofFn fun x => sums[(x.val + 4) % 5] ^^^ rotate sums[(x.val + 1) % 5] 1
  Vector.ofFn fun i => s[i] ^^^ mix[i.val % 5]

/-- Rotates each lane and moves it: the lane of column `x` and row `y` comes from row `x`. -/
def rhoPi (s : State) : State :=
  Vector.ofFn fun i =>
    let x := i.val % 5
    let source := (x + 3 * (i.val / 5)) % 5 + 5 * x
    have : source < 25 := by omega
    rotate s[source] rotations[source]

/-- Combines each lane with the next two of its row. -/
def chi (s : State) : State :=
  Vector.ofFn fun i =>
    s[i] ^^^ (~~~ laneAt s (i + 1) (i / 5) &&& laneAt s (i + 2) (i / 5))

/-- Marks the first lane. -/
def iota (constant : UInt64) (s : State) : State := s.set 0 (s[0] ^^^ constant)

/-- One round. -/
def round (s : State) (constant : UInt64) : State := iota constant (chi (rhoPi (theta s)))

/-- The permutation, twenty-four rounds. -/
def permute (s : State) : State := roundConstants.foldl round s

end TableSearch.Keccak
