/-!
# Shortest decimal digits

A binary floating-point number stands for every real number that is nearer to it than to its
neighbours. Among the decimals in that range, the one on the coarsest decimal grid has the fewest
digits; of two on the same grid the nearer one is taken, and of two equally near ones the even
one. All comparisons are between natural numbers, so nothing is lost on the way.
-/

namespace TableSearch.Decimal

/-- A positive binary number `mantissa * 2 ^ exponent`. -/
structure Magnitude where
  mantissa : Nat
  exponent : Int
  /-- The next smaller number is only half as far away as the next larger one. -/
  narrow : Bool

/-- The number in the low 63 bits of a 64-bit floating-point number. -/
def Magnitude.ofBits (bits : UInt64) : Magnitude :=
  let fraction := (bits &&& 0xFFFFFFFFFFFFF).toNat
  let exponent := (bits >>> 52 &&& 0x7FF).toNat
  if exponent = 0 then ⟨fraction, -1074, false⟩
  else ⟨0x10000000000000 + fraction, (exponent : Int) - 1075, fraction = 0 ∧ 1 < exponent⟩

/-- A power as a fraction of natural numbers. -/
def power (base : Nat) (exponent : Int) : Nat × Nat :=
  (base.pow exponent.toNat, base.pow (-exponent).toNat)

/-- The multiple of `10 ^ place` nearest to the number, as a multiplier, if it is one of the
decimals that stand for the number. Ends of the range belong to it if the mantissa is even. -/
def pointOnGrid? (number : Magnitude) (place : Int) : Option Nat :=
  let (twos, halves) := power 2 (number.exponent - 2)
  let (tens, tenths) := power 10 place
  -- All quantities below are multiplied by `halves * tenths`.
  let value := 4 * number.mantissa * twos * tenths
  let above := 2 * twos * tenths
  let under := (if number.narrow then 1 else 2) * twos * tenths
  let unit := tens * halves
  let inside (point : Nat) : Bool :=
    point ≠ 0 &&
      (if number.mantissa % 2 = 0 then value ≤ point * unit + under && point * unit ≤ value + above
        else value < point * unit + under && point * unit < value + above)
  let down := value / unit
  let up := down + 1
  let toDown := value - down * unit
  let toUp := up * unit - value
  let upFirst := toUp < toDown || (toUp = toDown && up % 2 = 0)
  let (first, second) := if upFirst then (up, down) else (down, up)
  if inside first then some first else if inside second then some second else none

/-- The decimal with the fewest digits that stands for the number, as a multiplier and the place
that it multiplies. -/
def shortest (number : Magnitude) : Nat × Int :=
  ((List.range 640).findSome? fun (step : Nat) =>
    let place : Int := 309 - (step : Int)
    (pointOnGrid? number place).map (·, place)).getD (0, 0)

end TableSearch.Decimal
