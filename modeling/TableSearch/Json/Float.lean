import TableSearch.Decimal.Shortest

/-!
# Floating-point numbers

A number with a fraction or an exponent, or too large for a word, is held as a 64-bit
floating-point number. It is its significant digits, multiplied or divided once by a power of ten
up to 10 to the 308th; smaller numbers are divided by that power first, and larger ones have no
value. It is shown in the fewest digits that read back.
-/

namespace TableSearch.Json

/-- A power of ten, up to the 308th. -/
def powerOfTen (exponent : Nat) : Float := Float.ofScientific 1 false exponent

/-- The number times a power of ten, if it is not too large to be held. -/
def scale? (x : Float) (exponent : Int) : Option Float :=
  if exponent.natAbs ≤ 308 then
    if 0 ≤ exponent then
      let product := x * powerOfTen exponent.natAbs
      if product.isInf then none else some product
    else some (x / powerOfTen exponent.natAbs)
  else if x == 0 then some x
  else if 0 ≤ exponent then none
  else scale? (x / powerOfTen 308) (exponent + 308)
termination_by exponent.natAbs
decreasing_by omega

/-- The number of a sign, significant digits and a power of ten, if it is not too large to be
held. -/
def float? (negative : Bool) (significand : Nat) (exponent : Int) : Option Float :=
  (scale? (UInt64.ofNat significand).toFloat exponent).map fun x => if negative then -x else x

/-- A floating-point number in the fewest digits that read back. Numbers from 0.00001 up to, but
not including, 10 to the 16th stand without an exponent and with at least one decimal place. -/
def floatText (x : Float) : String :=
  let bits := x.toBits
  let sign := if bits >>> 63 = 0 then "" else "-"
  if bits <<< 1 = 0 then sign ++ "0.0"
  else
    let (multiplier, place) := Decimal.shortest (.ofBits bits)
    let digits := Nat.toDigits 10 multiplier
    let exponent : Int := place + digits.length - 1
    let body :=
      if exponent < -5 ∨ 15 < exponent then
        let mark := if exponent < 0 then "e-" else "e+"
        String.ofList (digits.take 1) ++
          (if digits.length = 1 then "" else "." ++ String.ofList (digits.drop 1)) ++
          mark ++ toString exponent.natAbs
      else if exponent < 0 then
        "0." ++ String.ofList (List.replicate (exponent.natAbs - 1) '0' ++ digits)
      else if 0 ≤ place then
        String.ofList (digits ++ List.replicate place.toNat '0') ++ ".0"
      else
        String.ofList (digits.take (exponent.toNat + 1)) ++ "." ++
          String.ofList (digits.drop (exponent.toNat + 1))
    sign ++ body

end TableSearch.Json
