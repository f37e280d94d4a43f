import Scribe.Json.Value

/-! The integers among the numbers that are stored in double precision. -/
namespace Scribe
namespace Json

/-- The quotient rounded to the nearest integer, a half to the even one. -/
def roundDiv (n d : Nat) : Nat :=
  let q := n / d
  let twice := 2 * (n % d)
  if twice < d then q
  else if d < twice then q + 1
  else if q % 2 = 0 then q else q + 1

/-- The power of two of the first bit of `n / d`. -/
def firstBit (n d : Nat) : Int :=
  let l : Int := (Nat.log2 n : Int) - Nat.log2 d
  if n * Nat.pow 2 (-l).toNat < d * Nat.pow 2 l.toNat then l - 1 else l

/-- The integer that is stored for `n / d` in 53 bits, if what is stored is an integer. -/
def storedInteger? (n d : Nat) : Option Nat :=
  let unit : Int := max (-1074) (firstBit n d - 52)
  if 0 ≤ unit then some (roundDiv n (d * Nat.pow 2 unit.toNat) * Nat.pow 2 unit.toNat)
  else
    let scale := Nat.pow 2 (-unit).toNat
    let m := roundDiv (n * scale) d
    if m % scale = 0 then some (m / scale) else none

/-- The integer of 64 bits that a number counts as, if it counts as one. Numbers far
outside of what can be stored are not worked out. -/
def Number.int64? : Number → Option Int
  | .integer value => if -Nat.pow 2 63 ≤ value && value < Nat.pow 2 63 then some value else none
  | .decimal negative mantissa exponent =>
    let magnitude : Int := (Nat.toDigits 10 mantissa).length + exponent
    if mantissa = 0 || magnitude < -400 then some 0
    else if 400 < magnitude then none
    else
      match storedInteger? (mantissa * Nat.pow 10 exponent.toNat) (Nat.pow 10 (-exponent).toNat) with
      | some m => if m < Nat.pow 2 63 then some (if negative then -(m : Int) else m) else none
      | none => none
  | .infinity _ => none
  | .undefined => none

end Json
end Scribe
