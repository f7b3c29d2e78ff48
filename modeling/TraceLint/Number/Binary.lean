import TraceLint.Number.Power

/-! Binary floating-point numbers by their bit patterns, in exact arithmetic. -/
namespace TraceLint.Number

/-- A binary interchange format, by the widths of its fraction and exponent fields. -/
structure Layout where
  fractionBits : Nat
  exponentBits : Nat
deriving DecidableEq

def binary64 : Layout := ⟨52, 11⟩

def binary32 : Layout := ⟨23, 8⟩

namespace Layout

def precision (l : Layout) : Nat := l.fractionBits + 1

/-- The weight of the last bit of a subnormal number is two to this power. -/
def least (l : Layout) : Int := 2 - twoTo (l.exponentBits - 1) - l.fractionBits

end Layout

inductive Datum where
  | nan
  | infinite (negative : Bool)
  /-- The number `± significand · 2 ^ exponent`. -/
  | finite (negative : Bool) (significand : Nat) (exponent : Int)
deriving DecidableEq

def Layout.decode (l : Layout) (bits : Nat) : Datum :=
  let fraction := bits % twoTo l.fractionBits
  let field := bits / twoTo l.fractionBits % twoTo l.exponentBits
  let negative := bits / twoTo (l.fractionBits + l.exponentBits) % 2 == 1
  if field = twoTo l.exponentBits - 1 then
    if fraction = 0 then .infinite negative else .nan
  else if field = 0 then .finite negative fraction l.least
  else .finite negative (twoTo l.fractionBits + fraction) (l.least + field - 1)

/-- A quotient rounded to the nearest integer, a half to the even neighbour. -/
def roundDiv (n d : Nat) : Nat :=
  let q := n / d
  let r := n % d
  if d < 2 * r || (2 * r == d && q % 2 == 1) then q + 1 else q

/-- The fraction `n / d` in units of `2 ^ e`, again as a fraction. -/
def inUnits (n d : Nat) (e : Int) : Nat × Nat :=
  if 0 ≤ e then (n, d * twoTo e.toNat) else (n * twoTo (-e).toNat, d)

/-- The bit pattern nearest to the positive fraction `n / d`, a half to the even neighbour; `none`
when it lies beyond the largest finite number. -/
def Layout.nearest? (l : Layout) (n d : Nat) : Option Nat :=
  if n = 0 then some 0
  else
    let guess := max l.least ((Nat.log2 n : Int) - Nat.log2 d - l.precision)
    let (n₀, d₀) := inUnits n d guess
    let unit := if n₀ / d₀ < twoTo l.precision then guess else guess + 1
    let (n₁, d₁) := inUnits n d unit
    let m := roundDiv n₁ d₁
    let (m, unit) := if m = twoTo l.precision then (twoTo l.fractionBits, unit + 1) else (m, unit)
    if m < twoTo l.fractionBits then some m
    else
      let field := (unit - l.least).toNat + 1
      if field < twoTo l.exponentBits - 1 then
        some (field * twoTo l.fractionBits + (m - twoTo l.fractionBits))
      else none

/-- The bit pattern nearest to `digits · 10 ^ exponent`. -/
def Layout.nearestDecimal? (l : Layout) (digits : Nat) (exponent : Int) : Option Nat :=
  let size : Int := (Nat.toDigits 10 digits).length + exponent
  if digits = 0 || size < -400 then some 0
  else if 400 < size then none
  else if 0 ≤ exponent then l.nearest? (digits * tenTo exponent.toNat) 1
  else l.nearest? digits (tenTo (-exponent).toNat)

/-- The bit pattern of a number and of its negation differ in the sign bit. -/
def Layout.withSign (l : Layout) (negative : Bool) (magnitude : Nat) : Nat :=
  if negative then magnitude + twoTo (l.fractionBits + l.exponentBits) else magnitude

end TraceLint.Number
