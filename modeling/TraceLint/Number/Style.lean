import TraceLint.Number.Shortest
import TraceLint.Text.Basic

/-! How floating-point numbers are written: positional for exponents in a range, with an exponent
mark outside it. -/
namespace TraceLint.Number

/-- The decisions of one written form. -/
structure Style where
  /-- The least exponent of the first digit that is written positionally. -/
  least : Int
  /-- Exponents from here on are written with a mark. -/
  bound : Int
  /-- The least number of digits after the mark. -/
  exponentWidth : Nat

/-- Numbers in messages: positional from `0.0001` to below a million. -/
def Style.message : Style := ⟨-4, 6, 2⟩

/-- Numbers in JSON text: positional from `1e-6` to below `1e21`. -/
def Style.json : Style := ⟨-6, 21, 1⟩

def digitByte (d : Nat) : UInt8 := (d + 48).toUInt8

namespace Decimal

def exponent (x : Decimal) : Int := x.point - 1

def positional (x : Decimal) : Text :=
  let digits := x.digits.map digitByte
  if x.point ≤ 0 then text "0." ++ List.replicate (-x.point).toNat (byte '0') ++ digits
  else
    let whole := digits.take x.point.toNat
    let zeros := List.replicate (x.point.toNat - digits.length) (byte '0')
    match digits.drop x.point.toNat with
    | [] => whole ++ zeros
    | fraction => whole ++ byte '.' :: fraction

/-- One digit, the others after a point, and the exponent after a mark. -/
def marked (width : Nat) (x : Decimal) : Text :=
  let digits := x.digits.map digitByte
  let mantissa := match digits with
    | first :: second :: rest => first :: byte '.' :: second :: rest
    | short => short
  let sign := if x.exponent < 0 then byte '-' else byte '+'
  let places := Text.ofNat x.exponent.natAbs
  mantissa ++ byte 'e' :: sign :: List.replicate (width - places.length) (byte '0') ++ places

end Decimal

/-- A finite or infinite number in a style. -/
def Style.write (style : Style) (l : Layout) (bits : Nat) : Text :=
  match l.decode bits with
  | .nan => text "NaN"
  | .infinite negative => if negative then text "-Inf" else text "+Inf"
  | .finite negative significand exponent =>
    let magnitude :=
      if significand = 0 then text "0"
      else
        let x := l.shortest significand exponent
        if style.least ≤ x.exponent && x.exponent < style.bound then x.positional
        else x.marked style.exponentWidth
    if negative then byte '-' :: magnitude else magnitude

end TraceLint.Number
