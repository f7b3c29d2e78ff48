import TraceLint.Number.Binary
import TraceLint.Text.Basic

/-! Decimal literals such as `-12.5e3`, and the binary numbers nearest to them. -/
namespace TraceLint.Number

/-- The number `± digits · 10 ^ exponent`. -/
structure Literal where
  negative : Bool
  digits : Nat
  exponent : Int
deriving DecidableEq

def signed : Text → Bool × Text
  | [] => (false, [])
  | b :: rest =>
    if b = byte '-' then (true, rest)
    else if b = byte '+' then (false, rest)
    else (false, b :: rest)

/-- Reads a literal: sign, digits with or without a point, and an exponent after `e` or `E`. What is
not of this form is cut off. -/
def Literal.ofText (s : Text) : Literal :=
  let (negative, s) := signed s
  let whole := s.takeWhile Text.isDigit
  let s := s.drop whole.length
  let fraction := match s with
    | b :: rest => if b = byte '.' then rest.takeWhile Text.isDigit else []
    | [] => []
  let s := s.drop (if s.head? = some (byte '.') then fraction.length + 1 else 0)
  let exponent : Int := match s with
    | b :: rest =>
      if b = byte 'e' || b = byte 'E' then
        let (below, digits) := signed rest
        let n : Int := Text.digitsValue (digits.takeWhile Text.isDigit)
        if below then -n else n
      else 0
    | [] => 0
  ⟨negative, Text.digitsValue (whole ++ fraction), exponent - fraction.length⟩

/-- The bit pattern nearest to a literal; `none` when it lies beyond the largest finite number. -/
def Layout.ofLiteral? (l : Layout) (x : Literal) : Option Nat :=
  (l.nearestDecimal? x.digits x.exponent).map (l.withSign x.negative)

def float64? (x : Literal) : Option UInt64 := (binary64.ofLiteral? x).map Nat.toUInt64

end TraceLint.Number
