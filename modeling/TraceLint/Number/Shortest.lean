import TraceLint.Number.Binary

/-! The shortest decimal that reads back as a given binary number: the fewest digits, and of those
the nearest to the number. -/
namespace TraceLint.Number

/-- The decimal `0.d₁d₂…dₙ · 10 ^ point`, with `d₁` not zero. -/
structure Decimal where
  digits : List Nat
  point : Int
deriving DecidableEq

/-- The decimal digits of a number without its trailing zeros, and the place of the last digit. -/
def Decimal.ofUnits (n : Nat) (place : Int) : Decimal :=
  let all := (Nat.toDigits 10 n).map fun c => c.toNat - '0'.toNat
  ⟨(all.reverse.dropWhile (· == 0)).reverse, all.length + place⟩

/-- The reals that round to one binary number, as multiples of `1 / scale`. -/
structure Neighbourhood where
  low : Nat
  value : Nat
  high : Nat
  scale : Nat
  /-- Whether the ends belong to it. -/
  closed : Bool

/-- The neighbourhood of `significand · 2 ^ exponent`. Below a power of two the numbers lie twice as
close, so its lower end is half as far. -/
def Layout.neighbourhood (l : Layout) (significand : Nat) (exponent : Int) : Neighbourhood :=
  let below := if significand = twoTo l.fractionBits ∧ l.least < exponent then 1 else 2
  let (factor, scale) := inUnits 1 1 (2 - exponent)
  ⟨(4 * significand - below) * factor, 4 * significand * factor, (4 * significand + 2) * factor,
    scale, significand % 2 == 0⟩

/-- The power of ten of the first digit of `n / d`. -/
def leadingPlace (n d : Nat) : Int :=
  if d ≤ n then (Nat.toDigits 10 (n / d)).length - 1
  else
    let rec search : Nat → Nat → Nat → Int
      | 0, k, _ => -k
      | fuel + 1, k, m => if d ≤ m then -k else search fuel (k + 1) (m * 10)
    search 400 1 (n * 10)

/-- The multiple of `10 ^ place` inside the neighbourhood that is nearest to its value, if one of
the two next to the value is inside; a tie goes to the even one. -/
def Neighbourhood.onGrid? (h : Neighbourhood) (place : Int) : Option Nat :=
  let up := tenTo (-place).toNat
  let unit := h.scale * tenTo place.toNat
  let d := h.value * up / unit
  let inside (x : Nat) : Bool :=
    if h.closed then h.low * up ≤ x && x ≤ h.high * up else h.low * up < x && x < h.high * up
  let short := inside (d * unit)
  let long := inside ((d + 1) * unit)
  let down := h.value * up - d * unit
  let rise := (d + 1) * unit - h.value * up
  if short && long then some (if down < rise || (down == rise && d % 2 == 0) then d else d + 1)
  else if short then some d
  else if long then some (d + 1)
  else none

/-- The shortest decimal for the positive number `significand · 2 ^ exponent`. Seventeen digits
always suffice for the formats above. -/
def Layout.shortest (l : Layout) (significand : Nat) (exponent : Int) : Decimal :=
  let h := l.neighbourhood significand exponent
  let lead := leadingPlace h.value h.scale
  let rec search : Nat → Int → Decimal
    | 0, place => .ofUnits (h.value * tenTo (-place).toNat / (h.scale * tenTo place.toNat)) place
    | more + 1, place =>
      match h.onGrid? place with
      | some n => .ofUnits n place
      | none => search more (place - 1)
  search 17 lead

end TraceLint.Number
