import TraceLint.Moment.Basic
import TraceLint.Number.Style
import TraceLint.Text.Quoted

/-! Keys of maps whose keys are not all texts. -/
namespace TraceLint

def Text.hexadecimal (n : Nat) : Text := text "0x" ++ Text.hex 1 n

inductive Key where
  | null
  | bool (b : Bool)
  /-- A binary64 number by its bit pattern. -/
  | float64 (bits : UInt64)
  | int (n : Int)
  | text (s : Text)
  /-- An integer beyond the ordinary ones. -/
  | uint (n : Nat)
  | moment (m : Moment)
deriving DecidableEq

namespace Key

def isNaN : Key → Bool
  | .float64 bits => 0x7ff0000000000000 < bits &&& 0x7fffffffffffffff
  | _ => false

/-- Whether two keys name one entry. Zero has one entry whatever its sign, and what is not a number
has an entry of its own each time. -/
def same : Key → Key → Bool
  | .float64 a, .float64 b =>
    (a = b && !isNaN (.float64 a)) || (a ||| b) &&& 0x7fffffffffffffff = 0
  | a, b => a = b

/-- A number that grows with the binary64 number of a bit pattern. -/
def floatRank (bits : UInt64) : Int :=
  let magnitude : Int := (bits &&& 0x7fffffffffffffff).toNat
  if bits < 0x8000000000000000 then magnitude else -magnitude

def kindRank : Key → Nat
  | .null => 0
  | .bool _ => 1
  | .float64 _ => 2
  | .int _ => 3
  | .text _ => 4
  | .uint _ => 5
  | .moment _ => 6

/-- The order in which the entries of a map are shown: by kind, then by size. -/
def less : Key → Key → Bool
  | .bool a, .bool b => !a && b
  | .float64 a, .float64 b =>
    if isNaN (.float64 a) then !isNaN (.float64 b)
    else !isNaN (.float64 b) && floatRank a < floatRank b
  | .int a, .int b => a < b
  | .text a, .text b => Text.lt a b
  | .uint a, .uint b => a < b
  | .moment a, .moment b => a.nanos < b.nanos || (a.nanos = b.nanos && a.seconds < b.seconds)
  | a, b => a.kindRank < b.kindRank

/-- A key as it reads inside a sentence. -/
def shown : Key → Text
  | .null => TraceLint.text "<nil>"
  | .bool b => TraceLint.text (if b then "true" else "false")
  | .float64 bits => Number.Style.message.write Number.binary64 bits.toNat
  | .int n => Text.ofInt n
  | .text s => s
  | .uint n => Text.ofNat n
  | .moment m => m.shown

/-- A key with its type made visible. -/
def spelled : Key → Text
  | .null => TraceLint.text "interface \x7b\x7d(nil)"
  | .bool b => TraceLint.text (if b then "true" else "false")
  | .float64 bits => Number.Style.message.write Number.binary64 bits.toNat
  | .int n => Text.ofInt n
  | .text s => Text.quoted s
  | .uint n => Text.hexadecimal n
  | .moment m => m.spelled

end Key

end TraceLint
