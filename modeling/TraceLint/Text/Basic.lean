/-! Text as bytes. Names, descriptors, formats and messages come from class files and need not be
valid UTF-8, so length, order and search are bytewise. -/
namespace TraceLint

abbrev Text := List UInt8

/-- The UTF-8 bytes of a string. -/
def text (s : String) : Text := s.toUTF8.data.toList

theorem text_inj {a b : String} : text a = text b ↔ a = b := by
  constructor
  · intro same
    exact String.toByteArray_inj.mp (ByteArray.ext (Array.ext' same))
  · exact congrArg text

def byte (c : Char) : UInt8 := c.toNat.toUInt8

namespace Text

def ofNat (n : Nat) : Text := (Nat.toDigits 10 n).map byte

/-- The decimal digits of an integer, with a leading `-` below zero. -/
def ofInt (n : Int) : Text :=
  if n < 0 then byte '-' :: ofNat n.natAbs else ofNat n.natAbs

/-- Lower-case hexadecimal digits of `n`, padded with zeros to `width`. -/
def hex (width n : Nat) : Text :=
  let digits := (Nat.toDigits 16 n).map byte
  List.replicate (width - digits.length) (byte '0') ++ digits

/-- The parts of a text before and after the first occurrence of a byte. -/
def cut (b : UInt8) : Text → Option (Text × Text)
  | [] => none
  | c :: rest =>
    if c = b then some ([], rest)
    else (cut b rest).map fun (before, after) => (c :: before, after)

/-- The pieces between the occurrences of a byte; one more than there are occurrences. -/
def splitOn (b : UInt8) : Text → List Text
  | [] => [[]]
  | c :: rest =>
    if c = b then [] :: splitOn b rest
    else match splitOn b rest with
      | [] => [[c]]
      | piece :: pieces => (c :: piece) :: pieces

/-- Texts one after another with a separator between neighbours. -/
def join (separator : Text) : List Text → Text
  | [] => []
  | [piece] => piece
  | piece :: pieces => piece ++ separator ++ join separator pieces

/-- Bytewise lexicographic order. -/
def lt (a b : Text) : Bool := decide (a < b)

def sort (xs : List Text) : List Text := xs.mergeSort fun a b => !lt b a

theorem sort_ordered (texts : List Text) : (sort texts).Pairwise (· ≤ ·) := by
  have le_iff (x y : Text) : (!lt y x) = true ↔ x ≤ y := by
    rw [Bool.not_eq_true', lt, decide_eq_false_iff_not]
    exact List.not_lt
  refine (List.pairwise_mergeSort ?_ ?_ texts).imp fun {x y} => (le_iff x y).mp
  · intro x y z first second
    exact (le_iff x z).mpr (List.le_trans ((le_iff x y).mp first) ((le_iff y z).mp second))
  · intro x y
    rw [Bool.or_eq_true, le_iff, le_iff]
    exact List.le_total x y

def isDigit (b : UInt8) : Bool := byte '0' ≤ b && b ≤ byte '9'

def isUpper (b : UInt8) : Bool := byte 'A' ≤ b && b ≤ byte 'Z'

def isLower (b : UInt8) : Bool := byte 'a' ≤ b && b ≤ byte 'z'

/-- The value of a hexadecimal digit of either case. -/
def hexValue? (b : UInt8) : Option Nat :=
  if isDigit b then some (b - byte '0').toNat
  else if byte 'a' ≤ b && b ≤ byte 'f' then some ((b - byte 'a').toNat + 10)
  else if byte 'A' ≤ b && b ≤ byte 'F' then some ((b - byte 'A').toNat + 10)
  else none

/-- The number that a run of decimal digits denotes; anything but a digit counts as the distance of
its byte from `0`. -/
def digitsValue (digits : Text) : Nat := digits.foldl (fun n d => 10 * n + (d - byte '0').toNat) 0

end Text

end TraceLint
