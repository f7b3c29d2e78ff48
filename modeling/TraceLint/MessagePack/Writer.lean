import TraceLint.MessagePack.Basic

/-! Writing MessagePack. -/
namespace TraceLint.MessagePack

/-- The last `count` base-256 digits of a number, the most significant first. -/
def digits : Nat → Nat → Text
  | 0, _ => []
  | count + 1, n => digits count (n / 256) ++ [(n % 256).toUInt8]

/-- The same in two's complement. -/
def signedDigits (count : Nat) (n : Int) : Text :=
  digits count (n % (Number.twoTo (8 * count) : Nat)).toNat

/-- The shortest encoding of an integer. -/
def shortest (n : Int) : Text :=
  if 0 ≤ n then
    if n < 0x80 then digits 1 n.toNat
    else if n < 0x100 then 0xcc :: digits 1 n.toNat
    else if n < 0x10000 then 0xcd :: digits 2 n.toNat
    else if n < 0x100000000 then 0xce :: digits 4 n.toNat
    else 0xcf :: digits 8 n.toNat
  else if -0x20 ≤ n then signedDigits 1 n
  else if -0x80 ≤ n then 0xd0 :: signedDigits 1 n
  else if -0x8000 ≤ n then 0xd1 :: signedDigits 2 n
  else if -0x80000000 ≤ n then 0xd2 :: signedDigits 4 n
  else 0xd3 :: signedDigits 8 n

/-- The head of a text of so many bytes. -/
def textHead (n : Nat) : Text :=
  if n < 0x20 then [(0xa0 + n).toUInt8]
  else if n < 0x100 then 0xd9 :: digits 1 n
  else if n < 0x10000 then 0xda :: digits 2 n
  else 0xdb :: digits 4 n

def bytesHead (n : Nat) : Text :=
  if n < 0x100 then 0xc4 :: digits 1 n
  else if n < 0x10000 then 0xc5 :: digits 2 n
  else 0xc6 :: digits 4 n

def arrayHead (n : Nat) : Text :=
  if n < 0x10 then [(0x90 + n).toUInt8]
  else if n < 0x10000 then 0xdc :: digits 2 n
  else 0xdd :: digits 4 n

def mapHead (n : Nat) : Text :=
  if n < 0x10 then [(0x80 + n).toUInt8]
  else if n < 0x10000 then 0xde :: digits 2 n
  else 0xdf :: digits 4 n

def writeText (s : Text) : Text := textHead s.length ++ s

/-- A moment, in the shortest of three forms: seconds alone, seconds with nanoseconds in eight
bytes, or in twelve. -/
def writeMoment (m : Moment) : Text :=
  if 0 ≤ m.seconds && m.seconds < (Number.twoTo 34 : Nat) then
    let packed := m.nanos * Number.twoTo 34 + m.seconds.toNat
    if packed < Number.twoTo 32 then 0xd6 :: 0xff :: digits 4 packed
    else 0xd7 :: 0xff :: digits 8 packed
  else 0xc7 :: 12 :: 0xff :: digits 4 m.nanos ++ signedDigits 8 m.seconds

namespace Item

mutual

def write : Item → Text
  | .null => [0xc0]
  | .bool b => [if b then 0xc3 else 0xc2]
  | .int .word n => shortest n
  | .int .bits8 n => 0xd0 :: signedDigits 1 n
  | .int .bits16 n => 0xd1 :: signedDigits 2 n
  | .int .bits32 n => 0xd2 :: signedDigits 4 n
  | .int .bits64 n => 0xd3 :: signedDigits 8 n
  | .uint .word n => shortest n
  | .uint .bits8 n => 0xcc :: digits 1 n
  | .uint .bits16 n => 0xcd :: digits 2 n
  | .uint .bits32 n => 0xce :: digits 4 n
  | .uint .bits64 n => 0xcf :: digits 8 n
  | .float32 bits => 0xca :: digits 4 bits.toNat
  | .float64 bits => 0xcb :: digits 8 bits.toNat
  | .str s => writeText s
  | .bin b => bytesHead b.length ++ b
  | .moment m => writeMoment m
  | .array items => arrayHead items.length ++ writeItems items
  | .map entries => mapHead entries.length ++ writeEntries entries

def writeItems : List Item → Text
  | [] => []
  | i :: rest => i.write ++ writeItems rest

def writeEntries : List (Item × Item) → Text
  | [] => []
  | (key, i) :: rest => key.write ++ i.write ++ writeEntries rest

end

end Item

end TraceLint.MessagePack
