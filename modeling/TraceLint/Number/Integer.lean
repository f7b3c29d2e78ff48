import TraceLint.Number.Literal

/-! Integer literals with the base in a leading `0x`, `0o`, `0b` or `0`. -/
namespace TraceLint.Number

/-- The number that digits of a base denote; `none` for no digits or a digit beyond the base. -/
def digits? (base : Nat) (s : Text) : Option Nat :=
  if s = [] then none
  else s.foldlM (fun n b => (Text.hexValue? b).bind fun d =>
    if d < base then some (n * base + d) else none) 0

/-- The base of an unsigned literal and its digits. -/
def baseOf : Text → Nat × Text
  | [z] => (10, [z])
  | z :: mark :: rest =>
    if z = byte '0' then
      if rest ≠ [] && (mark = byte 'x' || mark = byte 'X') then (16, rest)
      else if rest ≠ [] && (mark = byte 'o' || mark = byte 'O') then (8, rest)
      else if rest ≠ [] && (mark = byte 'b' || mark = byte 'B') then (2, rest)
      else (8, mark :: rest)
    else (10, z :: mark :: rest)
  | [] => (10, [])

def magnitude? (s : Text) : Option Nat :=
  let (base, digits) := baseOf s
  digits? base digits

def integer? (s : Text) : Option Int :=
  let (negative, s) := signed s
  (magnitude? s).map fun n => if negative then -(n : Int) else n

/-- The value of a literal in a given base that may have a sign. -/
def integerIn? (base : Nat) (s : Text) : Option Int :=
  let (negative, s) := signed s
  (digits? base s).map fun n => if negative then -(n : Int) else n

def least64 : Int := -9223372036854775808

def greatest64 : Int := 9223372036854775807

def fits64 (n : Int) : Bool := least64 ≤ n && n ≤ greatest64

inductive IntegerFault where
  | malformed
  /-- The nearest integer of 64 bits. -/
  | outOfRange (nearest : Int)
deriving DecidableEq

/-- Whether underscores stand only between digits, or between the mark of the base and a digit. The
flag tells whether an underscore may come next. -/
def underscoresSeparate (hex : Bool) : (allowed : Bool) → Text → Bool
  | _, [] => true
  | allowed, b :: rest =>
    if b = byte '_' then
      let digitNext := rest.head?.any fun d => Text.isDigit d || (hex && (Text.hexValue? d).isSome)
      allowed && digitNext && underscoresSeparate hex false rest
    else underscoresSeparate hex (Text.isDigit b || (hex && (Text.hexValue? b).isSome)) rest

/-- The digits of a base up to the first that is none or makes the number exceed 64 bits. -/
def magnitude64 (base : Nat) (n : Nat) : Text → Except IntegerFault Nat
  | [] => .ok n
  | b :: rest =>
    if b = byte '_' then magnitude64 base n rest
    else match Text.hexValue? b with
      | none => .error .malformed
      | some d =>
        if base ≤ d then .error .malformed
        else if twoTo 64 ≤ n * base + d then .error (.outOfRange (twoTo 64))
        else magnitude64 base (n * base + d) rest

/-- The integer of a literal with an optional sign and base; single underscores may separate
digits. -/
def integer64 (s : Text) : Except IntegerFault Int :=
  let (negative, s) := signed s
  let (base, digits) := baseOf s
  let marked := base ≠ 10 && digits.length + 2 = s.length
  let bounded (n : Int) : Except IntegerFault Int :=
    let n := if negative then -n else n
    if n < least64 then .error (.outOfRange least64)
    else if greatest64 < n then .error (.outOfRange greatest64)
    else .ok n
  if s = [] then .error .malformed
  else match magnitude64 base 0 digits with
    | .error .malformed => .error .malformed
    | .error (.outOfRange n) => bounded n
    | .ok n =>
      if s.contains (byte '_') &&
          !underscoresSeparate (base = 16) marked (if marked then digits else s) then
        .error .malformed
      else bounded n

end TraceLint.Number
