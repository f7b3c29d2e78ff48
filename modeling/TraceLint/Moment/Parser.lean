import TraceLint.Moment.Basic

/-! Reading moments. A year of four digits, a month and a day of one or two, and then nothing, a
time of day after blanks, or a time of day and a zone after `T` or `t`. -/
namespace TraceLint.Moment

/-- A number of one or two digits, and what follows it. -/
def short? : Text → Option (Nat × Text)
  | [] => none
  | a :: rest =>
    if !Text.isDigit a then none
    else match rest with
      | b :: after =>
        if Text.isDigit b then some (Text.digitsValue [a, b], after)
        else some (Text.digitsValue [a], rest)
      | [] => some (Text.digitsValue [a], [])

/-- The same below a bound. -/
def below? (bound : Nat) (s : Text) : Option (Nat × Text) :=
  (short? s).filter fun (n, _) => n < bound

def after? (b : UInt8) : Text → Option Text
  | c :: rest => if c = b then some rest else none
  | [] => none

/-- The nanoseconds of a fraction after a point or a comma. Digits after the ninth do not count. -/
def fraction (s : Text) : Nat × Text :=
  match s with
  | mark :: rest =>
    let digits := rest.takeWhile Text.isDigit
    if (mark = byte '.' || mark = byte ',') && digits ≠ [] then
      let counted := digits.take 9
      (Text.digitsValue (counted ++ List.replicate (9 - counted.length) (byte '0')),
        rest.drop digits.length)
    else (0, s)
  | [] => (0, [])

/-- The time of day in seconds and nanoseconds, and what follows it. -/
def clock? (s : Text) : Option (Nat × Nat × Text) := do
  let (hour, s) ← below? 24 s
  let (minute, s) ← below? 60 (← after? (byte ':') s)
  let (second, s) ← below? 60 (← after? (byte ':') s)
  let (nanos, s) := fraction s
  return (hour * 3600 + minute * 60 + second, nanos, s)

/-- The zone that a text names: `Z`, or hours and minutes with a sign. -/
def zone? (s : Text) : Option Zone :=
  match s with
  | [z] => if z = byte 'Z' then some .utc else none
  | [sign, a, b, colon, c, d] =>
    let hours := Text.digitsValue [a, b]
    let minutes := Text.digitsValue [c, d]
    if colon = byte ':' && [a, b, c, d].all Text.isDigit && hours ≤ 24 && minutes ≤ 60 &&
        (sign = byte '+' || sign = byte '-') then
      let offset : Int := (hours * 60 + minutes : Nat) * 60
      some (if offset = 0 then .here else .ahead (if sign = byte '-' then -offset else offset))
    else none
  | _ => none

def ofParts (d : Date) (second nanos : Nat) (zone : Zone) : Moment :=
  ⟨d.toDays * 86400 + second - zone.offset, nanos, zone⟩

def parse? (s : Text) : Option Moment := do
  let digits := s.takeWhile Text.isDigit
  if digits.length ≠ 4 then none
  let (month, s) ← below? 13 (← after? (byte '-') (s.drop 4))
  let (day, s) ← short? (← after? (byte '-') s)
  let year := Text.digitsValue digits
  if month = 0 || day = 0 || Date.daysIn year month < day then none
  let d : Date := ⟨year, month, day⟩
  match s with
  | [] => return ofParts d 0 0 .utc
  | mark :: rest =>
    if mark = byte 'T' || mark = byte 't' then
      let (second, nanos, s) ← clock? rest
      let zone ← zone? s
      return ofParts d second nanos zone
    else if mark = byte ' ' then
      let (second, nanos, s) ← clock? (rest.dropWhile (· = byte ' '))
      if s ≠ [] then none
      return ofParts d second nanos .utc
    else none

end TraceLint.Moment
