import TraceLint.Text.Basic

/-! Points in time, in the proleptic Gregorian calendar and with the zone that they are written
in. -/
namespace TraceLint

structure Date where
  year : Int
  month : Nat
  day : Nat
deriving DecidableEq

namespace Date

def isLeap (year : Int) : Bool := year % 4 = 0 && (year % 100 ≠ 0 || year % 400 = 0)

def daysIn (year : Int) (month : Nat) : Nat :=
  if month = 2 then if isLeap year then 29 else 28
  else if month = 4 || month = 6 || month = 9 || month = 11 then 30
  else 31

/-- The days from the start of 1970. Years are counted from March on, so that the leap day is the
last day of its year; 400 of them have 146097 days. -/
def toDays (d : Date) : Int :=
  let year := if d.month ≤ 2 then d.year - 1 else d.year
  let ofEra := (year % 400).toNat
  let monthsIn := if 2 < d.month then d.month - 3 else d.month + 9
  let ofYear := (153 * monthsIn + 2) / 5 + d.day - 1
  year / 400 * 146097 + (ofEra * 365 + ofEra / 4 - ofEra / 100 + ofYear : Nat) - 719468

/-- The date so many days from the start of 1970. -/
def ofDays (days : Int) : Date :=
  let shifted := days + 719468
  let ofEra := (shifted % 146097).toNat
  let yearOfEra := (ofEra - ofEra / 1460 + ofEra / 36524 - ofEra / 146096) / 365
  let ofYear := ofEra - (365 * yearOfEra + yearOfEra / 4 - yearOfEra / 100)
  let monthsIn := (5 * ofYear + 2) / 153
  let month := if monthsIn < 10 then monthsIn + 3 else monthsIn - 9
  let year := shifted / 146097 * 400 + yearOfEra
  { year := if month ≤ 2 then year + 1 else year
    month
    day := ofYear - (153 * monthsIn + 2) / 5 + 1 }

end Date

inductive Zone where
  | utc
  /-- The zone of the machine, which keeps universal time. -/
  | here
  /-- So many seconds ahead of universal time. -/
  | ahead (seconds : Int)
deriving DecidableEq

def Zone.offset : Zone → Int
  | .ahead seconds => seconds
  | _ => 0

structure Moment where
  /-- Seconds from the start of 1970, in universal time. -/
  seconds : Int
  /-- Nanoseconds after that second. -/
  nanos : Nat
  zone : Zone
deriving DecidableEq

namespace Moment

/-- The start of the year 1 in universal time, which stands for no moment. -/
def isZero (m : Moment) : Bool := m.seconds = -62135596800 && m.nanos = 0

/-- Seconds since 1970 on the clocks of the moment's zone. -/
def wallSeconds (m : Moment) : Int := m.seconds + m.zone.offset

def date (m : Moment) : Date := .ofDays (m.wallSeconds / 86400)

def secondOfDay (m : Moment) : Nat := (m.wallSeconds % 86400).toNat

/-- The decimal digits of a number, with zeros before them up to a width. -/
def padded (width n : Nat) : Text :=
  let digits := Text.ofNat n
  List.replicate (width - digits.length) (byte '0') ++ digits

def paddedYear (year : Int) : Text :=
  if year < 0 then byte '-' :: padded 4 year.natAbs else padded 4 year.natAbs

def dateText (m : Moment) : Text :=
  let d := m.date
  paddedYear d.year ++ byte '-' :: padded 2 d.month ++ byte '-' :: padded 2 d.day

/-- The time of day; of the fraction of a second, only what is not zero. -/
def clockText (m : Moment) : Text :=
  let s := m.secondOfDay
  let fraction := ((padded 9 m.nanos).reverse.dropWhile (· = byte '0')).reverse
  padded 2 (s / 3600) ++ byte ':' :: padded 2 (s / 60 % 60) ++ byte ':' :: padded 2 (s % 60) ++
    (if fraction = [] then [] else byte '.' :: fraction)

/-- Sign, hours and minutes of an offset, with `separator` between the latter. -/
def offsetText (separator : Text) (offset : Int) : Text :=
  let minutes := offset.natAbs / 60
  byte (if offset < 0 then '-' else '+') :: padded 2 (minutes / 60) ++ separator ++
    padded 2 (minutes % 60)

/-- A moment as it reads inside a sentence. A zone without a name is named by its offset. -/
def shown (m : Moment) : Text :=
  let offset := offsetText [] m.zone.offset
  let name := match m.zone with
    | .ahead _ => offset
    | _ => text "UTC"
  m.dateText ++ byte ' ' :: m.clockText ++ byte ' ' :: offset ++ byte ' ' :: name

/-- A moment as documents write it. -/
def stamp (m : Moment) : Text :=
  m.dateText ++ byte 'T' :: m.clockText ++
    (if m.zone.offset = 0 then [byte 'Z'] else offsetText [byte ':'] m.zone.offset)

def monthNames : List String :=
  ["January", "February", "March", "April", "May", "June", "July", "August", "September", "October",
   "November", "December"]

/-- A moment with its type made visible. -/
def spelled (m : Moment) : Text :=
  let d := m.date
  let s := m.secondOfDay
  let zone := match m.zone with
    | .utc => text "time.UTC"
    | .here => text "time.Local"
    | .ahead _ => text "time.Location(\"\")"
  let parts := [Text.ofInt d.year, text "time." ++ text (monthNames.getD (d.month - 1) ""),
    Text.ofNat d.day, Text.ofNat (s / 3600), Text.ofNat (s / 60 % 60), Text.ofNat (s % 60),
    Text.ofNat m.nanos, zone]
  text "time.Date(" ++ Text.join (text ", ") parts ++ [byte ')']

end Moment

end TraceLint
