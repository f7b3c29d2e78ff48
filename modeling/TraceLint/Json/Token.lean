import TraceLint.Json.Basic
import TraceLint.Text.Utf8

/-! The tokens of JSON text. A token ends where it can, so `truefalse` is two tokens; what comes
after a fault is not looked at. -/
namespace TraceLint.Json

inductive Token where
  | openObject
  | closeObject
  | openArray
  | closeArray
  | colon
  | comma
  /-- A string, without its quotes and escapes. -/
  | string (s : Text)
  /-- A number or a word. -/
  | scalar (j : Json)
  /-- Something that starts no token. -/
  | fault

def isBlank (b : UInt8) : Bool := b = 0x20 || b = 0x09 || b = 0x0a || b = 0x0d

def escape? (letter : UInt8) : Option UInt8 :=
  if letter = byte '"' || letter = byte '\\' || letter = byte '/' then some letter
  else if letter = byte 'b' then some 0x08
  else if letter = byte 'f' then some 0x0c
  else if letter = byte 'n' then some 0x0a
  else if letter = byte 'r' then some 0x0d
  else if letter = byte 't' then some 0x09
  else none

def unit? (a b c d : UInt8) : Option Nat := do
  let a ← Text.hexValue? a
  let b ← Text.hexValue? b
  let c ← Text.hexValue? c
  let d ← Text.hexValue? d
  return ((a * 16 + b) * 16 + c) * 16 + d

def surrogates? (high low : Nat) : Option Char :=
  if 0xd800 ≤ high ∧ high < 0xdc00 ∧ 0xdc00 ≤ low ∧ low < 0xe000 then
    some (Char.ofNat (0x10000 + (high - 0xd800) * 0x400 + (low - 0xdc00)))
  else none

/-- The character of a UTF-16 unit; half of a pair stands for U+FFFD. -/
def unitChar (u : Nat) : Char :=
  if 0xd800 ≤ u ∧ u < 0xe000 then Utf8.replacement else Char.ofNat u

/-- What the text after a backslash spells, and how many bytes of it belong to the escape. -/
def escapeAt : Text → Option (Text × Nat)
  | [] => none
  | letter :: after =>
    if letter ≠ byte 'u' then (escape? letter).map fun c => ([c], 1)
    else match after with
      | h₁ :: h₂ :: h₃ :: h₄ :: tail =>
        match unit? h₁ h₂ h₃ h₄ with
        | none => none
        | some u =>
          let pair := match tail with
            | s₁ :: s₂ :: l₁ :: l₂ :: l₃ :: l₄ :: _ =>
              if s₁ = byte '\\' ∧ s₂ = byte 'u' then
                (unit? l₁ l₂ l₃ l₄).bind (surrogates? u)
              else none
            | _ => none
          match pair with
          | some c => some (Utf8.encode c, 11)
          | none => some (Utf8.encode (unitChar u), 5)
      | _ => none

/-- Puts bytes in front of the rest of a string, and counts one byte of source. -/
def prepend (bytes : Text) (r : Option (Text × Nat)) : Option (Text × Nat) :=
  r.map fun (s, n) => (bytes ++ s, n + 1)

/-- The string up to the closing quote with its escapes resolved, and how many bytes it takes, the
quote included; the first `skip` bytes belong to an escape already resolved. -/
def stringBody : Nat → Text → Option (Text × Nat)
  | _, [] => none
  | skip + 1, _ :: rest => prepend [] (stringBody skip rest)
  | 0, b :: rest =>
    if b = byte '"' then some ([], 1)
    else if b < 0x20 then none
    else if b ≠ byte '\\' then prepend [b] (stringBody 0 rest)
    else match escapeAt rest with
      | some (bytes, n) => prepend bytes (stringBody n rest)
      | none => none

def digitCount (s : Text) : Nat := (s.takeWhile Text.isDigit).length

/-- The length of an exponent at the start of a text: zero if there is none, and no length if the
mark has no digits. -/
def exponentLength? : Text → Option Nat
  | [] => some 0
  | b :: rest =>
    if b = byte 'e' || b = byte 'E' then
      let sign := match rest with
        | s :: _ => if s = byte '+' || s = byte '-' then 1 else 0
        | [] => 0
      let digits := digitCount (rest.drop sign)
      if digits = 0 then none else some (1 + sign + digits)
    else some 0

/-- The length of a fraction at the start of a text, likewise. -/
def fractionLength? : Text → Option Nat
  | [] => some 0
  | b :: rest =>
    if b = byte '.' then
      let digits := digitCount rest
      if digits = 0 then none else some (1 + digits)
    else some 0

/-- The length of a number at the start of a text. A leading zero stands alone. -/
def numberLength? (s : Text) : Option Nat := do
  let sign := if s.head? = some (byte '-') then 1 else 0
  let body := s.drop sign
  let digits := if body.head? = some (byte '0') then 1 else digitCount body
  if digits = 0 then none
  let whole := sign + digits
  let fraction ← fractionLength? (s.drop whole)
  let exponent ← exponentLength? (s.drop (whole + fraction))
  return whole + fraction + exponent

/-- The token that starts with `b`, and how many bytes of `rest` belong to it. -/
def tokenAt (b : UInt8) (rest : Text) : Option (Token × Nat) :=
  if b = byte '\x7b' then some (.openObject, 0)
  else if b = byte '\x7d' then some (.closeObject, 0)
  else if b = byte '[' then some (.openArray, 0)
  else if b = byte ']' then some (.closeArray, 0)
  else if b = byte ':' then some (.colon, 0)
  else if b = byte ',' then some (.comma, 0)
  else if b = byte '"' then
    (stringBody 0 rest).map fun (s, n) => (.string (Utf8.sanitize s), n)
  else if (text "null").isPrefixOf (b :: rest) then some (.scalar .null, 3)
  else if (text "true").isPrefixOf (b :: rest) then some (.scalar (.bool true), 3)
  else if (text "false").isPrefixOf (b :: rest) then some (.scalar (.bool false), 4)
  else if b = byte '-' || Text.isDigit b then
    (numberLength? (b :: rest)).map fun n => (.scalar (.number ((b :: rest).take n)), n - 1)
  else none

/-- The tokens of a text after its first `skip` bytes. -/
def tokensAfter : Nat → Text → List Token
  | _, [] => []
  | skip + 1, _ :: rest => tokensAfter skip rest
  | 0, b :: rest =>
    if isBlank b then tokensAfter 0 rest
    else match tokenAt b rest with
      | some (token, n) => token :: tokensAfter n rest
      | none => [.fault]

def tokens (s : Text) : List Token := tokensAfter 0 s

end TraceLint.Json
