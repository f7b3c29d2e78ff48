import TraceLint.Text.Basic

/-! Base64, the text form of bytes: three bytes as four letters, padded with `=`. -/
namespace TraceLint.Text

def base64Letter (n : Nat) : UInt8 :=
  if n < 26 then (65 + n).toUInt8
  else if n < 52 then (97 + (n - 26)).toUInt8
  else if n < 62 then (48 + (n - 52)).toUInt8
  else if n = 62 then byte '+' else byte '/'

def base64 : Text → Text
  | [] => []
  | [a] =>
    let n := a.toNat * 16
    [base64Letter (n / 64), base64Letter (n % 64), byte '=', byte '=']
  | [a, b] =>
    let n := (a.toNat * 256 + b.toNat) * 4
    [base64Letter (n / 4096), base64Letter (n / 64 % 64), base64Letter (n % 64), byte '=']
  | a :: b :: c :: rest =>
    let n := (a.toNat * 256 + b.toNat) * 256 + c.toNat
    base64Letter (n / 262144) :: base64Letter (n / 4096 % 64) :: base64Letter (n / 64 % 64) ::
      base64Letter (n % 64) :: base64 rest

def base64Value? (b : UInt8) : Option Nat :=
  if isUpper b then some (b.toNat - 65)
  else if isLower b then some (b.toNat - 97 + 26)
  else if isDigit b then some (b.toNat - 48 + 52)
  else if b = byte '+' then some 62
  else if b = byte '/' then some 63
  else none

/-- The bytes that groups of four letters write; the last group may be padded. -/
def ofBase64Groups? : Text → Option Text
  | [] => some []
  | [a, b, c, d] => do
    let x ← base64Value? a
    let y ← base64Value? b
    if c = byte '=' && d = byte '=' then return [(x * 4 + y / 16).toUInt8]
    let z ← base64Value? c
    if d = byte '=' then return [(x * 4 + y / 16).toUInt8, (y * 16 + z / 4).toUInt8]
    let w ← base64Value? d
    return [(x * 4 + y / 16).toUInt8, (y * 16 + z / 4).toUInt8, (z * 64 + w).toUInt8]
  | a :: b :: c :: d :: rest => do
    let x ← base64Value? a
    let y ← base64Value? b
    let z ← base64Value? c
    let w ← base64Value? d
    let more ← ofBase64Groups? rest
    return (x * 4 + y / 16).toUInt8 :: (y * 16 + z / 4).toUInt8 :: (z * 64 + w).toUInt8 :: more
  | _ => none

/-- The bytes that base64 text writes; line ends inside it do not count. -/
def ofBase64? (s : Text) : Option Text :=
  ofBase64Groups? (s.filter fun b => b ≠ byte '\n' && b ≠ byte '\r')

end TraceLint.Text
