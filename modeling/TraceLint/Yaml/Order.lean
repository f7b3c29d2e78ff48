import TraceLint.Key
import TraceLint.Number.Literal
import TraceLint.Text.Utf8
import TraceLint.Unicode.Digit
import TraceLint.Unicode.Letter

/-! The order in which keys are written: numbers and truth values by size, texts so that a number
inside them counts as a whole (`a2` before `a10`). -/
namespace TraceLint.Yaml

/-- The number that a run of digits continues from `start`, in words of 64 bits. -/
def digitsFrom (start : Int64) (run : List Char) : Int64 :=
  run.foldl (fun n c => n * 10 + (Int64.ofNat c.toNat - 48)) start

/-- The order of two texts from where they differ. `before` holds the characters that they share,
the latest first. Letters come after other characters, but before those that follow a digit. -/
def naturalLessAt (before : List Char) (x : Char) (xs : List Char) (y : Char)
    (ys : List Char) : Bool :=
  let afterDigit := before.head?.any Unicode.isDigit
  let letterX := Unicode.isLetter x
  let letterY := Unicode.isLetter y
  if letterX && letterY then x < y
  else if letterX || letterY then if afterDigit then letterX else letterY
  else
    let started := (before.takeWhile Unicode.isDigit).any (· ≠ '0')
    let start : Int64 := if (x = '0' || y = '0') && started then 1 else 0
    let runX := (x :: xs).takeWhile Unicode.isDigit
    let runY := (y :: ys).takeWhile Unicode.isDigit
    let n := digitsFrom start runX
    let m := digitsFrom start runY
    if n ≠ m then n < m
    else if runX.length ≠ runY.length then runX.length < runY.length
    else x < y

/-- The order of two texts that share the characters `before`. -/
def naturalLess (before : List Char) : List Char → List Char → Bool
  | [], ys => !ys.isEmpty
  | _ :: _, [] => false
  | x :: xs, y :: ys =>
    if x = y then naturalLess (x :: before) xs ys else naturalLessAt before x xs y ys

/-- The size of a key that is a number or a truth value, as the pattern of a binary64 number. -/
def keySize? : Key → Option UInt64
  | .bool b => some (if b then 0x3ff0000000000000 else 0)
  | .int n => Number.float64? (Number.Literal.ofText (Text.ofInt n))
  | .uint n => Number.float64? (Number.Literal.ofText (Text.ofNat n))
  | .float64 bits => some bits
  | _ => none

/-- The place of a key's kind, where size does not decide. -/
def keyKind : Key → Nat
  | .bool _ => 0
  | .int _ => 1
  | .uint _ => 2
  | .float64 _ => 3
  | .null => 4
  | .text _ => 5
  | .moment _ => 6

def keyLess (a b : Key) : Bool :=
  match keySize? a, keySize? b with
  | some x, some y =>
    if a.isNaN || b.isNaN then false
    else if Key.floatRank x ≠ Key.floatRank y then Key.floatRank x < Key.floatRank y
    else if keyKind a ≠ keyKind b then keyKind a < keyKind b
    else a.less b
  | _, _ =>
    match a, b with
    | .text s, .text t => naturalLess [] (Utf8.chars s) (Utf8.chars t)
    | a, b => keyKind a < keyKind b

def sortEntries {α : Type} (entries : List (Key × α)) : List (Key × α) :=
  entries.mergeSort fun a b => !keyLess b.1 a.1

end TraceLint.Yaml
