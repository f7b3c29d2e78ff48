import TraceLint.Text.Utf8
import TraceLint.Unicode.Letter

/-! Placeholders of a format: each `{}` stands for one argument unless a backslash escapes it. A
backslash is itself escaped by a backslash, so only an odd run of them escapes the braces. -/
namespace TraceLint.Logging

/-- The length of pairs of backslashes followed by `{}`, if the text starts so. -/
def bracesAfterPairs : Text → Option Nat
  | a :: b :: rest =>
    if a = byte '\x7b' ∧ b = byte '\x7d' then some 2
    else if a = byte '\\' ∧ b = byte '\\' then (bracesAfterPairs rest).map (· + 2)
    else none
  | _ => none

/-- An occurrence of `{}` at the start of a text, with the character before it and its pairs of
backslashes. The character is taken if there is one; a line feed is none. Gives the character and
how many bytes the occurrence takes. -/
def occurrenceAt : Text → Option (Option Utf8.Piece × Nat)
  | [] => none
  | b :: rest =>
    let (piece, width) := Utf8.first b rest
    let guarded := if b = byte '\n' then none else bracesAfterPairs (rest.drop width)
    match guarded with
    | some n => some (some piece, n + width + 1)
    | none => (bracesAfterPairs (b :: rest)).map fun n => (none, n)

/-- The characters before the occurrences of `{}`, from left to right, each occurrence taken as far
left as possible and none overlapping the one before; the first `skip` bytes are passed over. -/
def guardsAfter : Nat → Text → List (Option Utf8.Piece)
  | _, [] => []
  | skip + 1, _ :: rest => guardsAfter skip rest
  | 0, b :: rest =>
    match occurrenceAt (b :: rest) with
    | some (guard, n) => guard :: guardsAfter (n - 1) rest
    | none => guardsAfter (Utf8.first b rest).2 rest

/-- The number of placeholders: the occurrences that no lone backslash guards. -/
def countPlaceholders (format : Text) : Nat :=
  (guardsAfter 0 format).countP (· ≠ some (.char '\\'))

/-- Whether a format holds no letter of any script. -/
def isSignOnly (format : Text) : Bool := (Utf8.chars format).all fun c => !Unicode.isLetter c

end TraceLint.Logging
