import TraceLint.Text.Utf8
import TraceLint.Unicode.Printable

/-! Quoted text for messages: printable characters stand as they are, the rest is escaped, and a
byte that is not UTF-8 is shown by its value. -/
namespace TraceLint.Text

/-- The escapes that a backslash and one letter spell. -/
def shortEscape? (c : Char) : Option Char :=
  match c.toNat with
  | 0x07 => some 'a'
  | 0x08 => some 'b'
  | 0x0c => some 'f'
  | 0x0a => some 'n'
  | 0x0d => some 'r'
  | 0x09 => some 't'
  | 0x0b => some 'v'
  | _ => none

/-- A character inside quotes of the given kind. -/
def escaped (quote c : Char) : Text :=
  if c = quote || c = '\\' then byte '\\' :: Utf8.encode c
  else if Unicode.isPrintable c then Utf8.encode c
  else match shortEscape? c with
    | some letter => [byte '\\', byte letter]
    | none =>
      if c.toNat < 0x80 then text "\\x" ++ hex 2 c.toNat
      else if c.toNat < 0x10000 then text "\\u" ++ hex 4 c.toNat
      else text "\\U" ++ hex 8 c.toNat

def escapedPiece : Utf8.Piece → Text
  | .char c => escaped '"' c
  | .stray b => text "\\x" ++ hex 2 b.toNat

def quoted (s : Text) : Text :=
  byte '"' :: (Utf8.pieces s).flatMap escapedPiece ++ [byte '"']

def quotedChar (c : Char) : Text := byte '\'' :: escaped '\'' c ++ [byte '\'']

end TraceLint.Text
