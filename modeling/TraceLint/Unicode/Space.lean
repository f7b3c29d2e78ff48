import TraceLint.Text.Utf8

/-! White space: the characters with the property White_Space, and trimming a text of them. -/
namespace TraceLint.Unicode

def isSpace (c : Char) : Bool :=
  let n := c.toNat
  (0x09 ≤ n && n ≤ 0x0d) || n == 0x20 || n == 0x85 || n == 0xa0 || n == 0x1680 ||
    (0x2000 ≤ n && n ≤ 0x200a) || n == 0x2028 || n == 0x2029 || n == 0x202f || n == 0x205f ||
    n == 0x3000

/-- Bytes that are not UTF-8 are no white space. -/
def isSpacePiece : Utf8.Piece → Bool
  | .char c => isSpace c
  | .stray _ => false

def trimEndPieces (ps : List Utf8.Piece) : List Utf8.Piece :=
  (ps.reverse.dropWhile isSpacePiece).reverse

/-- The text without the white space at its ends. -/
def trim (s : Text) : Text :=
  (trimEndPieces ((Utf8.pieces s).dropWhile isSpacePiece)).flatMap Utf8.Piece.bytes

def trimEnd (s : Text) : Text := (trimEndPieces (Utf8.pieces s)).flatMap Utf8.Piece.bytes

end TraceLint.Unicode
