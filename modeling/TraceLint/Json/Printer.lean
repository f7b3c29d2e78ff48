import TraceLint.Json.Basic
import TraceLint.Text.Utf8

/-! Writing JSON: one member or item a line, indented by tabs, safe to stand inside HTML. -/
namespace TraceLint.Json

/-- A character inside a string. Besides what JSON demands, the characters that mean something to
HTML and the two line separators outside ASCII are escaped. -/
def escaped (c : Char) : Text :=
  let n := c.toNat
  if c = '"' || c = '\\' then [byte '\\', byte c]
  else if n = 0x08 then text "\\b"
  else if n = 0x0c then text "\\f"
  else if n = 0x0a then text "\\n"
  else if n = 0x0d then text "\\r"
  else if n = 0x09 then text "\\t"
  else if n < 0x20 || c = '<' || c = '>' || c = '&' || n = 0x2028 || n = 0x2029 then
    text "\\u" ++ Text.hex 4 n
  else Utf8.encode c

def escapedPiece : Utf8.Piece → Text
  | .char c => escaped c
  | .stray _ => Utf8.encode Utf8.replacement

def quoted (s : Text) : Text := byte '"' :: (Utf8.pieces s).flatMap escapedPiece ++ [byte '"']

def newline (depth : Nat) : Text := byte '\n' :: List.replicate depth (byte '\t')

/-- Parts one a line between two brackets; no line for no parts. -/
def bracketed (opening closing : Char) (depth : Nat) (parts : List Text) : Text :=
  match parts with
  | [] => [byte opening, byte closing]
  | _ =>
    byte opening :: newline (depth + 1) ++ Text.join (byte ',' :: newline (depth + 1)) parts ++
      newline depth ++ [byte closing]

mutual

/-- A document written at a depth of indentation. -/
def render (depth : Nat) : Json → Text
  | .null => text "null"
  | .bool b => text (if b then "true" else "false")
  | .number literal => literal
  | .string s => quoted s
  | .array items => bracketed '[' ']' depth (renderItems (depth + 1) items)
  | .object members => bracketed '\x7b' '\x7d' depth (renderMembers (depth + 1) members)

def renderItems (depth : Nat) : List Json → List Text
  | [] => []
  | j :: rest => render depth j :: renderItems depth rest

def renderMembers (depth : Nat) : List (Text × Json) → List Text
  | [] => []
  | (name, j) :: rest => (quoted name ++ text ": " ++ render depth j) :: renderMembers depth rest

end

end TraceLint.Json
