import TraceLint.Yaml.Order
import TraceLint.Yaml.Resolve

/-! Writing YAML in blocks: nested collections start at the next multiple of four columns, or two
columns after the dash of the item that holds them. -/
namespace TraceLint.Yaml

inductive Leaf where
  | text (s : Text)
  /-- A number, a truth value, a moment or null, by its spelling. -/
  | word (s : Text)
deriving Inhabited

inductive Doc where
  | leaf (l : Leaf)
  | sequence (items : List Doc)
  | mapping (entries : List (Leaf × Doc))
deriving Inhabited

def isPrintable (c : Char) : Bool :=
  let n := c.toNat
  n = 0x0a || (0x20 ≤ n && n ≤ 0x7e) || (0xa0 ≤ n && n ≤ 0xfffd && n ≠ 0xfeff)

/-- Whether some character stands next to one after it, as two conditions say. -/
def anyPair (p q : Char → Bool) : List Char → Bool
  | a :: b :: rest => (p a && q b) || anyPair p q (b :: rest)
  | _ => false

/-- Whether a text reads as something else if it is written plainly in a block: it starts with an
indicator or a document marker, or holds a colon before a blank or a hash after one. -/
def hasIndicator (cs : List Char) : Bool :=
  let ends (rest : List Char) := rest.isEmpty || rest.head?.any isBlank
  cs.take 3 = ['-', '-', '-'] || cs.take 3 = ['.', '.', '.'] ||
    (match cs with
      | [] => false
      | c :: rest => "#,[]\x7b\x7d&*!|>\x27\x22%@\x60".toList.contains c ||
          ((c = '?' || c = ':' || c = '-') && ends rest)) ||
    anyPair (· = ':') isBlank cs || cs.getLast? = some ':' ||
    anyPair (fun c => isBlank c || isBreak c) (· = '#') cs

inductive Quoting where
  | plain
  | single
  | double
  /-- As an indented block that keeps its lines. -/
  | literal
deriving DecidableEq

/-- A number in base sixty, which other readers take for a number. -/
def isSexagesimal (s : Text) : Bool :=
  let digit (b : UInt8) := Text.isDigit b || b = byte '_'
  match Text.splitOn (byte ':') (Number.signed s).2 with
  | first :: second :: rest =>
    let groups := second :: rest
    let short (g : Text) := match g with
      | [a] => Text.isDigit a
      | [a, b] => byte '0' ≤ a && a ≤ byte '5' && Text.isDigit b
      | _ => false
    let lastOk := match Text.splitOn (byte '.') (groups.getLast?.getD []) with
      | [g] => short g
      | [g, fraction] => short g && fraction.all digit
      | _ => false
    first.head?.any Text.isDigit && first.all digit && groups.dropLast.all short && lastOk
  | _ => false

/-- Words that other readers take for truth values. -/
def isSwitch (s : Text) : Bool :=
  isWord ["y", "Y", "yes", "Yes", "YES", "on", "On", "ON", "n", "N", "no", "No", "NO", "off", "Off",
    "OFF"] s

/-- Whether a text that is written plainly is read back as a text, by this reader and by others. -/
def staysText (s : Text) : Bool :=
  (match plainValue s with
    | .text _ => true
    | _ => false) && !isSexagesimal s && !isSwitch s

/-- How the characters of a text are written; `key` is for one that stands before a colon. -/
def quotingOf (key : Bool) (cs : List Char) : Quoting :=
  let wanted : Quoting :=
    if cs.contains '\n' then .literal
    else if staysText (Utf8.ofChars cs) then .plain
    else .double
  let isSpace (c : Char) := c = ' '
  let special := cs.any fun c => !isPrintable c && c ≠ '\t'
  let spaceBreak := anyPair isSpace isBreak cs
  let breakSpace := anyPair isBreak isSpace cs
  let edge (c : Option Char) := c.any fun c => isSpace c || isBreak c
  let singleAllowed := !(spaceBreak || breakSpace || special || cs.contains '\t')
  let plainAllowed := singleAllowed && !cs.any isBreak && !edge cs.head? && !edge cs.getLast? &&
    !hasIndicator cs
  match wanted with
  | .literal =>
    if key || spaceBreak || special || cs.getLast? = some ' ' then .double else .literal
  | .plain => if plainAllowed then .plain else if singleAllowed then .single else .double
  | quoting => quoting

/-- A text between single quotes, each quote inside written twice. After a line separator the text
goes on at the indentation. -/
def singleQuoted (indent : Nat) (cs : List Char) : List Char :=
  let rec go (broke : Bool) : List Char → List Char
    | [] => []
    | c :: rest =>
      if isBreak c then c :: go true rest
      else
        let lead := if broke then List.replicate indent ' ' else []
        lead ++ (if c = '\x27' then ['\x27', '\x27'] else [c]) ++ go false rest
  '\x27' :: go false cs ++ ['\x27']

def escapeOf (c : Char) : List Char :=
  let upper (width n : Nat) : List Char :=
    (Text.hex width n).map fun b => (Char.ofNat b.toNat).toUpper
  match c.toNat with
  | 0x00 => ['0']
  | 0x07 => ['a']
  | 0x08 => ['b']
  | 0x09 => ['t']
  | 0x0a => ['n']
  | 0x0b => ['v']
  | 0x0c => ['f']
  | 0x0d => ['r']
  | 0x1b => ['e']
  | 0x22 => ['\x22']
  | 0x5c => ['\\']
  | 0x85 => ['N']
  | 0xa0 => ['_']
  | 0x2028 => ['L']
  | 0x2029 => ['P']
  | n =>
    if n ≤ 0xff then 'x' :: upper 2 n
    else if n ≤ 0xffff then 'u' :: upper 4 n
    else 'U' :: upper 8 n

/-- A text between double quotes. After a byte order mark at its start, every character is
escaped. -/
def doubleQuoted (cs : List Char) : List Char :=
  let marked := cs.head? = some byteOrderMark
  let one (c : Char) :=
    if marked || !isPrintable c || isBreak c || c = '\x22' || c = '\\' then '\\' :: escapeOf c
    else [c]
  '\x22' :: cs.flatMap one ++ ['\x22']

/-- The lines of a literal block at an indentation. A text that starts with a blank or a line break
gets the indentation of a level as a hint; a break at its start ends the line of the hint. -/
def literalBlock (indent : Nat) (cs : List Char) : List Char :=
  let hint := if cs.head?.any fun c => c = ' ' || isBreak c then ['4'] else []
  let chomp := match cs.reverse with
    | [] => ['-']
    | last :: before =>
      if !isBreak last then ['-']
      else match before with
        | [] => ['+']
        | c :: _ => if isBreak c then ['+'] else []
  let rec lines (fresh : Bool) : List Char → List Char
    | [] => []
    | c :: rest =>
      if isBreak c then c :: lines true rest
      else (if fresh then List.replicate indent ' ' else []) ++ c :: lines false rest
  '|' :: hint ++ chomp ++ (if cs.head?.any isBreak then [] else ['\n']) ++ lines true cs

/-- Base64 in lines of 70 digits, if there are that many; each line ends in a break. -/
def base64Lines (s : Text) : Text :=
  let digits := Text.base64 s
  let rec lines (n : Nat) (digits : Text) : Text :=
    match n with
    | 0 => []
    | n + 1 => if digits = [] then [] else digits.take 70 ++ byte '\n' :: lines n (digits.drop 70)
  if digits.length < 70 then digits else lines digits.length digits

namespace Leaf

/-- The tag of bytes that are not UTF-8, which are written in base64. -/
def binaryTag : Text := TraceLint.text "!!binary"

def content : Leaf → Text
  | .text s => if Utf8.isValid s then s else base64Lines s
  | .word s => s

def isBinary : Leaf → Bool
  | .text s => !Utf8.isValid s
  | .word _ => false

/-- A key is written before its colon if it is short and on one line; else it gets a mark. -/
def isSimpleKey (l : Leaf) : Bool :=
  let length := l.content.length + if l.isBinary then binaryTag.length else 0
  length ≤ 128 && !(Utf8.chars l.content).any isBreak

/-- A leaf as it stands in a document; lines of a block are indented by `indent`. -/
def render (key : Bool) (indent : Nat) (l : Leaf) : Text :=
  let quotedText (quoting : Quoting) (cs : List Char) : Text :=
    match quoting with
    | .plain => Utf8.ofChars cs
    | .single => Utf8.ofChars (singleQuoted indent cs)
    | .double => Utf8.ofChars (doubleQuoted cs)
    | .literal => Utf8.ofChars (literalBlock indent cs)
  let cs := Utf8.chars l.content
  match l with
  | .word s => s
  | .text _ =>
    if l.isBinary then
      binaryTag ++ byte ' ' :: quotedText (if cs.contains '\n' then .literal else .plain) cs
    else quotedText (quotingOf key cs) cs

end Leaf

/-- The indentation of a collection or block inside a mapping at `indent`. -/
def deeper (indent : Nat) : Nat := (indent + 4) / 4 * 4

def spaces (n : Nat) : Text := List.replicate n (byte ' ')

/-- Ends a line, unless a block has ended it. -/
def endLine (s : Text) : Text :=
  if (Utf8.chars s).getLast?.any isBreak then s else s ++ [byte '\n']

mutual

/-- The rest of a line after a dash or a colon, and the lines that belong to it. A collection is
indented by `indent`; its first line goes on at `column`, or stands on a line of its own. -/
def renderAfter (column : Option Nat) (indent : Nat) : Doc → Text
  | .leaf l => byte ' ' :: endLine (l.render false indent)
  | .sequence [] => TraceLint.text " []\n"
  | .mapping [] => TraceLint.text " \x7b\x7d\n"
  | .sequence (item :: items) =>
    let lines := renderItems indent (item :: items)
    match column with
    | some column => lines.drop column
    | none => byte '\n' :: lines
  | .mapping ((key, value) :: entries) =>
    let lines := renderEntries indent ((key, value) :: entries)
    match column with
    | some column => lines.drop column
    | none => byte '\n' :: lines

def renderItems (indent : Nat) : List Doc → Text
  | [] => []
  | item :: rest =>
    spaces indent ++ byte '-' :: renderAfter (some (indent + 1)) (indent + 2) item ++
      renderItems indent rest

def renderEntries (indent : Nat) : List (Leaf × Doc) → Text
  | [] => []
  | (key, value) :: rest =>
    let simple := key.isSimpleKey
    let written :=
      if simple then key.render true (deeper indent) ++ [byte ':']
      else
        TraceLint.text "? " ++ endLine (key.render false (deeper indent)) ++ spaces indent ++
          [byte ':']
    let column := if simple then none else some (indent + 1)
    spaces indent ++ written ++ renderAfter column (deeper indent) value ++
      renderEntries indent rest

end

def Doc.render : Doc → Text
  | .leaf l => endLine (l.render false 4)
  | .sequence items => if items.isEmpty then TraceLint.text "[]\n" else renderItems 0 items
  | .mapping entries =>
    if entries.isEmpty then TraceLint.text "\x7b\x7d\n" else renderEntries 0 entries

/-- A floating-point number, with the format's own words for what is not finite. -/
def floatWord (l : Number.Layout) (bits : Nat) : Text :=
  match l.decode bits with
  | .nan => TraceLint.text ".nan"
  | .infinite negative => TraceLint.text (if negative then "-.inf" else ".inf")
  | .finite .. => Number.Style.message.write l bits

def boolWord (b : Bool) : Text := TraceLint.text (if b then "true" else "false")

def Leaf.ofKey : Key → Leaf
  | .null => .word (TraceLint.text "null")
  | .bool b => .word (boolWord b)
  | .float64 bits => .word (floatWord Number.binary64 bits.toNat)
  | .int n => .word (Text.ofInt n)
  | .text s => .text s
  | .uint n => .word (Text.ofNat n)
  | .moment m => .word m.stamp

namespace Doc

def null : Doc := .leaf (.word (TraceLint.text "null"))

/-- A mapping with its entries in order. An entry whose key is not a number is not found again: its
value is written as null. -/
def ofKeys (entries : List (Key × Doc)) : Doc :=
  .mapping ((sortEntries entries).map fun (key, d) =>
    (Leaf.ofKey key, if key.isNaN then null else d))

mutual

def ofValue : Value → Doc
  | .null => null
  | .bool b => .leaf (.word (boolWord b))
  | .text s => .leaf (.text s)
  | .int _ n => .leaf (.word (Text.ofInt n))
  | .uint _ n => .leaf (.word (Text.ofNat n))
  | .float64 bits => .leaf (.word (floatWord Number.binary64 bits.toNat))
  | .float32 bits => .leaf (.word (floatWord Number.binary32 bits.toNat))
  | .bytes b => .sequence (b.map fun x => .leaf (.word (Text.ofNat x.toNat)))
  | .moment m => .leaf (.word m.stamp)
  | .list items => .sequence (ofValues items)
  | .map entries => ofKeys (ofEntries entries)
  | .keyed entries => ofKeys (ofKeyed entries)

def ofValues : List Value → List Doc
  | [] => []
  | v :: rest => ofValue v :: ofValues rest

def ofEntries : List (Text × Value) → List (Key × Doc)
  | [] => []
  | (key, v) :: rest => (.text key, ofValue v) :: ofEntries rest

def ofKeyed : List (Key × Value) → List (Key × Doc)
  | [] => []
  | (key, v) :: rest => (key, ofValue v) :: ofKeyed rest

end

end Doc

end TraceLint.Yaml
