import TraceLint.Json.Parser
import TraceLint.Json.Printer
import TraceLint.Number.Integer
import TraceLint.Text.Base64
import TraceLint.Trace.Schema

/-! Traces as JSON. Names of members match whatever their case, an unknown name is refused, and a
repeated member is read on top of the one before it. `null` empties a list, a constant or an array
tag and leaves any other field as it was. -/
namespace TraceLint.Trace

namespace FromJson

/-- The upper case of a character, as far as the names of members need it: besides the ASCII
letters, the long s and the Kelvin sign have an ASCII upper case. -/
def foldChar (c : Char) : Char :=
  if c.toNat = 0x17f then 'S' else if c.toNat = 0x212a then 'K' else c.toUpper

/-- Whether a member's name is the given one, whatever its case. -/
def named (name : Text) (known : String) : Bool :=
  (Utf8.chars name).map foldChar = known.toList.map Char.toUpper

def text? (old : Text) : Json → Option Text
  | .null => some old
  | .string s => some s
  | _ => none

def bool? (old : Bool) : Json → Option Bool
  | .null => some old
  | .bool b => some b
  | _ => none

/-- The integer of a literal without fraction and exponent, if it fits 64 bits. -/
def integer? (literal : Text) : Option Int64 :=
  let (negative, digits) := Number.signed literal
  if digits.all Text.isDigit then
    let n : Int := if negative then -Text.digitsValue digits else Text.digitsValue digits
    if Number.fits64 n then some (Int64.ofInt n) else none
  else none

def int? (old : Int64) : Json → Option Int64
  | .null => some old
  | .number literal => integer? literal
  | _ => none

/-- Reads items, each on top of the old item in its place. -/
def items? {α : Type} (zero : α) (item : α → Json → Option α) : List α → List Json → Option (List α)
  | _, [] => some []
  | olds, j :: rest => do
    let x ← item (olds.headD zero) j
    let xs ← items? zero item olds.tail rest
    return x :: xs

/-- A list on top of an old one. Neither `null` nor an empty list leaves anything of it. -/
def list? {α : Type} (zero : α) (item : α → Json → Option α) (old : Option (Slate α)) :
    Json → Option (Option (Slate α))
  | .null => some none
  | .array [] => some (some {})
  | .array items =>
    let cells := (old.getD {}).cells
    (items? zero item cells items).map fun xs => some (.overwrite cells xs)
  | _ => none

def optional? {α : Type} (zero : α) (item : α → Json → Option α) (old : Option α) :
    Json → Option (Option α)
  | .null => some none
  | j => (item (old.getD zero) j).map some

/-- Reading from a document, or failing to. -/
abbrev Reading := ReaderT Json Option

/-- Reads the members of an object one after another. -/
def record? {α : Type} (fields : List (Field Reading α)) (old : α) : Json → Option α
  | .null => some old
  | .object members => members.foldlM (fun x (name, j) =>
      (fields.find? fun f => named name f.name).bind fun f => f.read x j) old
  | _ => none

mutual

def value? : Json → Option Value
  | .null => some .null
  | .bool b => some (.bool b)
  | .number literal => (Number.float64? (Number.Literal.ofText literal)).map .float64
  | .string s => some (.text s)
  | .array items => (values? items).map .list
  | .object members => (bindings? members).map .ofBindings

def values? : List Json → Option (List Value)
  | [] => some []
  | j :: rest => do
    let v ← value? j
    let vs ← values? rest
    return v :: vs

def bindings? : List (Text × Json) → Option (List (Text × Value))
  | [] => some []
  | (name, j) :: rest => do
    let v ← value? j
    let vs ← bindings? rest
    return (name, v) :: vs

end

def reader : Reader Reading where
  text := text?
  int := int?
  bool := bool?
  value := fun _ => value?
  texts := list? [] text?
  list := list?
  optional := optional?
  record := fun _ => record?

end FromJson

/-- What a document holds that JSON cannot express. -/
inductive Inexpressible where
  /-- A number that is not finite, as it is shown. -/
  | number (shown : Text)
  /-- A map with a key that is neither a text nor an integer. -/
  | names
  /-- A moment of a year that has not four digits. -/
  | year
  /-- A moment in a zone a day or more away. -/
  | zone
deriving DecidableEq

/-- A document that may hold what JSON cannot express. -/
inductive Sketch where
  | null
  | bool (b : Bool)
  | number (literal : Text)
  | string (s : Text)
  | array (items : List Sketch)
  | object (members : List (Text × Sketch))
  | inexpressible (what : Inexpressible)
deriving Inhabited

/-- What JSON cannot express, where in the document it stands and after how many bytes of its
compact text. -/
structure Unsupported where
  what : Inexpressible
  /-- The names and positions that lead there. -/
  path : List Text
  offset : Nat
deriving DecidableEq

namespace Unsupported

/-- A step of a path; the characters that have a meaning in paths are escaped. -/
def step (name : Text) : Text :=
  byte '/' :: name.flatMap fun b =>
    if b = byte '~' then text "~0" else if b = byte '/' then text "~1" else [b]

/-- A path as it is shown. Of a long one the middle is left out, between whole steps if possible. -/
def shownPath (path : List Text) : Text :=
  let whole := path.flatMap step
  let slash := byte '/'
  let isStray (p : Utf8.Piece) := match p with
    | .char _ => false
    | .stray _ => true
  if whole.length ≤ 100 then whole
  else
    let start := whole.take 50
    let start := match (start.reverse.dropWhile (· ≠ slash)).reverse.dropLast with
      | [] => start
      | steps => steps
    let start := ((Utf8.pieces start).reverse.dropWhile isStray).reverse.flatMap Utf8.Piece.bytes
    let stop := whole.drop (whole.length - 50)
    let stop := match stop.dropWhile (· ≠ slash) with
      | [] => stop
      | _ :: steps => steps
    let stop := ((Utf8.pieces stop).dropWhile isStray).flatMap Utf8.Piece.bytes
    let left := (whole.drop start.length).take (whole.length - start.length - stop.length)
    let dots (here : Bool) := if here then text "…" else []
    let opening := dots (left.head? ≠ some slash)
    let closing := dots (left.getLast? ≠ some slash)
    let middle := match left.count slash with
      | 0 => text "…"
      | 1 => opening ++ slash :: closing
      | _ => opening ++ slash :: text "…" ++ slash :: closing
    start ++ middle ++ stop

def message (u : Unsupported) : Text :=
  match u.what with
  | .number shown => text "json: unsupported value: " ++ shown
  | .names =>
    text "json: unsupported value: jsontext: object member name must be a string within " ++
      Text.quoted (shownPath u.path) ++ text " after offset " ++ Text.ofNat u.offset
  | .year =>
    text "json: error calling MarshalJSON for type *time.Time: year outside of range [0,9999]"
  | .zone =>
    text "json: error calling MarshalJSON for type *time.Time: " ++
      text "timezone hour outside of range [0,23]"

end Unsupported

namespace Sketch

mutual

/-- The document, unless it holds what JSON cannot express, and how long its compact text is. The
document is reached by `path`, after `offset` bytes. -/
def json (path : List Text) (offset : Nat) : Sketch → Except Unsupported (Json × Nat)
  | .null => .ok (.null, 4)
  | .bool b => .ok (.bool b, if b then 4 else 5)
  | .number literal => .ok (.number literal, literal.length)
  | .string s => .ok (.string s, (Json.quoted s).length)
  | .array items => do
    let (js, length) ← jsonItems path (offset + 1) 0 items
    return (.array js, length + 2)
  | .object members => do
    let (js, length) ← jsonMembers path (offset + 1) members
    return (.object js, length + 2)
  | .inexpressible what => .error ⟨what, path, offset + 2⟩

/-- The items from position `i` on, with the commas between them. -/
def jsonItems (path : List Text) (offset i : Nat) :
    List Sketch → Except Unsupported (List Json × Nat)
  | [] => .ok ([], 0)
  | item :: rest => do
    let (j, length) ← json (path ++ [Text.ofNat i]) offset item
    let comma := if rest.isEmpty then 0 else 1
    let (js, more) ← jsonItems path (offset + length + comma) (i + 1) rest
    return (j :: js, length + comma + more)

def jsonMembers (path : List Text) (offset : Nat) :
    List (Text × Sketch) → Except Unsupported (List (Text × Json) × Nat)
  | [] => .ok ([], 0)
  | (name, member) :: rest => do
    let head := (Json.quoted name).length + 1
    let (j, length) ← json (path ++ [Utf8.sanitize name]) (offset + head) member
    let comma := if rest.isEmpty then 0 else 1
    let (js, more) ← jsonMembers path (offset + head + length + comma) rest
    return ((name, j) :: js, head + length + comma + more)

end

end Sketch

namespace ToJson

def float (l : Number.Layout) (bits : Nat) : Sketch :=
  match l.decode bits with
  | .finite .. => .number (Number.Style.json.write l bits)
  | _ => .inexpressible (.number (Number.Style.json.write l bits))

/-- A moment as a text, if that has the usual width. -/
def moment (m : Moment) : Except Inexpressible Text :=
  let year := m.date.year
  if year < 0 || 9999 < year then .error .year
  else if 24 * 3600 ≤ m.zone.offset.natAbs then .error .zone
  else .ok m.stamp

/-- The name that a key gives to a member. -/
def name : Key → Except Inexpressible Text
  | .text s => .ok s
  | .int n => .ok (Text.ofInt n)
  | .uint n => .ok (Text.ofNat n)
  | .moment m => moment m
  | .float64 bits =>
    match Number.binary64.decode bits.toNat with
    | .finite .. => .error .names
    | _ => .error (.number (Number.Style.json.write Number.binary64 bits.toNat))
  | _ => .error .names

/-- Members in the order of their names, or the first key that gives none. -/
def named (members : List (Key × Sketch)) : Sketch :=
  match members.mapM fun (key, s) => (name key).map fun n => (n, s) with
  | .error what => .inexpressible what
  | .ok members => .object (members.mergeSort fun a b => !Text.lt b.1 a.1)

mutual

def value : Value → Sketch
  | .null => .null
  | .bool b => .bool b
  | .text s => .string s
  | .int _ n => .number (Text.ofInt n)
  | .uint _ n => .number (Text.ofNat n)
  | .float64 bits => float Number.binary64 bits.toNat
  | .float32 bits => float Number.binary32 bits.toNat
  | .bytes b => .string (Text.base64 b)
  | .moment m =>
    match moment m with
    | .ok s => .string s
    | .error what => .inexpressible what
  | .list items => .array (values items)
  | .map entries => .object (members entries)
  | .keyed entries => named (keyedMembers entries)

def values : List Value → List Sketch
  | [] => []
  | v :: rest => value v :: values rest

def members : List (Text × Value) → List (Text × Sketch)
  | [] => []
  | (k, v) :: rest => (k, value v) :: members rest

def keyedMembers : List (Key × Value) → List (Key × Sketch)
  | [] => []
  | (k, v) :: rest => (k, value v) :: keyedMembers rest

end

def writer : Writer Sketch where
  text := .string
  int := fun n => .number (Text.ofInt n.toInt)
  bool := .bool
  value := value
  omits := Value.isNull
  list := fun
    | none => .null
    | some items => .array items
  record := fun fields => .object (fields.map fun (name, s) => (text name, s))

end ToJson

def decodeJson? (s : Text) : Option File := (Json.parse? s).bind FromJson.reader.file.run

def encodeJson (f : File) : Except Unsupported Text :=
  ((ToJson.writer.file f).json [] 0).map fun (j, _) => j.render 0 ++ [byte '\n']

end TraceLint.Trace
