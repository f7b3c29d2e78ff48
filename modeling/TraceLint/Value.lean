import TraceLint.Key

/-! Dynamic values: compile-time constants on the operand stack, payloads of findings and outputs of
analyses. Integers remember the width they were recorded with. -/
namespace TraceLint

/-- The recorded width of an integer; `word` is the width of an ordinary integer field. -/
inductive Width where
  | word
  | bits8
  | bits16
  | bits32
  | bits64
deriving DecidableEq

inductive Value where
  | null
  | bool (b : Bool)
  | text (s : Text)
  | int (width : Width) (n : Int)
  | uint (width : Width) (n : Nat)
  /-- A binary64 number by its bit pattern. -/
  | float64 (bits : UInt64)
  /-- A binary32 number by its bit pattern. -/
  | float32 (bits : UInt32)
  | bytes (b : Text)
  | moment (m : Moment)
  | list (items : List Value)
  /-- Keys ascend and are distinct. -/
  | map (entries : List (Text × Value))
  /-- A map with keys of any kind, in the order in which they are shown. -/
  | keyed (entries : List (Key × Value))
deriving Inhabited

namespace Value

def ofInt (n : Int) : Value := .int .word n

def isNull : Value → Bool
  | .null => true
  | _ => false

/-- The entries with `key` bound to `v`, in the place that its order gives it. -/
def insertEntry (key : Text) (v : Value) : List (Text × Value) → List (Text × Value)
  | [] => [(key, v)]
  | (k, old) :: rest =>
    if k = key then (key, v) :: rest
    else if Text.lt key k then (key, v) :: (k, old) :: rest
    else (k, old) :: insertEntry key v rest

/-- A map of the given bindings; of two bindings of one key the later counts. -/
def ofBindings (bindings : List (Text × Value)) : Value :=
  .map (bindings.foldl (fun entries (key, v) => insertEntry key v entries) [])

/-- The same for keys of any kind. -/
def insertKey (key : Key) (v : Value) : List (Key × Value) → List (Key × Value)
  | [] => [(key, v)]
  | (k, old) :: rest =>
    if k.same key then (key, v) :: rest
    else if key.less k then (key, v) :: (k, old) :: rest
    else (k, old) :: insertKey key v rest

/-- A map of the given bindings with keys of any kind; of two bindings of one key the later
counts. -/
def ofKeys (bindings : List (Key × Value)) : Value :=
  .keyed (bindings.foldl (fun entries (key, v) => insertKey key v entries) [])

def ofKey : Key → Value
  | .null => .null
  | .bool b => .bool b
  | .float64 bits => .float64 bits
  | .int n => .ofInt n
  | .text s => .text s
  | .uint n => .uint .bits64 n
  | .moment m => .moment m

def key? : Value → Option Key
  | .null => some .null
  | .bool b => some (.bool b)
  | .float64 bits => some (.float64 bits)
  | .int _ n => some (.int n)
  | .text s => some (.text s)
  | .uint _ n => some (.uint n)
  | .moment m => some (.moment m)
  | _ => none

mutual

/-- A value as it reads inside a sentence. -/
def shown : Value → Text
  | .null => TraceLint.text "<nil>"
  | .bool b => TraceLint.text (if b then "true" else "false")
  | .text s => s
  | .int _ n => Text.ofInt n
  | .uint _ n => Text.ofNat n
  | .float64 bits => Number.Style.message.write Number.binary64 bits.toNat
  | .float32 bits => Number.Style.message.write Number.binary32 bits.toNat
  | .bytes b => byte '[' :: Text.join [byte ' '] (b.map fun x => Text.ofNat x.toNat) ++ [byte ']']
  | .moment m => m.shown
  | .list items => byte '[' :: Text.join [byte ' '] (shownItems items) ++ [byte ']']
  | .map entries =>
    TraceLint.text "map[" ++ Text.join [byte ' '] (shownEntries entries) ++ [byte ']']
  | .keyed entries =>
    TraceLint.text "map[" ++ Text.join [byte ' '] (shownKeys entries) ++ [byte ']']

def shownItems : List Value → List Text
  | [] => []
  | v :: rest => v.shown :: shownItems rest

def shownEntries : List (Text × Value) → List Text
  | [] => []
  | (k, v) :: rest => (k ++ byte ':' :: v.shown) :: shownEntries rest

def shownKeys : List (Key × Value) → List Text
  | [] => []
  | (k, v) :: rest => (k.shown ++ byte ':' :: v.shown) :: shownKeys rest

end

/-- A list of parts in braces, after the name of its type. -/
def braced (type : String) (parts : List Text) : Text :=
  TraceLint.text type ++ byte '\x7b' :: Text.join (TraceLint.text ", ") parts ++ [byte '\x7d']

mutual

/-- A value inside a container, with its type made visible: texts are quoted, unsigned integers are
hexadecimal and containers are named. -/
def spelledInside : Value → Text
  | .null => TraceLint.text "interface \x7b\x7d(nil)"
  | .bool b => TraceLint.text (if b then "true" else "false")
  | .text s => Text.quoted s
  | .int _ n => Text.ofInt n
  | .uint _ n => Text.hexadecimal n
  | .float64 bits => Number.Style.message.write Number.binary64 bits.toNat
  | .float32 bits => Number.Style.message.write Number.binary32 bits.toNat
  | .bytes b => braced "[]uint8" (b.map fun x => Text.hexadecimal x.toNat)
  | .moment m => m.spelled
  | .list items => braced "[]interface \x7b\x7d" (spelledItems items)
  | .map entries => braced "map[string]interface \x7b\x7d" (spelledEntries entries)
  | .keyed entries => braced "map[interface \x7b\x7d]interface \x7b\x7d" (spelledKeys entries)

def spelledItems : List Value → List Text
  | [] => []
  | v :: rest => v.spelledInside :: spelledItems rest

def spelledEntries : List (Text × Value) → List Text
  | [] => []
  | (k, v) :: rest => (Text.quoted k ++ byte ':' :: v.spelledInside) :: spelledEntries rest

def spelledKeys : List (Key × Value) → List Text
  | [] => []
  | (k, v) :: rest => (k.spelled ++ byte ':' :: v.spelledInside) :: spelledKeys rest

end

/-- A value with its type made visible. On their own, bytes are named as such. -/
def spelled : Value → Text
  | .bytes b => braced "[]byte" (b.map fun x => Text.hexadecimal x.toNat)
  | v => v.spelledInside

end Value

end TraceLint
