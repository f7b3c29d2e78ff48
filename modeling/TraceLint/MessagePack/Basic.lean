import TraceLint.Value

/-! MessagePack documents. -/
namespace TraceLint.MessagePack

/-- An object of a document. The width of an integer is that of its encoding; `word` stands for the
shortest encoding that holds the number. -/
inductive Item where
  | null
  | bool (b : Bool)
  | int (width : Width) (n : Int)
  | uint (width : Width) (n : Nat)
  | float32 (bits : UInt32)
  | float64 (bits : UInt64)
  | str (s : Text)
  | bin (b : Text)
  | moment (m : Moment)
  | array (items : List Item)
  /-- The entries in the order of the document. -/
  | map (entries : List (Item × Item))
deriving Inhabited

namespace Item

/-- The text that an item stands for: a text, bytes taken as text, or the empty text for null. -/
def text? : Item → Option Text
  | .str s => some s
  | .bin b => some b
  | .null => some []
  | _ => none

mutual

/-- The value of an item; of two entries with one key the later counts. -/
def value : Item → Value
  | .null => .null
  | .bool b => .bool b
  | .int width n => .int width n
  | .uint width n => .uint width n
  | .float32 bits => .float32 bits
  | .float64 bits => .float64 bits
  | .str s => .text s
  | .bin b => .bytes b
  | .moment m => .moment m
  | .array items => .list (values items)
  | .map entries => .ofBindings (bindings entries)

def values : List Item → List Value
  | [] => []
  | i :: rest => i.value :: values rest

def bindings : List (Item × Item) → List (Text × Value)
  | [] => []
  | (key, i) :: rest => (key.text?.getD [], i.value) :: bindings rest

end

def ofKey : Key → Item
  | .null => .null
  | .bool b => .bool b
  | .float64 bits => .float64 bits
  | .int n => .int .word n
  | .text s => .str s
  | .uint n => .uint .bits64 n
  | .moment m => .moment m

mutual

/-- The item of a value. -/
def ofValue : Value → Item
  | .null => .null
  | .bool b => .bool b
  | .text s => .str s
  | .int width n => .int width n
  | .uint width n => .uint width n
  | .float64 bits => .float64 bits
  | .float32 bits => .float32 bits
  | .bytes b => .bin b
  | .moment m => .moment m
  | .list items => .array (ofValues items)
  | .map entries => .map (ofEntries entries)
  | .keyed entries => .map (ofKeyed entries)

def ofValues : List Value → List Item
  | [] => []
  | v :: rest => ofValue v :: ofValues rest

def ofEntries : List (Text × Value) → List (Item × Item)
  | [] => []
  | (key, v) :: rest => (.str key, ofValue v) :: ofEntries rest

def ofKeyed : List (Key × Value) → List (Item × Item)
  | [] => []
  | (key, v) :: rest => (ofKey key, ofValue v) :: ofKeyed rest

end

end Item

end TraceLint.MessagePack
