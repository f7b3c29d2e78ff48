import TraceLint.MessagePack.Reader
import TraceLint.MessagePack.Writer
import TraceLint.Trace.Schema

/-! Traces as MessagePack. A record is a map from the names of its fields, or an array of all of
them; null stands for the zero of any field but a list of texts, which it leaves as it was. A
constant that is given twice breaks the reader: what is there cannot be written over. -/
namespace TraceLint.Trace

open MessagePack (Item Head)

namespace FromMessagePack

inductive Stop where
  | malformed
  /-- An attempt to write over a constant, by what was attempted. -/
  | overwriting (attempt : String)
deriving DecidableEq

/-- Reading from the bytes that are left. -/
abbrev Reading := StateT Text (Except Stop)

def malformed {α : Type} : Reading α := throw .malformed

def item : Reading Item := fun s =>
  match MessagePack.read? s with
  | some found => .ok found
  | none => .error .malformed

def head : Reading Head := fun
  | [] => .error .malformed
  | b :: rest =>
    match MessagePack.head? b rest with
    | some (h, used) => .ok (h, rest.drop used)
    | none => .error .malformed

/-- Whether null comes next; it is passed. -/
def null : Reading Bool := fun s =>
  if s.head? = some 0xc0 then .ok (true, s.tail) else .ok (false, s)

/-- The next object, if it is of the right kind. -/
def take {α : Type} (f : Item → Option α) : Reading α := do
  match f (← item) with
  | some x => return x
  | none => malformed

/-- Any integer, by its 64 low bits. -/
def int? : Item → Option Int64
  | .null => some 0
  | .int _ n => some (Int64.ofInt n)
  | .uint _ n => some (Int64.ofInt n)
  | _ => none

def bool? : Item → Option Bool
  | .null => some false
  | .bool b => some b
  | _ => none

/-- Whether a floating-point number of 32 bits can be read, or one of 64. -/
def isNumber (wide : Bool) : Item → Bool
  | .float32 _ => true
  | .float64 _ => wide
  | i => (int? i).isSome

/-- Objects of the right kind reach the constant that is there, which cannot be written over. -/
def collide {α : Type} (attempt : String) (fits : Item → Bool) : Reading α := do
  if fits (← item) then throw (.overwriting attempt) else malformed

mutual

/-- A constant in place of an old one. Only null can be replaced; a list is read item by item until
it has no more items to be replaced. -/
def value : Value → Reading Value
  | .null => Item.value <$> item
  | .bool _ => collide "SetBool" fun i => (bool? i).isSome
  | .text _ => collide "SetString" fun i => i.text?.isSome
  | .bytes _ => collide "SetBytes" fun i => i.text?.isSome
  | .int .. => collide "SetInt" fun i => (int? i).isSome
  | .uint .. => collide "SetUint" fun i => (int? i).isSome
  | .float32 _ => collide "SetFloat" (isNumber false)
  | .float64 _ => collide "SetFloat" (isNumber true)
  | .moment m => do
    if ← null then return .moment m
    collide "Addr" fun
      | .moment _ => true
      | _ => false
  | .list items => do
    match ← head with
    | .item .null => throw (.overwriting "Set")
    | .array count =>
      if items.length < count then valuesOver items
      throw (.overwriting "Set")
    | _ => malformed
  | .map _ => throw (.overwriting "Addr")
  | .keyed _ => throw (.overwriting "Addr")

def valuesOver : List Value → Reading Unit
  | [] => return
  | v :: rest => do
    let _ ← value v
    valuesOver rest

end

/-- So many items, each on top of the old item in its place. -/
def items {α : Type} (zero : α) (one : α → Reading α) : Nat → List α → Reading (List α)
  | 0, _ => return []
  | count + 1, olds => do
    let x ← one (olds.headD zero)
    let xs ← items zero one count olds.tail
    return x :: xs

/-- A list on top of an old one. -/
def list {α : Type} (zero : α) (one : α → Reading α) (old : Option (Slate α)) :
    Reading (Option (Slate α)) := do
  match ← head with
  | .item .null => return none
  | .array count =>
    let cells := (old.getD {}).cells
    let xs ← items zero one count cells
    return some (.overwrite cells xs)
  | _ => malformed

/-- A list of texts in place of an old one. -/
def texts (old : Option (Slate Text)) : Reading (Option (Slate Text)) := do
  match ← head with
  | .item .null => return old
  | .array count =>
    let xs ← items [] (fun _ => take Item.text?) count []
    return some (.ofList xs)
  | _ => malformed

def optional {α : Type} (zero : α) (one : α → Reading α) (old : Option α) : Reading (Option α) := do
  if ← null then return none
  some <$> one (old.getD zero)

/-- So many fields, each after its name. -/
def namedFields {α : Type} (fields : List (Field Reading α)) : Nat → α → Reading α
  | 0, x => return x
  | count + 1, x => do
    let name ← take Item.text?
    match fields.find? fun f => text f.name = name with
    | none => malformed
    | some f => namedFields fields count (← f.read x)

def record {α : Type} (zero : α) (fields : List (Field Reading α)) (old : α) : Reading α := do
  match ← head with
  | .item .null => return zero
  | .map count => namedFields fields count old
  | .array count =>
    if count = 0 then return zero
    else if count = fields.length then fields.foldlM (fun x f => f.read x) old
    else malformed
  | _ => malformed

def reader : Reader Reading where
  text := fun _ => take Item.text?
  int := fun _ => take int?
  bool := fun _ => take bool?
  value := value
  texts := texts
  list := list
  optional := optional
  record := record

end FromMessagePack

namespace ToMessagePack

/-- Whether a constant is the zero of its type. -/
def isZero : Value → Bool
  | .null => true
  | .bool b => !b
  | .text s => s.isEmpty
  | .int _ n => n = 0
  | .uint _ n => n = 0
  | .float64 bits => bits <<< 1 = 0
  | .float32 bits => bits <<< 1 = 0
  | .bytes b => b.isEmpty
  | .moment m => m.isZero
  | .list items => items.isEmpty
  | .map entries => entries.isEmpty
  | .keyed entries => entries.isEmpty

def writer : Writer Item where
  text := .str
  int := fun n => .int .word n.toInt
  bool := .bool
  value := .ofValue
  omits := isZero
  list := fun
    | none => .null
    | some items => .array items
  record := fun fields => .map (fields.map fun (name, i) => (.str (text name), i))

end ToMessagePack

def decodeMessagePack (s : Text) : Except FromMessagePack.Stop File :=
  (FromMessagePack.reader.file.run s).map Prod.fst

def encodeMessagePack (f : File) : Text := (ToMessagePack.writer.file f).write

end TraceLint.Trace
