import TraceLint.Trace.Schema
import TraceLint.Yaml.Expansion
import TraceLint.Yaml.Mapping
import TraceLint.Yaml.Printer

/-! Traces as YAML. A repeated or unknown key is refused; an entry whose key or value is null is as
good as absent, and so is a null item of a list. -/
namespace TraceLint.Trace

open Yaml (Node Doc)

namespace FromYaml

/-- The text of a scalar as it is written, whatever it denotes. -/
def text? (old : Text) (n : Node) : Option Text := n.text?.map (·.getD old)

/-- The integer part of a floating-point number, if it does not lie above 64 bits; far below them it
is the least integer. -/
def truncate? (bits : UInt64) : Option Int64 :=
  match Number.binary64.decode bits.toNat with
  | .finite negative significand exponent =>
    let n : Int := if 0 ≤ exponent then significand * Number.twoTo exponent.toNat
      else significand / Number.twoTo (-exponent).toNat
    let n := if negative then -n else n
    if n ≤ Number.greatest64 + 1 then
      some (if Number.fits64 n then Int64.ofInt n else Int64.ofInt Number.least64)
    else none
  | .infinite negative => if negative then some (Int64.ofInt Number.least64) else none
  | .nan => none

def int? (old : Int64) (n : Node) : Option Int64 := do
  match ← n.value? with
  | .null => return old
  | .int _ n => return Int64.ofInt n
  | .float64 bits => truncate? bits
  | _ => none

/-- A truth value, or one of the words that stand for one where a truth value is expected. -/
def bool? (old : Bool) (n : Node) : Option Bool := do
  match ← n.value? with
  | .null => return old
  | .bool b => return b
  | .text t =>
    if Yaml.isWord ["y", "Y", "yes", "Yes", "YES", "on", "On", "ON"] t then return true
    else if Yaml.isWord ["n", "N", "no", "No", "NO", "off", "Off", "OFF"] t then return false
    else none
  | _ => none

def items? {α : Type} (zero : α) (item : α → Node → Option α) : List Node → Option (List α)
  | [] => some []
  | n :: rest =>
    if n.isNull then items? zero item rest
    else do
      let x ← item zero n
      let xs ← items? zero item rest
      return x :: xs

def list? {α : Type} (zero : α) (item : α → Node → Option α) (n : Node) :
    Option (Option (List α)) :=
  match n.target with
  | .sequence _ items => (items? zero item items).map some
  | n => if n.isNull then some none else none

/-- An item, or none for null. A collection with the tag of null is neither. -/
def optional? {α : Type} (zero : α) (item : α → Node → Option α) (n : Node) : Option (Option α) :=
  if n.isNull then some none
  else if n.target.kind = text "!!null" then none
  else (item zero n).map some

/-- Reading from a node, or failing to. -/
abbrev Reading := ReaderT Node Option

def record? {α : Type} (fields : List (Field Reading α)) (old : α) (n : Node) : Option α :=
  if n.isNull then some old
  else do
    let entries ← n.target.entries?
    entries.foldlM (fun x (name, n) => do
      let field ← fields.find? fun f => text f.name = name
      field.read x n) old

def reader : Reader Reading where
  text := text?
  int := int?
  bool := bool?
  value := fun _ => Node.value?
  texts := fun _ n => (list? [] text? n).map (·.map .ofList)
  list := fun zero item _ n => (list? zero item n).map (·.map .ofList)
  optional := fun zero item _ n => optional? zero item n
  record := fun _ => record?

end FromYaml

namespace ToYaml

/-- Whether a constant is left out: null, and the moment that stands for none. -/
def omits : Value → Bool
  | .null => true
  | .moment m => m.isZero
  | _ => false

def writer : Writer Doc where
  text := fun s => .leaf (.text s)
  int := fun n => .leaf (.word (Text.ofInt n.toInt))
  bool := fun b => .leaf (.word (Yaml.boolWord b))
  value := .ofValue
  omits := omits
  list := fun items => .sequence (items.getD [])
  record := fun fields => .mapping (fields.map fun (name, d) => (.text (text name), d))

end ToYaml

/-- Reads a trace from YAML text; a text without a document is an empty trace. -/
def decodeYaml? (s : Text) : Option File :=
  (Node.parse? s).bind fun
    | none => some {}
    | some n => if n.withinLimit then FromYaml.reader.file.run n else none

def encodeYaml (f : File) : Text := (ToYaml.writer.file f).render

end TraceLint.Trace
