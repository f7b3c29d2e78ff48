import TraceLint.Number.Integer
import TraceLint.Text.Quoted

/-! The flags of a command. -/
namespace TraceLint.CommandLine

inductive FlagValue where
  | bool (b : Bool)
  | text (s : Text)
  | int (n : Int64)
deriving DecidableEq

def FlagValue.shown : FlagValue → Text
  | .bool b => TraceLint.text (if b then "true" else "false")
  | .text s => s
  | .int n => Text.ofInt n.toInt

structure Flag where
  name : Text
  /-- The letter that stands for the name after a single dash. -/
  shorthand : Option UInt8 := none
  usage : Text
  /-- The value before any argument is read. -/
  initial : FlagValue
  value : FlagValue := initial
  /-- Set for flags of the analysis, as opposed to those of every command. -/
  declared : Bool := false

namespace Flag

/-- A flag that needs no argument: by itself it means yes. -/
def isSwitch (f : Flag) : Bool :=
  match f.value with
  | .bool _ => true
  | _ => false

/-- The flag as it is written in arguments. -/
def written (f : Flag) : Text :=
  match f.shorthand with
  | some letter => byte '-' :: letter :: text ", --" ++ f.name
  | none => text "--" ++ f.name

/-- The texts that mean yes or no. -/
def truth? (s : Text) : Option Bool :=
  if (["1", "t", "T", "TRUE", "true", "True"].map text).contains s then some true
  else if (["0", "f", "F", "FALSE", "false", "False"].map text).contains s then some false
  else none

/-- Why an argument is no value of a flag. -/
def refusal (parser : String) (s : Text) (reason : String) : Text :=
  text parser ++ text ": parsing " ++ Text.quoted s ++ text ": " ++ text reason

/-- The value that an argument gives, and the complaint about it if it is malformed: the value is
then the zero of its type, or the nearest number in range. -/
def valueOf (f : Flag) (s : Text) : FlagValue × Option Text :=
  match f.value with
  | .text _ => (.text s, none)
  | .bool _ =>
    match truth? s with
    | some b => (.bool b, none)
    | none =>
      (.bool false, some (if f.declared then text "parse error"
        else refusal "strconv.ParseBool" s "invalid syntax"))
  | .int _ =>
    match Number.integer64 s with
    | .ok n => (.int (Int64.ofInt n), none)
    | .error .malformed => (.int 0, some (refusal "strconv.ParseInt" s "invalid syntax"))
    | .error (.outOfRange n) =>
      (.int (Int64.ofInt n), some (refusal "strconv.ParseInt" s "value out of range"))

end Flag

def find? (flags : List Flag) (name : Text) : Option Flag := flags.find? fun f => f.name = name

def valueOf? (flags : List Flag) (name : String) : Option FlagValue :=
  (find? flags (text name)).map Flag.value

def boolOf (flags : List Flag) (name : String) : Bool :=
  match valueOf? flags name with
  | some (.bool b) => b
  | _ => false

def textOf (flags : List Flag) (name : String) : Text :=
  match valueOf? flags name with
  | some (.text s) => s
  | _ => []

def intOf (flags : List Flag) (name : String) : Int64 :=
  match valueOf? flags name with
  | some (.int n) => n
  | _ => 0

/-- The flags in the order of their names. -/
def byName (flags : List Flag) : List Flag := flags.mergeSort fun x y => !Text.lt y.name x.name

end TraceLint.CommandLine
