import TraceLint.Bytecode.Inspector
import TraceLint.Finding

/-! Analyses: what they declare, what they are given and what they hand on. -/
namespace TraceLint

namespace Analysis

/-- The place of an analysis in its catalog, which is its identity: two analyses with the same name
are still two. -/
abbrev Id := Nat

inductive OutputType where
  | bool
  | text
  | int (width : Width)
  | uint (width : Width)
  | float64
  | float32
  | bytes
  | moment
  | list
  | map
  | keyed
  | inspector
deriving DecidableEq

namespace OutputType

/-- The number of bits after the name of an integer type. -/
def widthText : Width → Text
  | .word => []
  | .bits8 => TraceLint.text "8"
  | .bits16 => TraceLint.text "16"
  | .bits32 => TraceLint.text "32"
  | .bits64 => TraceLint.text "64"

def shown : OutputType → Text
  | .bool => TraceLint.text "bool"
  | .text => TraceLint.text "string"
  | .int width => TraceLint.text "int" ++ widthText width
  | .uint width => TraceLint.text "uint" ++ widthText width
  | .float64 => TraceLint.text "float64"
  | .float32 => TraceLint.text "float32"
  | .bytes => TraceLint.text "[]uint8"
  | .moment => TraceLint.text "time.Time"
  | .list => TraceLint.text "[]interface \x7b\x7d"
  | .map => TraceLint.text "map[string]interface \x7b\x7d"
  | .keyed => TraceLint.text "map[interface \x7b\x7d]interface \x7b\x7d"
  | .inspector => TraceLint.text "*inspector.Inspector"

/-- The type of a value; null has none. -/
def ofValue? : Value → Option OutputType
  | .null => none
  | .bool _ => some .bool
  | .text _ => some .text
  | .int width _ => some (.int width)
  | .uint width _ => some (.uint width)
  | .float64 _ => some .float64
  | .float32 _ => some .float32
  | .bytes _ => some .bytes
  | .moment _ => some .moment
  | .list _ => some .list
  | .map _ => some .map
  | .keyed _ => some .keyed

def shownOption : Option OutputType → Text
  | none => TraceLint.text "<nil>"
  | some t => t.shown

end OutputType

/-- The result that an analysis hands on to those that require it. -/
inductive Output where
  | value (v : Value)
  | inspector (i : Bytecode.Inspector)

def Output.type? : Output → Option OutputType
  | .value v => OutputType.ofValue? v
  | .inspector _ => some .inspector

/-- What an analysis sees of its work. -/
structure Task where
  cls : Bytecode.Class
  /-- All classes under analysis, where they are known. -/
  program : Option Bytecode.Program
  /-- The results of the required analyses on this class. -/
  inputs : List (Id × Output)

structure Outcome where
  /-- In the order in which they were reported, also before a failure. -/
  findings : List Finding := []
  output : Output := .value .null
  error : Option Text := none

end Analysis

open Analysis in
structure Analysis where
  name : Text
  doc : Text
  /-- The work itself, a function of the task alone. -/
  run : Option (Task → Outcome)
  /-- Whether classes that were decoded only in part are analysed too. -/
  runDespiteErrors : Bool := false
  /-- The analyses whose results it needs. -/
  requires : List (Option Id) := []
  outputType : Option OutputType := none

/-- The analyses that exist, each at its place. -/
abbrev Catalog := List Analysis

namespace Catalog

def requirements (catalog : Catalog) (id : Analysis.Id) : List Analysis.Id :=
  match catalog[id]? with
  | some a => a.requires.filterMap fun r => r
  | none => []

def nameOf (catalog : Catalog) (id : Analysis.Id) : Text :=
  match catalog[id]? with
  | some a => a.name
  | none => []

end Catalog

/-- A finding as it is reported: without a severity it gets the normal one. -/
def Finding.reported (f : Finding) : Finding :=
  if f.severity.rank = 0 then { f with severity := .normal } else f

/-- An analysis at work on a class, by name. -/
def Analysis.label (name cls : Text) : Text := name ++ byte '@' :: cls

end TraceLint
