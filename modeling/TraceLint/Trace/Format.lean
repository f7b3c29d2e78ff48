import TraceLint.Text.Utf8

/-! The encodings of a trace, chosen by file extension. -/
namespace TraceLint.Trace

inductive Format where
  | yaml
  | json
  | messagePack
  /-- A number that stands for no encoding. -/
  | unknown (code : Int)
deriving DecidableEq

namespace Format

def code : Format → Int
  | .yaml => 0
  | .json => 1
  | .messagePack => 2
  | .unknown code => code

def ofCode (n : Int) : Format :=
  if n = 0 then .yaml else if n = 1 then .json else if n = 2 then .messagePack else .unknown n

def shown : Format → Text
  | .yaml => text "yaml"
  | .json => text "json"
  | .messagePack => text "msgpack"
  | .unknown code => text "Format(" ++ Text.ofInt code ++ text ")"

/-- The characters of the last path element from its last dot on. -/
def extension (filename : List Char) : List Char :=
  let base := (filename.reverse.takeWhile (· ≠ '/')).reverse
  if base.contains '.' then '.' :: (base.reverse.takeWhile (· ≠ '.')).reverse else []

/-- The lower case of a letter, as far as it is ASCII: the Kelvin sign is a capital of `k`. -/
def lower (c : Char) : Char := if c.toNat = 0x212a then 'k' else c.toLower

/-- The encoding that the extension of a file name implies, whatever its case. -/
def ofFilename? (filename : Text) : Option Format :=
  let ext := (extension (Utf8.chars filename)).map lower
  if ext = ".yaml".toList || ext = ".yml".toList then some .yaml
  else if ext = ".json".toList then some .json
  else if ext = ".msgpack".toList || ext = ".mpk".toList then some .messagePack
  else none

/-- The complaint about a file name that implies no encoding. -/
def unrecognized (filename : Text) : Text := filename ++ text ": unrecognized trace file extension"

end Format

end TraceLint.Trace
