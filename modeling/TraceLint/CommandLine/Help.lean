import TraceLint.CommandLine.Flag
import TraceLint.Unicode.Space

/-! The help text of a command. -/
namespace TraceLint.CommandLine

/-- The word that a usage puts between back quotes, and the usage without the quotes. -/
def quotedWord? (usage : Text) : Option (Text × Text) := do
  let (before, rest) ← Text.cut 0x60 usage
  let (word, after) ← Text.cut 0x60 rest
  return (word, before ++ word ++ after)

def argumentName (f : Flag) : Text × Text :=
  match quotedWord? f.usage with
  | some found => found
  | none =>
    match f.initial with
    | .bool _ => ([], f.usage)
    | .text _ => (text "string", f.usage)
    | .int _ => (text "int", f.usage)

/-- Whether a flag's default goes without saying. -/
def isZero (f : Flag) : Bool :=
  let shown := f.initial.shown
  if f.declared then (["false", "<nil>", "", "0"].map text).contains shown
  else match f.initial with
    | .bool b => !b
    | .text s => s = []
    | .int n => n = 0

def defaultText (f : Flag) : Text :=
  if isZero f then []
  else
    let shown := match f.initial with
      | .text s => Text.quoted s
      | v => v.shown
    text " (default " ++ shown ++ text ")"

def flagColumn (f : Flag) : Text :=
  let head := match f.shorthand with
    | some letter => text "  -" ++ letter :: text ", --" ++ f.name
    | none => text "      --" ++ f.name
  let (name, _) := argumentName f
  if name = [] then head else head ++ byte ' ' :: name

/-- Each line of a text after the first, moved to a column. -/
def hang (column : Nat) (s : Text) : Text :=
  Text.join (byte '\n' :: List.replicate column (byte ' ')) (Text.splitOn (byte '\n') s)

/-- One line per flag in the order of their names, the usages three columns after the longest
flag. -/
def flagUsages (flags : List Flag) : Text :=
  let flags := byName flags
  let width := flags.foldl (fun n f => max n (flagColumn f).length) 0
  flags.flatMap fun f =>
    let column := flagColumn f
    column ++ List.replicate (width + 3 - column.length) (byte ' ') ++
      hang (width + 3) ((argumentName f).2 ++ defaultText f) ++ [byte '\n']

/-- The documentation, how to call the command, and its flags. -/
def help (name doc : Text) (flags : List Flag) : Text :=
  let doc := Unicode.trimEnd doc
  let intro := if doc = [] then [] else doc ++ text "\n\n"
  intro ++ text "Usage:\n  " ++ name ++ text " [flags] trace.yaml...\n\nFlags:\n" ++
    Unicode.trimEnd (flagUsages flags) ++ [byte '\n']

end TraceLint.CommandLine
