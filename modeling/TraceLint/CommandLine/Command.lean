import TraceLint.Analysis.Validate
import TraceLint.CommandLine.Arguments
import TraceLint.CommandLine.Help
import TraceLint.Logging.Analysis
import TraceLint.Session

/-! The command for one analysis. Its flags keep their values from one call to the next, where the
values are the new defaults; only the files of profiles are forgotten. -/
namespace TraceLint.CommandLine

structure Tool where
  /-- The catalog, which may depend on the flags that the analysis declares. -/
  catalog : List Flag → Catalog
  root : Analysis.Id
  declared : List Flag := []

/-- What lasts between calls. -/
structure Preferences where
  json : Bool := false
  debug : Text := []
  context : Int64 := -1
  declared : List Flag := []

namespace Tool

def signOnly : Flag where
  name := text "signonly"
  usage := text "report format strings that contain no letters"
  initial := .bool true
  declared := true

def logging : Tool where
  catalog := fun flags => Logging.catalog (boolOf flags "signonly")
  root := 1
  declared := [signOnly]

def preferences (tool : Tool) : Preferences := { declared := tool.declared }

def name (tool : Tool) : Text := (tool.catalog tool.declared).nameOf tool.root

def doc (tool : Tool) : Text :=
  match (tool.catalog tool.declared)[tool.root]? with
  | some a => a.doc
  | none => []

def validate (tool : Tool) : Except Analysis.Flaw Unit :=
  Analysis.validate (tool.catalog tool.declared) [some tool.root]

end Tool

def commonFlags (p : Preferences) : List Flag :=
  [{ name := text "json", usage := text "emit JSON output", initial := .bool p.json },
   { name := text "debug", usage := text "debug flags, any subset of \"pstv\"",
     initial := .text p.debug },
   { name := text "context", shorthand := some (byte 'c'), initial := .int p.context
     usage := text "display offending instruction with this many instructions of context" },
   { name := text "cpuprofile", usage := text "write CPU profile to this file",
     initial := .text [] },
   { name := text "memprofile", usage := text "write memory profile to this file",
     initial := .text [] },
   { name := text "trace", usage := text "write trace log to this file", initial := .text [] }]

/-- A flag of one letter is its own shorthand. -/
def ownShorthand (f : Flag) : Option UInt8 :=
  match f.name with
  | [letter] => some letter
  | _ => none

/-- A shorthand that two flags claim: the command is broken. -/
structure Clash where
  letter : UInt8
  command : Text
  holder : Text
deriving DecidableEq

def Clash.message (c : Clash) : Text :=
  text "unable to redefine " ++ quotedLetter c.letter ++ text " shorthand in " ++
    Text.quoted c.command ++ text " flagset: it's already used for " ++ Text.quoted c.holder ++
    text " flag"

def addFlag (command : Text) (flags : List Flag) (f : Flag) : Except Clash (List Flag) :=
  match f.shorthand with
  | none => .ok (flags ++ [f])
  | some letter =>
    match flags.find? fun g => g.shorthand = some letter with
    | some holder => .error ⟨letter, command, holder.name⟩
    | none => .ok (flags ++ [f])

/-- The flags of a command, and the names of declared flags that give way to common ones. -/
structure Flags where
  all : List Flag
  skipped : List Text

/-- The flags that the values of the last call give. -/
def flagsOf (command : Text) (p : Preferences) : Except Clash Flags := do
  let common := commonFlags p
  let declared := byName p.declared
  let clashes (f : Flag) := (find? common f.name).isSome
  let kept := (declared.filter (!clashes ·)).map fun f =>
    { f with shorthand := ownShorthand f, initial := f.value }
  let all ← kept.foldlM (addFlag command) common
  let helpFlag : Flag :=
    { name := text "help", shorthand := some (byte 'h'), usage := text "help for " ++ command
      initial := .bool false }
  let all ← if (find? all helpFlag.name).isSome then pure all else addFlag command all helpFlag
  return ⟨all, (declared.filter clashes).map Flag.name⟩

def remember (p : Preferences) (flags : List Flag) : Preferences where
  json := boolOf flags "json"
  debug := textOf flags "debug"
  context := intOf flags "context"
  declared := p.declared.map fun f =>
    match flags.find? fun g => g.declared && g.name = f.name with
    | some g => { f with value := g.value }
    | none => f

inductive Request where
  | refused (message : Text)
  /-- Help, because it is asked for. -/
  | help (s : Text)
  /-- A declared flag makes it impossible to tell whether help is asked for. -/
  | helpUnclear
  | run (settings : Settings) (filenames : List Text)

/-- What a call asks for, what it leaves behind, and the flags that were passed over. -/
structure Call where
  request : Request
  preferences : Preferences
  skipped : List Text

def settingsOf (flags : List Flag) (color : Bool) : Settings where
  json := boolOf flags "json"
  debug := textOf flags "debug"
  context := intOf flags "context"
  color := color
  cpuProfile := textOf flags "cpuprofile"
  memProfile := textOf flags "memprofile"
  trace := textOf flags "trace"

/-- Reads the arguments of a call. A fault in them comes before help, and help before missing
files. -/
def call (tool : Tool) (color : Bool) (p : Preferences) (arguments : List Text) :
    Except Clash Call := do
  let flags ← flagsOf tool.name p
  let parsed := parse flags.all arguments
  let asked : Request := .help (help tool.name tool.doc flags.all)
  let request : Request := match parsed.fault with
    | some .helpWanted => asked
    | some fault => .refused fault.message
    | none =>
      match valueOf? parsed.flags "help" with
      | some (.bool true) => asked
      | some (.bool false) =>
        if parsed.others.isEmpty then .refused (text "requires at least 1 arg(s), only received 0")
        else .run (settingsOf parsed.flags color) parsed.others
      | _ => .helpUnclear
  return ⟨request, remember p parsed.flags, flags.skipped⟩

/-- What a call shows. If it does not end, `refrain` follows on `stdout` over and over. -/
structure Shown where
  error : Option Text := none
  stdout : Text := []
  stderr : Text := []
  help : Text := []
  log : Text := []
  refrain : Option Text := none

def skippedLine (command flag : Text) : Text :=
  command ++ text " flag -" ++ flag ++ text " would conflict with driver; skipping\n"

/-- Why a call broke off without an answer. -/
inductive Breakdown where
  | clash (c : Clash)
  | broken (message : Text)
deriving DecidableEq

def Breakdown.message : Breakdown → Text
  | .clash c => c.message
  | .broken message => message

def perform (tool : Tool) (c : Call) (fs : FileSystem) : FileSystem × Except Breakdown Shown :=
  let log := c.skipped.flatMap (skippedLine tool.name)
  match c.request with
  | .refused message => (fs, .ok { error := some message, log })
  | .help s => (fs, .ok { help := s, log })
  | .helpUnclear =>
    (fs, .ok { error := some (text "trying to get bool value of flag of type string"), log
               help := text "\"help\" flag declared as non-bool. Please correct your code\n" })
  | .run settings filenames =>
    let catalog := tool.catalog c.preferences.declared
    match Session.run settings catalog [tool.root] fs filenames with
    | (fs, .ok printed) =>
      (fs, .ok { stdout := printed.stdout, stderr := printed.stderr, log
                 refrain := printed.refrain })
    | (fs, .error (.broken message)) => (fs, .error (.broken message))
    | (fs, .error fault) => (fs, .ok { error := some fault.message, log })

/-- Calls one after another, each with the values that the one before left. -/
def calls (tool : Tool) (color : Bool) (fs : FileSystem) (p : Preferences) :
    List (List Text) → Except Breakdown (List Shown)
  | [] => .ok []
  | arguments :: rest =>
    match call tool color p arguments with
    | .error c => .error (.clash c)
    | .ok c =>
      match perform tool c fs with
      | (_, .error breakdown) => .error breakdown
      | (fs, .ok shown) =>
        -- After a call that does not end there is no other.
        if shown.refrain.isSome then .ok [shown]
        else (calls tool color fs c.preferences rest).map (shown :: ·)

/-- What a process leaves behind. One that does not end has no status, but a refrain on `stdout`. -/
structure Exit where
  status : UInt32
  stdout : Text := []
  stderr : Text := []
  refrain : Option Text := none

/-- Lines of the log start with the name of the command. -/
def logLine (command message : Text) : Text := command ++ text ": " ++ message ++ [byte '\n']

/-- The end of a process that made one call: complaints go to the log, help to the output. -/
def exitOf (tool : Tool) (c : Call) (shown : Shown) : Exit :=
  let log := c.skipped.flatMap fun flag => tool.name ++ text ": " ++ skippedLine tool.name flag
  match shown.error with
  | none => ⟨0, shown.help ++ shown.stdout, log ++ shown.stderr, shown.refrain⟩
  | some message =>
    ⟨1, shown.stdout, log ++ shown.help ++ shown.stderr ++ logLine tool.name message, shown.refrain⟩

def exit (tool : Tool) (color : Bool) (fs : FileSystem) (arguments : List Text) :
    FileSystem × Except Breakdown Exit :=
  match tool.validate with
  | .error flaw => (fs, .ok { status := 1, stderr := logLine tool.name flaw.message })
  | .ok () =>
    match call tool color tool.preferences arguments with
    | .error c => (fs, .error (.clash c))
    | .ok c =>
      let (fs, answer) := perform tool c fs
      (fs, answer.map (exitOf tool c))

/-- The paths that a process with some arguments looks at. -/
def mentioned (tool : Tool) (arguments : List Text) : List Text :=
  match call tool false tool.preferences arguments with
  | .ok ⟨.run settings filenames, _, _⟩ =>
    [settings.cpuProfile, settings.trace, settings.memProfile].filter (· ≠ []) ++ filenames
  | _ => []

end TraceLint.CommandLine
