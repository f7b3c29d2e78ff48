import TraceLint.CommandLine.Flag

/-! Reading arguments: flags and other arguments may mix, and `--` ends the flags. -/
namespace TraceLint.CommandLine

inductive ArgumentFault where
  | badSyntax (argument : Text)
  | unknownFlag (name : Text)
  | unknownShorthand (letter : UInt8) (group : Text)
  | missingLong (name : Text)
  | missingShort (letter : UInt8)
  | invalidValue (value flag reason : Text)
  /-- No complaint: help is asked for by a letter that is no flag. -/
  | helpWanted
deriving DecidableEq

def quotedLetter (b : UInt8) : Text := Text.quotedChar (Char.ofNat b.toNat)

def ArgumentFault.message : ArgumentFault → Text
  | .badSyntax argument => text "bad flag syntax: " ++ argument
  | .unknownFlag name => text "unknown flag: --" ++ name
  | .unknownShorthand letter group =>
    text "unknown shorthand flag: " ++ quotedLetter letter ++ text " in -" ++ group
  | .missingLong name => text "flag needs an argument: --" ++ name
  | .missingShort letter =>
    text "flag needs an argument: " ++ quotedLetter letter ++ text " in -" ++ [letter]
  | .invalidValue value flag reason =>
    text "invalid argument " ++ Text.quoted value ++ text " for " ++ Text.quoted flag ++
      text " flag: " ++ reason
  | .helpWanted => text "help requested"

/-- The flags with one of them set, and the complaint about the argument. The flag is set in any
case. -/
def set (flags : List Flag) (name s : Text) : List Flag × Option ArgumentFault :=
  match find? flags name with
  | none => (flags, none)
  | some f =>
    let (value, reason) := f.valueOf s
    (flags.map fun g => if g.name = name then { g with value } else g,
      reason.map fun r => .invalidValue s f.written r)

/-- A flag that takes the next argument as its value. -/
structure Awaiting where
  name : Text
  /-- The complaint if there is no next argument. -/
  otherwise : ArgumentFault

/-- Where the reading of one argument leaves off. -/
structure Step where
  flags : List Flag
  awaiting : Option Awaiting := none
  fault : Option ArgumentFault := none

def setStep (flags : List Flag) (name s : Text) : Step :=
  let (flags, fault) := set flags name s
  { flags, fault }

def long (flags : List Flag) (argument : Text) : Step :=
  let body := argument.drop 2
  if body.head?.all fun b => b = byte '-' || b = byte '=' then
    { flags, fault := some (.badSyntax argument) }
  else
    let (name, value) := match Text.cut (byte '=') body with
      | some (name, value) => (name, some value)
      | none => (body, none)
    match find? flags name, value with
    | none, _ => { flags, fault := some (.unknownFlag name) }
    | some f, some value => setStep flags f.name value
    | some f, none =>
      if f.isSwitch then setStep flags name (text "true")
      else { flags, awaiting := some ⟨name, .missingLong name⟩ }

/-- The letters after one dash. A flag that needs a value takes the letters after it, or the next
argument. Letters that start with `test.` are passed over. -/
def short (flags : List Flag) : Text → Step
  | [] => { flags }
  | letter :: rest =>
    if (text "test.").isPrefixOf (letter :: rest) then { flags }
    else match flags.find? fun f => f.shorthand = some letter with
      | none =>
        { flags, fault := some (if letter = byte 'h' then .helpWanted
            else .unknownShorthand letter (letter :: rest)) }
      | some f =>
        if rest.head? = some (byte '=') && rest.length ≠ 1 then setStep flags f.name (rest.drop 1)
        else if f.isSwitch then
          let (flags, fault) := set flags f.name (text "true")
          match fault with
          | some _ => { flags, fault }
          | none => short flags rest
        else if rest ≠ [] then setStep flags f.name rest
        else { flags, awaiting := some ⟨f.name, .missingShort letter⟩ }

/-- What arguments give. The flags that were set before a fault stay set. -/
structure Parsed where
  flags : List Flag
  others : List Text := []
  fault : Option ArgumentFault := none

/-- An argument that is no flag: no dash at its start, or nothing but a dash. -/
def isPlain (argument : Text) : Bool :=
  argument.head? ≠ some (byte '-') || argument.length = 1

/-- Reads arguments; `others` are those before that are no flags, the latest first. -/
def parseFrom (flags : List Flag) (others : List Text) (awaiting : Option Awaiting) :
    List Text → Parsed
  | [] =>
    match awaiting with
    | some a => ⟨flags, others.reverse, some a.otherwise⟩
    | none => ⟨flags, others.reverse, none⟩
  | argument :: rest =>
    let proceed (step : Step) : Parsed :=
      match step.fault with
      | some fault => ⟨step.flags, others.reverse, some fault⟩
      | none => parseFrom step.flags others step.awaiting rest
    match awaiting with
    | some a => proceed (setStep flags a.name argument)
    | none =>
      if isPlain argument then parseFrom flags (argument :: others) none rest
      else if argument = text "--" then ⟨flags, others.reverse ++ rest, none⟩
      else if (text "--").isPrefixOf argument then proceed (long flags argument)
      else proceed (short flags (argument.drop 1))

def parse (flags : List Flag) (arguments : List Text) : Parsed := parseFrom flags [] none arguments

end TraceLint.CommandLine
