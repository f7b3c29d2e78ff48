import TraceLint.Load
import TraceLint.Report.Tree

/-! One run of the checker: load, analyse, report. -/
namespace TraceLint

/-- The choices that a run depends on. -/
structure Settings where
  json : Bool := false
  /-- Letters of the debugging aids that are on. -/
  debug : Text := []
  context : Int64 := -1
  color : Bool := false
  /-- Files for profiles, none if empty. -/
  cpuProfile : Text := []
  memProfile : Text := []
  trace : Text := []

namespace Session

inductive Fault where
  | profile (fault : FileSystem.Fault)
  | load (fault : Load.Fault)
  /-- Data that breaks its reader, or a finding that cannot be encoded. -/
  | broken (message : Text)
deriving DecidableEq

def Fault.message : Fault → Text
  | .profile fault => fault.message
  | .load fault => fault.message
  | .broken message => message

/-- Makes the file of a profile, if one is asked for. -/
def createProfile (fs : FileSystem) (path : Text) : Except FileSystem.Fault FileSystem :=
  if path = [] then .ok fs else fs.create path

/-- Makes the files of all profiles. What was made stays there if a later one fails. -/
def createProfiles (fs : FileSystem) (settings : Settings) : FileSystem × Option FileSystem.Fault :=
  [settings.cpuProfile, settings.trace, settings.memProfile].foldl (fun (fs, fault) path =>
    match fault with
    | some fault => (fs, some fault)
    | none =>
      match createProfile fs path with
      | .ok fs => (fs, none)
      | .error fault => (fs, some fault)) (fs, none)

/-- Whether every finding of some actions survives encoding. -/
def encodable (ledger : Analysis.Ledger) : Bool :=
  ledger.all fun (_, conclusion) => conclusion.findings.all fun f => f.severity.name?.isSome

def report (settings : Settings) (catalog : Catalog) (analyses : List Analysis.Id)
    (program : Bytecode.Program) : Except Fault Report.Printed :=
  let project : Analysis.Project := ⟨catalog, program, program.classes⟩
  if settings.debug.contains (byte 's') && !encodable (project.ledger analyses) then
    .error (.broken (text "internal error: encoding of finding failed"))
  else
    let roots := project.analyze analyses
    let sections := Report.sections catalog roots
    let failures := Report.failures catalog roots
    if settings.json then
      match Report.json? sections failures with
      | some printed => .ok printed
      | none => .error (.broken (text "internal error: JSON marshalling failed"))
    else .ok (Report.plain ⟨settings.color, settings.context⟩ program sections failures)

def run (settings : Settings) (catalog : Catalog) (analyses : List Analysis.Id) (fs : FileSystem)
    (filenames : List Text) : FileSystem × Except Fault Report.Printed :=
  match createProfiles fs settings with
  | (fs, some fault) => (fs, .error (.profile fault))
  | (fs, none) =>
    match Load.program fs filenames with
    | .error fault =>
      match fault.breakdown? with
      | some message => (fs, .error (.broken message))
      | none => (fs, .error (.load fault))
    | .ok program => (fs, report settings catalog analyses program)

end Session

end TraceLint
