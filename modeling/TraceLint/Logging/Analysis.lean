import TraceLint.Analysis.Inspection
import TraceLint.Logging.Check

/-! The analysis of all logging calls of a class. -/
namespace TraceLint.Logging

open Bytecode (Method Instruction Event Inspector)

def CallSite.of (c : Bytecode.Class) (m : Method) (i : Instruction) : CallSite :=
  ⟨.of c m i, i.owner, i.name, i.desc, i.stack⟩

/-- What the checks of some call sites gave, the latest first. -/
structure Tally where
  checked : Nat := 0
  findings : List (List Finding) := []
  errors : List Text := []

/-- Counts one call site. A malformed descriptor at one site does not hide the others. -/
def Tally.add (hierarchy : Hierarchy) (reportSignOnly : Bool) (t : Tally)
    (site : CallSite) : Tally :=
  if site.isLogging then
    match check site hierarchy reportSignOnly with
    | .ok findings => { t with checked := t.checked + 1, findings := findings :: t.findings }
    | .error e =>
      { t with
        checked := t.checked + 1
        errors := (site.pos.shown ++ text ": " ++ e.message) :: t.errors }
  else t

def survey (inspector : Inspector) (hierarchy : Hierarchy) (reportSignOnly : Bool) : Tally :=
  inspector.visitOpcodes (some [.invokeInterface]) (fun t e =>
    (t.add hierarchy reportSignOnly (.of e.cls e.method e.instruction), true)) {}

/-- The findings in order, the number of logging calls, and one line per error. -/
def Tally.outcome (t : Tally) : Analysis.Outcome where
  findings := (t.findings.reverse.flatten).map Finding.reported
  output := .value (.ofInt t.checked)
  error := if t.errors.isEmpty then none else some (Text.join [byte '\n'] t.errors.reverse)

/-- Runs the analysis with the inspector among its inputs. Without a program only the built-in
classes are known. -/
def run (inspect : Analysis.Id) (reportSignOnly : Bool) (task : Analysis.Task) : Analysis.Outcome :=
  let hierarchy := match task.program with
    | some program => program.hierarchy
    | none => .initial
  match task.inputs.lookup inspect with
  | some (.inspector inspector) => (survey inspector hierarchy reportSignOnly).outcome
  | _ => { error := some (text "no inspector among the inputs") }

def doc : Text := text "check consistency of SLF4J format strings and arguments

The slf4j analysis reports calls to org.slf4j.Logger whose format
string has a different number of \x7b\x7d placeholders than the call has
arguments, whose format is computed at run time, whose format consists
only of signs, or whose arguments are passed in an array built
elsewhere."

/-- The analysis, given the place of the inspection in the catalog. Its result is the number of
logging calls. -/
def analysis (inspect : Analysis.Id) (reportSignOnly : Bool) : Analysis where
  name := text "slf4j"
  doc := doc
  run := some (run inspect reportSignOnly)
  requires := [some inspect]
  outputType := some (.int .word)

/-- The inspection and the analysis, at the places 0 and 1. -/
def catalog (reportSignOnly : Bool) : Catalog := [Analysis.inspection, analysis 0 reportSignOnly]

end TraceLint.Logging
