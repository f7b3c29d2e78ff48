import TraceLint.Analysis.Action
import TraceLint.Expectation.Basic
import TraceLint.Load
import TraceLint.Path
import TraceLint.Unicode.Space

/-! Testing an analysis on the traces of some directories, which make up one program. -/
namespace TraceLint.Expectation

structure Suite (ρ : Type) where
  classes : List Bytecode.Class := []
  wants : List (Expectation ρ) := []

inductive Fault where
  | listing (fault : FileSystem.Fault)
  | noTraces (directory : Text)
  | load (fault : Load.Fault)
  | build (filename : Text) (fault : Trace.BuildFault)
  /-- An expectation that is no pattern, with what is wrong with it. -/
  | expectation (filename message : Text)
deriving DecidableEq

def Fault.message : Fault → Text
  | .listing fault => fault.message
  | .noTraces directory => directory ++ text ": no trace files"
  | .load fault => fault.message
  | .build filename fault => filename ++ text ": " ++ fault.message
  | .expectation filename message => filename ++ text ": " ++ message

/-- What is said when loading does not only fail but breaks the loader. -/
def Fault.breakdown? : Fault → Option Text
  | .load fault => fault.breakdown?
  | _ => none

/-- The trace files of a directory, in the order of their names. -/
def traceFiles (fs : FileSystem) (directory : Text) : Except Fault (List Text) :=
  match fs.list directory with
  | .error fault => .error (.listing fault)
  | .ok names =>
    let paths := names.filterMap fun name =>
      let path := Path.join [directory, name]
      if (Trace.Format.ofFilename? name).isSome && !fs.isDirectory path then some path else none
    if paths.isEmpty then .error (.noTraces directory) else .ok paths

namespace Suite

def addFile (fs : FileSystem) (s : Suite Expression) (filename : Text) :
    Except Fault (Suite Expression) :=
  match Load.traceFile fs filename with
  | .error fault => .error (.load fault)
  | .ok file =>
    match file.build, ofFile file with
    | .error fault, _ => .error (.build filename fault)
    | .ok _, .error message => .error (.expectation filename message)
    | .ok classes, .ok wants => .ok ⟨s.classes ++ classes, s.wants ++ wants⟩

/-- Loads the trace files of some directories below `testdata`. -/
def load (fs : FileSystem) (testdata : Text) (directories : List Text) :
    Except Fault (Suite Expression) :=
  directories.foldlM (fun s d => do
    let paths ← traceFiles fs (Path.join [testdata, text "src", d])
    paths.foldlM (addFile fs) s) {}

end Suite

/-- What speaks against an analysis on a class. -/
inductive Complaint where
  | failed (cls : Text) (failure : Analysis.Failure)
  /-- A finding that nothing expects. -/
  | unexpected (f : Finding)

def Complaint.message : Complaint → Text
  | .failed cls failure => text "error analyzing " ++ cls ++ text ": " ++ failure.message
  | .unexpected f => f.site.shown ++ text ": unexpected finding: " ++ Unicode.trim f.expected

/-- What a test gives: complaints in the order of the classes, the expectations that were not met,
and the passes of the analysis. -/
structure Verdict (ρ : Type) where
  complaints : List Complaint := []
  unmet : List (Expectation ρ)
  passes : List Analysis.Pass := []

def Verdict.judge {ρ : Type} (agrees : ρ → Text → Bool) (v : Verdict ρ) (cls : Text)
    (c : Analysis.Conclusion) : Verdict ρ :=
  let failed := c.failure.toList.map (Complaint.failed cls)
  let (unexpected, unmet) := settle agrees v.unmet c.findings
  { complaints := v.complaints ++ failed ++ unexpected.map .unexpected
    unmet
    passes := v.passes ++ c.pass.toList }

/-- Tests an analysis on the classes of a suite, all in one program. -/
def Suite.test {ρ : Type} (agrees : ρ → Text → Bool) (catalog : Catalog) (root : Analysis.Id)
    (s : Suite ρ) : Verdict ρ :=
  let program := Bytecode.Program.ofClasses s.classes
  program.classes.foldl
    (fun v c => v.judge agrees c.name (Analysis.analyzeClass catalog program c root))
    { unmet := s.wants }

def unmetLine (e : Expectation Expression) : Text :=
  e.site.shown ++ text ": no finding was reported matching " ++ Text.quoted e.expression.source

/-- The lines of a verdict; those of unmet expectations come last and in ascending order. -/
def Verdict.lines (v : Verdict Expression) : List Text :=
  v.complaints.map Complaint.message ++ Text.sort (v.unmet.map unmetLine)

/-- Tests an analysis on the traces of some directories; the error is that of loading them. -/
def run (fs : FileSystem) (testdata : Text) (catalog : Catalog) (root : Analysis.Id)
    (directories : List Text) : Except Fault (Verdict Expression) :=
  (Suite.load fs testdata directories).map (Suite.test Expression.agrees catalog root)

end TraceLint.Expectation
