import TraceLint.Report.Basic
import TraceLint.Report.Context

/-! Reports as lines of text. -/
namespace TraceLint.Report

/-- What a report writes. If it does not end, `refrain` follows on `stdout` over and over. -/
structure Printed where
  stdout : Text := []
  stderr : Text := []
  refrain : Option Text := none

def escape : Text := [0x1b]

def colorOf (s : Severity) : Text :=
  escape ++ text (if s = .high then "[31;1m" else if s = .normal then "[33m" else "[0m")

/-- A line in the color of its severity, if colors are on. -/
def colored (color : Bool) (s : Severity) (line : Text) : Text :=
  if color then colorOf s ++ line ++ escape ++ text "[0m" else line

/-- The analysis and the category of a finding. -/
def rubric (name : Text) (f : Finding) : Text :=
  if f.category = [] then name else name ++ byte '.' :: f.category

def findingLine (name : Text) (f : Finding) : Text :=
  f.pos.shown ++ text ": [" ++ rubric name f ++ text "] " ++ f.message ++ [byte '\n']

/-- What findings have in common of which only the first is printed. -/
structure Trait where
  pos : Bytecode.Position
  analysis : Analysis.Id
  message : Text
  rubric : Text
deriving DecidableEq

def traitOf (s : Section) (f : Finding) : Trait := ⟨f.pos, s.analysis, f.message, rubric s.name f⟩

/-- The findings whose trait is none of those seen before. -/
def unrepeated (seen : List Trait) : List (Section × Finding) → List (Section × Finding)
  | [] => []
  | (s, f) :: rest =>
    if traitOf s f ∈ seen then unrepeated seen rest
    else (s, f) :: unrepeated (traitOf s f :: seen) rest

def listed (sections : List Section) : List (Section × Finding) :=
  sections.flatMap fun s => s.sink.findings.map fun f => (s, f)

structure Layout where
  color : Bool
  /-- How many instructions to show around each finding; none below zero. -/
  context : Int64

/-- The lines of one finding. -/
def entry (layout : Layout) (inspector : Bytecode.Inspector) (name : Text)
    (f : Finding) : Transcript :=
  .ended (colored layout.color f.severity (findingLine name f)) ++
    if 0 ≤ layout.context then context inspector layout.context f.pos else {}

def failureLine (f : Failed) : Text := f.name ++ text ": " ++ f.failure.message ++ [byte '\n']

/-- The report as text: failures on one channel, then findings on the other. -/
def plain (layout : Layout) (program : Bytecode.Program) (sections : List Section)
    (failures : List Failed) : Printed :=
  let inspector := Bytecode.Inspector.ofClasses program.classes
  let findings := Transcript.concat ((unrepeated [] (listed sections)).map fun (s, f) =>
    entry layout inspector s.name f)
  { stdout := findings.written
    stderr := failures.flatMap failureLine
    refrain := findings.refrain }

end TraceLint.Report
