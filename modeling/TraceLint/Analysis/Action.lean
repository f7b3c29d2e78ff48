import TraceLint.Analysis.Basic

/-! Actions: one analysis on one class. An action is executed once, after those that it depends on.
A class is known by its place among the classes under analysis, not by what it is: a class that is
listed twice has two places, and so has two actions of each analysis where sharing by identity would
make one. -/
namespace TraceLint.Analysis

/-- An analysis and the place of a class among the classes under analysis. -/
structure Action where
  analysis : Id
  cls : Nat
deriving DecidableEq

structure Pass where
  analysis : Id
  task : Task
  outcome : Outcome

inductive Failure where
  /-- The actions it depends on that failed, by label in ascending order. -/
  | prerequisites (failed : List Text)
  | incompleteClass
  | run (message : Text)
  | wrongOutput (cls analysis : Text) (produced declared : Option OutputType)
deriving DecidableEq

def Failure.message : Failure → Text
  | .prerequisites failed => text "failed prerequisites: " ++ Text.join (text ", ") failed
  | .incompleteClass => text "analysis skipped due to errors in class"
  | .run message => message
  | .wrongOutput cls analysis produced declared =>
    text "internal error: on class " ++ cls ++ text ", analysis " ++ analysis ++
      text " produced Output " ++ OutputType.shownOption produced ++
      text ", but declared OutputType " ++ OutputType.shownOption declared

/-- How an action ended. There is no pass if the analysis was not started. -/
structure Conclusion where
  pass : Option Pass
  failure : Option Failure

def Conclusion.findings (c : Conclusion) : List Finding :=
  match c.pass with
  | some pass => pass.outcome.findings
  | none => []

def Conclusion.output (c : Conclusion) : Output :=
  match c.pass with
  | some pass => pass.outcome.output
  | none => .value .null

structure Project where
  catalog : Catalog
  program : Bytecode.Program
  /-- The classes to analyse. -/
  classes : List Bytecode.Class

/-- Actions that have ended, the latest first. -/
abbrev Ledger := List (Action × Conclusion)

namespace Project

variable (project : Project)

/-- The actions that an action depends on: its requirements on the same class. -/
def dependencies (act : Action) : List Action :=
  (project.catalog.requirements act.analysis).map fun r => ⟨r, act.cls⟩

def className (act : Action) : Text :=
  match project.classes[act.cls]? with
  | some c => c.name
  | none => []

def labelOf (act : Action) : Text :=
  label (project.catalog.nameOf act.analysis) (project.className act)

/-- How the run of an analysis ends: it may fail, or hand on a result of another type than
declared. -/
def judge (a : Analysis) (cls : Text) (outcome : Outcome) : Option Failure :=
  match outcome.error with
  | some message => some (.run message)
  | none =>
    if outcome.output.type? = a.outputType then none
    else some (.wrongOutput cls a.name outcome.output.type? a.outputType)

def start (id : Id) (a : Analysis) (cls : Bytecode.Class)
    (inputs : List (Id × Output)) : Conclusion :=
  let task : Task := ⟨cls, some project.program, inputs⟩
  if cls.incomplete && !a.runDespiteErrors then ⟨some ⟨id, task, {}⟩, some .incompleteClass⟩
  else
    let outcome := match a.run with
      | some run => run task
      | none => {}
    ⟨some ⟨id, task, outcome⟩, judge a cls.name outcome⟩

/-- Executes an action, given how the actions it depends on ended. -/
def execute (ended : Action → Option Conclusion) (act : Action) : Conclusion :=
  let deps := project.dependencies act
  let failed := deps.filter fun d => (ended d).any fun c => c.failure.isSome
  if !failed.isEmpty then ⟨none, some (.prerequisites (Text.sort (failed.map project.labelOf)))⟩
  else match project.catalog[act.analysis]?, project.classes[act.cls]? with
    | some a, some cls =>
      project.start act.analysis a cls (deps.map fun d =>
        (d.analysis, ((ended d).map Conclusion.output).getD (.value .null)))
    | _, _ => ⟨none, none⟩

def executeAll (order : List Action) : Ledger :=
  order.foldl (fun ledger act => (act, project.execute (ledger.lookup ·) act) :: ledger) []

/-- Adds an action after those that it depends on, at most `fuel` deep; one that is there already is
not added again. -/
def plan : (fuel : Nat) → List Action → Action → List Action
  | 0, order, _ => order
  | fuel + 1, order, act =>
    if order.contains act then order
    else (project.dependencies act).foldl (plan fuel) order ++ [act]

/-- The actions of the given analyses on all classes, analysis by analysis. -/
def roots (analyses : List Id) : List Action :=
  analyses.flatMap fun a => (List.range project.classes.length).map fun c => ⟨a, c⟩

/-- All actions that the roots need, each once, in an order that respects their dependencies. -/
def schedule (analyses : List Id) : List Action :=
  (project.roots analyses).foldl (project.plan (project.catalog.length + 1)) []

/-- The ends of all actions that the given analyses need. -/
def ledger (analyses : List Id) : Ledger := project.executeAll (project.schedule analyses)

end Project

structure Ended where
  action : Action
  cls : Text
  conclusion : Conclusion

/-- The ends of the given analyses on all classes, in the order of the roots. -/
def Project.analyze (project : Project) (analyses : List Id) : List Ended :=
  let ledger := project.ledger analyses
  (project.roots analyses).map fun act =>
    ⟨act, project.className act, (ledger.lookup act).getD ⟨none, none⟩⟩

def analyzeClass (catalog : Catalog) (program : Bytecode.Program) (cls : Bytecode.Class) (id : Id) :
    Conclusion :=
  let project : Project := ⟨catalog, program, [cls]⟩
  ((project.ledger [id]).lookup ⟨id, 0⟩).getD ⟨none, none⟩

end TraceLint.Analysis
