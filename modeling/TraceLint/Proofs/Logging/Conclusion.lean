import TraceLint.Proofs.Analysis.Inputs
import TraceLint.Proofs.Hierarchy.Program
import TraceLint.Proofs.Logging.Survey

/-! How the analysis of logging calls ends on a class. It reports what the checks of the logging
calls give, unless the class was decoded only in part; and it reads the program only through the
super classes recorded there. -/
namespace TraceLint.Logging

open Analysis (Conclusion Failure Project Task)

section

variable (hierarchy : Hierarchy) (reportSignOnly : Bool) (c : Bytecode.Class)

/-- What the logging calls of a class give. -/
def reportedOn : List Finding :=
  if c.incomplete then [] else (loggingCalls c).flatMap (findingsAt hierarchy reportSignOnly)

/-- Why the analysis fails on a class. -/
def failureOn : Option Failure :=
  if c.incomplete then some .incompleteClass
  else (joined ((loggingCalls c).filterMap (faultAt hierarchy reportSignOnly))).map .run

end

section

variable {h h' : Hierarchy} (same : h.Agrees h') (reportSignOnly : Bool)
include same

theorem check_of_agrees (site : CallSite) :
    check site h reportSignOnly = check site h' reportSignOnly := by
  have counts (sig : Descriptor.MethodType) (stack : Option Stack.Snapshot) :
      countArguments sig stack h = countArguments sig stack h' := by
    simp only [countArguments, same.isThrowable]
  simp only [check, CallSite.countFindings, counts]

theorem findingsAt_of_agrees : findingsAt h reportSignOnly = findingsAt h' reportSignOnly := by
  funext site
  rw [findingsAt, findingsAt, check_of_agrees same]

theorem faultAt_of_agrees : faultAt h reportSignOnly = faultAt h' reportSignOnly := by
  funext site
  rw [faultAt, faultAt, check_of_agrees same]

theorem reportedOn_of_agrees : reportedOn h reportSignOnly = reportedOn h' reportSignOnly := by
  funext c
  rw [reportedOn, reportedOn, findingsAt_of_agrees same]

theorem failureOn_of_agrees : failureOn h reportSignOnly = failureOn h' reportSignOnly := by
  funext c
  rw [failureOn, failureOn, faultAt_of_agrees same]

end

section

variable (reportSignOnly : Bool) (program : Bytecode.Program) (c : Bytecode.Class)

theorem catalog_acyclic : (catalog reportSignOnly).Acyclic :=
  Catalog.acyclic_of_earlier (by cases reportSignOnly <;> decide)

/-- The inspection never fails: it runs even on classes that were decoded only in part. -/
theorem evaluate_inspection :
    Analysis.evaluate (catalog reportSignOnly) (catalog_acyclic reportSignOnly) program c 0 =
      ⟨some ⟨0, ⟨c, some program, []⟩, { output := .inspector (.ofClasses [c]) }⟩, none⟩ :=
  Analysis.evaluate_inspection_at rfl

/-- So the logging calls are always at hand. -/
theorem evaluate_logging :
    Analysis.evaluate (catalog reportSignOnly) (catalog_acyclic reportSignOnly) program c 1 =
      (Project.mk (catalog reportSignOnly) program [c]).start 1 (analysis 0 reportSignOnly) c
        [(0, .inspector (.ofClasses [c]))] := by
  have required : (catalog reportSignOnly).requirements 1 = [0] := rfl
  rw [Analysis.evaluate_eq, required, List.map_singleton, evaluate_inspection]
  rfl

theorem judge_outcome (sites : List CallSite) :
    Project.judge (analysis 0 reportSignOnly) c.name
        (tallyOf program.hierarchy reportSignOnly sites).outcome =
      (joined (sites.filterMap (faultAt program.hierarchy reportSignOnly))).map .run := by
  rw [Project.judge, outcome_error]
  cases joined (sites.filterMap (faultAt program.hierarchy reportSignOnly)) with
  | none => exact if_pos rfl
  | some message => rfl

/-- How the analysis ends on a class: what it reports, and whether it fails. -/
theorem evaluate_logging_class :
    (Analysis.evaluate (catalog reportSignOnly) (catalog_acyclic reportSignOnly) program c
        1).findings =
      reportedOn program.hierarchy reportSignOnly c ∧
    (Analysis.evaluate (catalog reportSignOnly) (catalog_acyclic reportSignOnly) program c
        1).failure =
      failureOn program.hierarchy reportSignOnly c := by
  rw [evaluate_logging, Project.start]
  cases incomplete : c.incomplete with
  | true => simp [analysis, Conclusion.findings, reportedOn, failureOn, incomplete]
  | false =>
    have outcome := @run_eq_outcome reportSignOnly 0
      ⟨c, some program, [(0, .inspector (.ofClasses [c]))]⟩ c rfl
    have skips : (false && !(analysis 0 reportSignOnly).runDespiteErrors) = false := rfl
    simp only [skips, Bool.false_eq_true, if_false, Conclusion.findings, reportedOn, failureOn,
      incomplete]
    simp only [analysis]
    rw [outcome]
    exact ⟨outcome_findings _, judge_outcome reportSignOnly program c _⟩

/-- Whatever is found on a class, the analysis of logging calls found it. -/
theorem reported_of_evaluate {id : Analysis.Id} {f : Finding}
    (member : f ∈ (Analysis.evaluate (catalog reportSignOnly) (catalog_acyclic reportSignOnly)
      program c id).findings) :
    f ∈ reportedOn program.hierarchy reportSignOnly c := by
  match id with
  | 0 =>
    rw [evaluate_inspection] at member
    contradiction
  | 1 => rwa [(evaluate_logging_class reportSignOnly program c).1] at member
  | beyond + 2 =>
    rw [Analysis.evaluate_eq] at member
    contradiction

end

end TraceLint.Logging
