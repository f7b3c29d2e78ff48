import Mathlib.Data.List.Induction
import TraceLint.Logging.Analysis
import TraceLint.Proofs.Bytecode.Traversal
import TraceLint.Proofs.Logging.Check

/-! The analysis of a class against its logging calls in order. Each call contributes its findings
or one line of the error, and no call has a say in what another contributes. -/
namespace TraceLint.Logging

open Bytecode (Method Instruction Inspector Opcode)

variable (hierarchy : Hierarchy) (reportSignOnly : Bool)

/-- The calls through an interface, in method and code order. -/
def interfaceCalls (c : Bytecode.Class) : List CallSite :=
  c.methods.flatMap fun m => (m.code.filter fun i => i.op = .invokeInterface).map (CallSite.of c m)

/-- The calls among them that log. -/
def loggingCalls (c : Bytecode.Class) : List CallSite :=
  (interfaceCalls c).filter CallSite.isLogging

/-- What a call contributes to the findings. -/
def findingsAt (site : CallSite) : List Finding :=
  match check site hierarchy reportSignOnly with
  | .ok findings => findings
  | .error _ => []

/-- What a call contributes to the error: its position and what is wrong with its descriptor. -/
def faultAt (site : CallSite) : Option Text :=
  match check site hierarchy reportSignOnly with
  | .ok _ => none
  | .error e => some (site.pos.shown ++ text ": " ++ e.message)

/-- The tally of some logging calls, the latest first. -/
def tallyOf (sites : List CallSite) : Tally where
  checked := sites.length
  findings := (sites.filterMap fun site => (check site hierarchy reportSignOnly).toOption).reverse
  errors := (sites.filterMap (faultAt hierarchy reportSignOnly)).reverse

theorem tallyOf_add (sites : List CallSite) (site : CallSite) :
    (tallyOf hierarchy reportSignOnly (sites.filter CallSite.isLogging)).add
        hierarchy reportSignOnly site =
      tallyOf hierarchy reportSignOnly ((sites ++ [site]).filter CallSite.isLogging) := by
  rw [Tally.add, List.filter_append]
  split
  · rename_i logging
    cases checked : check site hierarchy reportSignOnly <;>
      simp [tallyOf, faultAt, logging, checked, Except.toOption]
  · rename_i other
    simp [other]

theorem foldl_add (sites : List CallSite) :
    sites.foldl (Tally.add hierarchy reportSignOnly) {} =
      tallyOf hierarchy reportSignOnly (sites.filter CallSite.isLogging) := by
  -- A tally keeps the latest call first, so the calls are taken from the back.
  induction sites using List.reverseRecOn with
  | nil => rfl
  | append_singleton sites site ih =>
    rw [List.foldl_append, ih]
    exact tallyOf_add hierarchy reportSignOnly sites site

/-- The traversal of a class meets its logging calls, all of them and in order. -/
theorem survey_class (c : Bytecode.Class) :
    survey (.ofClasses [c]) hierarchy reportSignOnly =
      tallyOf hierarchy reportSignOnly (loggingCalls c) := by
  have filtered (op : Opcode) :
      (Bytecode.OpcodeSet.ofFilter (some [.invokeInterface])).contains op =
      decide (op = .invokeInterface) := by
    rw [Bool.eq_iff_iff, decide_eq_true_iff]
    exact (Bytecode.OpcodeSet.contains_ofList _ op).trans List.mem_singleton
  have calls := Bytecode.map_filter_events [c] (fun i => i.op = .invokeInterface) CallSite.of
  rw [List.flatMap_singleton] at calls
  rw [survey, Inspector.visitOpcodes, Bytecode.visitAfter_continuing _ fun _ _ => rfl]
  simp only [filtered]
  rw [loggingCalls, interfaceCalls, ← calls, ← foldl_add, List.foldl_map]

variable {hierarchy reportSignOnly}

theorem reported_findingsAt (site : CallSite) :
    (findingsAt hierarchy reportSignOnly site).map Finding.reported =
      findingsAt hierarchy reportSignOnly site := by
  unfold findingsAt
  split
  · rename_i findings checked
    have kept : ∀ f ∈ findings, f.reported = id f := by
      intro f member
      rcases severity_of_check checked f member with same | same <;>
        simp [Finding.reported, same, Severity.high, Severity.normal]
    rw [List.map_congr_left kept, List.map_id]
  · rfl

/-- The lines of an error, if there are any. -/
def joined (lines : List Text) : Option Text :=
  if lines = [] then none else some (Text.join [byte '\n'] lines)

theorem outcome_findings (sites : List CallSite) :
    (tallyOf hierarchy reportSignOnly sites).outcome.findings =
      sites.flatMap (findingsAt hierarchy reportSignOnly) := by
  simp only [Tally.outcome, tallyOf, List.reverse_reverse]
  induction sites with
  | nil => rfl
  | cons site rest ih =>
    rw [List.flatMap_cons, ← ih, ← reported_findingsAt site]
    cases checked : check site hierarchy reportSignOnly <;>
      simp [findingsAt, checked, Except.toOption]

theorem outcome_error (sites : List CallSite) :
    (tallyOf hierarchy reportSignOnly sites).outcome.error =
      joined (sites.filterMap (faultAt hierarchy reportSignOnly)) := by
  simp [Tally.outcome, tallyOf, joined]

theorem joined_faults_eq_none_iff (sites : List CallSite) :
    joined (sites.filterMap (faultAt hierarchy reportSignOnly)) = none ↔
      ∀ site ∈ sites, ∃ findings, check site hierarchy reportSignOnly = .ok findings := by
  have passes (site : CallSite) : faultAt hierarchy reportSignOnly site = none ↔
      ∃ findings, check site hierarchy reportSignOnly = .ok findings := by
    cases checked : check site hierarchy reportSignOnly <;> simp [faultAt, checked]
  simp [joined, List.filterMap_eq_nil_iff, passes]

/-- A malformed descriptor contributes no findings, whether the call logs or not. -/
theorem findingsAt_malformed {site : CallSite} {e : Descriptor.Invalid}
    (malformed : Descriptor.parse site.desc = .error e) :
    findingsAt hierarchy reportSignOnly site = [] := by
  unfold findingsAt check
  rw [malformed]
  split
  · rename_i findings checked
    split at checked
    · exact (Except.ok.inj checked).symm
    · contradiction
  · rfl

/-- What the logging calls of a class contribute, instruction by instruction. -/
theorem flatMap_loggingCalls {α : Type} (c : Bytecode.Class) (contribution : CallSite → List α) :
    (loggingCalls c).flatMap contribution = c.methods.flatMap fun m => m.code.flatMap fun i =>
      if i.op = .invokeInterface ∧ (CallSite.of c m i).isLogging then contribution (.of c m i)
        else [] := by
  have method (m : Method) (code : List Instruction) :
      (((code.filter fun i => i.op = .invokeInterface).map (CallSite.of c m)).filter
        CallSite.isLogging).flatMap contribution = code.flatMap fun i =>
      if i.op = .invokeInterface ∧ (CallSite.of c m i).isLogging then contribution (.of c m i)
        else [] := by
    induction code with
    | nil => rfl
    | cons i rest ih =>
      rw [List.flatMap_cons, ← ih]
      by_cases invokes : i.op = .invokeInterface
      · by_cases logs : (CallSite.of c m i).isLogging = true <;> simp [invokes, logs]
      · simp [invokes]
  simp only [loggingCalls, interfaceCalls, List.filter_flatMap, List.flatMap_assoc, method]

/-- Where an instruction has a malformed descriptor, the findings are those without it. -/
theorem findings_without_malformed (c : Bytecode.Class) (m : Method) (before after : List Method)
    (front back : List Instruction) {bad : Instruction} {e : Descriptor.Invalid}
    (malformed : Descriptor.parse bad.desc = .error e) :
    (loggingCalls
      { c with methods := before ++ { m with code := front ++ bad :: back } :: after }).flatMap
        (findingsAt hierarchy reportSignOnly) =
      (loggingCalls
        { c with methods := before ++ { m with code := front ++ back } :: after }).flatMap
        (findingsAt hierarchy reportSignOnly) := by
  have nothing (m' : Method) (methods : List Method) :
      findingsAt hierarchy reportSignOnly (.of { c with methods } m' bad) = [] :=
    findingsAt_malformed malformed
  simp only [flatMap_loggingCalls, List.flatMap_append, List.flatMap_cons, nothing, ite_self,
    List.nil_append]
  rfl

/-- The classes known to a task: those of its program, or only the built-in ones. -/
def knownClasses (task : Analysis.Task) : Hierarchy :=
  match task.program with
  | some program => program.hierarchy
  | none => .initial

theorem run_eq_outcome {inspect : Analysis.Id} {task : Analysis.Task} {c : Bytecode.Class}
    (given : task.inputs.lookup inspect = some (.inspector (.ofClasses [c]))) :
    run inspect reportSignOnly task =
      (tallyOf (knownClasses task) reportSignOnly (loggingCalls c)).outcome := by
  simp only [run, given, survey_class]
  rfl

/-- The analysis of a class reports what the checks of its logging calls give, in order; it counts
them all, and fails exactly if some check fails. -/
theorem run_reports_calls (inspect : Analysis.Id) (reportSignOnly : Bool) (task : Analysis.Task)
    (c : Bytecode.Class) (given : task.inputs.lookup inspect = some (.inspector (.ofClasses [c]))) :
    (run inspect reportSignOnly task).findings =
      (loggingCalls c).flatMap (findingsAt (knownClasses task) reportSignOnly) ∧
    (run inspect reportSignOnly task).output = .value (.ofInt (loggingCalls c).length) ∧
    ((run inspect reportSignOnly task).error = none ↔ ∀ site ∈ loggingCalls c,
      ∃ findings, check site (knownClasses task) reportSignOnly = .ok findings) ∧
    (run inspect reportSignOnly task).error =
      joined ((loggingCalls c).filterMap (faultAt (knownClasses task) reportSignOnly)) ∧
    ∀ (m : Method) (before after : List Method) (front back : List Instruction) (bad : Instruction)
      (e : Descriptor.Invalid) (task' : Analysis.Task),
      c.methods = before ++ { m with code := front ++ back } :: after →
      Descriptor.parse bad.desc = .error e → knownClasses task' = knownClasses task →
      task'.inputs.lookup inspect = some (.inspector (.ofClasses
        [{ c with methods := before ++ { m with code := front ++ bad :: back } :: after }])) →
      (run inspect reportSignOnly task').findings = (run inspect reportSignOnly task).findings := by
  rw [run_eq_outcome given, outcome_error, outcome_findings]
  refine ⟨rfl, rfl, joined_faults_eq_none_iff _, rfl, ?_⟩
  intro m before after front back bad e task' methods malformed known inserted
  rw [run_eq_outcome inserted, known, outcome_findings,
    findings_without_malformed c m before after front back malformed, ← methods]

def malformedCall : Instruction :=
  ⟨0, 7, .invokeInterface, loggerClass, text "info", text "Ljava/lang/String;", none⟩

def computedCall : Instruction :=
  ⟨5, 8, .invokeInterface, loggerClass, text "warn", text "(Ljava/lang/String;I)V", some ⟨[{}, {}]⟩⟩

def callingMethod : Method := ⟨text "m", text "()V", [malformedCall, computedCall]⟩

/-- A class whose first logging call has a malformed descriptor, and whose second computes its
format. -/
def callingClass : Bytecode.Class :=
  ⟨text "a/B", text "java/lang/Object", text "B.java", [callingMethod], false⟩

/-- The first call fails the run and is counted, and the second is checked all the same. -/
theorem run_callingClass :
    let outcome := run 0 true ⟨callingClass, none, [(0, .inspector (.ofClasses [callingClass]))]⟩
    outcome.findings = [(CallSite.of callingClass callingMethod computedCall).notConstant] ∧
      outcome.output = .value (.ofInt 2) ∧ outcome.error ≠ none := by
  have calls : loggingCalls callingClass =
      [.of callingClass callingMethod malformedCall,
        .of callingClass callingMethod computedCall] := rfl
  have broken : Descriptor.parse (CallSite.of callingClass callingMethod malformedCall).desc =
      .error ⟨malformedCall.desc, .noOpening⟩ := rfl
  have refused : check (.of callingClass callingMethod malformedCall) .initial true =
      .error ⟨malformedCall.desc, .noOpening⟩ := by
    rw [check, if_neg (by decide), broken]
  have read : Descriptor.parse (CallSite.of callingClass callingMethod computedCall).desc =
      .ok ⟨[Descriptor.FieldType.string, text "I"], Descriptor.FieldType.void⟩ :=
    Descriptor.parse_iff.mpr (by decide)
  have computed : check (.of callingClass callingMethod computedCall) .initial true =
      .ok [(CallSite.of callingClass callingMethod computedCall).notConstant] := by
    rw [check, if_neg (by decide), read]
    rfl
  obtain ⟨findings, output, failed, _⟩ := run_reports_calls 0 true
    ⟨callingClass, none, [(0, .inspector (.ofClasses [callingClass]))]⟩ callingClass rfl
  refine ⟨findings.trans ?_, output, fun passed => ?_⟩
  · simp [calls, findingsAt, knownClasses, refused, computed]
  · obtain ⟨_, checked⟩ := failed.mp passed _ (calls ▸ List.mem_cons_self)
    exact absurd (refused.symm.trans checked) (by simp)

end TraceLint.Logging
