import TraceLint.Proofs.Finding.Order
import TraceLint.Proofs.Load.Program
import TraceLint.Proofs.Logging.Findings
import TraceLint.Proofs.Report.Context
import TraceLint.Proofs.Report.Tree
import TraceLint.Session

/-! Runs of the checker with the analysis of logging calls. What is printed does not depend on the
order of the files, and every finding at a logging call is printed. -/
namespace TraceLint.Session

open Analysis (Project Ended)
open Bytecode (Program)
open Logging (catalog catalog_acyclic reportedOn failureOn)

section

variable (reportSignOnly : Bool) (program : Program)

/-- The work of a run. -/
def logging : Project := ⟨catalog reportSignOnly, program, program.classes⟩

/-- The findings on all classes, class by class. -/
def findingsOf : List Finding :=
  program.classes.flatMap (reportedOn program.hierarchy reportSignOnly)

/-- The classes on which the analysis fails. -/
def failuresOf : List Report.Failed :=
  program.classes.filterMap fun c =>
    (failureOn program.hierarchy reportSignOnly c).map fun failure =>
    ⟨text "slf4j", c.name, failure⟩

/-- The sections of the report. -/
def sectionsOf : List Report.Section :=
  Report.sections (catalog reportSignOnly) ((logging reportSignOnly program).analyze [1])

theorem sectionsOf_apart :
    ((sectionsOf reportSignOnly program).map Report.Section.analysis).Nodup :=
  Report.sections_apart _ _

/-- What a report reads of a root. -/
def reading (root : Ended) : Analysis.Id × Text × List Finding × Option Analysis.Failure :=
  (root.action.analysis, root.cls, root.conclusion.findings, root.conclusion.failure)

theorem analyze_logging :
    ((logging reportSignOnly program).analyze [1]).map reading = program.classes.map fun c =>
      (1, c.name, reportedOn program.hierarchy reportSignOnly c,
        failureOn program.hierarchy reportSignOnly c) := by
  have ended :=
    Analysis.analyze_by_class (catalog_acyclic reportSignOnly) program program.classes [1]
  have each (c : Bytecode.Class) := Logging.evaluate_logging_class reportSignOnly program c
  rw [logging, ended, List.flatMap_singleton, List.map_map]
  simp only [Function.comp_def, reading, each]
  conv_rhs => rw [← List.zipIdx_map_fst 0 program.classes, List.map_map]
  rfl

/-- The analysis reports the findings on all classes. -/
theorem findings_analyze_logging :
    ((logging reportSignOnly program).analyze [1]).flatMap (fun root => root.conclusion.findings) =
      findingsOf reportSignOnly program := by
  have read := congrArg (List.flatMap fun root => root.2.2.1)
    (analyze_logging reportSignOnly program)
  rwa [List.flatMap_map, List.flatMap_map] at read

theorem content_logging :
    (sectionsOf reportSignOnly program).map Report.Section.content =
      if program.classes = [] then []
      else [(text "slf4j", Sink.findings ⟨findingsOf reportSignOnly program⟩)] := by
  have ends := analyze_logging reportSignOnly program
  have one : ∀ root ∈ (logging reportSignOnly program).analyze [1], root.action.analysis = 1 := by
    intro root member
    have read := List.mem_map_of_mem (f := reading) member
    rw [ends] at read
    obtain ⟨c, _, same⟩ := List.mem_map.mp read
    exact (congrArg Prod.fst same).symm
  have empty : (logging reportSignOnly program).analyze [1] = [] ↔ program.classes = [] := by
    rw [← List.map_eq_nil_iff (f := reading), ends, List.map_eq_nil_iff]
  rw [sectionsOf, Report.sections_of_one _ one, findings_analyze_logging]
  simp only [empty]
  split <;> rfl

theorem failures_logging :
    Report.failures (catalog reportSignOnly) ((logging reportSignOnly program).analyze [1]) =
      failuresOf reportSignOnly program := by
  have read := congrArg (List.filterMap fun root => root.2.2.2.map fun failure =>
    (⟨(catalog reportSignOnly).nameOf root.1, root.2.1, failure⟩ : Report.Failed))
    (analyze_logging reportSignOnly program)
  rwa [List.filterMap_map, List.filterMap_map] at read

theorem encodable_logging : encodable ((logging reportSignOnly program).ledger [1]) = true := by
  have ended : (logging reportSignOnly program).ledger [1] =
      (logging reportSignOnly program).recorded (catalog_acyclic reportSignOnly) _ :=
    Project.ledger_eq_recorded (catalog_acyclic reportSignOnly) [1]
  rw [encodable, ended, List.all_eq_true]
  intro entry listed
  obtain ⟨act, _, rfl⟩ := List.mem_map.mp listed
  refine List.all_eq_true.mpr fun f member => ?_
  unfold Project.evaluated at member
  split at member
  · obtain ⟨_, site, _, found⟩ :=
      Logging.mem_reportedOn.mp (Logging.reported_of_evaluate _ _ _ member)
    exact (Logging.findingsAt_writable found).1
  · contradiction

variable {reportSignOnly program} in
theorem findings_of_section {s : Report.Section} (listed : s ∈ sectionsOf reportSignOnly program) :
    s.sink.findings = Sink.findings ⟨findingsOf reportSignOnly program⟩ := by
  have shown := List.mem_map_of_mem (f := Report.Section.content) listed
  rw [content_logging] at shown
  split at shown
  · contradiction
  · exact congrArg Prod.snd (List.mem_singleton.mp shown)

theorem writable_sections : ∀ s ∈ sectionsOf reportSignOnly program, ∀ f ∈ s.sink.findings,
    (Report.findingJson? f).isSome := by
  intro s listed f member
  rw [findings_of_section listed, Sink.findings, List.mem_mergeSort] at member
  obtain ⟨c, _, reported⟩ := List.mem_flatMap.mp member
  obtain ⟨_, site, _, found⟩ := Logging.mem_reportedOn.mp reported
  exact (Logging.findingsAt_writable found).2

theorem report_eq (settings : Settings) :
    report settings (catalog reportSignOnly) [1] program =
      if settings.json then
        match Report.json? (sectionsOf reportSignOnly program)
          (failuresOf reportSignOnly program) with
        | some printed => .ok printed
        | none => .error (.broken (text "internal error: JSON marshalling failed"))
      else .ok (Report.plain ⟨settings.color, settings.context⟩ program
        (sectionsOf reportSignOnly program) (failuresOf reportSignOnly program)) := by
  have encoded := encodable_logging reportSignOnly program
  rw [← failures_logging]
  unfold report
  rw [if_neg (by simpa [logging] using fun _ => encoded)]
  rfl

theorem report_plain {settings : Settings} (plain : settings.json = false) :
    report settings (catalog reportSignOnly) [1] program =
      .ok (Report.plain ⟨settings.color, settings.context⟩ program
        (sectionsOf reportSignOnly program) (failuresOf reportSignOnly program)) := by
  rw [report_eq, plain]
  rfl

theorem report_json {settings : Settings} (json : settings.json = true) :
    ∃ j,
      (Report.tree (sectionsOf reportSignOnly program)
        (failuresOf reportSignOnly program)).json? = some j ∧
      report settings (catalog reportSignOnly) [1] program =
        .ok { stdout := j.render 0 ++ [byte '\n'] } := by
  have writable := Report.tree_all (failuresOf reportSignOnly program)
    (writable_sections reportSignOnly program)
  obtain ⟨j, written⟩ := Option.isSome_iff_exists.mp (Report.Tree.isSome_json? writable)
  refine ⟨j, written, ?_⟩
  rw [report_eq, json, Report.json?, written]
  rfl

end

section

variable {classes classes' : List Bytecode.Class}
    (distinct : (classes.map Bytecode.Class.name).Nodup)
  (shuffled : classes.Perm classes') (reportSignOnly : Bool)
include distinct

theorem failuresOf_distinct :
    ((failuresOf reportSignOnly (.ofClasses classes)).map Report.Failed.cls).Nodup := by
  refine List.pairwise_map.mpr
    (List.pairwise_filterMap.mpr ((List.pairwise_map.mp distinct).imp ?_))
  intro c c' differ x failed y failed'
  obtain ⟨_, _, rfl⟩ := Option.map_eq_some_iff.mp failed
  obtain ⟨_, _, rfl⟩ := Option.map_eq_some_iff.mp failed'
  exact differ

include shuffled

theorem failuresOf_perm :
    (failuresOf reportSignOnly (.ofClasses classes)).Perm
      (failuresOf reportSignOnly (.ofClasses classes')) := by
  rw [failuresOf, Logging.failureOn_of_agrees (Program.agrees_of_perm distinct shuffled)]
  exact shuffled.filterMap _

/-- Findings with one key are all on one class, so the order of the classes does not show. -/
theorem findings_of_perm : Sink.findings ⟨findingsOf reportSignOnly (.ofClasses classes)⟩ =
    Sink.findings ⟨findingsOf reportSignOnly (.ofClasses classes')⟩ := by
  refine Sink.findings_eq fun key => ?_
  dsimp only
  rw [findingsOf, Logging.reportedOn_of_agrees (Program.agrees_of_perm distinct shuffled),
    List.filter_flatMap, findingsOf, List.filter_flatMap]
  refine Bytecode.flatMap_of_perm distinct shuffled key.1 fun c other => ?_
  refine List.filter_eq_nil_iff.mpr fun f member keyed => other ?_
  rw [← Logging.cls_of_reportedOn member, ← of_decide_eq_true keyed]
  rfl

theorem content_of_perm :
    (sectionsOf reportSignOnly (.ofClasses classes)).map Report.Section.content =
    (sectionsOf reportSignOnly (.ofClasses classes')).map Report.Section.content := by
  have empty : classes = [] ↔ classes' = [] := by
    rw [← List.length_eq_zero_iff, shuffled.length_eq, List.length_eq_zero_iff]
  rw [content_logging, content_logging, findings_of_perm distinct shuffled]
  exact if_congr empty rfl rfl

theorem lines_of_perm (layout : Report.Layout) :
    Report.findingLines layout (.ofClasses classes)
        ((sectionsOf reportSignOnly (.ofClasses classes)).map Report.Section.content) =
      Report.findingLines layout (.ofClasses classes')
        ((sectionsOf reportSignOnly (.ofClasses classes')).map Report.Section.content) := by
  have entries :
      Report.entry layout (.ofClasses classes) = Report.entry layout (.ofClasses classes') := by
    funext name f
    rw [Report.entry, Report.context_of_perm distinct shuffled]
    rfl
  rw [content_of_perm distinct shuffled, Report.findingLines, entries]
  rfl

theorem plain_of_perm (layout : Report.Layout) :
    let printed := Report.plain layout (.ofClasses classes)
      (sectionsOf reportSignOnly (.ofClasses classes))
      (failuresOf reportSignOnly (.ofClasses classes))
    let printed' := Report.plain layout (.ofClasses classes')
      (sectionsOf reportSignOnly (.ofClasses classes'))
      (failuresOf reportSignOnly (.ofClasses classes'))
    printed.stdout = printed'.stdout ∧ printed.refrain = printed'.refrain := by
  have lines := lines_of_perm distinct shuffled reportSignOnly layout
  intro printed printed'
  rw [show printed = _ from Report.plain_eq (sectionsOf_apart _ _) _ _ _,
    show printed' = _ from Report.plain_eq (sectionsOf_apart _ _) _ _ _]
  exact ⟨congrArg Report.Transcript.written lines, congrArg Report.Transcript.refrain lines⟩

theorem tree_of_shuffled :
    Report.tree (sectionsOf reportSignOnly (.ofClasses classes))
      (failuresOf reportSignOnly (.ofClasses classes)) =
    Report.tree (sectionsOf reportSignOnly (.ofClasses classes'))
      (failuresOf reportSignOnly (.ofClasses classes')) := by
  have failures := failuresOf_perm distinct shuffled reportSignOnly
  rw [Report.tree_of_perm _ failures (failuresOf_distinct distinct reportSignOnly), Report.tree_eq,
    content_of_perm distinct shuffled, ← Report.tree_eq]

end

variable {fs fs' : FileSystem} {filenames filenames' : List Text} {program : Program}
    {settings : Settings}

theorem run_eq_report (profiles : createProfiles fs settings = (fs', none))
    (loaded : Load.program fs' filenames = .ok program) (catalog : Catalog)
    (analyses : List Analysis.Id) :
    run settings catalog analyses fs filenames =
      (fs', report settings catalog analyses program) := by
  rw [run, profiles]
  dsimp only
  rw [loaded]

/-- Whatever the settings, files that load may be given in any order: the same text is printed, also
if printing does not end. -/
theorem run_of_shuffled_files (reportSignOnly : Bool)
    (profiles : createProfiles fs settings = (fs', none))
    (loaded : Load.program fs' filenames = .ok program) (shuffled : filenames.Perm filenames') :
    ∃ printed printed',
      run settings (catalog reportSignOnly) [1] fs filenames = (fs', .ok printed) ∧
      run settings (catalog reportSignOnly) [1] fs filenames' = (fs', .ok printed') ∧
      printed.stdout = printed'.stdout ∧ printed.refrain = printed'.refrain := by
  obtain ⟨classes, classes', rfl, loaded', moved, distinct⟩ := Load.program_of_perm loaded shuffled
  rw [run_eq_report profiles loaded, run_eq_report profiles loaded']
  cases json : settings.json with
  | false =>
    rw [report_plain _ _ json, report_plain _ _ json]
    exact ⟨_, _, rfl, rfl, plain_of_perm distinct moved reportSignOnly _⟩
  | true =>
    obtain ⟨j, written, reported⟩ := report_json reportSignOnly (.ofClasses classes) json
    obtain ⟨j', written', reported'⟩ := report_json reportSignOnly (.ofClasses classes') json
    rw [tree_of_shuffled distinct moved, written', Option.some.injEq] at written
    subst written
    rw [reported, reported']
    exact ⟨_, _, rfl, rfl, rfl, rfl⟩

/-- A class that was decoded only in part, but whose super class counts. -/
def exceptions : Trace.File :=
  { classes := some [
      { name := text "a/E", super := text "java/lang/Throwable", incomplete := true }] }

/-- A call that passes an exception in the place of an argument. -/
def exceptionCall : Trace.InstructionRecord :=
  { op := text "invokeinterface", owner := Logging.loggerClass, name := text "info",
    desc := text "(Ljava/lang/String;Ljava/lang/Object;)V",
    stack := some [{ const := .text (text "\x7b\x7d") }, { sig := text "La/E;" }] }

/-- A class in which two overloads make the same call at the same pc. -/
def overloads : Trace.File :=
  { classes := some [{ name := text "a/B", methods := some [
      { name := text "m", desc := text "()V", code := some [exceptionCall] },
      { name := text "m", desc := text "(I)V", code := some [exceptionCall] }] }] }

def traces : FileSystem := .ofList [] [(text "e.mpk", .file (Trace.encodeMessagePack exceptions)),
  (text "b.mpk", .file (Trace.encodeMessagePack overloads))]

theorem exists_of_any {ε α : Type} {result : Except ε α} {p : α → Bool}
    (found : result.toOption.any p = true) : ∃ a, result = .ok a ∧ p a = true := by
  cases result with
  | error e => contradiction
  | ok a => exact ⟨a, rfl, found⟩

theorem traces_load : ∃ program, Load.program traces [text "b.mpk", text "e.mpk"] = .ok program ∧
    (∀ c ∈ program.classes, Logging.DistinctMethods c) ∧ (findingsOf true program).length = 4 := by
  have loads : (Load.program traces [text "b.mpk", text "e.mpk"]).toOption.any
      (fun program => decide ((∀ c ∈ program.classes, Logging.DistinctMethods c) ∧
        (findingsOf true program).length = 4)) = true := by
    decide +kernel
  obtain ⟨program, loaded, facts⟩ := exists_of_any loads
  exact ⟨program, loaded, of_decide_eq_true facts⟩

/-- The exception is one only by the super class in the other file, and the files may come in either
order. -/
theorem run_of_shuffled_traces :
    ∃ program, Load.program traces [text "b.mpk", text "e.mpk"] = .ok program ∧
      (findingsOf true program).length = 4 ∧
      (∃ printed printed',
        run { context := 1 } (catalog true) [1] traces [text "b.mpk", text "e.mpk"] =
          (traces, .ok printed) ∧
        run { context := 1 } (catalog true) [1] traces [text "e.mpk", text "b.mpk"] =
          (traces, .ok printed') ∧
        printed.stdout = printed'.stdout ∧ printed.refrain = printed'.refrain) ∧
      ∃ printed printed',
        run { json := true } (catalog true) [1] traces [text "b.mpk", text "e.mpk"] =
          (traces, .ok printed) ∧
        run { json := true } (catalog true) [1] traces [text "e.mpk", text "b.mpk"] =
          (traces, .ok printed') ∧
        printed.stdout = printed'.stdout ∧ printed.refrain = printed'.refrain := by
  obtain ⟨program, loaded, _, found⟩ := traces_load
  exact ⟨program, loaded, found, run_of_shuffled_files true rfl loaded (.swap _ _ _),
    run_of_shuffled_files true rfl loaded (.swap _ _ _)⟩

theorem findingsOf_eq (reportSignOnly : Bool) (program : Program) :
    findingsOf reportSignOnly program =
      (program.classes.filter fun c => !c.incomplete).flatMap fun c =>
      (Logging.loggingCalls c).flatMap (Logging.findingsAt program.hierarchy reportSignOnly) := by
  rw [findingsOf]
  induction program.classes with
  | nil => rfl
  | cons c rest ih =>
    rw [List.flatMap_cons, ih]
    cases incomplete : c.incomplete <;> simp [reportedOn, incomplete]

end TraceLint.Session
