import TraceLint.Logging.Analysis
import TraceLint.Proofs.Analysis.Failure

/-! What run functions are given. Every call is supplied with the results of the direct requirements
on its class and with nothing else, and each result has the type that its analysis declares. So
whoever requires the inspection finds an inspector among the inputs. -/
namespace TraceLint.Analysis

open Bytecode (Program)

section

variable {catalog : Catalog} {acyclic : catalog.Acyclic} {program : Program} {cls : Bytecode.Class}
    {id r : Id}

theorem Succeeds.output_type {b : Analysis} (succeeds : Succeeds catalog acyclic program cls r)
    (found : catalog[r]? = some b) :
    (evaluate catalog acyclic program cls r).output.type? = b.outputType := by
  have started : evaluate catalog acyclic program cls r = _ :=
    evaluate_started found fun q required => succeeds.requirement required
  have passed : (evaluate catalog acyclic program cls r).failure = none := succeeds
  rw [started] at passed ⊢
  by_cases admitted : b.Admits cls
  · rw [Project.start_admitted admitted] at passed ⊢
    exact (Project.judge_eq_none_iff.mp passed).2
  · rw [Project.start_skipped admitted] at passed
    contradiction

theorem lookup_inputs_iff {o : Output} :
    (taskOn catalog acyclic program cls id).inputs.lookup r = some o ↔
    catalog.Requires id r ∧ (evaluate catalog acyclic program cls r).output = o := by
  by_cases required : catalog.Requires id r
  · have given :=
      List.lookup_graph (fun r => (evaluate catalog acyclic program cls r).output) required
    rw [taskOn, given, Option.some.injEq]
    exact (and_iff_right required).symm
  · refine iff_of_false (fun given => required ?_) fun both => required both.1
    obtain ⟨_, _, split, _⟩ := List.lookup_eq_some_iff.mp given
    have listed : (r, o) ∈ (taskOn catalog acyclic program cls id).inputs := by
      rw [split]
      exact List.mem_append_right _ List.mem_cons_self
    obtain ⟨q, asked, same⟩ := List.mem_map.mp listed
    obtain ⟨rfl, _⟩ := Prod.mk.inj same
    exact asked

/-- The inspection succeeds on every class, also on one that was decoded only in part. -/
theorem evaluate_inspection_at (found : catalog[id]? = some inspection) :
    evaluate catalog acyclic program cls id =
      ⟨some ⟨id, ⟨cls, some program, []⟩, { output := .inspector (.ofClasses [cls]) }⟩, none⟩ := by
  have free : catalog.requirements id = [] := by
    rw [Catalog.requirements, found]
    rfl
  have none : ∀ r, catalog.Requires id r → Succeeds catalog acyclic program cls r := by
    intro r required
    rw [Catalog.Requires, free] at required
    contradiction
  rw [evaluate_started found none, Project.start_admitted (.inr rfl), taskOn, free]
  rfl

end

/-- What an action is given is what its requirements ended with on the same class. -/
structure Supplied (project : Project) (ended : Ledger) (act : Action) (cls : Bytecode.Class)
    (task : Task) : Prop where
  subject : task.cls = cls ∧ task.program = some project.program
  keys : ∀ r, (task.inputs.lookup r).isSome ↔ project.catalog.Requires act.analysis r
  values : ∀ r o, task.inputs.lookup r = some o →
    ∃ c, ended.lookup ⟨r, act.cls⟩ = some c ∧ c.failure = none ∧ c.output = o
  types : ∀ r o b, task.inputs.lookup r = some o → project.catalog[r]? = some b →
    o.type? = b.outputType

/-- A call of the run function of an analysis, with what it was given and what came of it. -/
def Invoked (project : Project) (begun ended : Ledger) (act : Action) : Prop :=
  ∃ a cls c pass, project.catalog[act.analysis]? = some a ∧ project.classes[act.cls]? = some cls ∧
    (act, c) ∈ begun ∧ c.pass = some pass ∧ pass.outcome = a.outcomeOn pass.task ∧
    Supplied project ended act cls pass.task

namespace Project

variable {project : Project} {acyclic : project.catalog.Acyclic} {roots : List Action}
    {s : Progress}
  {act : Action} {c : Conclusion} {cls : Bytecode.Class}

theorem supplied_of_succeeds {ended : Ledger}
    (known : ∀ r, project.catalog.Requires act.analysis r →
      ended.lookup ⟨r, act.cls⟩ = some (evaluate project.catalog acyclic project.program cls r))
    (all : ∀ r, project.catalog.Requires act.analysis r →
      Succeeds project.catalog acyclic project.program cls r) :
    Supplied project ended act cls
      (taskOn project.catalog acyclic project.program cls act.analysis) := by
  refine ⟨⟨rfl, rfl⟩, fun r => ?_, fun r o given => ?_, fun r o b given found => ?_⟩
  · simp only [Option.isSome_iff_exists, lookup_inputs_iff, exists_and_left, exists_eq', and_true]
  · obtain ⟨required, output⟩ := lookup_inputs_iff.mp given
    exact ⟨_, known r required, all r required, output⟩
  · obtain ⟨required, rfl⟩ := lookup_inputs_iff.mp given
    exact (all r required).output_type found

/-- An action begins only when all that it depends on has ended. -/
theorem Sound.lookup_dependency (sound : project.Sound acyclic roots s)
    (begun : (act, c) ∈ s.running ++ s.ended) {d : Action}
    (depends : d ∈ project.dependencies act) :
    s.ended.lookup d = some (project.evaluated acyclic d) := by
  have listed : d ∈ s.order := by
    rcases List.mem_append.mp begun with running | ended
    · exact List.mem_reverse.mpr (sound.ready _ running d depends)
    · exact sound.inOrder.closed (List.mem_reverse.mpr (List.mem_map_of_mem ended)) depends
  rw [sound.ended_eq]
  exact lookup_recorded acyclic listed

theorem Sound.invoked (sound : project.Sound acyclic roots s) (called : act ∈ s.calls) :
    Invoked project (s.running ++ s.ended) s.ended act := by
  obtain ⟨⟨act, c⟩, entry, rfl⟩ := List.mem_map.mp (sound.calls.mem_iff.mp called)
  obtain ⟨begun, ran⟩ := List.mem_filter.mp entry
  have ends := sound.right _ begun
  dsimp only at ends ran ⊢
  cases here : project.classes[act.cls]? with
  | none =>
    simp only [evaluated, here] at ends
    rw [ends] at ran
    contradiction
  | some cls =>
    simp only [evaluated, here] at ends
    cases found : project.catalog[act.analysis]? with
    | none =>
      rw [ends, evaluate_absent found] at ran
      contradiction
    | some a =>
      rw [ends] at ran
      obtain ⟨all, admitted⟩ := (ran_iff found).mp ran
      have direct := requirements_succeed_iff.mpr all
      have known (r : Id) (required : project.catalog.Requires act.analysis r) :
          s.ended.lookup ⟨r, act.cls⟩ =
            some (evaluate project.catalog acyclic project.program cls r) := by
        have depends : (⟨r, act.cls⟩ : Action) ∈ project.dependencies act :=
          mem_dependencies.mpr ⟨required, rfl⟩
        rw [sound.lookup_dependency begun depends]
        simp only [evaluated, here]
      have started := evaluate_started found direct
      rw [start_admitted admitted] at started
      exact ⟨a, cls, c, _, found, here, begun, by rw [ends, started], rfl,
        supplied_of_succeeds known direct⟩

end Project

theorem Output.exists_inspector {o : Output} (typed : o.type? = some .inspector) :
    ∃ i, o = .inspector i := by
  cases o with
  | inspector i => exact ⟨i, rfl⟩
  | value v => cases v <;> simp [Output.type?, OutputType.ofValue?] at typed

/-- Whoever requires the inspection is given an inspector. -/
theorem Supplied.inspector {project : Project} {ended : Ledger} {act : Action}
    {cls : Bytecode.Class} {task : Task} (supplied : Supplied project ended act cls task)
    {inspect : Id} (required : project.catalog.Requires act.analysis inspect)
    (found : project.catalog[inspect]? = some inspection) :
    ∃ i, task.inputs.lookup inspect = some (.inspector i) := by
  obtain ⟨o, given⟩ := Option.isSome_iff_exists.mp ((supplied.keys inspect).mpr required)
  obtain ⟨i, rfl⟩ := Output.exists_inspector (supplied.types inspect o inspection given found)
  exact ⟨i, given⟩

/-- An execution at some point: the actions begun, those that have ended, and the calls so far. -/
inductive Project.Underway (project : Project) (analyses : List Id) :
    Ledger → Ledger → List Action → Prop where
  | inSequence : Underway project analyses (project.ledger analyses) (project.ledger analyses)
      (Ledger.calls (project.ledger analyses))
  | inParallel {n : Nat} {s : Progress} (reached : project.Reaches (project.roots analyses) n s) :
      Underway project analyses (s.running ++ s.ended) s.ended s.calls

theorem Project.Underway.invoked {project : Project} (acyclic : project.catalog.Acyclic)
    {analyses : List Id} {begun ended : Ledger} {calls : List Action}
    (underway : project.Underway analyses begun ended calls) {act : Action} (called : act ∈ calls) :
    Invoked project begun ended act := by
  cases underway with
  | inParallel reached => exact (Sound.of_reaches acyclic reached).invoked called
  | inSequence =>
    -- The sequential execution is one of the parallel ones.
    obtain ⟨_, n, calls, reached⟩ := Paused.schedule acyclic analyses
    have sound := Sound.of_reaches acyclic reached
    exact sound.invoked (sound.calls.mem_iff.mpr called)

/-- Whenever a run function is called, it is given the results of the requirements of its analysis
on the class, each of the type that the requirement declares, and nothing else. So the analysis of
logging calls always finds its inspector. -/
theorem calls_supplied (project : Project) (acyclic : project.catalog.Acyclic) (analyses : List Id)
    {begun ended : Ledger} {calls : List Action}
    (underway : project.Underway analyses begun ended calls) {act : Action} (called : act ∈ calls) :
    Invoked project begun ended act ∧
    ∀ inspect reportSignOnly, project.catalog[inspect]? = some inspection →
      project.catalog[act.analysis]? = some (Logging.analysis inspect reportSignOnly) →
      ∃ c pass i, (act, c) ∈ begun ∧ c.pass = some pass ∧
        pass.task.inputs.lookup inspect = some (.inspector i) ∧
        pass.outcome = (Logging.survey i project.program.hierarchy reportSignOnly).outcome := by
  have invoked := underway.invoked acyclic called
  refine ⟨invoked, fun inspect reportSignOnly inspects logs => ?_⟩
  obtain ⟨a, cls, c, pass, found, _, listed, passed, outcome, supplied⟩ := invoked
  obtain rfl : a = Logging.analysis inspect reportSignOnly :=
    Option.some.inj (found.symm.trans logs)
  have required : project.catalog.Requires act.analysis inspect := by
    rw [Catalog.Requires, Catalog.requirements, found]
    exact List.mem_singleton_self inspect
  obtain ⟨i, given⟩ := supplied.inspector required inspects
  refine ⟨c, pass, i, listed, passed, given, outcome.trans ?_⟩
  rw [outcomeOn, Logging.analysis]
  simp only [Logging.run, supplied.subject.2, given]

/-- The analysis of logging calls on a class that was decoded only in part and on a whole one. -/
def halfBroken : Project :=
  ⟨Logging.catalog true, .ofClasses [brokenClass, wholeClass], [brokenClass, wholeClass]⟩

theorem halfBroken_acyclic : halfBroken.catalog.Acyclic := Catalog.acyclic_of_earlier (by decide)

/-- The inspection is called on both classes, and the analysis that requires it on the whole one. -/
theorem halfBroken_calls :
    Ledger.calls (halfBroken.ledger [1]) = [⟨1, 1⟩, ⟨0, 1⟩, ⟨0, 0⟩] ∧
    Invoked halfBroken (halfBroken.ledger [1]) (halfBroken.ledger [1]) ⟨1, 1⟩ ∧
    ∃ c pass i, (⟨1, 1⟩, c) ∈ halfBroken.ledger [1] ∧ c.pass = some pass ∧
      pass.task.inputs.lookup 0 = some (.inspector i) ∧
      pass.outcome = (Logging.survey i halfBroken.program.hierarchy true).outcome := by
  have calls : Ledger.calls (halfBroken.ledger [1]) = [⟨1, 1⟩, ⟨0, 1⟩, ⟨0, 0⟩] := by decide
  obtain ⟨invoked, inspected⟩ := calls_supplied halfBroken halfBroken_acyclic [1] .inSequence
    (calls ▸ List.mem_cons_self)
  exact ⟨calls, invoked, inspected 0 true rfl rfl⟩

end TraceLint.Analysis
