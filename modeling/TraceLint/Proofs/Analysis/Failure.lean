import TraceLint.Proofs.Analysis.Interleaving
import TraceLint.Proofs.Report.Plain

/-! How failures spread. An action looks only at those it depends on directly, but it is started
exactly where everything that it needs has succeeded, and it fails exactly where something that it
needs has a fault of its own. Nothing is said about analyses that no root needs. -/
namespace TraceLint.Analysis

open Bytecode (Program)

/-- What the run function of an analysis gives; without one there is nothing. -/
def outcomeOn (a : Analysis) (task : Task) : Outcome :=
  match a.run with
  | some run => run task
  | none => {}

/-- The analysis may run on the class: classes that were decoded only in part are for those that ask
for them. -/
def Admits (a : Analysis) (cls : Bytecode.Class) : Prop :=
  cls.incomplete = false ∨ a.runDespiteErrors = true

/-- What goes wrong with an analysis itself once its requirements have succeeded. -/
inductive OwnFault (a : Analysis) (task : Task) : Prop where
  | skipped (incomplete : task.cls.incomplete = true) (strict : a.runDespiteErrors = false)
  | failed {message : Text} (admitted : a.Admits task.cls)
    (error : (a.outcomeOn task).error = some message)
  | mistyped (admitted : a.Admits task.cls) (passed : (a.outcomeOn task).error = none)
      (differs : (a.outcomeOn task).output.type? ≠ a.outputType)

theorem not_admits_iff {a : Analysis} {cls : Bytecode.Class} :
    ¬ a.Admits cls ↔ cls.incomplete = true ∧ a.runDespiteErrors = false := by
  rw [Admits, not_or, Bool.not_eq_false, Bool.not_eq_true]

namespace Project

variable {project : Project} {id : Id} {a : Analysis} {cls : Bytecode.Class}
    {inputs : List (Id × Output)}

theorem start_skipped (refused : ¬ a.Admits cls) :
    project.start id a cls inputs =
      ⟨some ⟨id, ⟨cls, some project.program, inputs⟩, {}⟩, some .incompleteClass⟩ := by
  obtain ⟨incomplete, strict⟩ := not_admits_iff.mp refused
  rw [start, incomplete, strict]
  rfl

theorem start_admitted (admitted : a.Admits cls) :
    project.start id a cls inputs = ⟨some ⟨id, ⟨cls, some project.program, inputs⟩,
      a.outcomeOn ⟨cls, some project.program, inputs⟩⟩,
      judge a cls.name (a.outcomeOn ⟨cls, some project.program, inputs⟩)⟩ := by
  have runs : (cls.incomplete && !a.runDespiteErrors) = false := by
    rcases admitted with complete | despite
    · rw [complete, Bool.false_and]
    · rw [despite, Bool.not_true, Bool.and_false]
  rw [start, runs]
  rfl

theorem judge_eq_none_iff {name : Text} {outcome : Outcome} :
    judge a name outcome = none ↔ outcome.error = none ∧ outcome.output.type? = a.outputType := by
  unfold judge
  cases outcome.error with
  | some message => simp
  | none => simp

theorem judge_ne_incompleteClass {name : Text} {outcome : Outcome} :
    judge a name outcome ≠ some .incompleteClass := by
  unfold judge
  cases outcome.error with
  | some message => simp
  | none =>
    dsimp only
    split <;> simp

/-- A started analysis fails by a fault of its own and by nothing else. -/
theorem start_fails_iff : (project.start id a cls inputs).failure ≠ none ↔
    OwnFault a ⟨cls, some project.program, inputs⟩ := by
  by_cases admitted : a.Admits cls
  · rw [start_admitted admitted, ne_eq, judge_eq_none_iff]
    constructor
    · intro unsound
      cases error : (a.outcomeOn ⟨cls, some project.program, inputs⟩).error with
      | some message => exact .failed admitted error
      | none => exact .mistyped admitted error fun same => unsound ⟨error, same⟩
    · rintro (⟨incomplete, strict⟩ | ⟨_, error⟩ | ⟨_, _, differs⟩) ⟨passed, same⟩
      · exact not_admits_iff.mpr ⟨incomplete, strict⟩ admitted
      · rw [passed] at error
        contradiction
      · exact differs same
  · rw [start_skipped admitted]
    obtain ⟨incomplete, strict⟩ := not_admits_iff.mp admitted
    exact iff_of_true (Option.some_ne_none _) (.skipped incomplete strict)

theorem start_ran_iff : (project.start id a cls inputs).ran = true ↔ a.Admits cls := by
  by_cases admitted : a.Admits cls
  · rw [start_admitted admitted]
    refine iff_of_true ?_ admitted
    exact Bool.and_eq_true_iff.mpr ⟨rfl, bne_iff_ne.mpr judge_ne_incompleteClass⟩
  · rw [start_skipped admitted]
    exact iff_of_false (by simp [Conclusion.ran]) admitted

end Project

section

variable (catalog : Catalog) (acyclic : catalog.Acyclic) (program : Program) (cls : Bytecode.Class)

def Succeeds (id : Id) : Prop := (evaluate catalog acyclic program cls id).failure = none

/-- What an analysis is given on a class: the results of its requirements there. -/
def taskOn (id : Id) : Task :=
  ⟨cls, some program, (catalog.requirements id).map fun r =>
    (r, (evaluate catalog acyclic program cls r).output)⟩

/-- The requirements of an analysis that fail on a class, by label. -/
def failing (id : Id) : List Text :=
  ((catalog.requirements id).filter fun r =>
    (evaluate catalog acyclic program cls r).failure.isSome).map
    fun r => label (catalog.nameOf r) cls.name

variable {catalog acyclic program cls} {id r : Id} {a : Analysis}

theorem evaluate_started (found : catalog[id]? = some a)
    (all : ∀ r, catalog.Requires id r → Succeeds catalog acyclic program cls r) :
    evaluate catalog acyclic program cls id = (Project.mk catalog program [cls]).start id a cls
      (taskOn catalog acyclic program cls id).inputs := by
  have none : ((catalog.requirements id).filter fun r =>
      (evaluate catalog acyclic program cls r).failure.isSome) = [] := by
    refine List.filter_eq_nil_iff.mpr fun r required => ?_
    have succeeds : (evaluate catalog acyclic program cls r).failure = none := all r required
    simp [succeeds]
  rw [evaluate_eq, concluded, List.filter_map]
  simp only [Function.comp_def, none, List.map_nil, List.isEmpty_nil, if_true, found, List.map_map]
  rfl

theorem evaluate_stopped (required : catalog.Requires id r)
    (fails : ¬ Succeeds catalog acyclic program cls r) :
    evaluate catalog acyclic program cls id =
      ⟨none, some (.prerequisites (Text.sort (failing catalog acyclic program cls id)))⟩ := by
  have some : ((catalog.requirements id).filter fun r =>
      (evaluate catalog acyclic program cls r).failure.isSome).isEmpty = false := by
    refine List.isEmpty_eq_false_iff.mpr (List.ne_nil_of_mem (List.mem_filter.mpr ⟨required, ?_⟩))
    exact Option.isSome_iff_ne_none.mpr fails
  rw [evaluate_eq, concluded, List.filter_map]
  simp only [List.isEmpty_map, Function.comp_def, some, Bool.false_eq_true, if_false, List.map_map]
  rfl

theorem evaluate_absent (absent : catalog[id]? = none) :
    evaluate catalog acyclic program cls id = ⟨none, none⟩ := by
  have nothing : catalog.requirements id = [] := by rw [Catalog.requirements, absent]
  rw [evaluate_eq, nothing, concluded]
  simp [absent]

theorem Succeeds.requirement (succeeds : Succeeds catalog acyclic program cls id)
    (required : catalog.Requires id r) : Succeeds catalog acyclic program cls r := by
  by_contra fails
  unfold Succeeds at succeeds
  rw [evaluate_stopped required fails] at succeeds
  contradiction

theorem Succeeds.needed (succeeds : Succeeds catalog acyclic program cls id)
    (path : Relation.ReflTransGen catalog.Requires id r) :
    Succeeds catalog acyclic program cls r := by
  induction path with
  | refl => exact succeeds
  | tail _ required ih => exact ih.requirement required

/-- Success of the direct requirements is success of all that is needed. -/
theorem requirements_succeed_iff :
    (∀ r, catalog.Requires id r → Succeeds catalog acyclic program cls r) ↔
      ∀ r, Relation.TransGen catalog.Requires id r → Succeeds catalog acyclic program cls r := by
  constructor
  · intro direct r path
    obtain ⟨first, required, rest⟩ := Relation.TransGen.head'_iff.mp path
    exact (direct first required).needed rest
  · intro all r required
    exact all r (.single required)

/-- A failure goes back to an analysis with a fault of its own. -/
theorem fails_iff : ¬ Succeeds catalog acyclic program cls id ↔
    ∃ b analysis, Relation.ReflTransGen catalog.Requires id b ∧ catalog[b]? = some analysis ∧
      (∀ r, catalog.Requires b r → Succeeds catalog acyclic program cls r) ∧
      OwnFault analysis (taskOn catalog acyclic program cls b) := by
  constructor
  · intro fails
    -- Down the requirements that failed; the ranks end the descent.
    induction rank : catalog.rank id using Nat.strong_induction_on generalizing id with
    | _ _ ih =>
      by_cases all : ∀ r, catalog.Requires id r → Succeeds catalog acyclic program cls r
      · cases found : catalog[id]? with
        | none => exact absurd (congrArg Conclusion.failure (evaluate_absent found)) fails
        | some a =>
          refine ⟨id, a, .refl, found, all, ?_⟩
          unfold Succeeds at fails
          rw [evaluate_started found all] at fails
          exact Project.start_fails_iff.mp fails
      · push Not at all
        obtain ⟨r, required, failed⟩ := all
        obtain ⟨b, analysis, path, rest⟩ := ih _ (rank ▸ acyclic.rank_lt required) failed rfl
        exact ⟨b, analysis, path.head required, rest⟩
  · rintro ⟨b, analysis, path, found, all, fault⟩ succeeds
    have fine : (evaluate catalog acyclic program cls b).failure = none := succeeds.needed path
    rw [evaluate_started found all] at fine
    exact Project.start_fails_iff.mpr fault fine

theorem ran_iff (found : catalog[id]? = some a) :
    (evaluate catalog acyclic program cls id).ran = true ↔
      (∀ r, Relation.TransGen catalog.Requires id r → Succeeds catalog acyclic program cls r) ∧
        a.Admits cls := by
  rw [← requirements_succeed_iff]
  by_cases all : ∀ r, catalog.Requires id r → Succeeds catalog acyclic program cls r
  · rw [evaluate_started found all, Project.start_ran_iff]
    exact (and_iff_right all).symm
  · refine iff_of_false ?_ fun both => all both.1
    push Not at all
    obtain ⟨r, required, failed⟩ := all
    rw [evaluate_stopped required failed]
    exact Bool.false_ne_true

end

namespace Project

variable {project : Project} {analyses : List Id} {ended : Ledger} {calls : List Action}
    {act : Action}

/-- A complete execution of all that some analyses need: how the actions ended, and which run
functions were called. -/
inductive Executes (project : Project) (analyses : List Id) : Ledger → List Action → Prop where
  | inSequence :
    Executes project analyses (project.ledger analyses) (Ledger.calls (project.ledger analyses))
  | inParallel {n : Nat} {s : Progress} (reached : project.Reaches (project.roots analyses) n s)
      (stuck : ∀ t, ¬ project.Step (project.roots analyses) s t) :
        Executes project analyses s.ended s.calls

theorem Executes.lookup (acyclic : project.catalog.Acyclic)
    (executed : project.Executes analyses ended calls)
    (scheduled : act ∈ project.schedule analyses) :
    ended.lookup act = some (project.evaluated acyclic act) := by
  have sequential :
      (project.ledger analyses).lookup act = some (project.evaluated acyclic act) := by
    rw [ledger_eq_recorded acyclic]
    exact lookup_recorded acyclic scheduled
  cases executed with
  | inSequence => exact sequential
  | inParallel reached stuck =>
    obtain ⟨_, _, _, same⟩ := (Sound.of_reaches acyclic reached).of_stuck stuck
    rw [same act, sequential]

theorem mem_calls_recorded (acyclic : project.catalog.Acyclic) {order : List Action} :
    act ∈ Ledger.calls (project.recorded acyclic order) ↔
      act ∈ order ∧ (project.evaluated acyclic act).ran = true := by
  simp only [Ledger.calls, recorded, List.mem_map, List.mem_filter, List.mem_reverse]
  constructor
  · rintro ⟨_, ⟨⟨other, listed, rfl⟩, ran⟩, rfl⟩
    exact ⟨listed, ran⟩
  · rintro ⟨listed, ran⟩
    exact ⟨_, ⟨⟨act, listed, rfl⟩, ran⟩, rfl⟩

theorem Executes.mem_calls (acyclic : project.catalog.Acyclic)
    (executed : project.Executes analyses ended calls)
    (scheduled : act ∈ project.schedule analyses) :
    act ∈ calls ↔ (project.evaluated acyclic act).ran = true := by
  have sequential : act ∈ Ledger.calls (project.ledger analyses) ↔
      (project.evaluated acyclic act).ran = true := by
    rw [ledger_eq_recorded acyclic, mem_calls_recorded]
    exact and_iff_right scheduled
  cases executed with
  | inSequence => exact sequential
  | inParallel reached stuck =>
    obtain ⟨_, _, shuffled, _⟩ := (Sound.of_reaches acyclic reached).of_stuck stuck
    exact shuffled.mem_iff.trans sequential

theorem scheduled_of_required (acyclic : project.catalog.Acyclic)
    (scheduled : act ∈ project.schedule analyses) {r : Id}
    (path : Relation.ReflTransGen project.catalog.Requires act.analysis r) :
    (⟨r, act.cls⟩ : Action) ∈ project.schedule analyses :=
  (schedule_inOrder acyclic analyses).needed scheduled (.of_required path)

/-- What an action is given once those it depends on have ended. -/
def taskAt (project : Project) (ended : Ledger) (act : Action) (cls : Bytecode.Class) : Task :=
  ⟨cls, some project.program, (project.catalog.requirements act.analysis).map fun r =>
    (r, ((ended.lookup ⟨r, act.cls⟩).map Conclusion.output).getD (.value .null))⟩

end Project

/-- The action ended without a failure. -/
def Ledger.succeeded (ledger : Ledger) (act : Action) : Bool :=
  (ledger.lookup act).any fun c => c.failure.isNone

/-- What an action found. -/
def Ledger.findings (ledger : Ledger) (act : Action) : List Finding :=
  ((ledger.lookup act).map Conclusion.findings).getD []

/-- How an action ends that some requirement keeps from being started. -/
structure Stopped (project : Project) (ended : Ledger) (act : Action) (cls : Bytecode.Class)
    (c : Conclusion) : Prop where
  unstarted : c.pass = none
  silent : c.findings = []
  names : ∃ labels : List Text, labels.Pairwise (· ≤ ·) ∧
    labels.Perm (((project.catalog.requirements act.analysis).filter fun r =>
      !Ledger.succeeded ended ⟨r, act.cls⟩).map
        fun r => label (project.catalog.nameOf r) cls.name) ∧
    c.failure.map Failure.message =
      some (text "failed prerequisites: " ++ Text.join (text ", ") labels)

namespace Project

variable {project : Project} {analyses : List Id} {ended : Ledger} {calls : List Action}

/-- A report shows what the actions of its roots found, and nothing else. -/
theorem Executes.reported (acyclic : project.catalog.Acyclic)
    (executed : project.Executes analyses ended calls) {s : Report.Section}
    (listed : s ∈ Report.sections project.catalog (project.analyze analyses)) :
    s.sink.arrived =
      ((project.roots analyses).filter fun root => root.analysis = s.analysis).flatMap
        (Ledger.findings ended) := by
  rw [(Report.mem_sections listed).1, Report.sectionOf, analyze_eq_evaluated acyclic,
    List.filter_map, List.flatMap_map]
  refine List.flatMap_congr fun root member => ?_
  have scheduled : root ∈ project.schedule analyses :=
    (mem_schedule acyclic).mpr ⟨root, (List.mem_filter.mp member).1, .refl⟩
  rw [Ledger.findings, executed.lookup acyclic scheduled]
  rfl

section

variable {act : Action} {cls : Bytecode.Class} {r : Id} (acyclic : project.catalog.Acyclic)
  (executed : project.Executes analyses ended calls) (scheduled : act ∈ project.schedule analyses)
  (here : project.classes[act.cls]? = some cls)
include executed scheduled here

theorem lookup_needed (path : Relation.ReflTransGen project.catalog.Requires act.analysis r) :
    ended.lookup ⟨r, act.cls⟩ = some (evaluate project.catalog acyclic project.program cls r) := by
  rw [executed.lookup acyclic (scheduled_of_required acyclic scheduled path)]
  simp only [evaluated, here]

theorem succeeded_needed (path : Relation.ReflTransGen project.catalog.Requires act.analysis r) :
    Ledger.succeeded ended ⟨r, act.cls⟩ = true ↔
      Succeeds project.catalog acyclic project.program cls r := by
  rw [Ledger.succeeded, lookup_needed acyclic executed scheduled here path]
  exact Option.isNone_iff_eq_none

theorem taskAt_needed (path : Relation.ReflTransGen project.catalog.Requires act.analysis r) :
    project.taskAt ended ⟨r, act.cls⟩ cls =
      taskOn project.catalog acyclic project.program cls r := by
  have inputs : (project.catalog.requirements r).map (fun q =>
      (q, ((ended.lookup ⟨q, act.cls⟩).map Conclusion.output).getD (.value .null))) =
      (project.catalog.requirements r).map fun q =>
        (q, (evaluate project.catalog acyclic project.program cls q).output) := by
    refine List.map_congr_left fun q required => ?_
    rw [lookup_needed acyclic executed scheduled here (path.tail required)]
    rfl
  rw [taskAt, taskOn, inputs]

theorem stopped_needed (required : project.catalog.Requires act.analysis r)
    (failed : ¬ Succeeds project.catalog acyclic project.program cls r) :
    Stopped project ended act cls
      (evaluate project.catalog acyclic project.program cls act.analysis) := by
  rw [evaluate_stopped required failed]
  refine ⟨rfl, rfl, _, Text.sort_ordered _, (List.mergeSort_perm _ _).trans (.of_eq ?_), rfl⟩
  rw [failing]
  congr 1
  refine List.filter_congr fun q listed => ?_
  rw [Ledger.succeeded, lookup_needed acyclic executed scheduled here (.single listed)]
  exact (Bool.not_not _).symm.trans (congrArg _ (Option.not_isSome _))

end

end Project

/-- However the actions are executed, an analysis is run on a class exactly where all that it needs
has succeeded there and the class admits it; it fails exactly where something that it needs, itself
included, has a fault of its own. Where a requirement failed, the failure names those that did and
nothing is found; otherwise all that was found stays, whether the analysis itself fails or not. -/
theorem failures_spread (project : Project) (acyclic : project.catalog.Acyclic) (analyses : List Id)
    {ended : Ledger} {calls : List Action} (executed : project.Executes analyses ended calls)
    {act : Action} (scheduled : act ∈ project.schedule analyses) {a : Analysis}
    (found : project.catalog[act.analysis]? = some a) {cls : Bytecode.Class}
    (here : project.classes[act.cls]? = some cls) :
    ∃ c, ended.lookup act = some c ∧
      (act ∈ calls ↔
        (∀ r, Relation.TransGen project.catalog.Requires act.analysis r →
          Ledger.succeeded ended ⟨r, act.cls⟩) ∧
        (cls.incomplete = false ∨ a.runDespiteErrors = true)) ∧
      (c.failure ≠ none ↔
        ∃ b analysis, Relation.ReflTransGen project.catalog.Requires act.analysis b ∧
        project.catalog[b]? = some analysis ∧
        (∀ r, project.catalog.Requires b r → Ledger.succeeded ended ⟨r, act.cls⟩) ∧
        OwnFault analysis (project.taskAt ended ⟨b, act.cls⟩ cls)) ∧
      ((∃ r, project.catalog.Requires act.analysis r ∧ ¬ Ledger.succeeded ended ⟨r, act.cls⟩) →
        Stopped project ended act cls c) ∧
      (act ∈ calls → c.pass = some ⟨act.analysis, project.taskAt ended act cls,
        a.outcomeOn (project.taskAt ended act cls)⟩ ∧
        c.findings = (a.outcomeOn (project.taskAt ended act cls)).findings) ∧
      (act ∉ calls → c.findings = []) ∧
      ∀ s ∈ Report.sections project.catalog (project.analyze analyses),
        s.sink.arrived =
          ((project.roots analyses).filter fun root => root.analysis = s.analysis).flatMap
            (Ledger.findings ended) := by
  have succeeded {r : Id} (path : Relation.ReflTransGen project.catalog.Requires act.analysis r) :=
    Project.succeeded_needed acyclic executed scheduled here path
  have task := Project.taskAt_needed acyclic executed scheduled here .refl
  have called : act ∈ calls ↔
      (evaluate project.catalog acyclic project.program cls act.analysis).ran = true := by
    rw [executed.mem_calls acyclic scheduled]
    simp only [Project.evaluated, here]
  refine ⟨_, Project.lookup_needed acyclic executed scheduled here .refl, ?_, ?_, ?_, ?_, ?_,
    fun s => executed.reported acyclic⟩
  · rw [called, ran_iff found]
    refine and_congr_left' (forall₂_congr fun r path => ?_)
    exact (succeeded path.to_reflTransGen).symm
  · refine fails_iff.trans (exists₂_congr fun b analysis => and_congr_right fun path =>
      and_congr_right fun _ => ?_)
    rw [Project.taskAt_needed acyclic executed scheduled here path]
    refine and_congr_left' (forall₂_congr fun r required => ?_)
    exact (succeeded (path.tail required)).symm
  · rintro ⟨r, required, failed⟩
    exact Project.stopped_needed acyclic executed scheduled here required
      ((succeeded (.single required)).not.mp failed)
  · intro runs
    obtain ⟨all, admitted⟩ := (ran_iff found).mp (called.mp runs)
    rw [task, evaluate_started found (requirements_succeed_iff.mpr all),
      Project.start_admitted admitted]
    exact ⟨rfl, rfl⟩
  · intro idle
    by_cases all : ∀ r, project.catalog.Requires act.analysis r →
        Succeeds project.catalog acyclic project.program cls r
    · have refused : ¬ a.Admits cls := fun admitted =>
        idle (called.mpr ((ran_iff found).mpr ⟨requirements_succeed_iff.mp all, admitted⟩))
      rw [evaluate_started found all, Project.start_skipped refused]
      rfl
    · push Not at all
      obtain ⟨r, required, failed⟩ := all
      rw [evaluate_stopped required failed]
      rfl

/-- Reports one finding on every class and then fails. -/
def objection : Analysis where
  name := text "objection"
  doc := text "object to everything"
  run := some fun task =>
    { findings := [⟨{ cls := task.cls.name }, [], .normal, text "seen", [], .none⟩]
      error := some (text "objected") }

/-- A count and an objection, both required by one more analysis. -/
def contested : Project :=
  ⟨[relay "count" [], objection, relay "top" [some 1, some 0]], .ofClasses [wholeClass],
    [wholeClass]⟩

theorem contested_acyclic : contested.catalog.Acyclic := Catalog.acyclic_of_earlier (by decide)

/-- The objection stops the analysis that requires it, and its own finding is kept. -/
theorem objection_spreads :
    (⟨2, 0⟩ : Action) ∉ Ledger.calls (contested.ledger [2]) ∧
    (((contested.ledger [2]).lookup ⟨2, 0⟩).bind Conclusion.failure).map Failure.message =
      some (text "failed prerequisites: objection@a/Whole") ∧
    (⟨1, 0⟩ : Action) ∈ Ledger.calls (contested.ledger [2]) ∧
    (Ledger.findings (contested.ledger [2]) ⟨1, 0⟩).map Finding.message = [text "seen"] := by
  have failed : Ledger.succeeded (contested.ledger [2]) ⟨1, 0⟩ = false := by decide
  have counted : Ledger.succeeded (contested.ledger [2]) ⟨0, 0⟩ = true := by decide
  have required : contested.catalog.requirements 2 = [1, 0] := rfl
  have free : ∀ r, ¬ contested.catalog.Requires 1 r := fun r => List.not_mem_nil
  obtain ⟨c, top, runs, _, stopped, _⟩ :=
    @failures_spread contested contested_acyclic [2] _ _ .inSequence
    ⟨2, 0⟩ (by decide) _ rfl _ rfl
  obtain ⟨c', objected, runs', _, _, kept, _⟩ :=
    @failures_spread contested contested_acyclic [2] _ _
    .inSequence ⟨1, 0⟩ (by decide) _ rfl _ rfl
  have called : (⟨1, 0⟩ : Action) ∈ Ledger.calls (contested.ledger [2]) := by
    refine runs'.mpr ⟨fun r path => ?_, .inl rfl⟩
    obtain ⟨first, step, _⟩ := Relation.TransGen.head'_iff.mp path
    exact absurd step (free first)
  obtain ⟨labels, _, named, message⟩ :=
    (stopped ⟨1, by simp [Catalog.Requires, required], by simp [failed]⟩).names
  rw [required] at named
  simp only [List.filter_cons, failed, counted] at named
  have one : labels = [label (contested.catalog.nameOf 1) wholeClass.name] :=
    List.perm_singleton.mp named
  refine ⟨fun called => ?_, ?_, called, ?_⟩
  · have succeeded := (runs.mp called).1 1 (.single (by simp [Catalog.Requires, required]))
    simp [failed] at succeeded
  · rw [top, Option.bind_some, message, one]
    rfl
  · rw [Ledger.findings, objected, Option.map_some, Option.getD_some, (kept called).2]
    rfl

end TraceLint.Analysis
