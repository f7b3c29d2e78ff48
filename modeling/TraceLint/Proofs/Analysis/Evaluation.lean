import TraceLint.Analysis.Action
import TraceLint.Proofs.Analysis.Requirements

/-! Actions against plain recursion over requirements. Whatever the order in which actions are
executed, if each comes after those it depends on, it ends as the recursion says: nothing is lost by
sharing the ends of requirements, and no class has a part in how an analysis ends on another. -/
namespace TraceLint.Analysis

open Bytecode (Program)

/-- How an analysis ends on a class, given its requirements with their ends. -/
def concluded (catalog : Catalog) (program : Program) (cls : Bytecode.Class) (id : Id)
    (required : List (Id × Conclusion)) : Conclusion :=
  let failed := required.filter fun (_, c) => c.failure.isSome
  if failed.isEmpty then
    match catalog[id]? with
    | some a =>
      (Project.mk catalog program [cls]).start id a cls (required.map fun (r, c) => (r, c.output))
    | none => ⟨none, none⟩
  else ⟨none,
    some (.prerequisites (Text.sort (failed.map fun (r, _) => label (catalog.nameOf r) cls.name)))⟩

/-- How an analysis ends on a class by plain recursion: a requirement is evaluated anew wherever it
is needed. -/
def evaluate (catalog : Catalog) (acyclic : catalog.Acyclic) (program : Program)
    (cls : Bytecode.Class) (id : Id) : Conclusion :=
  concluded catalog program cls id ((catalog.requirements id).attach.map fun r =>
    (r.1, evaluate catalog acyclic program cls r.1))
termination_by catalog.rank id
decreasing_by exact acyclic.rank_lt r.2

theorem evaluate_eq (catalog : Catalog) (acyclic : catalog.Acyclic) (program : Program)
    (cls : Bytecode.Class) (id : Id) :
    evaluate catalog acyclic program cls id = concluded catalog program cls id
      ((catalog.requirements id).map fun r => (r, evaluate catalog acyclic program cls r)) := by
  rw [evaluate]
  exact congrArg _ (@List.attach_map_val _ _ _ fun r => (r, evaluate catalog acyclic program cls r))

namespace Project

variable {project : Project} {act : Action}

theorem mem_dependencies {d : Action} :
    d ∈ project.dependencies act ↔ project.catalog.Requires act.analysis d.analysis ∧
      d.cls = act.cls := by
  obtain ⟨analysis, cls⟩ := d
  simp only [dependencies, List.mem_map, Action.mk.injEq, Catalog.Requires]
  constructor
  · rintro ⟨r, required, rfl, rfl⟩
    exact ⟨required, rfl⟩
  · rintro ⟨required, rfl⟩
    exact ⟨analysis, required, rfl, rfl⟩

/-- How an action ends by plain recursion. -/
def evaluated (project : Project) (acyclic : project.catalog.Acyclic) (act : Action) : Conclusion :=
  match project.classes[act.cls]? with
  | some cls => evaluate project.catalog acyclic project.program cls act.analysis
  | none => ⟨none, none⟩

/-- An action that finds the ends of its dependencies concludes from them. -/
theorem execute_eq_concluded {cls : Bytecode.Class} (found : project.classes[act.cls]? = some cls)
    {ended : Action → Option Conclusion} {result : Id → Conclusion}
    (known : ∀ r, project.catalog.Requires act.analysis r → ended ⟨r, act.cls⟩ = some (result r)) :
    project.execute ended act = concluded project.catalog project.program cls act.analysis
      ((project.catalog.requirements act.analysis).map fun r => (r, result r)) := by
  have failed :
      (project.dependencies act).filter (fun d => (ended d).any fun c => c.failure.isSome) =
      ((project.catalog.requirements act.analysis).filter fun r => (result r).failure.isSome).map
        fun r => ⟨r, act.cls⟩ := by
    rw [dependencies, List.filter_map]
    congr 1
    refine List.filter_congr fun r required => ?_
    simp [known r required]
  have inputs : (project.dependencies act).map (fun d =>
      (d.analysis, ((ended d).map Conclusion.output).getD (.value .null))) =
      (project.catalog.requirements act.analysis).map fun r => (r, (result r).output) := by
    rw [dependencies, List.map_map]
    refine List.map_congr_left fun r required => ?_
    simp [known r required]
  have labels : project.labelOf ∘ (fun r => ⟨r, act.cls⟩) =
      (fun (r, _) => label (project.catalog.nameOf r) cls.name) ∘ fun r => (r, result r) := by
    funext r
    simp [labelOf, className, found]
  have selected : ((project.catalog.requirements act.analysis).map fun r => (r, result r)).filter
      (fun (_, c) => c.failure.isSome) =
      ((project.catalog.requirements act.analysis).filter fun r => (result r).failure.isSome).map
        fun r => (r, result r) := List.filter_map
  simp only [execute, concluded, failed, inputs, selected, found, List.map_map, List.isEmpty_map,
    labels]
  cases (project.catalog.requirements act.analysis).filter fun r => (result r).failure.isSome with
  | nil => cases project.catalog[act.analysis]? <;> rfl
  | cons => rfl

/-- Actions of a class that does not exist end with nothing, and so do those that depend on them. -/
theorem execute_of_no_class (missing : project.classes[act.cls]? = none)
    {ended : Action → Option Conclusion}
    (known : ∀ d ∈ project.dependencies act, ended d = some ⟨none, none⟩) :
    project.execute ended act = ⟨none, none⟩ := by
  have failed :
      (project.dependencies act).filter (fun d => (ended d).any fun c => c.failure.isSome) =
        [] := by
    refine List.filter_eq_nil_iff.mpr fun d depends => ?_
    simp [known d depends]
  simp only [execute, failed, missing]
  cases project.catalog[act.analysis]? <;> rfl

theorem execute_eq_evaluated (acyclic : project.catalog.Acyclic)
    {ended : Action → Option Conclusion}
    (known : ∀ d ∈ project.dependencies act, ended d = some (project.evaluated acyclic d)) :
    project.execute ended act = project.evaluated acyclic act := by
  cases found : project.classes[act.cls]? with
  | none =>
    have nothing (d : Action) (same : d.cls = act.cls) :
        project.evaluated acyclic d = ⟨none, none⟩ := by
      simp only [evaluated, same, found]
    rw [nothing act rfl]
    refine execute_of_no_class found fun d depends => ?_
    rw [known d depends, nothing d (mem_dependencies.mp depends).2]
  | some cls =>
    have evaluates (r : Id) : project.evaluated acyclic ⟨r, act.cls⟩ =
        evaluate project.catalog acyclic project.program cls r := by
      simp only [evaluated, found]
    rw [execute_eq_concluded found fun r required =>
      (known ⟨r, act.cls⟩ (mem_dependencies.mpr ⟨required, rfl⟩)).trans
        (congrArg some (evaluates r))]
    rw [← evaluate_eq, ← evaluates]

/-- Actions in an order in which each occurs once and after those it depends on. -/
inductive InOrder (project : Project) : List Action → Prop where
  | nil : InOrder project []
  | snoc {order : List Action} {act : Action} : InOrder project order → act ∉ order →
      (∀ d ∈ project.dependencies act, d ∈ order) → InOrder project (order ++ [act])

namespace InOrder

variable {order : List Action}

theorem nodup (ordered : project.InOrder order) : order.Nodup := by
  induction ordered with
  | nil => exact List.nodup_nil
  | snoc _ fresh _ ih =>
    exact List.nodup_append.mpr ⟨ih, List.nodup_singleton _, by grind⟩

theorem closed (ordered : project.InOrder order) {act d : Action} (listed : act ∈ order)
    (depends : d ∈ project.dependencies act) : d ∈ order := by
  induction ordered with
  | nil => contradiction
  | @snoc order last _ _ ready ih =>
    rcases List.mem_append.mp listed with before | here
    · exact List.mem_append_left _ (ih before)
    · obtain rfl := List.mem_singleton.mp here
      exact List.mem_append_left _ (ready d depends)

end InOrder

theorem executeAll_snoc (order : List Action) (act : Action) :
    project.executeAll (order ++ [act]) =
      (act, project.execute ((project.executeAll order).lookup ·) act) ::
        project.executeAll order := by
  simp [executeAll, List.foldl_append]

/-- The ledger in which some actions have ended as plain recursion says, the latest first. -/
def recorded (project : Project) (acyclic : project.catalog.Acyclic)
    (order : List Action) : Ledger :=
  order.reverse.map fun act => (act, project.evaluated acyclic act)

theorem lookup_recorded (acyclic : project.catalog.Acyclic) {order : List Action}
    (listed : act ∈ order) :
    (project.recorded acyclic order).lookup act = some (project.evaluated acyclic act) :=
  List.lookup_graph _ (List.mem_reverse.mpr listed)

theorem lookup_recorded_congr (acyclic : project.catalog.Acyclic) {order other : List Action}
    (same : ∀ act, act ∈ order ↔ act ∈ other) (act : Action) :
    (project.recorded acyclic order).lookup act = (project.recorded acyclic other).lookup act := by
  have absent {order : List Action} (unlisted : act ∉ order) :
      (project.recorded acyclic order).lookup act = none := by
    refine List.lookup_eq_none_iff.mpr fun e member => ?_
    obtain ⟨listed, inside, rfl⟩ := List.mem_map.mp member
    exact bne_iff_ne.mpr fun here => unlisted (here ▸ List.mem_reverse.mp inside)
  by_cases listed : act ∈ order
  · rw [lookup_recorded acyclic listed, lookup_recorded acyclic ((same act).mp listed)]
  · rw [absent listed, absent fun member => listed ((same act).mpr member)]

/-- Executing actions in order records what plain recursion says. -/
theorem executeAll_eq_recorded (acyclic : project.catalog.Acyclic) {order : List Action}
    (ordered : project.InOrder order) :
    project.executeAll order = project.recorded acyclic order := by
  induction ordered with
  | nil => rfl
  | @snoc order act before fresh ready ih =>
    have ends : project.execute ((project.recorded acyclic order).lookup ·) act =
        project.evaluated acyclic act :=
      execute_eq_evaluated acyclic fun d depends => lookup_recorded acyclic (ready d depends)
    rw [executeAll_snoc, ih, ends]
    simp [recorded]

end Project

end TraceLint.Analysis
