import TraceLint.Proofs.Analysis.Evaluation

/-! The schedule of some analyses lists exactly the actions that their roots need, each once and
after those it depends on. So the ends of the roots are those of plain recursion, however many
analyses and classes share the work. -/
namespace TraceLint.Analysis

namespace Project

variable {project : Project} {order : List Action} {act d : Action}

/-- An action depends on another directly. -/
def DependsOn (project : Project) (act d : Action) : Prop := d ∈ project.dependencies act

/-- An action is executed for the sake of another: it is that one, or it is depended on by it. -/
def Needs (project : Project) : Action → Action → Prop := Relation.ReflTransGen project.DependsOn

theorem Needs.required (needs : project.Needs act d) :
    Relation.ReflTransGen project.catalog.Requires act.analysis d.analysis := by
  induction needs with
  | refl => exact .refl
  | tail _ depends ih => exact ih.tail (mem_dependencies.mp depends).1

theorem Needs.same_class (needs : project.Needs act d) : act.cls = d.cls := by
  induction needs with
  | refl => rfl
  | tail _ depends ih => exact ih.trans (mem_dependencies.mp depends).2.symm

theorem Needs.of_required {r : Id}
    (path : Relation.ReflTransGen project.catalog.Requires act.analysis r) :
    project.Needs act ⟨r, act.cls⟩ := by
  induction path with
  | refl => exact .refl
  | tail _ required ih => exact ih.tail (mem_dependencies.mpr ⟨required, rfl⟩)

theorem InOrder.needed (ordered : project.InOrder order) (listed : act ∈ order)
    (needs : project.Needs act d) : d ∈ order := by
  induction needs with
  | refl => exact listed
  | tail _ depends ih => exact ordered.closed ih depends

/-- An order is extended by all that some actions need. -/
structure Adds (project : Project) (order acts after : List Action) : Prop where
  ordered : project.InOrder after
  mem_iff : ∀ x, x ∈ after ↔ x ∈ order ∨ ∃ act ∈ acts, project.Needs act x

theorem Adds.foldl {add : List Action → Action → List Action} {acts : List Action}
    (each : ∀ order, project.InOrder order → ∀ act ∈ acts, project.Adds order [act] (add order act))
    (ordered : project.InOrder order) : project.Adds order acts (acts.foldl add order) := by
  induction acts generalizing order with
  | nil => exact ⟨ordered, by simp⟩
  | cons act rest ih =>
    have first := each order ordered act List.mem_cons_self
    have later :=
      ih (fun order ordered act listed => each order ordered act (List.mem_cons_of_mem _ listed))
      first.ordered
    refine ⟨later.ordered, fun x => ?_⟩
    rw [List.foldl_cons, later.mem_iff, first.mem_iff]
    simp [or_assoc]

/-- A search that goes deeper than the rank of an action adds all that it needs. -/
theorem plan_adds_from (acyclic : project.catalog.AcyclicFrom act.analysis) {fuel : Nat}
    (enough : project.catalog.rank act.analysis < fuel) (ordered : project.InOrder order) :
    project.Adds order [act] (project.plan fuel order act) := by
  induction fuel generalizing order act with
  | zero => omega
  | succ fuel ih =>
    rw [plan]
    split
    · rename_i listed
      refine ⟨ordered, fun x => ⟨.inl, ?_⟩⟩
      rintro (before | ⟨_, member, needs⟩)
      · exact before
      · obtain rfl := List.mem_singleton.mp member
        exact ordered.needed (List.contains_iff_mem.mp listed) needs
    · rename_i fresh
      have lower {d : Action} (depends : d ∈ project.dependencies act) :
          project.catalog.rank d.analysis < project.catalog.rank act.analysis :=
        acyclic.rank_lt (mem_dependencies.mp depends).1
      have below := Adds.foldl (fun order ordered d depends =>
        ih (acyclic.requirement (mem_dependencies.mp depends).1)
          (Nat.lt_of_lt_of_le (lower depends) (Nat.le_of_lt_succ enough)) ordered) ordered
      -- The action cannot have been added for a dependency of its own, which has a lower rank.
      have absent : act ∉ (project.dependencies act).foldl (project.plan fuel) order := by
        intro added
        rcases (below.mem_iff act).mp added with before | ⟨d, depends, needs⟩
        · exact fresh (List.contains_iff_mem.mpr before)
        · exact absurd (Catalog.rank_le_of_needed needs.required) (Nat.not_le_of_lt (lower depends))
      have ready (d : Action) (depends : d ∈ project.dependencies act) :
          d ∈ (project.dependencies act).foldl (project.plan fuel) order :=
        (below.mem_iff d).mpr (.inr ⟨d, depends, .refl⟩)
      refine ⟨.snoc below.ordered absent ready, fun x => ?_⟩
      rw [List.mem_append, below.mem_iff, or_assoc]
      refine or_congr_right ⟨?_, ?_⟩
      · rintro (⟨d, depends, needs⟩ | here)
        · exact ⟨act, List.mem_singleton_self act, needs.head depends⟩
        · exact ⟨act, List.mem_singleton_self act, List.mem_singleton.mp here ▸ .refl⟩
      · rintro ⟨_, member, needs⟩
        obtain rfl := List.mem_singleton.mp member
        rcases Relation.ReflTransGen.cases_head needs with same | ⟨d, depends, rest⟩
        · exact .inr (List.mem_singleton.mpr same.symm)
        · exact .inl ⟨d, depends, rest⟩

theorem plan_adds (acyclic : project.catalog.Acyclic) {fuel : Nat}
    (enough : project.catalog.rank act.analysis < fuel) (ordered : project.InOrder order) :
    project.Adds order [act] (project.plan fuel order act) :=
  plan_adds_from (acyclic.acyclicFrom act.analysis) enough ordered

theorem mem_roots {analyses : List Id} :
    act ∈ project.roots analyses ↔ act.analysis ∈ analyses ∧ act.cls < project.classes.length := by
  obtain ⟨analysis, cls⟩ := act
  simp [roots]

theorem schedule_adds_from {analyses : List Id}
    (acyclic : ∀ a ∈ analyses, project.catalog.AcyclicFrom a) :
    project.Adds [] (project.roots analyses) (project.schedule analyses) := by
  refine Adds.foldl (fun order ordered root listed => ?_) .nil
  exact plan_adds_from (acyclic _ (mem_roots.mp listed).1)
    (Nat.lt_succ_of_le (Catalog.rank_le _ _)) ordered

theorem schedule_adds (acyclic : project.catalog.Acyclic) (analyses : List Id) :
    project.Adds [] (project.roots analyses) (project.schedule analyses) :=
  schedule_adds_from fun a _ => acyclic.acyclicFrom a

theorem schedule_inOrder (acyclic : project.catalog.Acyclic) (analyses : List Id) :
    project.InOrder (project.schedule analyses) := (schedule_adds acyclic analyses).ordered

theorem mem_schedule (acyclic : project.catalog.Acyclic) {analyses : List Id} :
    act ∈ project.schedule analyses ↔ ∃ root ∈ project.roots analyses, project.Needs root act := by
  simp [(schedule_adds acyclic analyses).mem_iff act]

theorem ledger_eq_recorded (acyclic : project.catalog.Acyclic) (analyses : List Id) :
    project.ledger analyses = project.recorded acyclic (project.schedule analyses) :=
  executeAll_eq_recorded acyclic (schedule_inOrder acyclic analyses)

theorem lookup_ledger (acyclic : project.catalog.Acyclic) {analyses : List Id}
    (root : act ∈ project.roots analyses) :
    (project.ledger analyses).lookup act = some (project.evaluated acyclic act) := by
  rw [ledger_eq_recorded acyclic]
  exact lookup_recorded acyclic ((mem_schedule acyclic).mpr ⟨act, root, .refl⟩)

theorem roots_eq (project : Project) (analyses : List Id) :
    project.roots analyses =
      analyses.flatMap fun a => project.classes.zipIdx.map fun (_, i) => ⟨a, i⟩ := by
  have indices : List.range project.classes.length = project.classes.zipIdx.map Prod.snd := by
    rw [List.zipIdx_map_snd, List.range_eq_range']
  simp only [roots, indices, List.map_map]
  rfl

theorem analyze_eq_evaluated (acyclic : project.catalog.Acyclic) (analyses : List Id) :
    project.analyze analyses = (project.roots analyses).map fun root =>
      ⟨root, project.className root, project.evaluated acyclic root⟩ := by
  refine List.map_congr_left fun root listed => ?_
  rw [lookup_ledger acyclic listed]
  rfl

end Project

theorem analyze_by_class {catalog : Catalog} (acyclic : catalog.Acyclic)
    (program : Bytecode.Program) (classes : List Bytecode.Class) (analyses : List Id) :
    (Project.mk catalog program classes).analyze analyses =
      analyses.flatMap fun a => classes.zipIdx.map fun (cls, i) =>
        ⟨⟨a, i⟩, cls.name, evaluate catalog acyclic program cls a⟩ := by
  rw [Project.analyze_eq_evaluated acyclic, Project.roots_eq, List.map_flatMap]
  refine List.flatMap_congr fun a _ => ?_
  rw [List.map_map]
  refine List.map_congr_left fun (cls, i) listed => ?_
  have found : classes[i]? = some cls := List.mem_zipIdx_iff_getElem?.mp listed
  simp [Project.className, Project.evaluated, found]

theorem analyzeClass_eq_evaluate {catalog : Catalog} (acyclic : catalog.Acyclic)
    (program : Bytecode.Program) (cls : Bytecode.Class) (id : Id) :
    analyzeClass catalog program cls id = evaluate catalog acyclic program cls id := by
  have root : (⟨id, 0⟩ : Action) ∈ (Project.mk catalog program [cls]).roots [id] := by
    simp [Project.roots]
  simp only [analyzeClass]
  rw [Project.lookup_ledger acyclic root]
  rfl

/-- Every root ends as plain recursion says, and so as if its analysis had been run on its class
alone. -/
theorem analyze_eq_evaluate (catalog : Catalog) (acyclic : catalog.Acyclic)
    (program : Bytecode.Program) (classes : List Bytecode.Class) (analyses : List Id) :
    (Project.mk catalog program classes).analyze analyses =
      (analyses.flatMap fun a => classes.zipIdx.map fun (cls, i) =>
        ⟨⟨a, i⟩, cls.name, evaluate catalog acyclic program cls a⟩) ∧
    ∀ cls a, evaluate catalog acyclic program cls a = analyzeClass catalog program cls a :=
  ⟨analyze_by_class acyclic program classes analyses,
    fun cls a => (analyzeClass_eq_evaluate acyclic program cls a).symm⟩

/-- Hands on what its first requirement found, or else the number of methods of the class. -/
def relay (name : String) (requires : List (Option Id)) : Analysis where
  name := text name
  doc := text "hand on a count"
  run := some fun task =>
    { output := (task.inputs.head?.map Prod.snd).getD (.value (.ofInt task.cls.methods.length)) }
  requires := requires
  outputType := some (.int .word)

/-- A count that is needed on two ways, twice on one of them. -/
def diamond : Catalog :=
  [relay "count" [], relay "left" [some 0], relay "right" [some 0, some 0],
    relay "top" [some 1, some 2]]

theorem diamond_acyclic : diamond.Acyclic := Catalog.acyclic_of_earlier (by decide)

def wholeClass : Bytecode.Class := ⟨text "a/Whole", [], [], [⟨text "m", text "()V", []⟩], false⟩

def brokenClass : Bytecode.Class := { wholeClass with name := text "a/Broken", incomplete := true }

/-- The broken class fails in the batch as it does alone, and the whole one is none the worse for
it. -/
theorem analyze_diamond :
    let program := Bytecode.Program.ofClasses [brokenClass, wholeClass]
    let alone := analyzeClass diamond program
    ((Project.mk diamond program [brokenClass, wholeClass]).analyze [3, 1]).map
      (fun e => e.conclusion) =
      [alone brokenClass 3, alone wholeClass 3, alone brokenClass 1, alone wholeClass 1] ∧
    (alone brokenClass 3).failure ≠ none ∧ (alone wholeClass 3).failure = none := by
  intro program alone
  obtain ⟨roots, single⟩ :=
    analyze_eq_evaluate diamond diamond_acyclic program [brokenClass, wholeClass] [3, 1]
  refine ⟨?_, by decide, by decide⟩
  rw [roots]
  simp [single, alone]

end TraceLint.Analysis
