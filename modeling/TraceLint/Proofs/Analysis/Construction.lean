import Mathlib.Data.List.Forall2
import TraceLint.Proofs.Analysis.Schedule
import TraceLint.Proofs.Analysis.Validity

/-! The construction of actions by plain recursion, without a bound on its depth. An action is filed
only after those that it depends on, so what is filed does not keep the recursion out of a cycle.
For analyses that pass validation it ends all the same, with one action for each class and each
analysis that is needed. -/
namespace TraceLint.Analysis

/-- An action as it is created, with the places of those that it depends on. -/
structure Node where
  action : Action
  deps : List Nat

/-- The actions that have been filed, each at its place. -/
structure Graph where
  nodes : List Node := []

namespace Graph

variable (g : Graph)

def actions : List Action := g.nodes.map Node.action

def file (act : Action) (deps : List Nat) : Graph := ⟨g.nodes ++ [⟨act, deps⟩]⟩

/-- A place is that of an action. -/
def Holds (place : Nat) (act : Action) : Prop := g.actions[place]? = some act

theorem actions_file (act : Action) (deps : List Nat) :
    (g.file act deps).actions = g.actions ++ [act] := by
  simp [file, actions]

variable {g} in
/-- What has been filed keeps its place. -/
theorem Holds.grow {g' : Graph} (grown : g.nodes <+: g'.nodes) {place : Nat} {act : Action}
    (held : g.Holds place act) : g'.Holds place act := by
  obtain ⟨later, grown⟩ := grown
  have inside : place < g.actions.length := (List.getElem?_eq_some_iff.mp held).1
  have actions : g'.actions = g.actions ++ later.map Node.action := by
    rw [Graph.actions, ← grown, List.map_append, ← Graph.actions]
  rw [Graph.Holds, actions, List.getElem?_append_left inside]
  exact held

theorem holds_file (act : Action) (deps : List Nat) :
    (g.file act deps).Holds g.nodes.length act := by
  simp [Holds, actions, file]

end Graph

namespace Project

/-- How the construction of some actions ends: an action that has been filed is used again, and any
other is created, with those that it depends on, and filed after them. -/
inductive Builds (project : Project) : Graph → List Action → Graph → List Nat → Prop where
  | done {g : Graph} : Builds project g [] g []
  | filed {g g' : Graph} {act : Action} {acts : List Action} {place : Nat} {places : List Nat} :
      g.actions.idxOf? act = some place → Builds project g acts g' places →
      Builds project g (act :: acts) g' (place :: places)
  | created {g inside g' : Graph} {act : Action} {acts : List Action} {deps places : List Nat} :
      g.actions.idxOf? act = none → Builds project g (project.dependencies act) inside deps →
      Builds project (inside.file act deps) acts g' places →
      Builds project g (act :: acts) g' (inside.nodes.length :: places)

variable {project : Project} {g g' : Graph} {acts : List Action} {places : List Nat}

theorem Builds.unique (builds : project.Builds g acts g' places) {other : Graph} {others : List Nat}
    (builds' : project.Builds g acts other others) : other = g' ∧ others = places := by
  induction builds generalizing other others with
  | done =>
    cases builds'
    exact ⟨rfl, rfl⟩
  | filed found _ ih =>
    cases builds' with
    | filed found' rest =>
      obtain ⟨rfl, rfl⟩ := ih rest
      cases found.symm.trans found'
      exact ⟨rfl, rfl⟩
    | created absent => cases found.symm.trans absent
  | created absent _ _ ihDeps ihRest =>
    cases builds' with
    | filed found => cases absent.symm.trans found
    | created _ below rest =>
      obtain ⟨rfl, rfl⟩ := ihDeps below
      obtain ⟨rfl, rfl⟩ := ihRest rest
      exact ⟨rfl, rfl⟩

theorem Builds.grows (builds : project.Builds g acts g' places) : g.nodes <+: g'.nodes := by
  induction builds with
  | done => exact List.prefix_rfl
  | filed _ _ ih => exact ih
  | created _ _ _ ihDeps ihRest => exact ihDeps.trans ((List.prefix_append _ _).trans ihRest)

/-- The places that a construction gives back are those of the actions it was asked for. -/
theorem Builds.located (builds : project.Builds g acts g' places) :
    List.Forall₂ g'.Holds places acts := by
  induction builds with
  | done => exact .nil
  | filed found rest ih =>
    obtain ⟨inside, here, _⟩ := List.idxOf?_eq_some_iff.mp found
    have held : Graph.Holds _ _ _ := List.getElem?_eq_some_iff.mpr ⟨inside, here⟩
    exact .cons (held.grow rest.grows) ih
  | created _ _ rest _ ih => exact .cons ((Graph.holds_file _ _ _).grow rest.grows) ih

/-- Every node refers to the actions that its own depends on, in their order. -/
def Resolved (project : Project) (g : Graph) : Prop :=
  ∀ node ∈ g.nodes, List.Forall₂ g.Holds node.deps (project.dependencies node.action)

theorem Resolved.file {act : Action} {deps : List Nat} (resolved : project.Resolved g)
    (located : List.Forall₂ g.Holds deps (project.dependencies act)) :
    project.Resolved (g.file act deps) := by
  intro node member
  have grown : g.nodes <+: (g.file act deps).nodes := List.prefix_append _ _
  rcases List.mem_append.mp member with before | last
  · exact (resolved node before).imp fun _ _ held => held.grow grown
  · obtain rfl := List.mem_singleton.mp last
    exact located.imp fun _ _ held => held.grow grown

theorem Builds.resolved (builds : project.Builds g acts g' places) (resolved : project.Resolved g) :
    project.Resolved g' := by
  induction builds with
  | done => exact resolved
  | filed _ _ ih => exact ih resolved
  | created _ below _ ihDeps ihRest => exact ihRest ((ihDeps resolved).file below.located)

/-- Where nothing that the actions need requires itself, the construction ends, in the order in
which the bounded search finds them. -/
theorem exists_builds {fuel : Nat}
    (acyclic : ∀ act ∈ acts, project.catalog.AcyclicFrom act.analysis)
    (enough : ∀ act ∈ acts, project.catalog.rank act.analysis < fuel) (g : Graph) :
    ∃ g' places, project.Builds g acts g' places ∧
      g'.actions = acts.foldl (project.plan fuel) g.actions := by
  -- On the ranks first, and for one bound on the ranks along the actions.
  induction fuel generalizing acts g with
  | zero =>
    cases acts with
    | nil => exact ⟨g, [], .done, rfl⟩
    | cons act rest => exact absurd (enough act List.mem_cons_self) (Nat.not_lt_zero _)
  | succ fuel ih =>
    induction acts generalizing g with
    | nil => exact ⟨g, [], .done, rfl⟩
    | cons act rest ihRest =>
      have later := ihRest (fun act listed => acyclic act (List.mem_cons_of_mem _ listed))
        fun act listed => enough act (List.mem_cons_of_mem _ listed)
      rw [List.foldl_cons, plan]
      split
      · rename_i known
        obtain ⟨g', places, builds, actions⟩ := later g
        obtain ⟨place, found⟩ : ∃ place, g.actions.idxOf? act = some place := by
          refine Option.ne_none_iff_exists'.mp fun absent => ?_
          exact List.idxOf?_eq_none_iff.mp absent (List.contains_iff_mem.mp known)
        exact ⟨g', place :: places, .filed found builds, actions⟩
      · rename_i unknown
        have absent : g.actions.idxOf? act = none :=
          List.idxOf?_eq_none_iff.mpr fun listed => unknown (List.contains_iff_mem.mpr listed)
        have free := acyclic act List.mem_cons_self
        have lower (d : Action) (depends : d ∈ project.dependencies act) :
            project.catalog.rank d.analysis < fuel := by
          have less := free.rank_lt (mem_dependencies.mp depends).1
          have bound := enough act List.mem_cons_self
          omega
        obtain ⟨inside, deps, below, filed⟩ :=
          ih (fun d depends => free.requirement (mem_dependencies.mp depends).1) lower g
        obtain ⟨g', places, builds, actions⟩ := later (inside.file act deps)
        rw [Graph.actions_file, filed] at actions
        exact ⟨g', inside.nodes.length :: places, .created absent below builds, actions⟩

end Project

variable {catalog : Catalog} {roots : List (Option Id)} {analyses ids : List Id} {id : Id}

theorem cleared_of_validate (accepted : validate catalog roots = .ok ()) :
    ∃ ids, Cleared catalog ids ∧ ∀ ref ∈ roots, ∃ id ∈ ids, ref = some id := by
  obtain ⟨v, only, reported⟩ := searches_roots catalog roots
  cases ended : v with
  | error fault =>
    rw [reported, ended] at accepted
    contradiction
  | ok s =>
    obtain ⟨faithful, cleared⟩ :=
      ((only v).mpr rfl).faithful ended (.initial catalog roots) fun _ => .root
    exact ⟨s.cleared, faithful.order, cleared⟩

theorem Cleared.acyclicFrom (cleared : Cleared catalog ids) (member : id ∈ ids) :
    catalog.AcyclicFrom id :=
  fun _ path => cleared.acyclic (cleared.closed_path member path)

theorem Cleared.requires_eq (cleared : Cleared catalog ids) (member : id ∈ ids) :
    ∃ a, catalog[id]? = some a ∧ a.requires = (catalog.requirements id).map some := by
  obtain ⟨a, found, _, required⟩ := cleared.analysis member
  refine ⟨a, found, ?_⟩
  have present : ∀ ref ∈ a.requires, ref.isSome = true := by
    intro ref listed
    obtain ⟨r, _, rfl⟩ := required ref listed
    rfl
  simp [Catalog.requirements, found, List.map_filterMap_some_eq_filter_map_isSome,
    List.filter_eq_self.mpr present]

theorem reached_iff : catalog.Reached (analyses.map some) (some id) ↔
    ∃ a ∈ analyses, Relation.ReflTransGen catalog.Requires a id := by
  constructor
  · intro reached
    generalize entry : some id = ref at reached
    induction reached generalizing id with
    | root listed =>
      subst entry
      exact ⟨id, by simpa using listed, .refl⟩
    | @required parent a ref _ found listed ih =>
      subst entry
      obtain ⟨start, root, path⟩ := ih rfl
      exact ⟨start, root, path.tail (Catalog.requires_iff.mpr ⟨a, found, listed⟩)⟩
  · rintro ⟨a, listed, path⟩
    induction path with
    | refl => exact .root (List.mem_map_of_mem listed)
    | tail _ required ih =>
      obtain ⟨parent, found, requires⟩ := Catalog.requires_iff.mp required
      exact .required ih found requires

theorem needed_iff {project : Project} {act : Action} :
    (∃ root ∈ project.roots analyses, project.Needs root act) ↔
    act.cls < project.classes.length ∧
      project.catalog.Reached (analyses.map some) (some act.analysis) := by
  constructor
  · rintro ⟨root, listed, needs⟩
    obtain ⟨analysis, inside⟩ := Project.mem_roots.mp listed
    exact ⟨needs.same_class ▸ inside, reached_iff.mpr ⟨root.analysis, analysis, needs.required⟩⟩
  · rintro ⟨inside, reached⟩
    obtain ⟨a, listed, path⟩ := reached_iff.mp reached
    exact ⟨⟨a, act.cls⟩, Project.mem_roots.mpr ⟨listed, inside⟩, .of_required path⟩

/-- One action for each class and each analysis that the given ones need, and each with the actions
of its requirements on the same class, in the order in which they are listed and as often. -/
structure Graph.Complete (project : Project) (analyses : List Id) (g : Graph) : Prop where
  once : g.actions.Nodup
  needed : ∀ act, act ∈ g.actions ↔ act.cls < project.classes.length ∧
    project.catalog.Reached (analyses.map some) (some act.analysis)
  deps : ∀ node ∈ g.nodes, ∃ a, project.catalog[node.action.analysis]? = some a ∧
    List.Forall₂ (fun place ref => ∃ r, ref = some r ∧ g.Holds place ⟨r, node.action.cls⟩)
      node.deps a.requires

/-- For analyses that pass validation the construction ends, in one way only, and the graph is
complete. The schedule lists its actions in the order in which they are filed, and their execution
depends on the same actions. -/
theorem construction_of_accepted (project : Project) (analyses : List Id)
    (accepted : validate project.catalog (analyses.map some) = .ok ()) :
    ∃ g places,
      (∀ g' places', project.Builds {} (project.roots analyses) g' places' ↔
        g' = g ∧ places' = places) ∧
      g.Complete project analyses ∧ g.actions = project.schedule analyses ∧ project.Resolved g ∧
      List.Forall₂ g.Holds places (project.roots analyses) := by
  obtain ⟨ids, cleared, start⟩ := cleared_of_validate accepted
  have acyclic (a : Id) (listed : a ∈ analyses) : project.catalog.AcyclicFrom a := by
    obtain ⟨id, member, same⟩ := start _ (List.mem_map_of_mem listed)
    exact Option.some.inj same ▸ cleared.acyclicFrom member
  obtain ⟨g, places, builds, filed⟩ := Project.exists_builds
    (fun root listed => acyclic root.analysis (Project.mem_roots.mp listed).1)
    (fun root _ => Nat.lt_succ_of_le (project.catalog.rank_le root.analysis)) {}
  have scheduled : g.actions = project.schedule analyses := filed
  have resolved : project.Resolved g := builds.resolved fun _ none => absurd none List.not_mem_nil
  have adds := Project.schedule_adds_from acyclic
  have needed (act : Action) : act ∈ g.actions ↔ act.cls < project.classes.length ∧
      project.catalog.Reached (analyses.map some) (some act.analysis) := by
    rw [scheduled, adds.mem_iff, needed_iff]
    exact or_iff_right List.not_mem_nil
  refine ⟨g, places, fun g' places' => ⟨fun other => builds.unique other, ?_⟩,
    ⟨scheduled ▸ adds.ordered.nodup, needed, fun node member => ?_⟩, scheduled, resolved,
    builds.located⟩
  · rintro ⟨rfl, rfl⟩
    exact builds
  · obtain ⟨_, reached⟩ := (needed node.action).mp (List.mem_map_of_mem member)
    obtain ⟨id, inside, same⟩ := cleared.reached start reached
    obtain ⟨a, found, requires⟩ := cleared.requires_eq (Option.some.inj same ▸ inside)
    have located := resolved node member
    rw [Project.dependencies, List.forall₂_map_right_iff] at located
    refine ⟨a, found, ?_⟩
    rw [requires, List.forall₂_map_right_iff]
    exact located.imp fun place r held => ⟨r, rfl, held⟩

/-- The diamond on two classes, in a catalog where another analysis requires itself. -/
def besideCycle : Project :=
  ⟨diamond ++ [relay "loop" [some 4]], .ofClasses [brokenClass, wholeClass],
    [brokenClass, wholeClass]⟩

/-- The cycle is not reached and does no harm. -/
theorem construction_beside_cycle :
    validate besideCycle.catalog ([3, 1].map some) = .ok () ∧
    ∃ g places, besideCycle.Builds {} (besideCycle.roots [3, 1]) g places ∧
      g.Complete besideCycle [3, 1] ∧
      g.actions = [⟨0, 0⟩, ⟨1, 0⟩, ⟨2, 0⟩, ⟨3, 0⟩, ⟨0, 1⟩, ⟨1, 1⟩, ⟨2, 1⟩, ⟨3, 1⟩] := by
  have accepted : validate besideCycle.catalog ([3, 1].map some) = .ok () := by decide
  have schedule : besideCycle.schedule [3, 1] =
      [⟨0, 0⟩, ⟨1, 0⟩, ⟨2, 0⟩, ⟨3, 0⟩, ⟨0, 1⟩, ⟨1, 1⟩, ⟨2, 1⟩, ⟨3, 1⟩] := by decide
  obtain ⟨g, places, ends, complete, scheduled, _⟩ :=
    construction_of_accepted besideCycle [3, 1] accepted
  exact ⟨accepted, g, places, (ends g places).mpr ⟨rfl, rfl⟩, complete, scheduled.trans schedule⟩

end TraceLint.Analysis
