import Mathlib.Data.List.Perm.Subperm
import TraceLint.Proofs.Analysis.Schedule

/-! Actions that are executed side by side. Whoever needs an action first claims it, and everyone
else waits for its end; its analysis begins when all dependencies have ended and records its end
later. However the steps of different actions interleave, every action ends as in the sequential
order, and no run function is called twice. Nothing is said about how long a step takes. -/
namespace TraceLint.Analysis

/-- Whether the run function was called: not if a prerequisite failed, nor if the class was left
out. -/
def Conclusion.ran (c : Conclusion) : Bool := c.pass.isSome && c.failure != some .incompleteClass

/-- The actions whose run function was called. -/
def Ledger.calls (ledger : Ledger) : List Action := (ledger.filter fun e => e.2.ran).map Prod.fst

theorem Ledger.calls_cons (e : Action × Conclusion) (ledger : Ledger) :
    Ledger.calls (e :: ledger) =
      if e.2.ran then e.1 :: Ledger.calls ledger else Ledger.calls ledger := by
  unfold Ledger.calls
  rw [List.filter_cons]
  split <;> rfl

theorem Ledger.calls_perm {ledger other : Ledger} (same : ledger.Perm other) :
    (Ledger.calls ledger).Perm (Ledger.calls other) := (same.filter _).map _

theorem Ledger.calls_nodup {ledger : Ledger} (distinct : (ledger.map Prod.fst).Nodup) :
    (Ledger.calls ledger).Nodup := distinct.sublist (List.filter_sublist.map _)

/-- How far a parallel execution has come. -/
structure Progress where
  /-- Claimed actions whose dependencies have not all been seen to end. -/
  waiting : List Action := []
  /-- Actions at work, with the ends that they are coming to. -/
  running : Ledger := []
  ended : Ledger := []
  /-- Every call of a run function, the latest first. -/
  calls : List Action := []

namespace Progress

def claimed (s : Progress) : List Action := s.waiting ++ (s.running ++ s.ended).map Prod.fst

/-- The actions that have ended, in the order in which they did. -/
def order (s : Progress) : List Action := (s.ended.map Prod.fst).reverse

/-- The steps behind a state: one to claim an action, one to begin it, one to end it. -/
def steps (s : Progress) : Nat := s.waiting.length + 2 * s.running.length + 3 * s.ended.length

end Progress

namespace Project

/-- One step of some action. What an analysis comes to is fixed by the ends that it finds when it
begins. -/
inductive Step (project : Project) (roots : List Action) : Progress → Progress → Prop where
  | claim {s : Progress} {act : Action}
      (wanted : act ∈ roots ∨ ∃ parent ∈ s.waiting, act ∈ project.dependencies parent)
      (unclaimed : act ∉ s.claimed) :
      Step project roots s { s with waiting := act :: s.waiting }
  | start {front back : List Action} {running ended : Ledger} {calls : List Action} {act : Action}
      {c : Conclusion} (ready : ∀ d ∈ project.dependencies act, d ∈ ended.map Prod.fst)
      (comes : c = project.execute (ended.lookup ·) act) :
      Step project roots ⟨front ++ act :: back, running, ended, calls⟩
        ⟨front ++ back, (act, c) :: running, ended, if c.ran then act :: calls else calls⟩
  | finish {waiting : List Action} {front back ended : Ledger} {calls : List Action}
    {e : Action × Conclusion} :
      Step project roots ⟨waiting, front ++ e :: back, ended, calls⟩
        ⟨waiting, front ++ back, e :: ended, calls⟩

/-- The states that a parallel execution of some roots reaches, with the number of steps. -/
inductive Reaches (project : Project) (roots : List Action) : Nat → Progress → Prop where
  | start : Reaches project roots 0 {}
  | next {n : Nat} {s t : Progress} : Reaches project roots n s → project.Step roots s t →
      Reaches project roots (n + 1) t

/-- What every reached state satisfies. -/
structure Sound (project : Project) (acyclic : project.catalog.Acyclic) (roots : List Action)
    (s : Progress) : Prop where
  once : s.claimed.Nodup
  needed : ∀ act ∈ s.claimed, ∃ root ∈ roots, project.Needs root act
  inOrder : project.InOrder s.order
  ready : ∀ e ∈ s.running, ∀ d ∈ project.dependencies e.1, d ∈ s.ended.map Prod.fst
  right : ∀ e ∈ s.running ++ s.ended, e.2 = project.evaluated acyclic e.1
  calls : s.calls.Perm (Ledger.calls (s.running ++ s.ended))

variable {project : Project} {acyclic : project.catalog.Acyclic} {roots : List Action}
    {s t : Progress} {n : Nat}

theorem Reaches.steps_eq (reached : project.Reaches roots n s) : n = s.steps := by
  induction reached with
  | start => rfl
  | next _ step ih =>
    subst ih
    cases step <;> simp [Progress.steps] <;> omega

namespace Sound

theorem initial (project : Project) (acyclic : project.catalog.Acyclic) (roots : List Action) :
    project.Sound acyclic roots {} :=
  ⟨List.nodup_nil, by simp [Progress.claimed], .nil, by simp, by simp, .nil⟩

theorem perm_moved {α : Type} (front back : List α) (x : α) (later : List α) :
    ((front ++ back) ++ x :: later).Perm ((front ++ x :: back) ++ later) := by
  rw [List.append_assoc, List.append_assoc, List.cons_append]
  exact List.perm_middle.append_left front

/-- The ledger is the one of a sequential execution in the order in which the actions ended. -/
theorem ended_eq (sound : project.Sound acyclic roots s) :
    s.ended = project.recorded acyclic s.order := by
  have pairs : s.ended.map (fun e => (e.1, project.evaluated acyclic e.1)) = s.ended.map id :=
    List.map_congr_left fun e member => by
      rw [← sound.right e (List.mem_append_right _ member)]
      rfl
  rw [List.map_id] at pairs
  rw [recorded, Progress.order, List.reverse_reverse, List.map_map]
  exact pairs.symm

theorem claim {act : Action} (sound : project.Sound acyclic roots s)
    (wanted : act ∈ roots ∨ ∃ parent ∈ s.waiting, act ∈ project.dependencies parent)
    (unclaimed : act ∉ s.claimed) :
    project.Sound acyclic roots { s with waiting := act :: s.waiting } := by
  refine ⟨List.nodup_cons.mpr ⟨unclaimed, sound.once⟩, ?_, sound.inOrder, sound.ready, sound.right,
    sound.calls⟩
  intro other member
  rcases List.mem_cons.mp member with rfl | before
  · rcases wanted with root | ⟨parent, waits, depends⟩
    · exact ⟨other, root, .refl⟩
    · obtain ⟨root, listed, needs⟩ := sound.needed parent (List.mem_append_left _ waits)
      exact ⟨root, listed, needs.tail depends⟩
  · exact sound.needed other before

variable {front back : List Action} {running ended : Ledger} {calls : List Action} {act : Action} in
/-- The action changes its place among the claimed ones; what it comes to is what plain recursion
says. -/
theorem start (sound : project.Sound acyclic roots ⟨front ++ act :: back, running, ended, calls⟩)
    (ready : ∀ d ∈ project.dependencies act, d ∈ ended.map Prod.fst) {c : Conclusion}
    (comes : c = project.execute (ended.lookup ·) act) : project.Sound acyclic roots
      ⟨front ++ back, (act, c) :: running, ended, if c.ran then act :: calls else calls⟩ := by
  have moved : ((front ++ back) ++ act :: (running ++ ended).map Prod.fst).Perm
      ((front ++ act :: back) ++ (running ++ ended).map Prod.fst) := perm_moved front back act _
  have recorded : ended = project.recorded acyclic _ := sound.ended_eq
  have right : c = project.evaluated acyclic act := by
    rw [comes]
    refine execute_eq_evaluated acyclic fun d depends => ?_
    rw [recorded]
    exact lookup_recorded acyclic (List.mem_reverse.mpr (ready d depends))
  refine ⟨moved.nodup_iff.mpr sound.once,
    fun other member => sound.needed other (moved.mem_iff.mp member), sound.inOrder,
    List.forall_mem_cons.mpr ⟨ready, sound.ready⟩, List.forall_mem_cons.mpr ⟨right, sound.right⟩,
    ?_⟩
  rw [List.cons_append, Ledger.calls_cons]
  split
  · exact sound.calls.cons act
  · exact sound.calls

variable {waiting : List Action} {front back ended : Ledger} {calls : List Action}
    {e : Action × Conclusion} in
/-- All dependencies had ended before, so the order in which actions end stays one that respects
them. -/
theorem finish (sound : project.Sound acyclic roots ⟨waiting, front ++ e :: back, ended, calls⟩) :
    project.Sound acyclic roots ⟨waiting, front ++ back, e :: ended, calls⟩ := by
  have moved : ((front ++ back) ++ e :: ended).Perm ((front ++ e :: back) ++ ended) :=
    perm_moved front back e ended
  have claimed : (waiting ++ ((front ++ back) ++ e :: ended).map Prod.fst).Perm
      (waiting ++ ((front ++ e :: back) ++ ended).map Prod.fst) := (moved.map _).append_left waiting
  have once := claimed.nodup_iff.mpr sound.once
  have last : ((e :: ended).map Prod.fst).Nodup := once.sublist
    (List.sublist_append_of_sublist_right ((List.sublist_append_right _ _).map _))
  have fresh : e.1 ∉ (Progress.mk waiting (front ++ e :: back) ended calls).order := by
    intro member
    exact (List.nodup_cons.mp last).1 (List.mem_reverse.mp member)
  refine ⟨once, fun act member => sound.needed act (claimed.mem_iff.mp member), ?_, ?_,
    fun e member => sound.right e (moved.mem_iff.mp member),
    sound.calls.trans (Ledger.calls_perm moved.symm)⟩
  · have grows : (Progress.mk waiting (front ++ back) (e :: ended) calls).order =
        (Progress.mk waiting (front ++ e :: back) ended calls).order ++ [e.1] := List.reverse_cons
    rw [grows]
    refine .snoc sound.inOrder fresh fun d depends => ?_
    exact List.mem_reverse.mpr
      (sound.ready e (List.mem_append_right _ List.mem_cons_self) d depends)
  · intro other member d depends
    have before : other ∈ front ++ e :: back := by
      rcases List.mem_append.mp member with first | last
      · exact List.mem_append_left _ first
      · exact List.mem_append_right _ (List.mem_cons_of_mem _ last)
    exact List.mem_cons_of_mem _ (sound.ready other before d depends)

theorem step (sound : project.Sound acyclic roots s) (step : project.Step roots s t) :
    project.Sound acyclic roots t := by
  cases step with
  | claim wanted unclaimed => exact sound.claim wanted unclaimed
  | start ready comes => exact sound.start ready comes
  | finish => exact sound.finish

theorem of_reaches (acyclic : project.catalog.Acyclic) (reached : project.Reaches roots n s) :
    project.Sound acyclic roots s := by
  induction reached with
  | start => exact initial project acyclic roots
  | next _ step ih => exact ih.step step

theorem calls_nodup (sound : project.Sound acyclic roots s) : s.calls.Nodup := by
  have begun : ((s.running ++ s.ended).map Prod.fst).Nodup :=
    sound.once.sublist (List.sublist_append_right _ _)
  exact sound.calls.nodup_iff.mpr (Ledger.calls_nodup begun)

theorem steps_le (sound : project.Sound acyclic roots s) {all : List Action}
    (complete : ∀ act, (∃ root ∈ roots, project.Needs root act) → act ∈ all) :
    s.steps ≤ 3 * all.length := by
  have bound : s.claimed.length ≤ all.length :=
    (sound.once.subperm fun act member => complete act (sound.needed act member)).length_le
  simp only [Progress.claimed, List.length_append, List.length_map] at bound
  simp only [Progress.steps]
  omega

end Sound

theorem running_eq_nil (stuck : ∀ t, ¬ project.Step roots s t) : s.running = [] := by
  obtain ⟨waiting, running, ended, calls⟩ := s
  cases running with
  | nil => rfl
  | cons e rest =>
    have step : project.Step roots ⟨waiting, [] ++ e :: rest, ended, calls⟩ _ := .finish
    exact absurd step (stuck _)

/-- Where nothing can go on, no action waits: of the waiting ones, one of least rank could begin. -/
theorem waiting_eq_nil (acyclic : project.catalog.Acyclic) (stuck : ∀ t, ¬ project.Step roots s t) :
    s.waiting = [] := by
  have idle := running_eq_nil stuck
  obtain ⟨waiting, running, ended, calls⟩ := s
  obtain rfl : running = [] := idle
  have never (act : Action) : act ∉ waiting := by
    induction rank : project.catalog.rank act.analysis using Nat.strong_induction_on
      generalizing act with
    | _ _ ih =>
      intro waits
      obtain ⟨front, back, rfl⟩ := List.append_of_mem waits
      have unready : ¬ ∀ d ∈ project.dependencies act, d ∈ ended.map Prod.fst :=
        fun ready => stuck _ (.start ready rfl)
      push Not at unready
      obtain ⟨d, depends, unfinished⟩ := unready
      have claimed : d ∈ (Progress.mk (front ++ act :: back) [] ended calls).claimed := by
        by_contra unclaimed
        exact stuck _ (.claim (.inr ⟨act, waits, depends⟩) unclaimed)
      have lower : project.catalog.rank d.analysis < project.catalog.rank act.analysis :=
        acyclic.rank_lt (mem_dependencies.mp depends).1
      rcases List.mem_append.mp claimed with again | finished
      · exact ih _ (rank ▸ lower) d rfl again
      · exact unfinished finished
  exact List.eq_nil_iff_forall_not_mem.mpr never

/-- Where nothing can go on, exactly the actions that the roots need have ended. -/
theorem Sound.mem_order_iff (sound : project.Sound acyclic roots s)
    (stuck : ∀ t, ¬ project.Step roots s t) (act : Action) :
    act ∈ s.order ↔ ∃ root ∈ roots, project.Needs root act := by
  have claimed : s.claimed = s.ended.map Prod.fst := by
    simp [Progress.claimed, waiting_eq_nil acyclic stuck, running_eq_nil stuck]
  constructor
  · intro member
    exact sound.needed act (claimed ▸ List.mem_reverse.mp member)
  · rintro ⟨root, listed, needs⟩
    refine sound.inOrder.needed ?_ needs
    by_contra unfinished
    exact stuck _ (.claim (.inl listed) fun member =>
      unfinished (List.mem_reverse.mpr (claimed ▸ member)))

/-- A state between two actions of a sequential execution: some actions have been executed in order,
and those that wait are the callers of the next one. -/
def Paused (project : Project) (roots waiting order : List Action) : Prop :=
  project.InOrder order ∧
    ∃ n calls, project.Reaches roots n ⟨waiting, [], project.executeAll order, calls⟩

theorem map_fst_executeAll (acyclic : project.catalog.Acyclic) {order : List Action}
    (ordered : project.InOrder order) :
    (project.executeAll order).map Prod.fst = order.reverse := by
  rw [executeAll_eq_recorded acyclic ordered, recorded, List.map_map]
  exact List.map_id _

/-- The depth-first search for dependencies is one of the parallel executions. -/
theorem Paused.plan (acyclic : project.catalog.Acyclic) {fuel : Nat} {waiting order : List Action}
    {act : Action} (enough : project.catalog.rank act.analysis < fuel)
    (wanted : act ∈ roots ∨ ∃ parent ∈ waiting, act ∈ project.dependencies parent)
    (lower : ∀ caller ∈ waiting, project.catalog.rank act.analysis <
      project.catalog.rank caller.analysis)
    (paused : project.Paused roots waiting order) :
    project.Paused roots waiting (project.plan fuel order act) := by
  induction fuel generalizing waiting order act with
  | zero => omega
  | succ fuel ih =>
    refine ⟨(plan_adds acyclic enough paused.1).ordered, ?_⟩
    rw [Project.plan]
    split
    · exact paused.2
    · rename_i fresh
      obtain ⟨ordered, n, calls, reached⟩ := paused
      have unclaimed : act ∉ (Progress.mk waiting [] (project.executeAll order) calls).claimed := by
        simp only [Progress.claimed, List.nil_append, map_fst_executeAll acyclic ordered,
          List.mem_append, List.mem_reverse]
        rintro (waits | listed)
        · exact Nat.lt_irrefl _ (lower act waits)
        · exact fresh (List.contains_iff_mem.mpr listed)
      have under {d : Action} (depends : d ∈ project.dependencies act) :
          project.catalog.rank d.analysis < project.catalog.rank act.analysis :=
        acyclic.rank_lt (mem_dependencies.mp depends).1
      have claimed : project.Paused roots (act :: waiting) order :=
        ⟨ordered, n + 1, calls, reached.next (.claim wanted unclaimed)⟩
      obtain ⟨below, m, calls, called⟩ : project.Paused roots (act :: waiting)
          ((project.dependencies act).foldl (project.plan fuel) order) := by
        refine List.foldlRecOn _ _ claimed fun order paused d depends => ?_
        refine ih (by have := under depends; omega) (.inr ⟨act, List.mem_cons_self, depends⟩)
          (fun caller waits => ?_) paused
        rcases List.mem_cons.mp waits with rfl | outer
        · exact under depends
        · exact Nat.lt_trans (under depends) (lower caller outer)
      have ready (d : Action) (depends : d ∈ project.dependencies act) : d ∈
          (project.executeAll ((project.dependencies act).foldl (project.plan fuel) order)).map
            Prod.fst := by
        have added := Adds.foldl (fun _ ordered d depends => plan_adds acyclic
          (Nat.lt_of_lt_of_le (under depends) (Nat.le_of_lt_succ enough)) ordered) ordered
        rw [map_fst_executeAll acyclic below, List.mem_reverse]
        exact (added.mem_iff d).mpr (.inr ⟨d, depends, .refl⟩)
      have started := called.next (@Step.start _ roots [] waiting [] _ calls act _ ready rfl)
      have finished := started.next (@Step.finish _ _ waiting [] [] _ _ _)
      rw [executeAll_snoc]
      exact ⟨m + 2, _, finished⟩

theorem Paused.schedule (acyclic : project.catalog.Acyclic) (analyses : List Id) :
    project.Paused (project.roots analyses) [] (project.schedule analyses) := by
  refine List.foldlRecOn _ _ ⟨.nil, 0, [], .start⟩ fun order paused root listed => ?_
  exact paused.plan acyclic (Nat.lt_succ_of_le (Catalog.rank_le _ _)) (.inl listed) (by simp)

theorem executeAll_agrees (acyclic : project.catalog.Acyclic) {order : List Action}
    (inOrder : project.InOrder order) {analyses : List Id}
    (same : ∀ act, act ∈ order ↔ act ∈ project.schedule analyses) :
    (Ledger.calls (project.executeAll order)).Nodup ∧
      ∀ act, (project.executeAll order).lookup act = (project.ledger analyses).lookup act := by
  constructor
  · refine Ledger.calls_nodup ?_
    rw [map_fst_executeAll acyclic inOrder]
    exact List.nodup_reverse.mpr inOrder.nodup
  · rw [ledger_eq_recorded acyclic, executeAll_eq_recorded acyclic inOrder]
    exact lookup_recorded_congr acyclic same

namespace Sound

variable {analyses : List Id}

theorem lookup_of_ended (sound : project.Sound acyclic (project.roots analyses) s) {act : Action}
    {c : Conclusion} (member : (act, c) ∈ s.ended) :
    (project.ledger analyses).lookup act = some c := by
  have claimed : act ∈ s.claimed :=
    List.mem_append_right _ (List.mem_map_of_mem (List.mem_append_right s.running member))
  have listed : act ∈ project.schedule analyses :=
    (mem_schedule acyclic).mpr (sound.needed act claimed)
  rw [ledger_eq_recorded acyclic, lookup_recorded acyclic listed]
  exact congrArg some (sound.right (act, c) (List.mem_append_right _ member)).symm

/-- A state that cannot go on is the end of a sequential execution, in the order in which the
actions ended. -/
theorem of_stuck (sound : project.Sound acyclic (project.roots analyses) s)
    (stuck : ∀ t, ¬ project.Step (project.roots analyses) s t) :
    project.InOrder s.order ∧ s.ended = project.executeAll s.order ∧
      s.calls.Perm (Ledger.calls (project.ledger analyses)) ∧
      ∀ act, s.ended.lookup act = (project.ledger analyses).lookup act := by
  have same (act : Action) : act ∈ s.order ↔ act ∈ project.schedule analyses :=
    (sound.mem_order_iff stuck act).trans (mem_schedule acyclic).symm
  have ended : s.ended = project.executeAll s.order := by
    rw [executeAll_eq_recorded acyclic sound.inOrder]
    exact sound.ended_eq
  refine ⟨sound.inOrder, ended, ?_, fun act => ?_⟩
  · have shuffled : s.order.Perm (project.schedule analyses) :=
      (List.perm_ext_iff_of_nodup sound.inOrder.nodup (schedule_inOrder acyclic analyses).nodup).mpr
        same
    have recorded : s.ended.Perm (project.ledger analyses) := by
      rw [sound.ended_eq, ledger_eq_recorded acyclic]
      exact ((List.reverse_perm _).trans (shuffled.trans (List.reverse_perm _).symm)).map _
    have calls := sound.calls
    rw [running_eq_nil stuck, List.nil_append] at calls
    exact calls.trans (Ledger.calls_perm recorded)
  · rw [ended]
    exact (executeAll_agrees acyclic sound.inOrder same).2 act

end Sound

end Project

/-- However the actions of some roots are scheduled, each ends the same. Any order that respects
dependencies gives the ends of the sequential schedule, which is such an order and also a parallel
execution. A parallel execution takes at most three steps per action and calls no run function
twice; it records nothing else than the sequential schedule does, and when it cannot go on it has
recorded all of it. -/
theorem schedule_independence (project : Project) (acyclic : project.catalog.Acyclic)
    (analyses : List Id) :
    project.InOrder (project.schedule analyses) ∧
    (∀ order, project.InOrder order → (∀ act, act ∈ order ↔ act ∈ project.schedule analyses) →
      (Ledger.calls (project.executeAll order)).Nodup ∧
      ∀ act, (project.executeAll order).lookup act = (project.ledger analyses).lookup act) ∧
    (∃ n calls, project.Reaches (project.roots analyses) n
      ⟨[], [], project.ledger analyses, calls⟩) ∧
    ∀ n s, project.Reaches (project.roots analyses) n s →
      n ≤ 3 * (project.schedule analyses).length ∧ s.calls.Nodup ∧
      (∀ act c, (act, c) ∈ s.ended → (project.ledger analyses).lookup act = some c) ∧
      ((∀ t, ¬ project.Step (project.roots analyses) s t) →
        project.InOrder s.order ∧ s.ended = project.executeAll s.order ∧
        s.calls.Perm (Ledger.calls (project.ledger analyses)) ∧
        ∀ act, s.ended.lookup act = (project.ledger analyses).lookup act) := by
  refine ⟨Project.schedule_inOrder acyclic analyses,
    fun order inOrder => Project.executeAll_agrees acyclic inOrder,
    (Project.Paused.schedule acyclic analyses).2, fun n s reached => ?_⟩
  have sound := Project.Sound.of_reaches acyclic reached
  refine ⟨?_, sound.calls_nodup, fun act c => sound.lookup_of_ended, sound.of_stuck⟩
  rw [reached.steps_eq]
  exact sound.steps_le fun act => (Project.mem_schedule acyclic).mpr

/-- The diamond on one class. -/
def diamondProject : Project := ⟨diamond, .ofClasses [wholeClass], [wholeClass]⟩

/-- The two sides of the diamond may be executed the other way round. -/
theorem diamond_sides_swapped :
    diamondProject.schedule [3] = [⟨0, 0⟩, ⟨1, 0⟩, ⟨2, 0⟩, ⟨3, 0⟩] ∧
    (Ledger.calls (diamondProject.executeAll [⟨0, 0⟩, ⟨2, 0⟩, ⟨1, 0⟩, ⟨3, 0⟩])).Nodup ∧
    (diamondProject.executeAll [⟨0, 0⟩, ⟨2, 0⟩, ⟨1, 0⟩, ⟨3, 0⟩]).lookup ⟨3, 0⟩ =
      (diamondProject.ledger [3]).lookup ⟨3, 0⟩ := by
  have schedule :
      diamondProject.schedule [3] = [⟨0, 0⟩, ⟨1, 0⟩, ⟨2, 0⟩, ⟨3, 0⟩] := by decide
  have swapped : diamondProject.InOrder [⟨0, 0⟩, ⟨2, 0⟩, ⟨1, 0⟩, ⟨3, 0⟩] :=
    .snoc (.snoc (.snoc (.snoc .nil (by decide) (by decide)) (by decide) (by decide)) (by decide)
      (by decide))
      (by decide) (by decide)
  obtain ⟨_, orders, _⟩ := schedule_independence diamondProject diamond_acyclic [3]
  obtain ⟨calls, same⟩ := orders _ swapped (by simp [schedule, or_left_comm])
  exact ⟨schedule, calls, same _⟩

end TraceLint.Analysis
