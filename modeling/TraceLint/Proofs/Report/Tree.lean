import Mathlib.Data.List.Nodup
import TraceLint.Proofs.Report.Plain
import TraceLint.Report.Tree

/-! The tree of a report. Changes at different keys commute, so the order in which failures on
different classes arrive leaves no trace; and the tree can be written whenever each finding can. -/
namespace TraceLint.Report

section

variable {α : Type} {zero x : α} {change : α → α} {key k : Text} {entries : List (Text × α)}

theorem alter_here : alter zero change key ((key, x) :: entries) = (key, change x) :: entries :=
  if_pos rfl

theorem alter_before (before : key < k) :
    alter zero change key ((k, x) :: entries) = (key, change zero) :: (k, x) :: entries := by
  have different : k ≠ key := fun same => List.lt_irrefl k (same ▸ before)
  exact (if_neg different).trans (if_pos (decide_eq_true before))

theorem alter_after (after : k < key) :
    alter zero change key ((k, x) :: entries) = (k, x) :: alter zero change key entries := by
  have different : k ≠ key := fun same => List.lt_irrefl k (same ▸ after)
  exact (if_neg different).trans (if_neg (by simpa [Text.lt] using List.lt_asymm after))

theorem order_cases (a b : Text) : a < b ∨ a = b ∨ b < a := by
  by_contra none
  obtain ⟨before, different, after⟩ := (not_or.trans (and_congr_right' not_or)).mp none
  exact different (Std.Trichotomous.trichotomous a b before after)

theorem alter_comm_of_lt {a b : Text} (ordered : a < b) (f g : α → α) (entries : List (Text × α)) :
    alter zero f a (alter zero g b entries) = alter zero g b (alter zero f a entries) := by
  induction entries with
  | nil =>
    have last : alter zero g b [(a, f zero)] = (a, f zero) :: alter zero g b [] :=
      alter_after ordered
    exact (alter_before ordered).trans last.symm
  | cons entry rest ih =>
    obtain ⟨k, x⟩ := entry
    rcases order_cases k a with before | rfl | after
    · rw [alter_after (List.lt_trans before ordered), alter_after before, alter_after before,
        alter_after (List.lt_trans before ordered), ih]
    · rw [alter_after ordered, alter_here, alter_here, alter_after ordered]
    · -- The smaller key becomes the first one, whatever the greater one does.
      rw [alter_before after, alter_after ordered]
      rcases order_cases k b with before | rfl | beyond
      · rw [alter_after before, alter_before after]
      · rw [alter_here, alter_before ordered]
      · rw [alter_before beyond, alter_before ordered]

theorem alter_comm {a b : Text} (different : a ≠ b) (f g : α → α) (entries : List (Text × α)) :
    alter zero f a (alter zero g b entries) = alter zero g b (alter zero f a entries) := by
  rcases order_cases a b with before | same | after
  · exact alter_comm_of_lt before f g entries
  · contradiction
  · exact (alter_comm_of_lt after g f entries).symm

/-- A property that new entries have and changes keep holds of all entries after a change. -/
theorem forall_alter {P : α → Prop} (fresh : P (change zero)) (kept : ∀ x, P x → P (change x))
    (all : ∀ entry ∈ entries, P entry.2) : ∀ entry ∈ alter zero change key entries, P entry.2 := by
  induction entries with
  | nil => simpa [alter] using fresh
  | cons entry rest ih =>
    obtain ⟨first, later⟩ := List.forall_mem_cons.mp all
    rw [alter]
    split
    · exact List.forall_mem_cons.mpr ⟨kept _ first, later⟩
    split
    · exact List.forall_mem_cons.mpr ⟨fresh, all⟩
    · exact List.forall_mem_cons.mpr ⟨first, ih later⟩

theorem key_of_alter {entry : Text × α} (member : entry ∈ alter zero change key entries) :
    entry.1 = key ∨ ∃ old ∈ entries, old.1 = entry.1 := by
  induction entries with
  | nil => exact .inl (congrArg Prod.fst (List.mem_singleton.mp member))
  | cons first rest ih =>
    obtain ⟨k, x⟩ := first
    rw [alter] at member
    split at member
    · rename_i same
      rcases List.mem_cons.mp member with rfl | later
      · exact .inl same
      · exact .inr ⟨entry, List.mem_cons_of_mem _ later, rfl⟩
    split at member
    · rcases List.mem_cons.mp member with rfl | later
      · exact .inl rfl
      · exact .inr ⟨entry, later, rfl⟩
    · rcases List.mem_cons.mp member with rfl | later
      · exact .inr ⟨_, List.mem_cons_self, rfl⟩
      · rcases ih later with same | ⟨old, kept, same⟩
        · exact .inl same
        · exact .inr ⟨old, List.mem_cons_of_mem _ kept, same⟩

/-- The keys of some entries ascend. -/
def Ascending (entries : List (Text × α)) : Prop := entries.Pairwise fun x y => x.1 < y.1

theorem ascending_alter (ascending : Ascending entries) :
    Ascending (alter zero change key entries) := by
  induction entries with
  | nil => exact List.pairwise_singleton _ _
  | cons first rest ih =>
    obtain ⟨k, x⟩ := first
    obtain ⟨least, later⟩ := List.pairwise_cons.mp ascending
    rcases order_cases k key with before | rfl | after
    · rw [alter_after before]
      refine List.pairwise_cons.mpr ⟨fun entry member => ?_, ih later⟩
      rcases key_of_alter member with same | ⟨old, kept, same⟩
      · exact same ▸ before
      · exact same ▸ least old kept
    · rw [alter_here]
      exact List.pairwise_cons.mpr ⟨least, later⟩
    · rw [alter_before after]
      refine List.pairwise_cons.mpr ⟨fun entry member => ?_, ascending⟩
      rcases List.mem_cons.mp member with rfl | behind
      · exact after
      · exact List.lt_trans after (least entry behind)

theorem lookup_cons_other (other : k ≠ key) :
    ((k, x) :: entries).lookup key = entries.lookup key := by
  rw [List.lookup_cons, beq_eq_false_iff_ne.mpr (Ne.symm other)]

theorem lookup_absent (above : ∀ entry ∈ entries, key < entry.1) : entries.lookup key = none := by
  refine List.lookup_eq_none_iff.mpr fun entry member => bne_iff_ne.mpr fun same => ?_
  exact List.lt_irrefl key (same ▸ above entry member)

theorem lookup_alter_other (other : k ≠ key) :
    (alter zero change key entries).lookup k = entries.lookup k := by
  induction entries with
  | nil => exact lookup_cons_other (Ne.symm other)
  | cons first rest ih =>
    obtain ⟨l, x⟩ := first
    rw [alter]
    split
    · rename_i same
      rw [lookup_cons_other (same ▸ Ne.symm other), lookup_cons_other (same ▸ Ne.symm other)]
    split
    · exact lookup_cons_other (Ne.symm other)
    · rw [List.lookup_cons, List.lookup_cons, ih]

/-- Where keys ascend, a change reaches the entry of its key. -/
theorem lookup_alter (ascending : Ascending entries) :
    (alter zero change key entries).lookup key =
      some (change ((entries.lookup key).getD zero)) := by
  induction entries with
  | nil => exact List.lookup_cons_self
  | cons first rest ih =>
    obtain ⟨k, x⟩ := first
    obtain ⟨least, later⟩ := List.pairwise_cons.mp ascending
    rcases order_cases k key with before | rfl | after
    · have different : k ≠ key := fun same => List.lt_irrefl k (same ▸ before)
      rw [alter_after before, lookup_cons_other different, lookup_cons_other different, ih later]
    · rw [alter_here, List.lookup_cons_self, List.lookup_cons_self]
      rfl
    · have absent : ((k, x) :: rest).lookup key = none := by
        refine lookup_absent fun entry member => ?_
        rcases List.mem_cons.mp member with rfl | behind
        · exact after
        · exact List.lt_trans after (least entry behind)
      rw [alter_before after, List.lookup_cons_self, absent]
      rfl

end

namespace Tree

/-- What a tree holds for an analysis on a class: nothing if they do not occur. -/
def leaf (tree : Tree) (cls name : Text) : Leaf :=
  ((tree.lookup cls).bind (List.lookup name)).getD {}

/-- Classes ascend, and so do the analyses of each class. -/
def Sorted (tree : Tree) : Prop := Ascending tree ∧ ∀ branch ∈ tree, Ascending branch.2

variable {tree : Tree} {cls name k n : Text} {change : Leaf → Leaf}

theorem Sorted.empty : Sorted [] := ⟨.nil, by simp⟩

theorem Sorted.update (sorted : tree.Sorted) : (tree.update cls name change).Sorted :=
  ⟨ascending_alter sorted.1,
    forall_alter (ascending_alter .nil) (fun _ => ascending_alter) sorted.2⟩

theorem Sorted.branch (sorted : tree.Sorted) : Ascending ((tree.lookup cls).getD []) := by
  cases found : tree.lookup cls with
  | none => exact .nil
  | some leaves =>
    obtain ⟨_, _, split, _⟩ := List.lookup_eq_some_iff.mp found
    refine sorted.2 (cls, leaves) ?_
    rw [split]
    exact List.mem_append_right _ List.mem_cons_self

theorem leaf_eq : tree.leaf cls name = (((tree.lookup cls).getD []).lookup name).getD {} := by
  unfold leaf
  cases tree.lookup cls <;> rfl

theorem leaf_update (sorted : tree.Sorted) :
    (tree.update cls name change).leaf cls name = change (tree.leaf cls name) := by
  rw [leaf, update, lookup_alter sorted.1, Option.bind_some, lookup_alter sorted.branch, leaf_eq]
  rfl

theorem leaf_update_other (sorted : tree.Sorted) (other : k ≠ cls ∨ n ≠ name) :
    (tree.update cls name change).leaf k n = tree.leaf k n := by
  by_cases same : k = cls
  · subst same
    rw [leaf, update, lookup_alter sorted.1, Option.bind_some,
      lookup_alter_other (other.resolve_left (not_not.mpr rfl)), leaf_eq]
  · rw [leaf, update, lookup_alter_other same, leaf]

end Tree

/-- Files what a section shows. -/
def Tree.addContent (tree : Tree) (content : Text × List Finding) : Tree :=
  content.2.foldl (fun (tree : Tree) f =>
    tree.update f.pos.cls content.1 fun leaf => { leaf with findings := leaf.findings ++ [f] }) tree

/-- Files a failure. -/
def Tree.addFailure (tree : Tree) (f : Failed) : Tree :=
  tree.update f.cls f.name fun leaf => { leaf with error := f.failure.message }

theorem tree_eq (sections : List Section) (failures : List Failed) :
    tree sections failures =
      failures.foldl Tree.addFailure ((sections.map Section.content).foldl Tree.addContent []) := by
  rw [List.foldl_map]
  rfl

/-- Failures on different classes may arrive in any order. -/
theorem tree_of_perm (sections : List Section) {failures failures' : List Failed}
    (shuffled : failures.Perm failures') (distinct : (failures.map Failed.cls).Nodup) :
    tree sections failures = tree sections failures' := by
  rw [tree_eq, tree_eq]
  refine shuffled.foldl_eq' ?_ _
  intro x first y second tree
  by_cases same : x.cls = y.cls
  · rw [List.inj_on_of_nodup_map distinct first second same]
  · exact alter_comm (Ne.symm same) _ _ tree

/-- All findings of a tree have a property. -/
def Tree.All (P : Finding → Prop) (tree : Tree) : Prop :=
  ∀ branch ∈ tree, ∀ entry ∈ branch.2, ∀ f ∈ entry.2.findings, P f

theorem Tree.All.update {P : Finding → Prop} {tree : Tree} (all : tree.All P) {cls name : Text}
    {change : Leaf → Leaf}
    (kept : ∀ leaf : Leaf, (∀ f ∈ leaf.findings, P f) → ∀ f ∈ (change leaf).findings, P f) :
    (tree.update cls name change).All P := by
  have inner (leaves : List (Text × Leaf))
      (all : ∀ entry ∈ leaves, ∀ f ∈ entry.2.findings, P f) :
      ∀ entry ∈ alter {} change name leaves, ∀ f ∈ entry.2.findings, P f :=
    forall_alter (P := fun leaf : Leaf => ∀ f ∈ leaf.findings, P f) (kept {} (by simp)) kept all
  exact forall_alter
    (P := fun leaves : List (Text × Leaf) => ∀ entry ∈ leaves, ∀ f ∈ entry.2.findings, P f)
    (inner [] (by simp)) inner all

/-- What the findings of all sections have in common holds in the tree. -/
theorem tree_all {P : Finding → Prop} {sections : List Section} (failures : List Failed)
    (all : ∀ s ∈ sections, ∀ f ∈ s.sink.findings, P f) : (tree sections failures).All P := by
  rw [tree_eq]
  refine List.foldlRecOn failures _ ?_ fun tree all failed _ => all.update fun _ kept => kept
  refine List.foldlRecOn (sections.map Section.content) _ (by simp [Tree.All]) ?_
  intro tree before content shown
  obtain ⟨s, listed, rfl⟩ := List.mem_map.mp shown
  refine List.foldlRecOn s.sink.findings _ before fun tree before f found => before.update ?_
  intro leaf kept g member
  rcases List.mem_append.mp member with earlier | latest
  · exact kept g earlier
  · rw [List.mem_singleton.mp latest]
    exact all s listed f found

theorem isSome_mapM {α β : Type} {f : α → Option β} {l : List α} (all : ∀ x ∈ l, (f x).isSome) :
    (l.mapM f).isSome := by
  induction l with
  | nil => rfl
  | cons x rest ih =>
    obtain ⟨first, later⟩ := List.forall_mem_cons.mp all
    obtain ⟨y, first⟩ := Option.isSome_iff_exists.mp first
    obtain ⟨ys, later⟩ := Option.isSome_iff_exists.mp (ih later)
    rw [List.mapM_cons, first, later]
    rfl

theorem isSome_bind_pure {α β : Type} {found : Option α} {g : α → β} (given : found.isSome) :
    (do return g (← found)).isSome := by
  obtain ⟨a, rfl⟩ := Option.isSome_iff_exists.mp given
  rfl

/-- Only findings can keep a report from being written. -/
theorem Tree.isSome_json? {tree : Tree} (writable : tree.All fun f => (findingJson? f).isSome) :
    tree.json?.isSome := by
  refine isSome_bind_pure (isSome_mapM ?_)
  rintro ⟨cls, leaves⟩ listed
  refine isSome_bind_pure (isSome_mapM ?_)
  rintro ⟨name, leaf⟩ inside
  exact isSome_bind_pure (isSome_bind_pure (isSome_mapM (writable _ listed _ inside)))

end TraceLint.Report
