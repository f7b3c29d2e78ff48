import Mathlib.Data.List.Perm.Subperm
import Mathlib.Logic.Relation
import TraceLint.Hierarchy

/-! Subclass questions against plain reachability along super links. The links may hold cycles, and
a class may be recorded more than once: the walk is bounded, yet misses nothing that can be
reached. -/
namespace TraceLint

namespace Hierarchy

variable {h : Hierarchy} {cls ancestor : Text}

/-- An ancestor is met after zero or more recorded super links. -/
def Extends (h : Hierarchy) : Text → Text → Prop :=
  Relation.ReflTransGen fun cls super => h.super? cls = some super

/-- A walk along super links, with the classes that it leaves behind. -/
inductive Walk (h : Hierarchy) : List Text → Text → Text → Prop where
  | here (cls : Text) : Walk h [] cls cls
  | step {cls super ancestor : Text} {left : List Text} :
      h.super? cls = some super → Walk h left super ancestor → Walk h (cls :: left) cls ancestor

theorem Walk.recorded {left : List Text} (walk : Walk h left cls ancestor) :
    left ⊆ h.links.map Prod.fst := by
  induction walk with
  | here => exact List.nil_subset _
  | @step cls super ancestor left link _ ih =>
    obtain ⟨front, back, same, _⟩ := List.lookup_eq_some_iff.mp link
    refine List.cons_subset.mpr ⟨?_, ih⟩
    simp [same]

/-- A walk that comes back to a class may as well start there. -/
theorem Walk.restart {left : List Text} (walk : Walk h left cls ancestor) {again : Text}
    (met : again ∈ left) : ∃ rest, rest <:+ left ∧ Walk h rest again ancestor := by
  induction walk with
  | here => contradiction
  | @step cls super ancestor left link tail ih =>
    by_cases same : again = cls
    · subst same
      exact ⟨again :: left, List.suffix_rfl, .step link tail⟩
    · obtain ⟨rest, suffix, walk⟩ := ih (List.mem_of_ne_of_mem same met)
      exact ⟨rest, suffix.trans (List.suffix_cons cls left), walk⟩

theorem Extends.exists_simple (reached : h.Extends cls ancestor) :
    ∃ left, left.Nodup ∧ Walk h left cls ancestor := by
  induction reached using Relation.ReflTransGen.head_induction_on with
  | refl => exact ⟨[], List.nodup_nil, .here ancestor⟩
  | @head cls super link _ ih =>
    obtain ⟨left, simple, walk⟩ := ih
    -- If the rest of the walk comes back to this class, the part before that is a cycle and is left
    -- out.
    by_cases met : cls ∈ left
    · obtain ⟨rest, suffix, walk⟩ := walk.restart met
      exact ⟨rest, simple.sublist suffix.sublist, walk⟩
    · exact ⟨cls :: left, List.nodup_cons.mpr ⟨met, simple⟩, .step link walk⟩

theorem Walk.reaches {left : List Text} (walk : Walk h left cls ancestor) {steps : Nat}
    (enough : left.length ≤ steps) : h.reaches ancestor steps cls = true := by
  induction walk generalizing steps with
  | here cls => cases steps <;> simp [Hierarchy.reaches]
  | step link _ ih =>
    obtain ⟨n, rfl⟩ : ∃ n, steps = n + 1 := Nat.exists_eq_add_one.mpr (by simp at enough; omega)
    have rest := ih (Nat.le_of_succ_le_succ enough)
    simp [Hierarchy.reaches, link, rest]

theorem extends_of_reaches {steps : Nat} (reached : h.reaches ancestor steps cls = true) :
    h.Extends cls ancestor := by
  induction steps generalizing cls with
  | zero =>
    simp only [reaches, decide_eq_true_eq] at reached
    exact reached ▸ .refl
  | succ steps ih =>
    simp only [reaches, Bool.or_eq_true, decide_eq_true_eq] at reached
    rcases reached with same | further
    · exact same ▸ .refl
    · split at further
      · rename_i super link
        exact .head link (ih further)
      · contradiction

/-- As many steps as there are links find every ancestor, since a walk without repetitions leaves
each recorded class at most once. -/
theorem reaches_links_iff : h.reaches ancestor h.links.length cls = true ↔
    h.Extends cls ancestor := by
  constructor
  · exact extends_of_reaches
  · intro reached
    obtain ⟨left, simple, walk⟩ := reached.exists_simple
    have bound : left.length ≤ (h.links.map Prod.fst).length :=
      (simple.subperm walk.recorded).length_le
    exact walk.reaches (by simpa using bound)

theorem isSubclass_iff : h.isSubclass cls ancestor = true ↔ cls ≠ [] ∧ h.Extends cls ancestor := by
  simp [isSubclass, reaches_links_iff]

end Hierarchy

theorem Descriptor.FieldType.className_iff {t : Descriptor.FieldType} {name : Text}
    (named : name ≠ []) :
    className t = name ↔ t = byte 'L' :: name ++ [byte ';'] := by
  constructor
  · intro same
    cases t with
    | nil => exact absurd same.symm named
    | cons first rest =>
      rw [className] at same
      split at same
      · rename_i shape
        simp only [Bool.and_eq_true, decide_eq_true_eq, beq_iff_eq] at shape
        obtain ⟨⟨_, rfl⟩, final⟩ := shape
        rw [← same, List.cons_append, List.dropLast_append_getLast? _ final]
      · exact absurd same.symm named
  · rintro rfl
    have size : 1 ≤ name.length := List.length_pos_iff.mpr named
    simp [className, size]

namespace Hierarchy

variable {h : Hierarchy} {slot : Stack.Slot}

/-- The static type of a slot is a class, with a name that is not empty, from which the throwables
are reached. -/
def HoldsThrowable (h : Hierarchy) (slot : Stack.Slot) : Prop :=
  ∃ name, name ≠ [] ∧ slot.signature = byte 'L' :: name ++ [byte ';'] ∧
    h.Extends name throwableClass

theorem isThrowable_iff : h.isThrowable (some slot) = true ↔ h.HoldsThrowable slot := by
  rw [isThrowable, isSubclass_iff]
  constructor
  · rintro ⟨named, reached⟩
    exact ⟨_, named, (Descriptor.FieldType.className_iff named).mp rfl, reached⟩
  · rintro ⟨name, named, signature, reached⟩
    rw [(Descriptor.FieldType.className_iff named).mpr signature]
    exact ⟨named, reached⟩

instance (h : Hierarchy) (slot : Stack.Slot) : Decidable (h.HoldsThrowable slot) :=
  decidable_of_iff _ isThrowable_iff

end Hierarchy

end TraceLint
